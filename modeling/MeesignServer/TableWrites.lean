import MeesignServer.ServerInvariant

/-!
# Writes keep the tables well formed

One lemma for each write of the repository, with what its callers owe.
-/
namespace TableWrites

open FiniteMap DataModel ProtocolModel VotingModel DatabaseModel ServerModel
open ActiveShares TableFrames ServerInvariant

variable {db db' : Database} {id : Uuid} {row : TaskRow}

theorem findDevice_id {d : Bytes} {device : Device} (h : db.findDevice d = some device) :
    device.id = d := by
  simpa using List.find?_some h

theorem mem_getTaskParticipants {p : Participant} : p ∈ db.getTaskParticipants id ↔
    ∃ r ∈ db.taskParticipant id, db.findDevice r.deviceId = some p.device ∧
      p.shares = asU32 r.shares := by
  simp only [Database.getTaskParticipants, List.mem_filterMap, Option.map_eq_some_iff]
  constructor
  · rintro ⟨r, hr, device, hd, rfl⟩
    exact ⟨r, hr, hd, rfl⟩
  · rintro ⟨r, hr, hd, hs⟩
    exact ⟨r, hr, p.device, hd, by rw [← hs]⟩

theorem shares_of_row {r : TaskParticipantRow} (hc : Constraints db)
    (hr : r ∈ db.taskParticipant id) : (asU32 r.shares : ℤ) = r.shares := by
  have := hc.task_shares id r hr
  unfold asU32 maxI32 at *
  omega

theorem shares_le {p : Participant} (hc : Constraints db) (hp : p ∈ db.getTaskParticipants id) :
    p.shares ≤ maxI32 := by
  obtain ⟨r, hr, -, hs⟩ := mem_getTaskParticipants.mp hp
  have h₁ := shares_of_row hc hr
  have h₂ := hc.task_shares id r hr
  omega

theorem ids_getTaskParticipants (hc : Constraints db) :
    ids (db.getTaskParticipants id) = (db.taskParticipant id).map (·.deviceId) := by
  have : ∀ rows : List TaskParticipantRow, (∀ r ∈ rows, (db.findDevice r.deviceId).isSome) →
      (rows.filterMap fun r => (db.findDevice r.deviceId).map fun device =>
        (⟨device, asU32 r.shares⟩ : Participant)).map (fun p => p.device.id) =
      rows.map (·.deviceId) := by
    intro rows hrows
    induction rows with
    | nil => rfl
    | cons r rows ih =>
      obtain ⟨device, hd⟩ := Option.isSome_iff_exists.mp (hrows r (by simp))
      rw [List.filterMap_cons_some (by rw [hd]; rfl), List.map_cons, List.map_cons,
        ih fun r' hr' => hrows r' (by simp [hr']), findDevice_id hd]
  exact this _ (hc.task_device id)

theorem tables_setTaskDecision (h : Tables db) (id : Uuid) (d : Bytes) (accept : Bool) :
    Tables (db.setTaskDecision id d accept) := by
  have w := writesTask_setTaskDecision db id d accept
  refine h.write w fun row hrow => ?_
  exact (h.rows id row hrow).mono w.toExtends (mem_of_row hrow) rfl rfl

theorem tables_setTaskAcknowledgement (h : Tables db) (id : Uuid) (d : Bytes) :
    Tables (db.setTaskAcknowledgement id d) := by
  have w := writesTask_setTaskAcknowledgement db id d
  refine h.write w fun row hrow => ?_
  exact (h.rows id row hrow).mono w.toExtends (mem_of_row hrow) rfl rfl

theorem tables_setRow (h : Tables db) (hrow : db.task.lookup id = some row)
    (f : TaskRow → TaskRow) (hf : ∀ row, fixed (f row) = fixed row)
    (hcert : (f row).groupCertificatesSent.isSome ↔ row.taskType = .group)
    (hfirst : (f row).groupCertificatesSent = some false → (f row).protocolRound = 0)
    (hstart : Started (f row) → db.activeTaskParticipant id ≠ ∅ ∧ (row.taskType = .group →
      Supported row.protocolType row.keyType ∧ row.protocolType.checkThreshold
        (asU32 row.threshold) (totalShares (db.getTaskParticipants id)))) :
    Tables { db with task := db.task.insert id (f row) } := by
  have w := writesTask_modify f hf hrow
  have htype : (f row).taskType = row.taskType := fixed_congr (hf row) TaskRow.taskType fun _ => rfl
  have hprot : (f row).protocolType = row.protocolType :=
    fixed_congr (hf row) TaskRow.protocolType fun _ => rfl
  have hkey : (f row).keyType = row.keyType := fixed_congr (hf row) TaskRow.keyType fun _ => rfl
  have hthr : (f row).threshold = row.threshold :=
    fixed_congr (hf row) TaskRow.threshold fun _ => rfl
  refine h.write w fun row' hrow' => ?_
  simp only [AList.lookup_insert, Option.some.injEq] at hrow'
  subst hrow'
  have hr := h.rows id row hrow
  exact {
    active := hr.active
    enough := by
      have := hr.enough
      simp only [acceptThreshold, htype, hthr] at this ⊢
      exact this
    certificates := by rw [hcert, htype]
    certificates_first := hfirst
    started_active := fun hs => (hstart hs).1
    started_group := fun hs ht => by
      rw [hprot, hkey, hthr]
      exact (hstart hs).2 (htype ▸ ht)
    result := fun r hres => by
      rw [htype, hprot]
      exact hr.result r hres }

theorem tables_setTaskRound {round : ℕ} (h : Tables db) (hrow : db.task.lookup id = some row)
    (hw : db.setTaskRound id round = .ok db')
    (hfirst : row.groupCertificatesSent = some false → round = 0)
    (hactive : db.activeTaskParticipant id ≠ ∅)
    (hgroup : row.taskType = .group → Supported row.protocolType row.keyType ∧
      row.protocolType.checkThreshold (asU32 row.threshold)
        (totalShares (db.getTaskParticipants id))) : Tables db' := by
  obtain ⟨row', hrow', rfl⟩ := setTaskRound_ok hw
  rw [hrow] at hrow'
  cases hrow'
  exact tables_setRow h hrow (fun row => { row with protocolRound := round }) (fun _ => rfl)
    (h.rows id row hrow).certificates hfirst fun _ => ⟨hactive, hgroup⟩

theorem tables_incrementTaskAttemptCount (h : Tables db)
    (hw : db.incrementTaskAttemptCount id = .ok db') : Tables db' := by
  obtain ⟨row, hrow, -, rfl⟩ := incrementTaskAttemptCount_ok hw
  have hr := h.rows id row hrow
  exact tables_setRow h hrow (fun row => { row with attemptCount := row.attemptCount + 1 })
    (fun _ => rfl) hr.certificates hr.certificates_first
    fun hs => ⟨hr.started_active hs, hr.started_group hs⟩

theorem tables_setTaskGroupCertificatesSent (h : Tables db)
    (hrow : db.task.lookup id = some row) (ht : row.taskType = .group)
    (hactive : db.activeTaskParticipant id ≠ ∅)
    (hgroup : Supported row.protocolType row.keyType ∧ row.protocolType.checkThreshold
      (asU32 row.threshold) (totalShares (db.getTaskParticipants id))) :
    Tables (db.setTaskGroupCertificatesSent id (some true)) := by
  rw [Database.setTaskGroupCertificatesSent, modifyTask_of_row hrow]
  exact tables_setRow h hrow (fun row => { row with groupCertificatesSent := some true })
    (fun _ => rfl) (by simp [ht]) (fun hnone => by cases hnone) fun _ => ⟨hactive, fun _ => hgroup⟩

theorem tables_setTaskResult {result : Except String Bytes} (h : Tables db)
    (hrow : db.task.lookup id = some row) (hw : db.setTaskResult id result = .ok db')
    (hresult : row.taskType = .group → ∀ groupId, result = .ok groupId → ∃ group,
      db.getGroup groupId = some group ∧ group.protocol = row.protocolType ∧
      db.getGroupParticipants groupId = db.getTaskParticipants id) : Tables db' := by
  have w := writesTask_setTaskResult hw
  obtain ⟨hid, rfl⟩ := setTaskResult_ok hw
  refine h.write w fun row' hrow' => ?_
  rw [hrow] at hrow'
  cases hrow'
  have hr := h.rows id row hrow
  refine { hr with result := fun r hres => ?_ }
  simp only [Function.update_self, Option.some.injEq] at hres
  exact ⟨result, hres.symm, hresult⟩

theorem lookup_countDevices (chosen : List Device) (d : Bytes) :
    (countDevices chosen).lookup d = if d ∈ chosen.map Device.id then
      some (chosen.countP (fun device => device.id = d)) else none := by
  rw [countDevices, lookup_counts, List.countP_map]
  by_cases h : d ∈ chosen.map Device.id <;> simp only [h, ↓reduceIte, Function.comp_def]

theorem count_pos {chosen : List Device} {d : Bytes} (h : d ∈ chosen.map Device.id) :
    0 < chosen.countP (fun device => device.id = d) := by
  obtain ⟨device, hd, rfl⟩ := List.mem_map.mp h
  exact List.countP_pos_iff.mpr ⟨device, hd, by simp⟩

theorem count_eq_zero {chosen : List Device} {d : Bytes} (h : d ∉ chosen.map Device.id) :
    chosen.countP (fun device => device.id = d) = 0 := by
  rw [List.countP_eq_zero]
  intro device hd hid
  exact h (List.mem_map.mpr ⟨device, hd, of_decide_eq_true hid⟩)

theorem tables_setTaskActiveShares {chosen : List Device} (h : Tables db)
    (hrow : db.task.lookup id = some row) (hc : Choice (db.getTaskParticipants id) chosen)
    (hlen : acceptThreshold row (db.getTaskParticipants id) ≤ chosen.length)
    (hw : db.setTaskActiveShares id (countDevices chosen) = .ok db') : Tables db' := by
  have w := writesTask_setTaskActiveShares (mem_of_row hrow) hw
  obtain ⟨-, rfl⟩ := setTaskActiveShares_ok hw
  have hr := h.rows id row hrow
  have hf := h.fixed id row hrow
  -- the new rows are those of the choice where there was none
  have hnew : ∀ {d : Bytes}, d ∉ db.activeTaskParticipant id →
      (db.activeTaskParticipant id ∪ mapValues asI32 (countDevices chosen)).lookup d =
        ((countDevices chosen).lookup d).map asI32 := fun hd => by
    rw [AList.lookup_union_right hd, lookup_mapValues]
  have hold : ∀ {d : Bytes}, d ∈ db.activeTaskParticipant id →
      (db.activeTaskParticipant id ∪ mapValues asI32 (countDevices chosen)).lookup d =
        (db.activeTaskParticipant id).lookup d := fun hd => AList.lookup_union_left hd
  refine h.write w fun row' hrow' => ?_
  rw [hrow] at hrow'
  cases hrow'
  refine { hr with active := ?_, enough := ?_, started_active := ?_ }
  · intro d n hn
    simp only [Function.update_self] at hn
    by_cases hd : d ∈ db.activeTaskParticipant id
    · rw [hold hd] at hn
      exact hr.active d n hn
    · rw [hnew hd, Option.map_eq_some_iff] at hn
      obtain ⟨c, hc', rfl⟩ := hn
      rw [lookup_countDevices] at hc'
      split_ifs at hc' with hmem
      cases hc'
      obtain ⟨device, hdev, rfl⟩ := List.mem_map.mp hmem
      obtain ⟨p, hp, rfl⟩ := hc.mem device hdev
      have hle := hc.count p hp
      have hmax := shares_le h.constraints hp
      have hpos := count_pos hmem
      refine ⟨p, hp, rfl, ?_⟩
      rw [asI32_of_le (by omega)]
      omega
  · right
    simp only [activeTotal, Database.getTaskActiveShares, Function.update_self, lookup_mapValues]
    rcases hr.enough with he | he
    · rw [he, AList.empty_union]
      refine hlen.trans (le_of_eq ?_)
      rw [IndexBlocks.length_eq_sum_countP Device.id hf.distinct, ids, List.map_map]
      · refine congrArg List.sum (List.map_congr_left fun p hp => ?_)
        have hle := hc.count p hp
        have hmax := shares_le h.constraints hp
        rw [Function.comp_apply, lookup_mapValues, lookup_countDevices]
        split_ifs with hmem
        · rw [Option.map_some, Option.map_some, Option.getD_some, asU32_asI32 (by omega)]
        · exact count_eq_zero hmem
      · intro device hdev
        obtain ⟨p, hp, rfl⟩ := hc.mem device hdev
        exact List.mem_map.mpr ⟨p, hp, rfl⟩
    · refine he.trans (List.sum_le_sum fun p hp => ?_)
      rw [Database.getTaskActiveShares, lookup_mapValues]
      by_cases hd : p.device.id ∈ db.activeTaskParticipant id
      · rw [hold hd]
      · rw [AList.lookup_eq_none.mpr hd]
        exact Nat.zero_le _
  · intro hs he
    refine hr.started_active hs ?_
    simp only [Function.update_self] at he
    have : (db.activeTaskParticipant id).entries = [] := by
      rw [List.eq_nil_iff_forall_not_mem]
      rintro ⟨d, n⟩ hmem
      have hn := mem_entries_iff.mp hmem
      have hd : d ∈ db.activeTaskParticipant id := AList.lookup_isSome.mp (by simp [hn])
      have := hold hd
      rw [he, hn] at this
      simp at this
    exact AList.ext this

theorem extend_rows (h : Tables db) (hx : Extends db db') {j : Uuid} {row : TaskRow}
    (hs : SameTask db db' j) (hrow : db'.task.lookup j = some row) :
    TaskFixed db' j (fixed row) ∧ TaskRows db' j row := by
  rw [hs.task] at hrow
  have hj := mem_of_row hrow
  exact ⟨(h.fixed j row hrow).mono hx hj, (h.rows j row hrow).mono hx hj hs.active hs.result⟩

theorem tables_addDevice {device : Device} (h : Tables db) (hw : db.addDevice device = .ok db') :
    Tables db' := by
  have hx := extends_addDevice h.constraints hw
  have hc := constraints_addDevice h.constraints hw
  have hs := sameTask_addDevice hw
  obtain ⟨-, rfl⟩ := addDevice_ok hw
  refine ⟨hc, fun id row hrow => (extend_rows h hx (hs id) hrow).1,
    fun id row hrow => (extend_rows h hx (hs id) hrow).2, fun groupId group hg => ?_⟩
  exact (h.group groupId group hg).mono (hx.group groupId group hg).2

theorem sameTask_withGroup (db : Database) (id j : Uuid) (g : GroupRow) :
    SameTask db (withGroup db id g) j := ⟨rfl, rfl, rfl, rfl⟩

theorem tables_withGroup {g : GroupRow} (h : Tables db) (hrow : db.task.lookup id = some row)
    (hnew : db.getGroup g.id = none) (hg : g.threshold = row.threshold)
    (hshares : ∀ p ∈ db.getTaskParticipants id, p.shares ≤ 127)
    (hsup : Supported g.protocol g.keyType) (hcert : g.certificate.isSome ↔ g.protocol = .gg18)
    (hcheck : g.protocol.checkThreshold (asU32 row.threshold)
      (totalShares (db.getTaskParticipants id))) : Tables (withGroup db id g) := by
  have hx : Extends db (withGroup db id g) := extends_withGroup id hnew
  have hc : Constraints (withGroup db id g) := constraints_withGroup id h.constraints hnew
  have hs := sameTask_withGroup db id
  have hf := h.fixed id row hrow
  refine ⟨hc, fun j row hrow => (extend_rows h hx (hs j g) hrow).1,
    fun j row hrow => (extend_rows h hx (hs j g) hrow).2, fun groupId group hgroup => ?_⟩
  by_cases hid : groupId = g.id
  · subst hid
    obtain ⟨⟨shares, hself⟩, hps⟩ :=
      getGroup_withGroup_self id h.constraints hnew
    rw [hself] at hgroup
    cases hgroup
    exact {
      supported := hsup
      threshold := by
        rw [hps, GroupRow.toGroup, hg]
        exact hcheck
      positive := by
        rw [GroupRow.toGroup, hg]
        exact hf.threshold
      nonempty := hps ▸ hf.nonempty
      distinct := hps ▸ hf.distinct
      shares := hps ▸ fun p hp => ⟨hf.positive p hp, hshares p hp⟩
      total := hps ▸ hf.total
      certificate := hcert }
  · obtain ⟨hgetGroup, hps⟩ := getGroup_withGroup_of_ne id db hid
    rw [hgetGroup] at hgroup
    exact (h.group groupId group hgroup).mono hps

theorem tables_insertTask {participants : List (Bytes × ℕ)} (h : Tables db)
    (hw : db.insertTask id row participants = .ok db')
    (hcert : row.groupCertificatesSent = if row.taskType = .group then some false else none)
    (hround : row.protocolRound = 0) (hf : TaskFixed db' id (fixed row)) : Tables db' := by
  obtain ⟨hx, hs, hc⟩ := insertTask_frame h.constraints hw
  obtain ⟨hid, -, -, rfl⟩ := insertTask_ok hw
  obtain ⟨-, hres, hact⟩ := h.constraints.orphan id hid
  have hstart : ¬ Started row := by
    rintro (hs | hs)
    · rw [hcert] at hs
      split_ifs at hs
      simp at hs
    · omega
  refine ⟨hc, fun j row' hrow' => ?_, fun j row' hrow' => ?_, fun groupId group hg => ?_⟩
  · by_cases hj : j = id
    · subst hj
      simp only [AList.lookup_insert, Option.some.injEq] at hrow'
      exact hrow' ▸ hf
    · exact (extend_rows h hx (hs j hj) hrow').1
  · by_cases hj : j = id
    · subst hj
      simp only [AList.lookup_insert, Option.some.injEq] at hrow'
      subst hrow'
      exact {
        active := by simp [hact]
        enough := .inl hact
        certificates := by rw [hcert]; split_ifs with ht <;> simp [ht]
        certificates_first := fun _ => hround
        started_active := fun hs => absurd hs hstart
        started_group := fun hs => absurd hs hstart
        result := by simp [hres] }
    · exact (extend_rows h hx (hs j hj) hrow').2
  · exact (h.group groupId group hg).mono (hx.group groupId group hg).2

end TableWrites

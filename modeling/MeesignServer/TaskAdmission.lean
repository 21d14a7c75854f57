import MeesignServer.InvariantSteps

/-!
# New tasks

A request that is admitted leaves well-formed rows and a voting task that
belongs to them.
-/
namespace TaskAdmission

open FallibleProgram FiniteMap DataModel ProtocolModel VotingModel RunningTaskModel
open DatabaseModel HydrationModel ServerModel ServerOutcomes
open ActiveShares VoteTally TableFrames ServerInvariant TableWrites HydrationOutcomes
open InvariantSteps

inductive Admitted [External] (env : Env) (s : Server) : VotingTask → Prop where
  | group {name : String} {deviceIds : GroupDevices} {threshold : ℕ} {protocolType : ProtocolType}
      {keyType : KeyType} {note : Option String} : Admitted env s
        (newGroupTask env s name deviceIds threshold protocolType keyType note)
  | threshold {groupId : Bytes} {group : Group} {name : String} {data request : Bytes}
      {observers : List Bytes} {context : RunningTaskContext}
      (found : s.db.getGroup groupId = some group)
      (context_of : votingContext (taskTypeOf group.keyType) group data = .ok context) :
      Admitted env s (newThresholdTask env group (s.db.getGroupParticipants groupId) name
        (taskTypeOf group.keyType) observers request context)

def idsShares (ps : List Participant) : List (Bytes × ℕ) := ps.map fun p => (p.device.id, p.shares)

def createdRow (v : VotingTask) : TaskRow :=
  let info := v.taskInfo
  let thresholdRow (group : Group) (taskType : TaskType) (data : Bytes) :=
    Database.newTaskRow group.id taskType info.name data info.request (asU32 group.threshold)
      info.keyType info.protocolType
  match v.runningTaskContext with
  | .group threshold note => Database.newGroupTaskRow threshold info.name info.keyType
      info.protocolType info.request note
  | .signChallenge group data => thresholdRow group .signChallenge data
  | .signPdf group data => thresholdRow group .signPdf data
  | .decrypt group data => thresholdRow group .decrypt data

/-- What `create_group_task` checks of a threshold. -/
def ThresholdChecked (v : VotingTask) : Prop :=
  match v.runningTaskContext with
  | .group threshold _ => 1 ≤ threshold ∧ threshold ≤ v.taskInfo.totalShares ∧ threshold ≤ maxI32
  | _ => True

variable {env : Env} {s : Server} {db db' : Database} {v : VotingTask}

theorem createTask_ok {id : Uuid} {groupId : Bytes} {taskType : TaskType} {name : String}
    {participants : List (Bytes × ℕ)} {taskData request : Bytes} {threshold : ℕ}
    {keyType : KeyType} {protocolType : ProtocolType}
    (h : db.createTask id groupId taskType name participants taskData request threshold keyType
      protocolType = .ok db') : isNameValid name ∧ db.insertTask id (Database.newTaskRow groupId
        taskType name taskData request threshold keyType protocolType) participants = .ok db' := by
  unfold Database.createTask at h
  split_ifs at h with hname
  exact ⟨by simpa using hname, h⟩

theorem createRows_ok (h : createRows v db = .ok db') : isNameValid v.taskInfo.name ∧
    ThresholdChecked v ∧
    db.insertTask v.taskInfo.id (createdRow v) (idsShares v.taskInfo.participants) = .ok db' := by
  unfold createRows at h
  unfold ThresholdChecked createdRow
  cases hc : v.runningTaskContext with
  | group threshold note =>
    simp only [hc, Database.createGroupTask] at h
    split_ifs at h with hname hthr hmax
    simp only [Bool.not_eq_true', Bool.and_eq_false_iff, decide_eq_false_iff_not, not_or, not_not,
      List.map_map] at hthr
    exact ⟨by simpa using hname, ⟨hthr.1, hthr.2, not_lt.mp hmax⟩, h⟩
  | signChallenge group data | signPdf group data | decrypt group data =>
    simp only [hc] at h
    obtain ⟨hname, hins⟩ := createTask_ok h
    exact ⟨hname, trivial, hins⟩

theorem createRows_new {id : Uuid} (h : createRows v db = .ok db') (hid : id ∈ db.task) :
    id ≠ v.taskInfo.id := by
  rintro rfl
  obtain ⟨-, -, hins⟩ := createRows_ok h
  exact (insertTask_ok hins).1 hid

theorem createdRow_type : (createdRow v).groupCertificatesSent =
    (if (createdRow v).taskType = .group then some false else none) ∧
    (createdRow v).protocolRound = 0 ∧ (createdRow v).attemptCount = 0 := by
  unfold createdRow
  cases v.runningTaskContext <;> exact ⟨rfl, rfl, rfl⟩

theorem getTaskParticipants_created {id : Uuid} {row : TaskRow} {ps : List Participant}
    (hknown : ∀ p ∈ ps, db.findDevice p.device.id = some p.device)
    (hlt : ∀ p ∈ ps, p.shares < 2 ^ 32)
    (h : db.insertTask id row (idsShares ps) = .ok db') :
    db'.getTaskParticipants id = ps ∧ (ids ps).Nodup ∧ (∀ p ∈ ps, 0 < p.shares) := by
  obtain ⟨-, -, ⟨hn, hins⟩, rfl⟩ := insertTask_ok h
  have hshares : ∀ p ∈ ps, 0 < p.shares ∧ p.shares ≤ maxI32 := fun p hp =>
    (asI32_pos_iff (hlt p hp)).mp (hins _ (List.mem_map.mpr ⟨p, hp, rfl⟩)).2
  refine ⟨?_, ?_, fun p hp => (hshares p hp).1⟩
  · have hread : ∀ qs : List Participant, qs ⊆ ps →
        ((idsShares qs).map Database.newTaskParticipant).filterMap (fun r =>
          (db.findDevice r.deviceId).map fun device => (⟨device, asU32 r.shares⟩ : Participant)) =
        qs := by
      intro qs
      induction qs with
      | nil => intro _; rfl
      | cons q qs ih =>
        intro hsub
        have hq : q ∈ ps := hsub (by simp)
        rw [idsShares, List.map_cons, List.map_cons, List.filterMap_cons_some (b := q),
          ← idsShares, ih fun p hp => hsub (by simp [hp])]
        simp only [Database.newTaskParticipant, hknown q hq, Option.map_some,
          asU32_asI32 (hshares q hq).2]
    simp only [Database.getTaskParticipants, Function.update_self]
    exact hread ps (List.Subset.refl ps)
  · rw [idsShares, List.map_map] at hn
    exact hn

theorem lookup_countShares {l : List Bytes} {d : Bytes} (h : d ∈ l) :
    (countShares l).lookup d = some (l.countP (· = d)) := by
  rw [countShares, lookup_counts, if_pos h]

theorem mem_keys_countShares {l : List Bytes} {d : Bytes} (h : d ∈ (countShares l).keys) :
    d ∈ l := by
  have hs := AList.lookup_isSome.mpr (AList.mem_keys.mpr h)
  by_contra hd
  rw [countShares, lookup_counts, if_neg hd] at hs
  cases hs

theorem known_groupParticipants (h : Invariant s) (shares : Map Bytes ℕ) :
    ∀ p ∈ groupParticipants s shares, s.db.findDevice p.device.id = some p.device := by
  intro p hp
  simp only [groupParticipants, List.mem_map, List.mem_filterMap] at hp
  obtain ⟨device, ⟨k, -, hd⟩, rfl⟩ := hp
  rw [h.devices] at hd
  rw [findDevice_id hd, hd]

/-- Devices that are not known are dropped with their shares, so the rest is no more. -/
theorem totalShares_groupParticipants (h : Invariant s) (l : List Bytes) :
    totalShares (groupParticipants s (countShares l)) ≤ l.length := by
  have hsum : ∀ ks : List Bytes, ks ⊆ (countShares l).keys →
      totalShares ((ks.filterMap s.devices).map fun device =>
        (⟨device, ((countShares l).lookup device.id).getD 0⟩ : Participant)) ≤
      (ks.map fun k => l.countP (fun a => a = k)).sum := by
    intro ks
    induction ks with
    | nil => intro _; exact le_rfl
    | cons k ks ih =>
      intro hsub
      have ih := ih fun k' hk' => hsub (by simp [hk'])
      cases hd : s.devices k with
      | none =>
        rw [List.filterMap_cons_none hd, List.map_cons, List.sum_cons]
        omega
      | some device =>
        have hid : device.id = k := findDevice_id (h.devices ▸ hd)
        rw [List.filterMap_cons_some hd, List.map_cons, List.map_cons, List.sum_cons, hid,
          lookup_countShares (mem_keys_countShares (hsub (by simp)))]
        simpa [totalShares] using ih
  refine (hsum _ (List.Subset.refl _)).trans (le_of_eq ?_)
  refine (IndexBlocks.length_eq_sum_countP id (countShares l).keys_nodup fun k hk => ?_).symm
  rw [← AList.mem_keys, ← AList.lookup_isSome, id, lookup_countShares hk]
  rfl

theorem known_getGroupParticipants {groupId : Bytes} :
    ∀ p ∈ db.getGroupParticipants groupId, db.findDevice p.device.id = some p.device := by
  intro p hp
  simp only [Database.getGroupParticipants, List.mem_filterMap, Option.map_eq_some_iff] at hp
  obtain ⟨r, -, device, hd, rfl⟩ := hp
  rw [findDevice_id hd, hd]

theorem shares_le_total {ps : List Participant} {p : Participant} (hp : p ∈ ps) :
    p.shares ≤ totalShares ps :=
  List.single_le_sum (by simp) _ (List.mem_map.mpr ⟨p, hp, rfl⟩)

variable [External]

theorem admitted_participants (h : Invariant s) (ha : Admitted env s v) :
    (∀ p ∈ v.taskInfo.participants, s.db.findDevice p.device.id = some p.device) ∧
      v.taskInfo.totalShares < 2 ^ 32 := by
  cases ha with
  | @group _ deviceIds =>
    exact ⟨known_groupParticipants h _,
      lt_of_le_of_lt (totalShares_groupParticipants h _) deviceIds.fits⟩
  | threshold found _ => exact ⟨known_getGroupParticipants, (h.tables.group _ _ found).total⟩

omit [External] in
theorem newTaskRow_threshold (groupId : Bytes) (taskType : TaskType) (name : String)
    (taskData request : Bytes) (threshold : ℕ) (keyType : KeyType) (protocolType : ProtocolType) :
    (fixed (Database.newTaskRow groupId taskType name taskData request threshold keyType
      protocolType)).threshold = asI32 threshold := by
  simp only [fixed, Database.newTaskRow]

theorem admitted_fixed (h : Invariant s) (ha : Admitted env s v)
    (hw : createRows v s.db = .ok db') : TaskFixed db' v.taskInfo.id (fixed (createdRow v)) ∧
      VotingOf db' v.taskInfo.id (fixed (createdRow v)) (db'.getTaskParticipants v.taskInfo.id)
        v := by
  obtain ⟨-, hthr, hins⟩ := createRows_ok hw
  obtain ⟨hknown, htotal⟩ := admitted_participants h ha
  obtain ⟨hps, hn, hpos⟩ := getTaskParticipants_created hknown
    (fun p hp => lt_of_le_of_lt (shares_le_total hp) htotal) hins
  obtain ⟨hx, -, -⟩ := insertTask_frame h.tables.constraints hins
  rw [hps]
  cases ha with
  | @group name deviceIds threshold protocolType keyType note =>
    obtain ⟨h1, h2, h3⟩ := hthr
    have hne : groupParticipants s (countShares deviceIds.ids) ≠ [] := by
      intro he
      simp only [newGroupTask, TaskInfo.totalShares, he, totalShares] at h2
      simp at h2
      omega
    refine ⟨⟨hps ▸ hne, hps ▸ hn, hps ▸ hpos, hps ▸ htotal, ⟨?_, ?_⟩, fun ht => absurd rfl ht⟩,
      ⟨⟨rfl, rfl, rfl, rfl, rfl, rfl, .refl _⟩, rfl, ⟨rfl, ?_, rfl⟩, ballots_empty _⟩⟩
    · exact Int.natCast_pos.mpr h1
    · exact Int.ofNat_le.mpr h3
    · exact (asU32_natCast h3).symm
  | @threshold groupId group name data request observers context found context_of =>
    have hg := h.tables.group groupId group found
    obtain ⟨hfound, hgp⟩ := hx.group groupId group found
    have hgid : group.id = groupId := getGroup_id found
    have hround : asI32 (asU32 group.threshold) = group.threshold := by
      obtain ⟨h1, h2⟩ := hg.positive
      lift group.threshold to ℕ using h1.le with n hn'
      rw [asU32_natCast (by omega), asI32_of_le (by omega)]
    have hrow : ∀ taskType, taskType = taskTypeOf group.keyType →
        OnGroup db' env.newUuid (fixed (Database.newTaskRow group.id taskType name data request
          (asU32 group.threshold) group.keyType group.protocol)) groupId group data := by
      rintro _ rfl
      refine ⟨congrArg some hgid, hfound, rfl, ?_, rfl, rfl, rfl, hps.trans hgp.symm⟩
      rw [newTaskRow_threshold, hround]
    have hposthr : 0 < asI32 (asU32 group.threshold) ∧
        asI32 (asU32 group.threshold) ≤ maxI32 := by
      rw [hround]
      exact hg.positive
    have hu : asU32 (asI32 (asU32 group.threshold)) = asU32 group.threshold := by rw [hround]
    have hctx : ∃ groupId', some group.id = some groupId' ∧ db'.getGroup groupId' = some group :=
      ⟨groupId, congrArg some hgid, hfound⟩
    cases hk : group.keyType with
    | signPdf | signChallenge | decrypt =>
      rw [hk] at context_of
      cases context_of
      have hog := hrow _ rfl
      simp only [hk, taskTypeOf] at hog
      refine ⟨⟨hps ▸ hg.nonempty, hps ▸ hg.distinct, hps ▸ fun p hp => (hg.shares p hp).1,
        hps ▸ hg.total, ?_, fun _ => ⟨groupId, group, data, ?_⟩⟩,
        ⟨⟨rfl, rfl, ?_, rfl, ?_, rfl, .refl _⟩, ?_, ⟨rfl, rfl, hctx⟩, ballots_empty _⟩⟩
      · rw [createdRow, newThresholdTask, newTaskRow_threshold]
        exact hposthr
      · simpa only [createdRow, newThresholdTask, hk] using hog
      · simp only [newThresholdTask, createdRow, hk, taskTypeOf]
        rfl
      · rfl
      · rw [acceptThreshold, if_neg (fun htype => by cases htype),
          createdRow, newThresholdTask, newTaskRow_threshold, hu]

theorem admitted_sound (h : Invariant s) (ha : Admitted env s v)
    (hw : createRows v s.db = .ok db') : Sound v.taskInfo.id s.db db' (.voting v) := by
  obtain ⟨-, -, hins⟩ := createRows_ok hw
  obtain ⟨hfix, hvot⟩ := admitted_fixed h ha hw
  obtain ⟨hx, hothers, -⟩ := insertTask_frame h.tables.constraints hins
  obtain ⟨hcert, hround, -⟩ := createdRow_type (v := v)
  refine ⟨tables_insertTask h.tables hins hcert hround hfix, hx, hothers, ?_, createdRow v, ?_,
    .voting hvot⟩
  · obtain ⟨-, -, -, rfl⟩ := insertTask_ok hins
    rfl
  · obtain ⟨-, -, -, rfl⟩ := insertTask_ok hins
    exact AList.lookup_insert _

end TaskAdmission

import MeesignServer.TableWrites

/-!
# What hydration makes of well-formed tables

The exits of `hydrate_tasks` for one task, and the invariant of the task that it
returns.
-/
namespace HydrationOutcomes

open FiniteMap DataModel CommunicatorModel ProtocolModel VotingModel RunningTaskModel
open DatabaseModel HydrationModel ServerModel TaskOutcomes
open ActiveShares VoteTally TableFrames ServerInvariant TableWrites

variable {db : Database} {id : Uuid} {row : TaskRow}

theorem rows_distinct (h : Tables db) (hrow : db.task.lookup id = some row) :
    ((db.taskParticipant id).map (·.deviceId)).Nodup :=
  ids_getTaskParticipants h.constraints ▸ (h.fixed id row hrow).distinct

theorem lookup_getTaskDecisions (h : Tables db) (hrow : db.task.lookup id = some row)
    {r : TaskParticipantRow} (hr : r ∈ db.taskParticipant id) :
    (db.getTaskDecisions id).lookup r.deviceId = some r.vote := by
  refine lookup_extend_of_mem ?_ (List.mem_map.mpr ⟨r, hr, rfl⟩)
  rw [List.map_map]
  exact rows_distinct h hrow

theorem mem_getTaskDecisions {d : Bytes} (hd : d ∈ db.getTaskDecisions id) :
    ∃ r ∈ db.taskParticipant id, r.deviceId = d := by
  rcases mem_extend.mp hd with hd | hd
  · simp at hd
  · simpa using hd

theorem ballots_stored (h : Tables db) (hrow : db.task.lookup id = some row) :
    Ballots (db.getTaskParticipants id) (db.getTaskDecisions id) := by
  intro d x hx
  obtain ⟨r, hr, rfl⟩ := mem_getTaskDecisions (mem_of_lookup hx)
  rw [lookup_getTaskDecisions h hrow hr] at hx
  obtain ⟨device, hd⟩ := Option.isSome_iff_exists.mp (h.constraints.task_device id r hr)
  refine ⟨⟨device, asU32 r.shares⟩, mem_getTaskParticipants.mpr ⟨r, hr, hd, rfl⟩,
    findDevice_id hd, ?_⟩
  rw [← Option.some.inj hx, row_vote_eq, shares_of_row h.constraints hr]
  cases r.decision with
  | none => exact .inl rfl
  | some a => exact .inr ⟨a, rfl⟩

theorem tally_stored (h : Tables db) (hrow : db.task.lookup id = some row) :
    acceptsRejects (db.getTaskDecisions id) =
      (accepts (db.getTaskParticipants id) (db.getTaskDecisions id),
        rejects (db.getTaskParticipants id) (db.getTaskDecisions id)) :=
  acceptsRejects_eq (h.fixed id row hrow).distinct fun _ => (ballots_stored h hrow).mem

def storedShares (db : Database) (id : Uuid) (d : Bytes) : ℕ :=
  ((db.getTaskActiveShares id).lookup d).getD 0

theorem storedShares_le (h : Tables db) (hrow : db.task.lookup id = some row) {p : Participant}
    (hp : p ∈ db.getTaskParticipants id) : storedShares db id p.device.id ≤ p.shares := by
  rw [storedShares, Database.getTaskActiveShares, lookup_mapValues]
  cases hn : (db.activeTaskParticipant id).lookup p.device.id with
  | none => exact Nat.zero_le _
  | some n =>
    obtain ⟨q, hq, hid, hpos, hle⟩ := (h.rows id row hrow).active _ n hn
    rw [eq_of_id_eq (h.fixed id row hrow).distinct hp hq hid.symm]
    rw [Option.map_some, Option.getD_some, asU32]
    omega

/-- The stored numbers give every device the front of its block, in whatever order the
participants are loaded. -/
theorem hydrate_blocks {ps loaded : List Participant} (row : TaskRow) (hperm : loaded.Perm ps)
    (hn : (ids ps).Nodup) (hle : ∀ p ∈ ps, storedShares db id p.device.id ≤ p.shares) :
    ∃ m, Blocks ps (storedShares db id) m ∧ hydrateCommunicator db id row loaded =
      Communicator.new (acceptThreshold row loaded) row.protocolType m := by
  have hnl : (ids loaded).Nodup := (hperm.map _).nodup_iff.mpr hn
  have hsort := sortById_perm loaded
  have hns : (ids (sortById loaded)).Nodup := (hsort.map _).nodup_iff.mpr hnl
  have hdevices : activeDevices (db.getTaskActiveShares id) loaded =
      shareList (fun p => storedShares db id p.device.id) (sortById loaded) := rfl
  have hcount : ∀ p ∈ loaded,
      (activeDevices (db.getTaskActiveShares id) loaded).countP
        (fun device => device.id = p.device.id) = storedShares db id p.device.id := by
    intro p hp
    rw [hdevices, countP_shareList _ hns (hsort.mem_iff.mpr hp)]
  have hchoice : Choice loaded (activeDevices (db.getTaskActiveShares id) loaded) := by
    refine ⟨fun device hd => ?_, fun p hp => ?_⟩
    · obtain ⟨p, hp, hpd⟩ := mem_shareList (hdevices ▸ hd)
      exact ⟨p, hsort.mem_iff.mp hp, hpd⟩
    · rw [hcount p hp]
      exact hle p (hperm.mem_iff.mp hp)
  obtain ⟨m, hm, -, hblocks⟩ := assignShareIndices_spec hnl hchoice
  refine ⟨m, (hblocks.congr hcount).perm hperm, ?_⟩
  simp only [hydrateCommunicator, hm, bind, Except.bind]
  rfl

/-- The stored active shares always get their indices. What can fail is the number of them. -/
theorem hydrateCommunicator_spec (h : Tables db) (hrow : db.task.lookup id = some row) :
    ∃ m, Blocks (db.getTaskParticipants id) (storedShares db id) m ∧ len m = activeTotal db id ∧
      hydrateCommunicator db id row (db.getTaskParticipants id) =
        Communicator.new (acceptThreshold row (db.getTaskParticipants id)) row.protocolType m := by
  obtain ⟨m, hblocks, hnew⟩ := hydrate_blocks row (.refl _) (h.fixed id row hrow).distinct
    fun p hp => storedShares_le h hrow hp
  exact ⟨m, hblocks, hblocks.size, hnew⟩

/-- The rule that tells a declined task from a failed one. It is not the same for group tasks. -/
def Rejected (row : TaskRow) (total rejects : ℕ) : Prop :=
  if row.taskType = .group then 0 < rejects
  else rejectThreshold total (asU32 row.threshold) ≤ rejects

inductive HydrateOutcome (db : Database) (id : Uuid) (row : TaskRow) :
    Except Stop TaskEntry → Prop where
  | finished {f : FinishedTask} {data : Bytes}
      (stored : db.taskResult id = some (NewTaskResult.ofResult (.ok data)))
      (info : f.taskInfo = hydratedTaskInfo id row (db.getTaskParticipants id))
      (bytes : f.result.asBytes = data)
      (acknowledgements : f.acknowledgements = db.getTaskAcknowledgements id) :
      HydrateOutcome db id row (.ok (.finished f))
  | declined {reason : String}
      (stored : db.taskResult id = some (NewTaskResult.ofResult (.error reason)))
      (votes : Rejected row (totalShares (db.getTaskParticipants id))
        (rejects (db.getTaskParticipants id) (db.getTaskDecisions id))) :
      HydrateOutcome db id row (.ok (.declined ⟨hydratedTaskInfo id row (db.getTaskParticipants id),
        accepts (db.getTaskParticipants id) (db.getTaskDecisions id),
        rejects (db.getTaskParticipants id) (db.getTaskDecisions id)⟩))
  | failed {reason : String}
      (stored : db.taskResult id = some (NewTaskResult.ofResult (.error reason)))
      (votes : ¬ Rejected row (totalShares (db.getTaskParticipants id))
        (rejects (db.getTaskParticipants id) (db.getTaskDecisions id))) :
      HydrateOutcome db id row
        (.ok (.failed ⟨hydratedTaskInfo id row (db.getTaskParticipants id), reason⟩))
  | voting {context : RunningTaskContext} (stored : db.taskResult id = none)
      (votes : accepts (db.getTaskParticipants id) (db.getTaskDecisions id) <
        acceptThreshold row (db.getTaskParticipants id))
      (context_of : ContextOf db (fixed row) context) :
      HydrateOutcome db id row (.ok (.voting ⟨hydratedTaskInfo id row (db.getTaskParticipants id),
        db.getTaskDecisions id, acceptThreshold row (db.getTaskParticipants id), context⟩))
  | running {t : RunningTask} (stored : db.taskResult id = none)
      (votes : acceptThreshold row (db.getTaskParticipants id) ≤
        accepts (db.getTaskParticipants id) (db.getTaskDecisions id))
      (communicator : hydrateCommunicator db id row (db.getTaskParticipants id) =
        .ok t.session.communicator)
      (protocol : t.session.protocol.protocolType = row.protocolType)
      (round : t.session.protocol.round = row.protocolRound)
      (info : t.taskInfo = hydratedTaskInfo id row (db.getTaskParticipants id))
      (context_of : ContextOf db (fixed row) (contextOf t))
      (is_ready : row.taskType = .group → row.groupCertificatesSent = some (ready t)) :
      HydrateOutcome db id row (.ok (.running t))
  | noCommunicator {stop : Stop} (stored : db.taskResult id = none)
      (votes : acceptThreshold row (db.getTaskParticipants id) ≤
        accepts (db.getTaskParticipants id) (db.getTaskDecisions id))
      (communicator : hydrateCommunicator db id row (db.getTaskParticipants id) = .error stop) :
      HydrateOutcome db id row (.error stop)
  | unsupported {stop : Stop} {c : Communicator} (stored : db.taskResult id = none)
      (votes : acceptThreshold row (db.getTaskParticipants id) ≤
        accepts (db.getTaskParticipants id) (db.getTaskDecisions id))
      (communicator : hydrateCommunicator db id row (db.getTaskParticipants id) = .ok c)
      (group : row.taskType = .group) (h : ¬ Supported row.protocolType row.keyType) :
      HydrateOutcome db id row (.error stop)

theorem getGroup_id {groupId : Bytes} {group : Group} (h : db.getGroup groupId = some group) :
    group.id = groupId := by
  simp only [Database.getGroup, Option.map_eq_some_iff] at h
  obtain ⟨row, hrow, rfl⟩ := h
  have hid : row.id = groupId := by simpa using List.find?_some hrow
  exact hid

theorem groupTask_outcome (h : Tables db) (hrow : db.task.lookup id = some row)
    (ht : row.taskType = .group) : HydrateOutcome db id row
      (groupTaskFromModel db (hydratedTaskInfo id row (db.getTaskParticipants id)) row) := by
  have htally := tally_stored h hrow
  have hthr : acceptThreshold row (db.getTaskParticipants id) =
      totalShares (db.getTaskParticipants id) := by simp [acceptThreshold, ht]
  have hid : (hydratedTaskInfo id row (db.getTaskParticipants id)).id = id := rfl
  unfold groupTaskFromModel
  rw [hid]
  cases hres : db.taskResult id with
  | some r =>
    obtain ⟨x, rfl, hgroup⟩ := (h.rows id row hrow).result r hres
    simp only [tryIntoResult, tryIntoResult_ofResult, Except.mapError, bind, Except.bind]
    cases x with
    | ok groupId =>
      obtain ⟨group, hg, -⟩ := hgroup ht groupId rfl
      simp only [groupTaskWithResult, hg]
      exact .finished hres rfl (getGroup_id hg) rfl
    | error reason =>
      simp only [groupTaskWithResult, hid, htally]
      split_ifs with hrej
      · exact .declined hres (by rwa [Rejected, if_pos ht])
      · exact .failed hres (by rwa [Rejected, if_pos ht])
  | none =>
    simp only [htally]
    split_ifs with hvotes
    · rw [TaskInfo.totalShares] at hvotes ⊢
      rw [show (hydratedTaskInfo id row (db.getTaskParticipants id)).participants =
        db.getTaskParticipants id from rfl, ← hthr] at hvotes ⊢
      exact .voting hres hvotes ⟨ht, rfl, rfl⟩
    · have hvotes' : acceptThreshold row (db.getTaskParticipants id) ≤
          accepts (db.getTaskParticipants id) (db.getTaskDecisions id) := hthr ▸ not_lt.mp hvotes
      rw [show (hydratedTaskInfo id row (db.getTaskParticipants id)).participants =
        db.getTaskParticipants id from rfl]
      cases hc : hydrateCommunicator db id row (db.getTaskParticipants id) with
      | error stop => exact .noCommunicator hres hvotes' hc
      | ok c =>
        simp only [GroupTask.fromModel, bind, Except.bind]
        by_cases hs : Supported row.protocolType row.keyType
        · obtain ⟨n, hp⟩ := createKeygenProtocol_ok hs
            (hydratedTaskInfo id row (db.getTaskParticipants id)).totalShares
            (asU32 row.threshold) row.protocolRound
          rw [hp]
          obtain ⟨sent, hsent⟩ := Option.isSome_iff_exists.mp
            ((h.rows id row hrow).certificates.mpr ht)
          simp only [orProtocolError, Except.mapError, hsent]
          exact .running hres hvotes' hc rfl rfl rfl ⟨ht, rfl, rfl⟩ fun _ => hsent
        · rw [createKeygenProtocol_error hs]
          exact .unsupported hres hvotes' hc ht hs

theorem runningFromModel_outcome {c : Communicator} {groupId data : Bytes} {group : Group}
    (h : Tables db) (hg : OnGroup db id (fixed row) groupId group data)
    (ht : row.taskType ≠ .group) (info : TaskInfo) : ∃ t,
      runningFromModel info row c group = .ok t ∧ t.session.communicator = c ∧
      t.session.protocol = ⟨row.protocolType, .threshold, row.protocolRound⟩ ∧
      t.taskInfo = info ∧ ContextOf db (fixed row) (contextOf t) := by
  have hs := (h.group groupId group hg.found).supported
  have hprot : group.protocol = row.protocolType := hg.protocol
  have hp : createThresholdProtocol group.protocol group.keyType row.protocolRound =
      .ok ⟨row.protocolType, .threshold, row.protocolRound⟩ := by
    rw [createThresholdProtocol_ok hs, hprot]
  have hdata : row.taskData = some data := hg.row_data
  have hsign : SignTask.fromModel info row c group = .ok
      { taskInfo := info, group, communicator := c, data
        protocol := ⟨row.protocolType, .threshold, row.protocolRound⟩
        preprocessed := row.preprocessed } := by
    simp only [SignTask.fromModel, hp, orProtocolError, Except.mapError, bind, Except.bind,
      hdata]
  have hdecrypt : DecryptTask.fromModel info row c group = .ok
      { taskInfo := info, group, communicator := c, data
        protocol := ⟨row.protocolType, .threshold, row.protocolRound⟩ } := by
    simp only [DecryptTask.fromModel, hp, orProtocolError, Except.mapError, bind,
      Except.bind, hdata]
  unfold runningFromModel
  cases hty : row.taskType with
  | group => exact absurd hty ht
  | signPdf =>
    rw [SignPDFTask.fromModel, hsign]
    exact ⟨_, rfl, rfl, rfl, rfl, hty, hdata, groupId, hg.row_group, hg.found⟩
  | signChallenge =>
    rw [hsign]
    exact ⟨_, rfl, rfl, rfl, rfl, hty, hdata, groupId, hg.row_group, hg.found⟩
  | decrypt =>
    rw [hdecrypt]
    exact ⟨_, rfl, rfl, rfl, rfl, hty, hdata, groupId, hg.row_group, hg.found⟩

theorem votingContext_outcome {groupId data : Bytes} {group : Group}
    (hg : OnGroup db id (fixed row) groupId group data) (ht : row.taskType ≠ .group) :
    ∃ context, votingContext row.taskType group data = .ok context ∧
      ContextOf db (fixed row) context := by
  have hrest : (fixed row).taskData = some data ∧ ∃ groupId, (fixed row).groupId = some groupId ∧
      db.getGroup groupId = some group := ⟨hg.row_data, groupId, hg.row_group, hg.found⟩
  cases hty : row.taskType with
  | group => exact absurd hty ht
  | signPdf => exact ⟨_, rfl, hty, hrest⟩
  | signChallenge => exact ⟨_, rfl, hty, hrest⟩
  | decrypt => exact ⟨_, rfl, hty, hrest⟩

theorem thresholdTask_outcome (h : Tables db) (hrow : db.task.lookup id = some row)
    (ht : row.taskType ≠ .group) : HydrateOutcome db id row
      (thresholdTaskFromModel db (hydratedTaskInfo id row (db.getTaskParticipants id)) row) := by
  obtain ⟨groupId, group, data, hg⟩ := (h.fixed id row hrow).onGroup ht
  have htally := tally_stored h hrow
  have hthr : asU32 group.threshold = acceptThreshold row (db.getTaskParticipants id) := by
    rw [acceptThreshold, if_neg ht, hg.threshold]
    rfl
  have hid : (hydratedTaskInfo id row (db.getTaskParticipants id)).id = id := rfl
  unfold thresholdTaskFromModel
  rw [hid]
  cases hres : db.taskResult id with
  | some r =>
    obtain ⟨x, rfl, -⟩ := (h.rows id row hrow).result r hres
    simp only [tryIntoResult, tryIntoResult_ofResult, Except.mapError, bind, Except.bind]
    cases x with
    | ok bytes =>
      cases hty : row.taskType with
      | group => exact absurd hty ht
      | signPdf | signChallenge | decrypt =>
        simp only [thresholdTaskWithResult, hty]
        exact .finished hres rfl rfl rfl
    | error reason =>
      simp only [thresholdTaskWithResult, hid, htally]
      split_ifs with hrej
      · exact .declined hres (by rwa [Rejected, if_neg ht])
      · exact .failed hres (by rwa [Rejected, if_neg ht])
  | none =>
    have hgroup : row.groupId = some groupId := hg.row_group
    simp only [hgroup, hg.found, unfinishedThresholdTask, hid, htally, hthr]
    split_ifs with hvotes
    · obtain ⟨context, hcontext, hof⟩ := votingContext_outcome hg ht
      have hdata : row.taskData = some data := hg.row_data
      simp only [hdata, hcontext, bind, Except.bind]
      exact .voting hres hvotes hof
    · rw [not_lt] at hvotes
      rw [show (hydratedTaskInfo id row (db.getTaskParticipants id)).participants =
        db.getTaskParticipants id from rfl]
      cases hc : hydrateCommunicator db id row (db.getTaskParticipants id) with
      | error stop => exact .noCommunicator hres hvotes hc
      | ok c =>
        obtain ⟨t, hrun, rfl, hprot, hinfo, hctx⟩ := runningFromModel_outcome (c := c) h hg ht
          (hydratedTaskInfo id row (db.getTaskParticipants id))
        simp only [bind, Except.bind, hrun]
        exact .running hres hvotes hc (by rw [hprot]) (by rw [hprot]) hinfo hctx
          fun h => absurd h ht

theorem hydrate_outcome (h : Tables db) (hrow : db.task.lookup id = some row) :
    HydrateOutcome db id row (hydrateTask db id) := by
  have hne : (db.getTaskParticipants id).isEmpty = false := by
    simpa using (h.fixed id row hrow).nonempty
  simp only [hydrateTask, hrow, hne, Bool.false_eq_true, ↓reduceIte]
  split_ifs with ht
  · exact groupTask_outcome h hrow ht
  · exact thresholdTask_outcome h hrow ht

theorem hydrate_row {e : TaskEntry} (hh : hydrateTask db id = .ok e) :
    ∃ row, db.task.lookup id = some row := by
  unfold hydrateTask at hh
  cases hrow : db.task.lookup id with
  | none =>
    rw [hrow] at hh
    cases hh
  | some row => exact ⟨row, rfl⟩

theorem infoOf_hydrated (id : Uuid) (row : TaskRow) (ps : List Participant) :
    InfoOf id (fixed row) ps (hydratedTaskInfo id row ps) :=
  ⟨rfl, rfl, rfl, rfl, rfl, rfl, .refl _⟩

theorem active_of_total (h : 0 < activeTotal db id) : db.activeTaskParticipant id ≠ ∅ := by
  intro he
  simp [activeTotal, Database.getTaskActiveShares, he, mapValues, collect] at h

theorem hydrate_entry {e : TaskEntry} (h : Tables db) (hrow : db.task.lookup id = some row)
    (hh : hydrateTask db id = .ok e) : EntryOf db id row e := by
  have hf := h.fixed id row hrow
  have ho := hydrate_outcome h hrow
  rw [hh] at ho
  cases ho with
  | finished _ info _ _ => exact .finished (info ▸ infoOf_hydrated ..)
  | declined _ _ => exact .declined (infoOf_hydrated ..)
  | failed _ _ => exact .failed (infoOf_hydrated ..)
  | voting _ _ hctx =>
    exact .voting ⟨infoOf_hydrated .., rfl, hctx, ballots_stored h hrow⟩
  | running _ hvotes hc hprot _ hinfo hctx hready =>
    obtain ⟨m, hblocks, hlen, hnew⟩ := hydrateCommunicator_spec h hrow
    rw [hc] at hnew
    obtain ⟨hthr, htype, hm, -⟩ := Communicator.new_ok hnew.symm
    refine .running ⟨hinfo ▸ infoOf_hydrated .., hctx, hthr, htype, hprot, ⟨_, hm ▸ hblocks⟩,
      fun ht p hp => ?_⟩ hready (active_of_total ?_)
    · have ht' : row.taskType = .group := ht
      rw [acceptThreshold, if_pos ht'] at hvotes
      exact (unanimous_accept (ballots_stored h hrow) hf.distinct hvotes hp (hf.positive p hp)).1
    · rw [← hlen, ← hm]
      exact lt_trans zero_lt_one (Communicator.two_shares _)

end HydrationOutcomes

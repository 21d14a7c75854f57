import MeesignServer.PhaseOrder

/-!
# Established groups

A group is only added when the update of a group task ends its last round. It takes
over the participants of the task, and what the start of the task has checked holds
of it, so the tasks on the group can be voted on and started.
-/
namespace GroupWellFormed

open FallibleProgram FiniteMap DataModel CommunicatorModel ProtocolModel VotingModel
open RunningTaskModel DatabaseModel HydrationModel ServerModel TaskOutcomes ServerOutcomes
open ActiveShares VoteTally TableFrames ServerInvariant HydrationOutcomes TaskStart InvariantSteps
open TaskAdmission ServerMoves PhaseOrder

/-- One group is new, and it has the participants of the task. The result of the task follows
unless its write fails. -/
structure Added (env : Env) (id : Uuid) (db db' : Database) (groupId : Bytes) : Prop where
  task : ∃ row, db.task.lookup id = some row ∧ row.taskType = .group
  new : db.getGroup groupId = none
  found : (db'.getGroup groupId).isSome
  others : ∀ g, g ≠ groupId → db'.getGroup g = db.getGroup g
  participants : db'.getGroupParticipants groupId = db'.getTaskParticipants id
  served : env.fault .addGroup id = .served
  result : env.fault .setTaskResult id = .served →
    db'.taskResult id = some (NewTaskResult.ofResult (.ok groupId))
  results : ∀ j, j ≠ id → db'.taskResult j = db.taskResult j

section Groups

variable {env : Env} {op : Op} {id : Uuid} {db db' : Database} {r : Except Stop Unit}
  {e : TaskEntry} {g g' : Guarded} {s t : Server}

theorem withGroup_added {row : GroupRow} {before after : TaskEntry} (hc : Constraints db)
    (htask : ∃ row, db.task.lookup id = some row ∧ row.taskType = .group)
    (hf : env.fault .addGroup id = .served)
    (hnew : db.getGroup row.id = none)
    (stored : Stored env .setTaskResult id (resultWrite id (.ok row.id)) (withGroup db id row)
      before after r db' e) : Added env id db db' row.id := by
  have hid : id ∈ db.task := by
    obtain ⟨row, hrow, -⟩ := htask
    exact mem_of_row hrow
  have hothers : ∀ g, g ≠ row.id → (withGroup db id row).getGroup g = db.getGroup g :=
    fun g hg => (getGroup_withGroup_of_ne id db hg).1
  obtain ⟨⟨shares, hself⟩, hps⟩ := getGroup_withGroup_self id hc hnew
  have hfound : ((withGroup db id row).getGroup row.id).isSome := by
    rw [hself]
    rfl
  cases stored with
  | served w =>
    obtain ⟨-, rfl⟩ := setTaskResult_ok w.write
    exact ⟨htask, hnew, hfound, hothers, hps, hf, fun _ => Function.update_self ..,
      fun j hj => Function.update_of_ne hj ..⟩
  | fails w =>
    refine ⟨htask, hnew, hfound, hothers, hps, hf, fun hr => ?_, fun j _ => rfl⟩
    cases w with
    | fails h => simp [h] at hr
    | stops h => simp [h] at hr
    | refused _ he => simp [resultWrite, Database.setTaskResult, withGroup, hid] at he

theorem record_groups {row : TaskRow} {t : RunningTask} {u : Except Stop RoundUpdate}
    (hc : Constraints db) (hrow : db.task.lookup id = some row)
    (hgroup : ∀ round f group, u = .ok (.finished round f) →
      f.result = .groupEstablished group → row.taskType = .group)
    (h : RecordOutcome env id t db u r db' e) : db'.getGroup = db.getGroup ∨
      (∃ round f, u = .ok (.finished round f)) ∧ ∃ groupId, Added env id db db' groupId := by
  cases h with
  | stopped => exact .inl rfl
  | listen => exact .inl rfl
  | nextRound stored =>
    cases stored with
    | served w => exact .inl (writesTask_setTaskRound w.write).groups
    | fails => exact .inl rfl
  | failed stored =>
    cases stored with
    | served w => exact .inl (writesTask_setTaskResult w.write).groups
    | fails => exact .inl rfl
  | finished finish =>
    cases finish with
    | roundNotStored => exact .inl rfl
    | groupNotStored w => exact .inl (writesTask_setTaskRound w.write).groups
    | threshold w _ stored =>
      have hw := writesTask_setTaskRound w.write
      cases stored with
      | served w' => exact .inl ((writesTask_setTaskResult w'.write).groups.trans hw.groups)
      | fails => exact .inl hw.groups
    | @group db₁ db₂ _ group _ _ w result w' stored =>
      have hw := writesTask_setTaskRound w.write
      obtain ⟨row', hrow', hfix⟩ := hw.task id row hrow
      have htype : row'.taskType = row.taskType := fixed_congr hfix TaskRow.taskType fun _ => rfl
      obtain ⟨-, -, hnew, hdb⟩ := addGroup_ok (mem_of_row hrow') w'.write
      set groupRow : GroupRow := ⟨group.id, group.name, asU32 group.threshold, group.protocol,
        group.keyType, group.certificate, group.note⟩
      rw [result, hdb] at stored
      have ht : row.taskType = .group := hgroup _ _ group rfl result
      have hadd : Added env id db₁ db' groupRow.id :=
        withGroup_added (hw.constraints hc) ⟨row', hrow', htype.trans ht⟩ w'.served hnew stored
      exact .inr ⟨⟨_, _, rfl⟩, group.id, { hadd with
        task := ⟨row, hrow, ht⟩
        new := hw.groups ▸ hadd.new
        others := fun g hg => (hadd.others g hg).trans (congrFun hw.groups g)
        results := fun j hj => (hadd.results j hj).trans (hw.others j hj).result }⟩

variable [External]

theorem build_groups {row : TaskRow} {v : VotingTask} {chosen : List Device} {e' : TaskEntry}
    (hrow : db.task.lookup id = some row)
    (h : BuildOutcome env id v chosen db e r db' e') : db'.getGroup = db.getGroup := by
  cases h with
  | notConstructed => rfl
  | notInitialized => rfl
  | certificates _ _ stored =>
    cases stored with
    | served w =>
      cases w.write
      exact (writesTask_setTaskGroupCertificatesSent hrow _).groups
    | fails => rfl
  | nextRound _ _ stored =>
    cases stored with
    | served w => exact (writesTask_setTaskRound w.write).groups
    | fails => rfl
  | failed _ _ stored =>
    cases stored with
    | served w => exact (writesTask_setTaskResult w.write).groups
    | fails => rfl

theorem decide_groups {row : TaskRow} {d : Bytes} {accept : Bool}
    (hrow : g.server.db.task.lookup id = some row)
    (h : DecideOutcome env id d accept g r g') :
    g'.server.db.getGroup = g.server.db.getGroup := by
  have hvote := (writesTask_setTaskDecision g.server.db id d accept).groups
  cases h with
  | notVoting => rfl
  | notParticipant => rfl
  | notStored => rfl
  | undecided => exact hvote
  | declined _ _ _ _ stored =>
    cases stored with
    | served w => exact (writesTask_setTaskResult w.write).groups.trans hvote
    | fails => exact hvote
  | accepted _ _ _ _ start =>
    cases start with
    | notStored _ rest =>
      rw [rest.db]
      exact hvote
    | @built _ db _ _ _ w build rest =>
      obtain ⟨-, hactive⟩ := setTaskActiveShares_ok w.write
      have hrow' : db.task.lookup id = some row := by
        rw [hactive]
        exact hrow
      rw [rest.db, build_groups hrow' build, hactive]
      exact hvote

theorem restart_unfinished {t t' : RunningTask} {u : Except Stop RoundUpdate}
    (h : RestartOutcome t u t') (round : ℕ) (f : FinishedTask) : u ≠ .ok (.finished round f) := by
  rintro rfl
  cases h with
  | again _ _ _ _ start => cases start

theorem body_groups {row : TaskRow} (hc : Constraints g.server.db)
    (hrow : g.server.db.task.lookup id = some row) (he : EntryOf g.server.db id row g.entry)
    (h : BodyOutcome env op id g r g') :
    g'.server.db.getGroup = g.server.db.getGroup ∨
      (∃ d messages attempt, op = .updateTask id d messages attempt) ∧
        ∃ groupId, Added env id g.server.db g'.server.db groupId := by
  cases h with
  | decide h => exact .inl (decide_groups hrow h)
  | update h =>
    cases h with
    | notRunning => exact .inl rfl
    | stale => exact .inl rfl
    | @updated _ _ u _ _ _ _ ht _ update record rest =>
      rw [rest.db]
      rw [ht] at he
      have ha := update_answer he.runningOf update
      have hgroup : ∀ round f group, u = .ok (.finished round f) →
          f.result = .groupEstablished group → row.taskType = .group := by
        rintro round f group rfl hf
        exact (ha.2.2 group hf).1
      rcases record_groups hc hrow hgroup record with hsame | ⟨-, hadd⟩
      · exact .inl hsame
      · exact .inr ⟨⟨_, _, _, rfl⟩, hadd⟩
  | restart _ h =>
    cases h with
    | notRunning => exact .inl rfl
    | notStored => exact .inl rfl
    | restarted _ w restart record rest =>
      have hw := writesTask_incrementTaskAttemptCount w.write
      rw [rest.db]
      obtain ⟨row', hrow', hfix⟩ := hw.task id row hrow
      have hrun := restart_unfinished restart
      rcases record_groups (hw.constraints hc) hrow'
        (fun round f _ hu => absurd hu (hrun round f)) record with hsame | ⟨⟨round, f, hu⟩, -⟩
      · exact .inl (hsame.trans hw.groups)
      · exact absurd hu (hrun round f)
  | acknowledge h =>
    cases h with
    | notFinished => exact .inl rfl
    | acknowledged _ _ stored =>
      cases stored with
      | served w =>
        cases w.write
        exact .inl (writesTask_setTaskAcknowledgement g.server.db id _).groups
      | fails => exact .inl rfl
  | read => exact .inl rfl

theorem move_groups (h : Invariant s) (m : Move env op s r t) :
    t.db.getGroup = s.db.getGroup ∨ ∃ id d messages attempt,
      op = .updateTask id d messages attempt ∧ ∃ groupId, Added env id s.db t.db groupId := by
  cases m with
  | refused => exact .inl rfl
  | aside ha => exact .inl (by rw [ha.db])
  | addDevice w =>
    obtain ⟨-, rfl⟩ := addDevice_ok w.write
    exact .inl rfl
  | addTask _ w =>
    obtain ⟨-, -, -, rfl⟩ := insertTask_ok (createRows_ok w.write).2.2
    exact .inl rfl
  | restart => exact .inl rfl
  | @task j e₀ _ g loaded body =>
    obtain ⟨row, hrow, he⟩ := loaded_entry h loaded
    rcases body_groups (g := ⟨e₀, cached s j e₀⟩) h.tables.constraints hrow he body with
      hsame | ⟨⟨d, messages, attempt, hop⟩, hadd⟩
    · exact .inl hsame
    · exact .inr ⟨j, d, messages, attempt, hop, hadd⟩

theorem next_groups (h : Invariant s) (env : Env) (op : Op) :
    (next env op s).db.getGroup = s.db.getGroup ∨ ∃ id d messages attempt,
      op = .updateTask id d messages attempt ∧
        ∃ groupId, Added env id s.db (next env op s).db groupId := by
  have hdb : (next env op s).db = (outcome (exec env op) s).2.db := by
    rw [next_eq]
    split_ifs <;> rfl
  rw [hdb]
  by_cases hop : op = .restartStaleTasks
  · subst hop
    have hkeep : Invariant (outcome (exec env .restartStaleTasks) s).2 ∧
        (outcome (exec env .restartStaleTasks) s).2.db.getGroup = s.db.getGroup := by
      refine (exec_runs env .restartStaleTasks s h).keeps
        (P := fun t => Invariant t ∧ t.db.getGroup = s.db.getGroup) ?_ ⟨h, rfl⟩
      rintro a _ b ⟨ha, hg⟩ m
      rcases move_groups ha m with hsame | ⟨id, d, messages, attempt, hop, -⟩
      · exact ⟨(move_invariant ha m).1, hsame.trans hg⟩
      · cases hop
    exact .inl hkeep.2
  · exact move_groups h (exec_move env hop s)

end Groups

section Tasks

variable {db : Database} {id : Uuid} {row : TaskRow} {v : VotingTask} {group : Group}

theorem row_bounds (h : Tables db) (hrow : db.task.lookup id = some row)
    (ht : row.taskType ≠ .group) :
    2 ≤ asU32 row.threshold ∧ asU32 row.threshold ≤ totalShares (db.getTaskParticipants id) ∧
      totalShares (db.getTaskParticipants id) < 2 ^ 32 := by
  obtain ⟨groupId, group, data, hon⟩ := (h.fixed id row hrow).onGroup ht
  have hgroup := h.group groupId group hon.found
  have hb := ProtocolType.checkThreshold_bounds hgroup.threshold
  have hthr : group.threshold = row.threshold := hon.threshold
  rw [hon.participants, ← hthr]
  exact ⟨hb.1, hb.2, hgroup.total⟩

theorem threshold_bounds (h : Tables db) (hrow : db.task.lookup id = some row)
    (hv : VotingOf db id (fixed row) (db.getTaskParticipants id) v)
    (hg : contextGroup v.runningTaskContext = some group) :
    2 ≤ v.acceptThreshold ∧ v.acceptThreshold ≤ v.taskInfo.totalShares ∧
      v.taskInfo.totalShares < 2 ^ 32 := by
  have ht : row.taskType ≠ .group := (contextGroup_onGroup (h.fixed id row hrow) hv.context hg).1
  have htotal : v.taskInfo.totalShares = totalShares (db.getTaskParticipants id) :=
    (hv.info.participants.map _).sum_eq
  have hthr : v.acceptThreshold = asU32 row.threshold := hv.threshold.trans (if_neg ht)
  rw [htotal, hthr]
  exact row_bounds h hrow ht

/-- Once a task on a group is approved, its communicator can be built, whatever is chosen. -/
theorem communicator_new (h : Tables db) (hrow : db.task.lookup id = some row)
    (hv : VotingOf db id (fixed row) (db.getTaskParticipants id) v)
    (hg : contextGroup v.runningTaskContext = some group) (hacc : v.decisionUpdate = .accepted)
    (env : Env) (activations : Bytes → Option ℕ) : ∃ m,
      assignShareIndices v.taskInfo.participants (chosenDevices env activations v) = .ok m ∧
      ∃ c, Communicator.new v.acceptThreshold v.taskInfo.protocolType m = .ok c := by
  have hn := voting_distinct h hrow hv
  obtain ⟨m, hm, hlen, -⟩ := assignShareIndices_spec hn (choice_chosenDevices hn env activations)
  rw [length_chosen_of_accepted hn (hv.ballots.perm hv.info.participants.symm) hacc] at hlen
  have hb := threshold_bounds h hrow hv hg
  refine ⟨m, hm, ?_⟩
  rw [Communicator.new, dif_pos (by omega), dif_pos (by omega)]
  exact ⟨_, rfl⟩

theorem createThresholdProtocol_onGroup (h : Tables db) (hrow : db.task.lookup id = some row)
    (hv : VotingOf db id (fixed row) (db.getTaskParticipants id) v)
    (hg : contextGroup v.runningTaskContext = some group) (round : ℕ) :
    createThresholdProtocol v.taskInfo.protocolType v.taskInfo.keyType round =
      .ok ⟨v.taskInfo.protocolType, .threshold, round⟩ := by
  obtain ⟨-, groupId, data, hon⟩ := contextGroup_onGroup (h.fixed id row hrow) hv.context hg
  have hs := (h.group groupId group hon.found).supported
  rw [hon.protocol, hon.keyType] at hs
  rw [hv.info.protocolType, hv.info.keyType]
  exact createThresholdProtocol_ok hs round

theorem certificate_of_signPdf {c : RunningTaskContext} {data : Bytes} (h : Tables db)
    (hrow : db.task.lookup id = some row) (hc : ContextOf db (fixed row) c)
    (hpdf : c = .signPdf group data) : group.certificate.isSome := by
  subst hpdf
  obtain ⟨-, groupId, data, hon⟩ := contextGroup_onGroup (h.fixed id row hrow) hc rfl
  have hfix := h.group groupId group hon.found
  have hkey : group.keyType = .signPdf := by
    have htype := hon.taskType
    rw [← hon.keyType, hc.1] at htype
    revert htype
    cases group.keyType <;> decide
  have hs := hfix.supported
  rw [hfix.certificate]
  rw [hkey] at hs
  revert hs
  cases group.protocol <;> decide

end Tasks

theorem vote_of_decide {v v' : VotingTask} {d : Bytes} {accept : Bool} {update : DecisionUpdate}
    (h : v.decide d accept = .ok (v', update)) : ∃ p,
      v.taskInfo.participants.find? (fun p => p.device.id = d) = some p ∧
      v' = v.vote d (voteOf p.shares accept) ∧ v'.decisionUpdate = update := by
  unfold VotingTask.decide at h
  split at h
  · cases h
  · rename_i p hfind
    cases h
    exact ⟨p, hfind, rfl, rfl⟩

variable [External]

/-- What holds of the groups of a reachable server: their protocols, thresholds and certificates,
where they come from, and what follows for the tasks on them. -/
theorem groups_well_formed {s : Server} (hs : Reachable s) :
    (∀ groupId group, s.db.getGroup groupId = some group →
      (∀ round, ∃ p, createThresholdProtocol group.protocol group.keyType round = .ok p) ∧
      group.protocol.checkThreshold (asU32 group.threshold)
        (totalShares (s.db.getGroupParticipants groupId)) ∧
      (group.certificate.isSome ↔ group.protocol = .gg18)) ∧
    (∀ env op groupId, s.db.getGroup groupId = none →
      ((next env op s).db.getGroup groupId).isSome → ∃ id d messages attempt,
        op = .updateTask id d messages attempt ∧ ∀ t, Later (next env op s) t → ∃ row,
          t.db.task.lookup id = some row ∧ row.taskType = .group ∧
          t.db.getGroupParticipants groupId = t.db.getTaskParticipants id) ∧
    (∀ id row, s.db.task.lookup id = some row → row.taskType ≠ .group →
      asU32 row.threshold ≤ totalShares (s.db.getTaskParticipants id) ∧
      rejectThreshold (totalShares (s.db.getTaskParticipants id)) (asU32 row.threshold) =
        totalShares (s.db.getTaskParticipants id) - asU32 row.threshold + 1) ∧
    (∀ env id v group, Loaded env s id (.voting v) →
      contextGroup v.runningTaskContext = some group →
        v.acceptThreshold ≤ v.taskInfo.totalShares ∧
        v.rejectThreshold = v.taskInfo.totalShares - v.acceptThreshold + 1 ∧
        (∀ round, ∃ p,
          createThresholdProtocol v.taskInfo.protocolType v.taskInfo.keyType round = .ok p) ∧
        (∀ data, v.runningTaskContext = .signPdf group data → group.certificate.isSome) ∧
        ∀ d accept v' activations, v.decide d accept = .ok (v', .accepted) → ∃ m,
          assignShareIndices v'.taskInfo.participants (chosenDevices env activations v') = .ok m ∧
          ∃ c, Communicator.new v'.acceptThreshold v'.taskInfo.protocolType m = .ok c) ∧
    ∀ env id task, Loaded env s id (.running (.signPdf task)) →
      task.signTask.group.certificate.isSome := by
  have hinv := reachable_invariant hs
  refine ⟨fun groupId group hfound => ?_, fun env op groupId hnone hsome => ?_,
    fun id row hrow ht => ?_, fun env id v group hl hg => ?_, fun env id task hl => ?_⟩
  · have hg := hinv.tables.group groupId group hfound
    exact ⟨fun round => ⟨_, createThresholdProtocol_ok hg.supported round⟩, hg.threshold,
      hg.certificate⟩
  · rcases next_groups hinv env op with hsame | ⟨id, d, messages, attempt, hop, groupId', hadd⟩
    · rw [hsame, hnone] at hsome
      cases hsome
    · have hid : groupId = groupId' := by
        by_contra hne
        rw [hadd.others groupId hne, hnone] at hsome
        cases hsome
      subst hid
      refine ⟨id, d, messages, attempt, hop, fun t hlater => ?_⟩
      obtain ⟨hinv', hx⟩ := next_invariant env op s hinv
      obtain ⟨-, hx'⟩ := later_invariant hinv' hlater
      obtain ⟨row, hrow, htype⟩ := hadd.task
      obtain ⟨row', hrow', hfix⟩ := hx.task id row hrow
      obtain ⟨row'', hrow'', hfix'⟩ := hx'.task id row' hrow'
      obtain ⟨group, hgroup⟩ := Option.isSome_iff_exists.mp hadd.found
      refine ⟨row'', hrow'', ?_, ?_⟩
      · exact (fixed_congr (hfix'.trans hfix) TaskRow.taskType fun _ => rfl).trans htype
      · rw [(hx'.group groupId group hgroup).2, hx'.participants id (mem_of_row hrow')]
        exact hadd.participants
  · have hb := row_bounds hinv.tables hrow ht
    exact ⟨hb.2.1, TableSync.rejectThreshold_eq hb.2.2 (by omega) hb.2.1⟩
  · obtain ⟨row, hrow, he⟩ := loaded_entry hinv hl
    have hv := he.votingOf
    have hb := threshold_bounds hinv.tables hrow hv hg
    refine ⟨hb.2.1, TableSync.rejectThreshold_eq hb.2.2 (by omega) hb.2.1, fun round =>
      ⟨_, createThresholdProtocol_onGroup hinv.tables hrow hv hg round⟩, fun data hpdf =>
      certificate_of_signPdf hinv.tables hrow hv.context hpdf, ?_⟩
    intro d accept v' activations hdecide
    obtain ⟨p, hfind, rfl, hacc⟩ := vote_of_decide hdecide
    exact communicator_new hinv.tables hrow (voting_vote hv hfind accept) hg hacc env activations
  · obtain ⟨row, hrow, he⟩ := loaded_entry hinv hl
    exact certificate_of_signPdf hinv.tables hrow he.runningOf.context rfl

omit [External] in
/-- Alice and Bob establish a group, which is one of two shares with threshold two. -/
theorem groups_well_formed_established :
    ((@runOps plainExternal initial
      (servedOps 0 0 (groupRequested ++ groupEstablished))).db.getGroup
      [7]).isSome ∧
    ∀ group, (@runOps plainExternal initial
        (servedOps 0 0 (groupRequested ++ groupEstablished))).db.getGroup [7] = some group →
      (∀ round, ∃ p, createThresholdProtocol group.protocol group.keyType round = .ok p) ∧
      group.protocol.checkThreshold (asU32 group.threshold) (totalShares ((@runOps plainExternal
        initial (servedOps 0 0
          (groupRequested ++ groupEstablished))).db.getGroupParticipants [7])) ∧
      (group.certificate.isSome ↔ group.protocol = .gg18) := by
  have hreach := @reachable_later plainExternal _ _ (@Reachable.initial plainExternal)
    (@later_runOps plainExternal initial (servedOps 0 0 (groupRequested ++ groupEstablished)))
  exact ⟨by decide +kernel, (@groups_well_formed plainExternal _ hreach).1 [7]⟩

end GroupWellFormed

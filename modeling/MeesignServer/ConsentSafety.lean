import MeesignServer.SyncRuns

/-!
# Consent

A task only starts with the consent of its participants. Votes are counted in
truncated form, and it is the invariant on established groups that makes the
count a count of shares.
-/
namespace ConsentSafety

open FallibleProgram FiniteMap DataModel CommunicatorModel ProtocolModel VotingModel
open RunningTaskModel DatabaseModel HydrationModel ServerModel TaskOutcomes ServerOutcomes
open ActiveShares VoteTally TableFrames ServerInvariant TableWrites HydrationOutcomes TaskStart
open InvariantSteps TaskAdmission ServerMoves TableSync SyncRuns

variable [External]

abbrev Votes := Uuid → Bytes → Option Bool

/-- A decision counts on a task that is voted on, from one of its participants. -/
def countsVote (e : TaskEntry) (d : Bytes) : Bool :=
  match e with
  | .voting v => v.taskInfo.participants.any (fun p => p.device.id = d)
  | _ => false

def castVote (env : Env) (op : Op) (s : Server) : Option (Uuid × Bytes × Bool) :=
  match op with
  | .decideTask id d accept =>
    match lockedTask env s id with
    | .ok e => if countsVote e d then some (id, d, accept) else none
    | .error _ => none
  | _ => none

def record (votes : Votes) : Option (Uuid × Bytes × Bool) → Votes
  | some (id, d, accept) => Function.update votes id (Function.update (votes id) d (some accept))
  | none => votes

/-- A run with every repository call succeeding, and the decisions made in it. -/
inductive VotedRun : Server → Votes → Prop where
  | initial : VotedRun initial fun _ _ => none
  | step {s : Server} {votes : Votes} (env : Env) (op : Op) : VotedRun s votes →
      env.RepositoryServes → VotedRun (next env op s) (record votes (castVote env op s))

theorem VotedRun.served {s : Server} {votes : Votes} (h : VotedRun s votes) :
    ServedReachable s := by
  induction h with
  | initial => exact .initial
  | step env op _ hs ih => exact .step env op ih hs

def decisionColumn (db : Database) (id : Uuid) : List (Bytes × Option Bool) :=
  (db.taskParticipant id).map fun r => (r.deviceId, r.decision)

structure VotesStored (db : Database) (votes : Votes) : Prop where
  stored : ∀ id ∈ db.task, ∀ c ∈ decisionColumn db id, c.2 = votes id c.1
  fresh : ∀ id, id ∉ db.task → ∀ d, votes id d = none

omit [External] in
theorem stored_participation {env : Env} {call : RepoCall} {id : Uuid} {f : Write}
    {db db' : Database} {e e' e'' : TaskEntry} {r : Except Stop Unit}
    (h : Stored env call id f db e e' r db' e'')
    (hf : ∀ db', f db = .ok db' → SameParticipation db db') : SameParticipation db db' := by
  cases h with
  | served w => exact hf _ w.write
  | fails => exact ⟨rfl, rfl⟩

omit [External] in
theorem record_participation {env : Env} {id : Uuid} {t : RunningTask} {db db' : Database}
    {u : Except Stop RoundUpdate} {r : Except Stop Unit} {e : TaskEntry}
    (h : RecordOutcome env id t db u r db' e) : SameParticipation db db' := by
  have hround : ∀ {db db' : Database} {round : ℕ}, roundWrite id round db = .ok db' →
      SameParticipation db db' :=
    fun hw => (progressOnly_setTaskRound hw).toSameParticipation
  cases h with
  | stopped => exact ⟨rfl, rfl⟩
  | listen => exact ⟨rfl, rfl⟩
  | nextRound stored => exact stored_participation stored fun _ => hround
  | failed stored => exact stored_participation stored fun _ => sameParticipation_setTaskResult
  | finished finish =>
    cases finish with
    | roundNotStored => exact ⟨rfl, rfl⟩
    | groupNotStored w => exact hround w.write
    | group w _ w' stored =>
      exact ((hround w.write).trans (progressOnly_addGroup w'.write).toSameParticipation).trans
        (stored_participation stored fun _ => sameParticipation_setTaskResult)
    | threshold w _ stored =>
      exact (hround w.write).trans
        (stored_participation stored fun _ => sameParticipation_setTaskResult)

theorem build_participation {env : Env} {id : Uuid} {v : VotingTask} {chosen : List Device}
    {db db' : Database} {e e' : TaskEntry} {r : Except Stop Unit}
    (h : BuildOutcome env id v chosen db e r db' e') : SameParticipation db db' := by
  cases h with
  | notConstructed => exact ⟨rfl, rfl⟩
  | notInitialized => exact ⟨rfl, rfl⟩
  | certificates _ _ stored =>
    exact stored_participation stored fun _ hw =>
      (progressOnly_certificatesSent hw).toSameParticipation
  | nextRound _ _ stored =>
    exact stored_participation stored fun _ hw => (progressOnly_setTaskRound hw).toSameParticipation
  | failed _ _ stored => exact stored_participation stored fun _ => sameParticipation_setTaskResult

omit [External] in
theorem countsVote_of_find {v : VotingTask} {d : Bytes} {p : Participant}
    (h : v.taskInfo.participants.find? (fun p => p.device.id = d) = some p) :
    countsVote (.voting v) d :=
  List.any_eq_true.mpr ⟨p, List.mem_of_find?_eq_some h, by simpa using List.find?_some h⟩

theorem decide_rows {env : Env} {id : Uuid} {d : Bytes} {accept : Bool} {g g' : Guarded}
    {r : Except Stop Unit} (hserves : env.RepositoryServes)
    (h : DecideOutcome env id d accept g r g') : g'.server.db.taskParticipant =
      if countsVote g.entry d then (g.server.db.setTaskDecision id d accept).taskParticipant
      else g.server.db.taskParticipant := by
  cases h with
  | notVoting h =>
    cases he : g.entry with
    | voting v => exact absurd he (h v)
    | running | declined | finished | failed => rfl
  | notParticipant h find =>
    rw [h, countsVote, List.any_eq_false.mpr (List.find?_eq_none.mp find)]
    rfl
  | notStored h find w =>
    obtain ⟨⟨x, hx⟩, -⟩ := fails_refused (.inl hserves) w
    cases hx
  | undecided h find => rw [h, if_pos (countsVote_of_find find)]
  | declined h find _ _ stored =>
    rw [h, if_pos (countsVote_of_find find)]
    exact (stored_participation stored fun _ => sameParticipation_setTaskResult).rows
  | accepted h find _ _ start =>
    rw [h, if_pos (countsVote_of_find find)]
    cases start with
    | notStored _ rest => rw [rest.db]
    | built w build rest =>
      rw [rest.db, (build_participation build).rows]
      obtain ⟨-, hdb⟩ := setTaskActiveShares_ok w.write
      rw [hdb]

theorem updateEntry_participation {env : Env} {id : Uuid} {d : Bytes}
    {messages : List ClientMessage} {attempt : ℕ} {g g' : Guarded} {r : Except Stop Unit}
    (h : UpdateEntryOutcome env id d messages attempt g r g') :
    SameParticipation g.server.db g'.server.db := by
  cases h with
  | notRunning => exact ⟨rfl, rfl⟩
  | stale => exact ⟨rfl, rfl⟩
  | updated _ _ _ record rest =>
    rw [rest.db]
    exact record_participation record

theorem restartEntry_participation {env : Env} {id : Uuid} {g g' : Guarded} {r : Except Stop Unit}
    (h : RestartEntryOutcome env id g r g') : SameParticipation g.server.db g'.server.db := by
  cases h with
  | notRunning => exact ⟨rfl, rfl⟩
  | notStored => exact ⟨rfl, rfl⟩
  | restarted _ w _ record rest =>
    rw [rest.db]
    exact (progressOnly_incrementTaskAttemptCount w.write).toSameParticipation.trans
      (record_participation record)

theorem body_column {env : Env} {op : Op} {id j : Uuid} {g g' : Guarded} {r : Except Stop Unit}
    (hop : ∀ id d accept, op ≠ .decideTask id d accept) (h : BodyOutcome env op id g r g') :
    decisionColumn g'.server.db j = decisionColumn g.server.db j := by
  cases h with
  | decide => exact absurd rfl (hop _ _ _)
  | update h => rw [decisionColumn, (updateEntry_participation h).rows, decisionColumn]
  | restart _ h => rw [decisionColumn, (restartEntry_participation h).rows, decisionColumn]
  | @acknowledge _ d _ _ _ h =>
    cases h with
    | notFinished => rfl
    | acknowledged _ _ stored =>
      cases stored with
      | fails => rfl
      | served w =>
        obtain ⟨-, hw⟩ := w
        cases hw
        by_cases hj : j = id
        · subst hj
          simp only [decisionColumn, Database.setTaskAcknowledgement, Function.update_self,
            List.map_map]
          refine List.map_congr_left fun r _ => ?_
          simp only [Function.comp_apply]
          split_ifs <;> rfl
        · simp only [decisionColumn, Database.setTaskAcknowledgement, Function.update_of_ne hj]
  | read => rfl

omit [External] in
theorem mem_iff_of_lookup {db db' : Database} {id : Uuid}
    (h : db'.task.lookup id = db.task.lookup id) : id ∈ db'.task ↔ id ∈ db.task := by
  rw [← AList.lookup_isSome, ← AList.lookup_isSome, h]

theorem task_domain {env : Env} {op : Op} {s : Server} {id j : Uuid} {e : TaskEntry}
    {r : Except Stop Unit} {g : Guarded} (h : Invariant s) (hl : Loaded env s id e)
    (hb : BodyOutcome env op id ⟨e, cached s id e⟩ r g) :
    j ∈ g.server.db.task ↔ j ∈ s.db.task := by
  have hs := task_sound h hl hb
  by_cases hj : j = id
  · subst hj
    obtain ⟨row, hrow, -⟩ := loaded_entry h hl
    obtain ⟨row', hrow', -⟩ := hs.entry
    exact ⟨fun _ => mem_of_row hrow, fun _ => mem_of_row hrow'⟩
  · exact mem_iff_of_lookup (hs.others j hj).task

omit [External] in
theorem votesStored_congr {db db' : Database} {votes : Votes} (h : VotesStored db votes)
    (hd : ∀ id, id ∈ db'.task ↔ id ∈ db.task)
    (hc : ∀ id, decisionColumn db' id = decisionColumn db id) : VotesStored db' votes where
  stored id hid c hcm := h.stored id ((hd id).mp hid) c (hc id ▸ hcm)
  fresh id hid := h.fresh id (mt (hd id).mpr hid)

theorem move_votes {env : Env} {op : Op} {s s' : Server} {r : Except Stop Unit} {votes : Votes}
    (hop : ∀ id d accept, op ≠ .decideTask id d accept) (h : Invariant s)
    (hv : VotesStored s.db votes) (m : Move env op s r s') : VotesStored s'.db votes := by
  cases m with
  | refused => exact hv
  | aside ha => exact ha.db ▸ hv
  | addDevice w =>
    refine votesStored_congr hv (fun j => mem_iff_of_lookup (sameTask_addDevice w.write j).task)
      fun j => ?_
    rw [decisionColumn, (sameTask_addDevice w.write j).participant, decisionColumn]
  | @addTask v db _ w =>
    obtain ⟨-, -, hins⟩ := createRows_ok w.write
    obtain ⟨hid, -, -, hdb⟩ := insertTask_ok hins
    refine ⟨fun j hj c hc => ?_, fun j hj d => hv.fresh j (fun hm => hj ?_) d⟩
    · by_cases hne : j = v.taskInfo.id
      · subst hne
        rw [hv.fresh _ hid]
        simp only [cached, decisionColumn, hdb, Function.update_self, List.map_map,
          List.mem_map] at hc
        obtain ⟨p, -, rfl⟩ := hc
        rfl
      · have hsame := (insertTask_frame h.tables.constraints hins).2.1 j hne
        refine hv.stored j ((mem_iff_of_lookup hsame.task).mp hj) c ?_
        rw [decisionColumn, ← hsame.participant]
        exact hc
    · exact (insertTask_frame h.tables.constraints hins).1.mem hm
  | restart => exact hv
  | task loaded body =>
    exact votesStored_congr hv (fun j => task_domain h loaded body)
      fun j => body_column hop body

omit [External] in
theorem decisionColumn_setTaskDecision (db : Database) (id : Uuid) (d : Bytes) (accept : Bool) :
    decisionColumn (db.setTaskDecision id d accept) id =
      (decisionColumn db id).map fun c => if c.1 = d then (c.1, some accept) else c := by
  simp only [decisionColumn, Database.setTaskDecision, Function.update_self, List.map_map]
  refine List.map_congr_left fun r _ => ?_
  simp only [Function.comp_apply]
  split_ifs <;> rfl

theorem decide_votes {env : Env} {s : Server} {votes : Votes} {id : Uuid} {d : Bytes}
    {accept : Bool} {e : TaskEntry} {r : Except Stop Unit} {g : Guarded} (h : Invariant s)
    (hv : VotesStored s.db votes) (hserves : env.RepositoryServes) (hl : Loaded env s id e)
    (hb : DecideOutcome env id d accept ⟨e, cached s id e⟩ r g) :
    VotesStored g.server.db (record votes (castVote env (.decideTask id d accept) s)) := by
  have hdom : ∀ j, j ∈ g.server.db.task ↔ j ∈ s.db.task :=
    fun j => task_domain h hl (.decide hb)
  have hrows := decide_rows hserves hb
  rw [castVote, lockedTask_ok.mpr hl]
  dsimp only at hrows ⊢
  split_ifs at hrows ⊢ with hc
  · have hid : id ∈ s.db.task := by
      obtain ⟨row, hrow, -⟩ := loaded_entry h hl
      exact mem_of_row hrow
    refine ⟨fun j hj c hcm => ?_, fun j hj d' => ?_⟩
    · have hcm' : c ∈ decisionColumn (s.db.setTaskDecision id d accept) j := by
        rw [decisionColumn, hrows] at hcm
        exact hcm
      by_cases hne : j = id
      · subst hne
        rw [decisionColumn_setTaskDecision, List.mem_map] at hcm'
        obtain ⟨c₀, hc₀, rfl⟩ := hcm'
        have hold := hv.stored j hid c₀ hc₀
        rw [record, Function.update_self]
        split_ifs with hd
        · rw [hd, Function.update_self]
        · rw [Function.update_of_ne hd, hold]
      · have hcol : decisionColumn (s.db.setTaskDecision id d accept) j =
            decisionColumn s.db j := by
          simp only [decisionColumn, Database.setTaskDecision, Function.update_of_ne hne]
        rw [record, Function.update_of_ne hne]
        exact hv.stored j ((hdom j).mp hj) c (hcol ▸ hcm')
    · have hne : j ≠ id := fun he => hj ((hdom j).mpr (he ▸ hid))
      rw [record, Function.update_of_ne hne]
      exact hv.fresh j (mt (hdom j).mpr hj) d'
  · refine votesStored_congr hv hdom fun j => ?_
    rw [decisionColumn, hrows]
    rfl

theorem next_votes {env : Env} {op : Op} {s : Server} {votes : Votes} (h : Invariant s)
    (hserves : env.RepositoryServes) (hv : VotesStored s.db votes) :
    VotesStored (next env op s).db (record votes (castVote env op s)) := by
  by_cases hop : ∀ id d accept, op ≠ .decideTask id d accept
  · have hcast : castVote env op s = none := by
      cases op with
      | decideTask id d accept => exact absurd rfl (hop id d accept)
      | _ => rfl
    obtain ⟨t, hr, hn⟩ := next_runs env op s h
    have ht := hr.keeps (P := fun t => Invariant t ∧ VotesStored t.db votes)
      (fun a _ b ha m => ⟨(move_invariant ha.1 m).1, move_votes hop ha.1 ha.2 m⟩) ⟨h, hv⟩
    rw [hcast, hn]
    split_ifs <;> exact ht.2
  · push Not at hop
    obtain ⟨id, d, accept, rfl⟩ := hop
    obtain ⟨t, -, ho, hn⟩ := exec_decideTask env id d accept s
    have hdb : (next env (.decideTask id d accept) s).db = t.db := by
      rw [hn]
      split_ifs <;> rfl
    rw [hdb]
    generalize result env (.decideTask id d accept) s = r at ho
    cases ho with
    | notLoaded hmiss =>
      obtain ⟨stop, hs⟩ := lockedTask_error hmiss
      rw [castVote, hs]
      exact hv
    | loaded hl hb => exact decide_votes h hv hserves hl hb

theorem votedRun_stored {s : Server} {votes : Votes} (h : VotedRun s votes) :
    VotesStored s.db votes := by
  induction h with
  | initial => exact ⟨fun id hid => by simp [initial, Server.restore, Database.empty] at hid,
      fun _ _ _ => rfl⟩
  | step env op hs hserves ih =>
    exact next_votes (reachable_invariant hs.served.reachable) hserves ih

omit [External] in
theorem vote_of_stored {db : Database} {id : Uuid} {row : TaskRow} {votes : Bytes → Option Bool}
    (h : Tables db) (hrow : db.task.lookup id = some row)
    (hv : ∀ c ∈ decisionColumn db id, c.2 = votes c.1) {p : Participant}
    (hp : p ∈ db.getTaskParticipants id) : voteIn (db.getTaskDecisions id) p.device.id =
      ((votes p.device.id).map (voteOf p.shares)).getD 0 := by
  obtain ⟨r, hr, hd, hs⟩ := mem_getTaskParticipants.mp hp
  have hc := hv (r.deviceId, r.decision) (List.mem_map.mpr ⟨r, hr, rfl⟩)
  rw [findDevice_id hd, voteIn_stored h hrow hr, row_vote_eq, hs, shares_of_row h.constraints hr]
  exact congrArg (fun o => (o.map (voteOf r.shares)).getD 0) hc

omit [External] in
theorem vote_pos_iff {n : ℕ} (hpos : 0 < n) (hle : n ≤ 127) (decision : Option Bool) :
    0 < (decision.map (voteOf n)).getD 0 ↔ decision = some true := by
  cases decision with
  | none => simp
  | some accept =>
    rw [Option.map_some, Option.getD_some]
    cases accept with
    | true =>
      rw [voteOf_true hle]
      simpa using hpos
    | false =>
      rw [voteOf_false hle]
      simp

omit [External] in
/-- The participants of an approved task have few enough shares for their votes: those of a
group task because all of them are counted, the others because their group was established. -/
theorem approved_shares {db : Database} {id : Uuid} {row : TaskRow} {v : VotingTask}
    (h : Tables db) (hrow : db.task.lookup id = some row)
    (hv : VotingOf db id (fixed row) (db.getTaskParticipants id) v)
    (ha : acceptThreshold row (db.getTaskParticipants id) ≤
      accepts (db.getTaskParticipants id) v.decisions)
    {p : Participant} (hp : p ∈ db.getTaskParticipants id) : p.shares ≤ 127 := by
  have hf := h.fixed id row hrow
  by_cases ht : row.taskType = .group
  · rw [acceptThreshold, if_pos ht] at ha
    exact (unanimous_accept hv.ballots hf.distinct ha hp (hf.positive p hp)).1
  · obtain ⟨groupId, group, data, hg⟩ := hf.onGroup ht
    rw [hg.participants] at hp
    exact ((h.group groupId group hg.found).shares p hp).2

theorem build_running {env : Env} {id : Uuid} {v : VotingTask} {chosen : List Device}
    {db db' : Database} {t : RunningTask} {r : Except Stop Unit}
    (h : BuildOutcome env id v chosen db (.voting v) r db' (.running t)) : ∃ m t₀,
      assignShareIndices v.taskInfo.participants chosen = .ok m ∧ Constructed v m t₀ ∧
      contextOf t = contextOf t₀ ∧ t.taskInfo = t₀.taskInfo ∧ Steady t₀.session t.session := by
  cases h with
  | @certificates t₀ _ _ _ _ hc init stored =>
    obtain ⟨m, hm, hcon⟩ := construct_ok hc
    cases stored with
    | served w =>
      cases init with
      | certificates f _ context _ taskInfo session =>
        exact ⟨m, t₀, hm, hcon, context, taskInfo, session ▸ ⟨rfl, rfl, rfl, rfl, rfl⟩⟩
      | start _ start => cases start
  | @nextRound t₀ _ _ _ _ _ hc init stored =>
    obtain ⟨m, hm, hcon⟩ := construct_ok hc
    cases stored with
    | served w =>
      cases init with
      | start _ start =>
        obtain ⟨kept, steady⟩ := start_steady start
        exact ⟨m, t₀, hm, hcon, kept.context, kept.taskInfo, steady⟩
  | failed _ _ stored => cases stored

/-- The decision that turns a task into a running one was counted on a voting task, and its
votes approve it. -/
theorem decide_running {env : Env} {id : Uuid} {d : Bytes} {accept : Bool} {g g' : Guarded}
    {t : RunningTask} {r : Except Stop Unit} (h : DecideOutcome env id d accept g r g')
    (hg : ∀ t, g.entry ≠ .running t) (hg' : g'.entry = .running t) : ∃ v p m t₀ activations,
      g.entry = .voting v ∧
      v.taskInfo.participants.find? (fun p => p.device.id = d) = some p ∧
      (v.vote d (voteOf p.shares accept)).decisionUpdate = .accepted ∧
      assignShareIndices v.taskInfo.participants
        (chosenDevices env activations (v.vote d (voteOf p.shares accept))) = .ok m ∧
      Constructed (v.vote d (voteOf p.shares accept)) m t₀ ∧
      contextOf t = contextOf t₀ ∧ t.taskInfo = t₀.taskInfo ∧ Steady t₀.session t.session := by
  cases h with
  | notVoting => exact absurd hg' (hg t)
  | notParticipant => exact absurd hg' (hg t)
  | notStored => cases hg'
  | undecided => cases hg'
  | declined _ _ _ _ stored => cases stored <;> cases hg'
  | @accepted v p _ _ hv hfind _ tally start =>
    cases start with
    | notStored => cases hg'
    | built w build rest =>
      dsimp only at hg'
      subst hg'
      obtain ⟨m, t₀, hm, hcon, hrest⟩ := build_running build
      exact ⟨v, p, m, t₀, _, hv, hfind, tally, hm, hcon, hrest⟩

structure ApprovedVotes (db : Database) (id : Uuid) (row : TaskRow) (v : VotingTask)
    (votes : Bytes → Option Bool) : Prop where
  tables : Tables db
  row_of : db.task.lookup id = some row
  voting : VotingOf db id (fixed row) (db.getTaskParticipants id) v
  counted : voteIn v.decisions = voteIn (db.getTaskDecisions id)
  stored : ∀ c ∈ decisionColumn db id, c.2 = votes c.1
  tally : v.decisionUpdate = .accepted

section Approved

variable {db : Database} {id : Uuid} {row : TaskRow} {v : VotingTask} {votes : Bytes → Option Bool}

omit [External] in
theorem ApprovedVotes.threshold_le (h : ApprovedVotes db id row v votes) :
    acceptThreshold row (db.getTaskParticipants id) ≤
      accepts (db.getTaskParticipants id) v.decisions := by
  have hn := (h.tables.fixed id row h.row_of).distinct
  have ha := decisionUpdate_accepted h.tally
  rw [acceptsRejects_eq hn fun _ => h.voting.ballots.mem, h.voting.threshold] at ha
  exact ha

omit [External] in
theorem ApprovedVotes.accepted_iff (h : ApprovedVotes db id row v votes) {p : Participant}
    (hp : p ∈ db.getTaskParticipants id) :
    0 < voteIn v.decisions p.device.id ↔ votes p.device.id = some true := by
  rw [h.counted, vote_of_stored h.tables h.row_of h.stored hp]
  exact vote_pos_iff ((h.tables.fixed id row h.row_of).positive p hp)
    (approved_shares h.tables h.row_of h.voting h.threshold_le hp) _

omit [External] in
theorem ApprovedVotes.unanimous (h : ApprovedVotes db id row v votes)
    (ht : row.taskType = .group) {p : Participant} (hp : p ∈ db.getTaskParticipants id) :
    votes p.device.id = some true := by
  have hf := h.tables.fixed id row h.row_of
  have ha := h.threshold_le
  rw [acceptThreshold, if_pos ht] at ha
  rw [← h.accepted_iff hp, VoteTally.unanimous h.voting.ballots hf.distinct ha hp]
  exact Int.natCast_pos.mpr (hf.positive p hp)

omit [External] in
theorem ApprovedVotes.enough (h : ApprovedVotes db id row v votes)
    (ht : row.taskType ≠ .group) : row.threshold ≤
      totalShares ((db.getTaskParticipants id).filter fun p => votes p.device.id = some true) := by
  have hf := h.tables.fixed id row h.row_of
  have ha := h.threshold_le
  have hle := accepts_le h.voting.ballots hf.distinct
  have hfilter : (db.getTaskParticipants id).filter (fun p => 0 < voteIn v.decisions p.device.id) =
      (db.getTaskParticipants id).filter fun p => votes p.device.id = some true :=
    List.filter_congr fun p hp => by
      rw [Bool.eq_iff_iff, decide_eq_true_eq, decide_eq_true_eq, h.accepted_iff hp]
  obtain ⟨hpos, hmax⟩ := hf.threshold
  change 0 < row.threshold at hpos
  change row.threshold ≤ maxI32 at hmax
  rw [acceptThreshold, if_neg ht] at ha
  rw [hfilter] at hle
  unfold asU32 maxI32 at *
  omega

omit [External] in
theorem ApprovedVotes.active (h : ApprovedVotes db id row v votes) {env : Env}
    {activations : Bytes → Option ℕ} {m : Map ℕ Device}
    (hm : assignShareIndices v.taskInfo.participants (chosenDevices env activations v) = .ok m)
    {i : ℕ} {device : Device} (hi : m.lookup i = some device) :
    votes device.id = some true := by
  have hn := voting_distinct h.tables h.row_of h.voting
  obtain ⟨m', hm', -, hb⟩ :=
    assignShareIndices_spec hn (choice_chosenDevices hn env activations)
  rw [hm] at hm'
  cases hm'
  obtain ⟨p, hp, rfl, hlow, hhigh⟩ := (hb.lookup i device).mp hi
  have hpos : 0 < (chosenDevices env activations v).countP
      (fun device => device.id = p.device.id) := by omega
  obtain ⟨device, hdevice, hid⟩ := List.countP_pos_iff.mp hpos
  obtain ⟨-, -, -, hvote⟩ := chosen_accepting hdevice
  rw [of_decide_eq_true hid] at hvote
  exact (h.accepted_iff (h.voting.info.participants.mem_iff.mp hp)).mp hvote

end Approved

/-- When `decide_task` turns a task into a running one, every participant of a group task and
participants with at least the threshold's shares of any other task have accepted it last, and
only such devices have active shares. -/
theorem decide_task_consent {s : Server} {votes : Votes} {env : Env} {id : Uuid} {d : Bytes}
    {accept : Bool} {t : RunningTask} (h : VotedRun s votes) (hserves : env.RepositoryServes)
    (hbefore : ∀ t, lockedTask env s id ≠ .ok (.running t))
    (hafter : (next env (.decideTask id d accept) s).taskCache id = some (.running t)) :
    let latest := record votes (castVote env (.decideTask id d accept) s) id
    (t.taskInfo.taskType = .group →
      ∀ p ∈ t.taskInfo.participants, latest p.device.id = some true) ∧
    (∀ group, groupOf t = some group → group.threshold ≤
      totalShares (t.taskInfo.participants.filter fun p => latest p.device.id = some true)) ∧
    ∀ i device, t.session.communicator.activeShares.lookup i = some device →
      latest device.id = some true := by
  intro latest
  have hinv := reachable_invariant h.served.reachable
  obtain ⟨s', -, ho, hn⟩ := exec_decideTask env id d accept s
  rw [hn] at hafter
  split_ifs at hafter
  · simp [Server.restore] at hafter
  generalize result env (.decideTask id d accept) s = r at ho
  cases ho with
  | notLoaded => exact absurd (lockedTask_ok.mpr (.hit hafter (hserves _ _))) (hbefore t)
  | @loaded e _ g hl hb =>
    have hentry : g.entry = .running t := by simpa [cached] using hafter
    obtain ⟨v, p, m, t₀, activations, hv, hfind, tally, hm, hcon, hctx, hinfo, hsteady⟩ :=
      decide_running hb (fun t' he => hbefore t' (lockedTask_ok.mpr (he ▸ hl))) hentry
    dsimp only at hv
    subst hv
    obtain ⟨row, hrow, hts⟩ := loaded_sync hinv (servedReachable_sync h.served) hl
    obtain ⟨row', hrow', he⟩ := loaded_entry hinv hl
    rw [hrow] at hrow'
    cases hrow'
    obtain ⟨-, -, hvot, hcounted, -⟩ := vote_sync hinv.tables hrow he hts hfind accept
    -- the decisions that were made are those in the rows that the call leaves
    have hstored := decide_votes hinv (votedRun_stored h) hserves hl hb
    have hrows := decide_rows hserves hb
    rw [if_pos (countsVote_of_find hfind)] at hrows
    have hid : id ∈ g.server.db.task := (task_domain hinv hl (.decide hb)).mpr (mem_of_row hrow)
    have happ : ApprovedVotes (s.db.setTaskDecision id d accept) id row
        (v.vote d (voteOf p.shares accept)) latest := by
      refine ⟨tables_setTaskDecision hinv.tables id d accept, hrow, hvot, hcounted,
        fun c hc => hstored.stored id hid c ?_, tally⟩
      rw [decisionColumn, hrows]
      exact hc
    obtain ⟨ps, hperm, hinfo₀⟩ := hcon.info
    have hps : t.taskInfo.participants.Perm
        ((s.db.setTaskDecision id d accept).getTaskParticipants id) := by
      rw [hinfo, hinfo₀]
      exact hperm.trans hvot.info.participants
    have hcontext := hvot.context
    rw [← hcon.context, ← hctx] at hcontext
    refine ⟨fun ht p hp => ?_, fun group hgroup => ?_, fun i device hi => ?_⟩
    · refine happ.unanimous ?_ (hps.mem_iff.mp hp)
      rw [hinfo, hinfo₀] at ht
      exact hvot.info.taskType.symm.trans ht
    · obtain ⟨ht, _, _, hon⟩ :=
        groupOf_onGroup (happ.tables.fixed id row happ.row_of) hcontext hgroup
      have hthr : group.threshold = row.threshold := hon.threshold
      have hsum := ((hps.filter fun p => latest p.device.id = some true).map
        Participant.shares).sum_eq
      rw [hthr, totalShares, hsum]
      exact happ.enough ht
    · rw [hsteady.activeShares, (Communicator.new_ok hcon.communicator).2.2.1] at hi
      exact happ.active hm hi

def replay (env : Env) (ops : List Op) : Server × Votes :=
  ops.foldl (fun p op => (next env op p.1, record p.2 (castVote env op p.1)))
    (initial, fun _ _ => none)

theorem replay_votedRun {env : Env} (hserves : env.RepositoryServes) (ops : List Op) :
    VotedRun (replay env ops).1 (replay env ops).2 := by
  induction ops using List.reverseRecOn with
  | nil => exact .initial
  | append_singleton ops op ih =>
    rw [replay, List.foldl_append]
    exact .step env op ih hserves

omit [External] in
theorem exists_running {o : Option TaskEntry} (h : o.any isRunning) :
    ∃ t, o = some (.running t) := by
  rcases o with _ | (v | t | t | t | t)
  · cases h
  · cases h
  · exact ⟨t, rfl⟩
  · cases h
  · cases h
  · cases h

omit [External] in
theorem not_running {x : Except Stop TaskEntry} (h : x.toOption.any isRunning = false)
    {t : RunningTask} : x ≠ .ok (.running t) := by
  rintro rfl
  cases h

omit [External] in
/-- The group of Alice and Bob starts when Bob accepts it too. -/
theorem decide_task_consent_group :
    ∃ t, (@next plainExternal (servingEnv 100 0) (.decideTask 0 bob.id true)
        (@replay plainExternal (servingEnv 100 0) groupRequested).1).taskCache 0 =
          some (.running t) ∧
      (t.taskInfo.taskType = .group → ∀ p ∈ t.taskInfo.participants,
        record (@replay plainExternal (servingEnv 100 0) groupRequested).2
          (castVote (servingEnv 100 0) (.decideTask 0 bob.id true)
            (@replay plainExternal (servingEnv 100 0) groupRequested).1) 0 p.device.id =
          some true) := by
  have hafter : ((@next plainExternal (servingEnv 100 0) (.decideTask 0 bob.id true)
      (@replay plainExternal (servingEnv 100 0) groupRequested).1).taskCache 0).any isRunning := by
    decide +kernel
  have hbefore : (lockedTask (servingEnv 100 0)
      (@replay plainExternal (servingEnv 100 0) groupRequested).1 0).toOption.any isRunning =
      false := by decide +kernel
  obtain ⟨t, ht⟩ := exists_running hafter
  exact ⟨t, ht, (@decide_task_consent plainExternal _ _ _ _ _ _ _
    (@replay_votedRun plainExternal _ (servingEnv_serves 100 0) groupRequested)
    (servingEnv_serves 100 0) (fun t => not_running hbefore) ht).1⟩

end ConsentSafety

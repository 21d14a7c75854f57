import MeesignServer.PhaseOrder
import MeesignServer.StaleSweep

/-!
# Crashes during a vote

A call of `decide_task` writes the vote, the active shares and the first round one
after the other. Hydration takes a task for running as soon as the stored votes
approve it, so a crash in between leaves a task that cannot be loaded, or one that
no sweep ever picks up.
-/
namespace CrashConsistency

open FallibleProgram FiniteMap DataModel CommunicatorModel ProtocolModel VotingModel
open RunningTaskModel DatabaseModel HydrationModel ServerModel TaskOutcomes ServerOutcomes
open VoteTally TableFrames ServerInvariant HydrationOutcomes InvariantSteps ServerMoves TableSync
open RestartTransparency StaleSweep

/-- A hydrated task goes on by itself unless it runs and no sweep restarts it. -/
def GoesOn (db : Database) (id : Uuid) : TaskEntry → Prop
  | .running _ => id ∈ db.getRestartCandidates
  | _ => True

def Recoverable (db : Database) (id : Uuid) : Prop :=
  ∃ e, hydrateTask db id = .ok e ∧ GoesOn db id e

instance (db : Database) (id : Uuid) : DecidablePred (GoesOn db id)
  | .running _ => inferInstanceAs (Decidable (id ∈ db.getRestartCandidates))
  | .voting _ | .declined _ | .finished _ | .failed _ => inferInstanceAs (Decidable True)

instance (db : Database) (id : Uuid) : Decidable (Recoverable db id) :=
  match h : hydrateTask db id with
  | .ok e => decidable_of_iff (GoesOn db id e) ⟨fun hg => ⟨e, h, hg⟩, fun ⟨e', he, hg⟩ => by
      rw [h] at he
      cases he
      exact hg⟩
  | .error stop => isFalse fun ⟨e, he, _⟩ => by
      rw [h] at he
      cases he

/-- The stored votes do not approve the task, or it has got further already. -/
def Settled (db : Database) (id : Uuid) : Prop :=
  ∀ row, db.task.lookup id = some row →
    (db.taskResult id).isSome ∨ ¬ Approved db id row ∨ Started row

section Hydration

variable {db db' : Database} {id : Uuid} {row : TaskRow}

theorem recoverable_iff (h : Tables db) (hrow : db.task.lookup id = some row) :
    Recoverable db id ↔ Settled db id := by
  have ho := hydrate_outcome h hrow
  constructor
  · rintro ⟨e, he, hgo⟩ row' hrow'
    rw [hrow] at hrow'
    cases hrow'
    rw [he] at ho
    cases ho with
    | finished stored | declined stored | failed stored =>
      left
      rw [stored]
      rfl
    | voting _ votes => exact .inr (.inl (not_le.mpr votes))
    | running => exact .inr (.inr ((mem_candidates hrow).mp hgo).2)
  · intro hs
    by_cases hstarted : Started row ∧ Approved db id row ∧ db.taskResult id = none
    · obtain ⟨hst, happ, hres⟩ := hstarted
      obtain ⟨t, ht, -⟩ := hydrate_started h hrow hst happ hres
      exact ⟨_, ht, (mem_candidates hrow).mpr ⟨hres, hst⟩⟩
    · have hopen : db.taskResult id = none → ¬ Approved db id row := by
        intro hres happ
        rcases hs row hrow with hsome | hna | hst
        · rw [hres] at hsome
          cases hsome
        · exact hna happ
        · exact hstarted ⟨hst, happ, hres⟩
      unfold Recoverable
      generalize hydrateTask db id = x at ho
      cases ho with
      | finished | declined | failed | voting => exact ⟨_, rfl, trivial⟩
      | running stored votes | noCommunicator stored votes | unsupported stored votes =>
        exact absurd votes (hopen stored)

theorem Settled.congr (h : Settled db id) (hv : SameVotes db db' id)
    (htask : db'.task.lookup id = db.task.lookup id) (hres : db'.taskResult id = db.taskResult id) :
    Settled db' id := by
  intro row hrow
  rw [htask] at hrow
  rw [hres, Approved, hv.participants, hv.decisions]
  exact h row hrow

theorem settled_result {result : Except String Bytes} (h : resultWrite id result db = .ok db') :
    Settled db' id := by
  intro row _
  rw [PhaseOrder.resultWrite_row h]
  exact .inl rfl

end Hydration

section Decide

variable [External] {env : Env} {id : Uuid} {d : Bytes} {accept : Bool} {g g' : Guarded}
  {r : Except Stop Unit}

theorem build_settled {v : VotingTask} {chosen : List Device} {db db' : Database}
    {e e' : TaskEntry} (h : Settled db id) (hb : BuildOutcome env id v chosen db e r db' e') :
    Settled db' id := by
  cases hb with
  | notConstructed => exact h
  | notInitialized => exact h
  | certificates _ _ stored =>
    cases stored with
    | served w =>
      cases w.write
      intro row hrow
      right; right; left
      unfold Database.setTaskGroupCertificatesSent Database.modifyTask at hrow
      split at hrow
      · rename_i hnone
        rw [hnone] at hrow
        cases hrow
      · rw [AList.lookup_insert] at hrow
        cases hrow
        rfl
    | fails => exact h
  | nextRound _ init stored =>
    cases stored with
    | served w =>
      cases init with
      | start _ start =>
        cases start with
        | started =>
          obtain ⟨row₀, -, rfl⟩ := setTaskRound_ok w.write
          intro row hrow
          rw [AList.lookup_insert] at hrow
          cases hrow
          exact .inr (.inr (.inr le_rfl))
    | fails => exact h
  | failed _ _ stored =>
    cases stored with
    | served w => exact settled_result w.write
    | fails => exact h

/-- Wherever the call is cut off, it leaves the tables as they were, with the vote, or with the
task further on. -/
theorem decide_settled (h : Settled g.server.db id)
    (h' : ∀ v p, g.entry = .voting v →
      v.taskInfo.participants.find? (fun p => p.device.id = d) = some p →
      Settled (g.server.db.setTaskDecision id d accept) id)
    (ho : DecideOutcome env id d accept g r g') : Settled g'.server.db id := by
  cases ho with
  | notVoting => exact h
  | notParticipant => exact h
  | notStored => exact h
  | undecided hv find => exact h' _ _ hv find
  | declined hv find _ _ stored =>
    cases stored with
    | served w => exact settled_result w.write
    | fails => exact h' _ _ hv find
  | accepted hv find _ _ start =>
    have hvote := h' _ _ hv find
    cases start with
    | notStored _ rest =>
      rw [rest.db]
      exact hvote
    | built w build rest =>
      obtain ⟨-, hactive⟩ := setTaskActiveShares_ok w.write
      rw [rest.db]
      refine build_settled (hvote.congr ?_ ?_ ?_) build
      · rw [hactive]
        exact ⟨rfl, rfl⟩
      · rw [hactive]
      · rw [hactive]

end Decide

def stopsAt (env : Env) : Option RepoCall → Env
  | none => env
  | some call => { env with fault := fun c id => if c = call then .stops else env.fault c id }

theorem stopsAt_self (env : Env) (call : RepoCall) (id : Uuid) :
    (stopsAt env (some call)).fault call id = .stops := if_pos rfl

theorem stopsAt_of_ne {env : Env} {call c : RepoCall} (h : c ≠ call) (id : Uuid) :
    (stopsAt env (some call)).fault c id = env.fault c id := if_neg h

variable [External]

/-- The tables that a process leaves when it stops in front of a call of a vote. -/
def afterVote (env : Env) (call : Option RepoCall) (s : Server) (id : Uuid) (d : Bytes)
    (accept : Bool) : Database :=
  (outcome (exec (stopsAt env call) (.decideTask id d accept)) s).2.db

section Prefixes

variable {env : Env} {s : Server} {id : Uuid} {d : Bytes} {accept : Bool} {row : TaskRow}

theorem afterVote_progress_iff (h : Invariant s) (hrow : s.db.task.lookup id = some row)
    (call : Option RepoCall) : Recoverable (afterVote env call s id d accept) id ↔
      Settled (afterVote env call s id d accept) id := by
  have hop : Op.decideTask id d accept ≠ .restartStaleTasks := nofun
  obtain ⟨hinv, hx⟩ := move_invariant h (exec_move (stopsAt env call) hop s)
  obtain ⟨row', hrow', -⟩ := hx.task id row hrow
  exact recoverable_iff hinv.tables hrow'

theorem afterVote_outcome (env : Env) (call : Option RepoCall) (s : Server) (id : Uuid) (d : Bytes)
    (accept : Bool) : ∃ r t,
    TaskOutcome (stopsAt env call) id (DecideOutcome (stopsAt env call) id d accept) s r t ∧
      afterVote env call s id d accept = t.db :=
  ⟨_, _, decideTask_outcome (stopsAt env call) id d accept s, rfl⟩

def callAfterVote : DecisionUpdate → Option RepoCall
  | .undecided => none
  | .accepted => some .setTaskActiveShares
  | .declined _ => some .setTaskResult

omit [External] in
theorem callAfterVote_serves (hserves : env.RepositoryServes) (id : Uuid)
    (update : DecisionUpdate) (call : RepoCall)
    (hc : call = .hydrateTasks ∨ call = .setTaskDecision) :
    (stopsAt env (callAfterVote update)).fault call id = .served := by
  cases update with
  | undecided => exact hserves call id
  | accepted | declined =>
    refine (stopsAt_of_ne ?_ id).trans (hserves call id)
    rintro rfl
    simp at hc

theorem afterVote_voted {v : VotingTask} {p : Participant} (accept : Bool)
    (hserves : env.RepositoryServes) (hl : Loaded env s id (.voting v))
    (hfind : v.taskInfo.participants.find? (fun p => p.device.id = d) = some p) :
    ∃ call, afterVote env call s id d accept = s.db.setTaskDecision id d accept := by
  refine ⟨callAfterVote (v.vote d (voteOf p.shares accept)).decisionUpdate, ?_⟩
  have hhydrate := callAfterVote_serves hserves id
    (v.vote d (voteOf p.shares accept)).decisionUpdate
  generalize hcall : callAfterVote (v.vote d (voteOf p.shares accept)).decisionUpdate = call
    at hhydrate
  have hl' : Loaded (stopsAt env call) s id (.voting v) := hl.of_served (hhydrate _ (.inl rfl))
  obtain ⟨r, t, ho, hdb⟩ := afterVote_outcome env call s id d accept
  rw [hdb]
  cases ho with
  | notLoaded hn => exact (hl'.not_notLoaded hn).elim
  | @loaded e _ g hle body =>
    cases loaded_unique hl' hle
    cases body with
    | notVoting h => exact absurd rfl (h v)
    | notParticipant h find =>
      cases h
      rw [hfind] at find
      cases find
    | notStored h find w =>
      have hf := hhydrate .setTaskDecision (.inr rfl)
      cases w with
      | fails h => simp [h] at hf
      | stops h => simp [h] at hf
      | refused _ he => cases he
    | undecided => rfl
    | declined h find _ tally stored =>
      cases h
      rw [hfind] at find
      cases find
      rw [tally] at hcall
      cases hcall
      cases stored with
      | served w => exact absurd (w.served.symm.trans (stopsAt_self env _ id)) nofun
      | fails => rfl
    | accepted h find _ tally start =>
      cases h
      rw [hfind] at find
      cases find
      rw [tally] at hcall
      cases hcall
      cases start with
      | notStored _ rest => exact rest.db
      | built w => exact absurd (w.served.symm.trans (stopsAt_self env _ _)) nofun

/-- Wherever a vote is cut off, hydration finds a task that goes on, if and only if neither the
stored votes nor the stored votes with this one approve the task, or the task has got further. -/
theorem vote_crash_consistent (hs : Reachable s) (hserves : env.RepositoryServes)
    (hrow : s.db.task.lookup id = some row) :
    (∀ call, Recoverable (afterVote env call s id d accept) id) ↔
      Settled s.db id ∧ ∀ v p, Loaded env s id (.voting v) →
        v.taskInfo.participants.find? (fun p => p.device.id = d) = some p →
        Settled (s.db.setTaskDecision id d accept) id := by
  have hinv := reachable_invariant hs
  constructor
  · intro hall
    refine ⟨?_, fun v p hl hfind => ?_⟩
    · -- in front of the first write
      have hfirst := (afterVote_progress_iff hinv hrow _).mp (hall (some .setTaskDecision))
      obtain ⟨r, t, ho, hdb⟩ := afterVote_outcome env (some .setTaskDecision) s id d accept
      rw [hdb] at hfirst
      have hstops := stopsAt_self env .setTaskDecision id
      cases ho with
      | notLoaded => exact hfirst
      | @loaded e _ g hle body =>
        cases body with
        | notVoting | notParticipant | notStored => exact hfirst
        | undecided _ _ served | declined _ _ served | accepted _ _ served =>
          rw [served] at hstops
          cases hstops
    · obtain ⟨call, hdb⟩ := afterVote_voted accept hserves hl hfind
      rw [← hdb]
      exact (afterVote_progress_iff hinv hrow call).mp (hall call)
  · rintro ⟨hbefore, hafter⟩ call
    rw [afterVote_progress_iff hinv hrow]
    obtain ⟨r, t, ho, hdb⟩ := afterVote_outcome env call s id d accept
    rw [hdb]
    cases ho with
    | notLoaded => exact hbefore
    | @loaded e _ g hle body =>
      refine decide_settled (g := ⟨e, cached s id e⟩) hbefore (fun v p hv hfind => ?_) body
      cases hv
      exact hafter v p (hle.of_served (hserves _ _)) hfind

omit [External] in
/-- Alice's vote leaves the task of the group open, whether it is cut off or not. -/
theorem vote_crash_consistent_open :
    Recoverable (@afterVote plainExternal (servingEnv 0 0) (some .setTaskDecision)
      (@runOps plainExternal initial (servedOps 0 0 (groupRequested.take 3))) 0 alice.id true) 0 ∧
    Recoverable (@afterVote plainExternal (servingEnv 0 0) none
      (@runOps plainExternal initial (servedOps 0 0 (groupRequested.take 3))) 0 alice.id true)
      0 := by
  have hreach := @reachable_later plainExternal _ _ (@Reachable.initial plainExternal)
    (@later_runOps plainExternal initial (servedOps 0 0 (groupRequested.take 3)))
  have htables := (@reachable_invariant plainExternal _ hreach).tables
  have hmem : 0 ∈ (@runOps plainExternal initial
    (servedOps 0 0 (groupRequested.take 3))).db.task := by decide +kernel
  obtain ⟨row, hrow⟩ := exists_row hmem
  have hbefore : Recoverable (@runOps plainExternal initial
    (servedOps 0 0 (groupRequested.take 3))).db 0 := by decide +kernel
  have hafter : Recoverable ((@runOps plainExternal initial
    (servedOps 0 0 (groupRequested.take 3))).db.setTaskDecision 0 alice.id true) 0 := by
    decide +kernel
  have hall := (@vote_crash_consistent plainExternal (servingEnv 0 0) _ 0 alice.id true row hreach
    (servingEnv_serves 0 0) hrow).mpr ⟨(recoverable_iff htables hrow).mp hbefore, fun _ _ _ _ =>
      (recoverable_iff (TableWrites.tables_setTaskDecision htables 0 alice.id true) hrow).mp hafter⟩
  exact ⟨hall _, hall _⟩

omit [External] in
/-- Bob's vote approves the group. A crash after the vote leaves a task that cannot be loaded,
a crash after the active shares one that runs and is never restarted. -/
theorem approving_vote_is_torn :
    ¬ Recoverable (@afterVote plainExternal (servingEnv 0 0) (some .setTaskActiveShares)
      (@runOps plainExternal initial (servedOps 0 0 groupRequested)) 0 bob.id true) 0 ∧
    ¬ Recoverable (@afterVote plainExternal (servingEnv 0 0) (some .setTaskGroupCertificatesSent)
      (@runOps plainExternal initial (servedOps 0 0 groupRequested)) 0 bob.id true) 0 ∧
    @result plainExternal (servingEnv 0 0) (.decideTask 0 bob.id true)
      (@runOps plainExternal initial (servedOps 0 0 groupRequested)) = .ok () := by
  refine ⟨?_, ?_, ?_⟩ <;> decide +kernel

end Prefixes

end CrashConsistency

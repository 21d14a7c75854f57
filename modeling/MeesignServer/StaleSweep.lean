import MeesignServer.RestartTransparency

/-!
# The sweep over stale tasks

The candidates of the sweep come from a filter over the tables. While no call is
cut off, they are exactly the running tasks.
-/
namespace StaleSweep

open FallibleProgram FiniteMap DataModel ProtocolModel VotingModel RunningTaskModel
open DatabaseModel HydrationModel ServerModel TaskOutcomes ServerOutcomes
open TableFrames ServerInvariant HydrationOutcomes ServerMoves TableSync SyncRuns
open RestartTransparency

/-- The task that the next request for an id finds, unless reading it fails. -/
def currentTask (s : Server) (id : Uuid) : Option TaskEntry :=
  match s.taskCache id with
  | some e => some e
  | none => (hydrateTask s.db id).toOption

section Candidates

variable {db : Database} {id : Uuid} {row : TaskRow} {e : TaskEntry} {strict : Prop}

theorem mem_candidates (hrow : db.task.lookup id = some row) :
    id ∈ db.getRestartCandidates ↔ db.taskResult id = none ∧ Started row := by
  have hmem : id ∈ db.task.keys := AList.mem_keys.mpr (mem_of_row hrow)
  rw [Database.getRestartCandidates, (List.perm_insertionSort _ _).mem_iff, List.mem_filter,
    and_iff_right hmem]
  simp only [Database.isRestartCandidate, hrow, Bool.and_eq_true, Option.isNone_iff_eq_none,
    Bool.or_eq_true, beq_iff_eq, decide_eq_true_eq, Started]

theorem row_of_candidate (h : id ∈ db.getRestartCandidates) :
    ∃ row, db.task.lookup id = some row := by
  rw [Database.getRestartCandidates, (List.perm_insertionSort _ _).mem_iff, List.mem_filter] at h
  exact exists_row (AList.mem_keys.mp h.1)

theorem running_iff_candidate (hrow : db.task.lookup id = some row)
    (h : TaskSync True db id row e) : isRunning e ↔ id ∈ db.getRestartCandidates := by
  rw [mem_candidates hrow]
  cases h.phase with
  | voting _ waits _ => exact iff_of_false Bool.false_ne_true fun hc => waits hc.2
  | running pending _ started _ => exact iff_of_true rfl ⟨pending, started trivial⟩
  | declined stored | finished stored | failed stored =>
    refine iff_of_false Bool.false_ne_true ?_
    rw [stored]
    rintro ⟨⟨⟩, _⟩

end Candidates

variable [External]

/-- The filter over the tables selects a task if and only if it is running. -/
theorem candidates_are_running {s : Server} (h : SmoothRun s) (id : Uuid) :
    id ∈ s.db.getRestartCandidates ↔ ∃ t, currentTask s id = some (.running t) := by
  have hinv := reachable_invariant h.reachable
  have hsync := smoothRun_sync h
  have hrunning : ∀ e, isRunning e ↔ ∃ t, e = .running t := by
    intro e
    cases e <;> simp [isRunning]
  unfold currentTask
  cases hc : s.taskCache id with
  | some e =>
    obtain ⟨row, hrow, hs⟩ := hsync.cache id e hc
    simp only [Option.some.injEq]
    rw [← running_iff_candidate hrow hs, hrunning]
  | none =>
    constructor
    · intro hm
      obtain ⟨row, hrow⟩ := row_of_candidate hm
      obtain ⟨pending, started⟩ := (mem_candidates hrow).mp hm
      have ha := (hsync.rows id row hrow).started started
      obtain ⟨t, ht, -⟩ := hydrate_started hinv.tables hrow started ha pending
      exact ⟨t, by rw [ht]; rfl⟩
    · rintro ⟨t, ht⟩
      have hh : hydrateTask s.db id = .ok (.running t) := by
        cases hx : hydrateTask s.db id with
        | error stop => simp [hx, Except.toOption] at ht
        | ok e =>
          simp only [hx, Except.toOption, Option.some.injEq] at ht
          rw [ht]
      obtain ⟨row, hrow⟩ := hydrate_row hh
      have hs := hydrated_sync hinv.tables hrow (hsync.rows id row hrow) hh
      exact (running_iff_candidate hrow hs).mp rfl

omit [External] in
/-- An established group and a signature on it, before and after a new process starts. -/
theorem candidates_are_running_signing :
    (1 ∈ (@runOps plainExternal initial
      (signing ++ servedOps 100 0 [.restartServer])).db.getRestartCandidates ↔
      ∃ t, currentTask (@runOps plainExternal initial
        (signing ++ servedOps 100 0 [.restartServer])) 1 = some (.running t)) ∧
    1 ∈ (@runOps plainExternal initial
      (signing ++ servedOps 100 0 [.restartServer])).db.getRestartCandidates := by
  have hsmooth : @runsSmoothly plainExternal initial
      (signing ++ servedOps 100 0 [.restartServer]) := by decide +kernel
  exact ⟨@candidates_are_running plainExternal _
    (@smoothRun_runOps plainExternal _ _ (@SmoothRun.initial plainExternal) hsmooth) 1,
    by decide +kernel⟩

end StaleSweep

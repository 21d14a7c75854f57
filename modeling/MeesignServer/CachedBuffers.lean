import MeesignServer.BufferInvariant
import MeesignServer.PhaseOrder

/-!
# Communicators of running tasks

A rule for properties of single cached tasks: what holds of new and of hydrated tasks and
is kept under the lock holds of every task that an operation finds. By this rule the
communicator of a running task is always one that was built by `Communicator::new` and
changed by its own methods.
-/
namespace CachedBuffers

open FallibleProgram FiniteMap DataModel CommunicatorModel ProtocolModel VotingModel
open RunningTaskModel DatabaseModel HydrationModel ServerModel TaskOutcomes ServerOutcomes
open ServerInvariant HydrationOutcomes TaskStart ServerMoves PhaseOrder BufferInvariant

variable [External]

section Rule

variable {P : TaskEntry → Prop} {env : Env} {op : Op} {s s' : Server} {id : Uuid} {e : TaskEntry}
  {r : Except Stop Unit}

structure EntryRule (P : TaskEntry → Prop) : Prop where
  voting : ∀ v, P (.voting v)
  hydrated : ∀ db id e, Tables db → hydrateTask db id = .ok e → P e
  body : ∀ env op id g r g', BodyOutcome env op id g r g' → P g.entry → P g'.entry

def AllCached (P : TaskEntry → Prop) (s : Server) : Prop := ∀ id e, s.taskCache id = some e → P e

theorem EntryRule.loaded (h : EntryRule P) (hi : Invariant s) (hc : AllCached P s)
    (hl : Loaded env s id e) : P e := by
  cases hl with
  | hit hit => exact hc id e hit
  | hydrated _ _ hh => exact h.hydrated s.db id e hi.tables hh

omit [External] in
theorem AllCached.insert (hc : AllCached P s) (hs : ∀ j, j ≠ id → s'.taskCache j = s.taskCache j)
    (he : P e) : AllCached P (ServerOutcomes.cached s' id e) := by
  intro j e' he'
  by_cases hj : j = id
  · subst hj
    rw [cached_self] at he'
    cases he'
    exact he
  · rw [cached_of_ne hj, hs j hj] at he'
    exact hc j e' he'

theorem EntryRule.move (h : EntryRule P) (hi : Invariant s) (hc : AllCached P s)
    (m : Move env op s r s') : AllCached P s' := by
  cases m with
  | refused => exact hc
  | aside ha =>
    intro id e he
    rw [ha.taskCache] at he
    exact hc id e he
  | addDevice w => exact hc
  | @addTask v db admitted w => exact hc.insert (fun _ _ => rfl) (h.voting v)
  | restart =>
    intro id e he
    cases he
  | @task id e _ g loaded body =>
    apply hc.insert
    · intro j hj
      rw [(task_sound hi loaded body).taskCache]
      exact Function.update_of_ne hj _ _
    · exact h.body env op id _ _ _ body (h.loaded hi hc loaded)

theorem EntryRule.next (h : EntryRule P) (hi : Invariant s) (hc : AllCached P s) (env : Env)
    (op : Op) : AllCached P (ServerModel.next env op s) := by
  obtain ⟨t, hruns, hnext⟩ := next_runs env op s hi
  have hkeep : Invariant t ∧ AllCached P t := by
    refine hruns.keeps (P := fun t => Invariant t ∧ AllCached P t) ?_ ⟨hi, hc⟩
    rintro a _ b ⟨ha, hca⟩ m
    exact ⟨(move_invariant ha m).1, h.move ha hca m⟩
  rw [hnext]
  split_ifs
  · intro id e he
    cases he
  · exact hkeep.2

theorem EntryRule.reachable (h : EntryRule P) (hs : Reachable s) : AllCached P s := by
  induction hs with
  | initial =>
    intro id e he
    cases he
  | step env op hs ih => exact h.next (reachable_invariant hs) ih env op

theorem EntryRule.found (h : EntryRule P) (hs : Reachable s) (hl : Loaded env s id e) : P e :=
  h.loaded (reachable_invariant hs) (h.reachable hs) hl

end Rule

section Methods

variable {t t' : RunningTask} {u : Except Stop RoundUpdate} {d : Bytes}
  {messages : List ClientMessage}

theorem start_built (ho : StartOutcome t u t') (h : Built t.session.communicator) :
    Built t'.session.communicator := by
  cases ho with
  | started data kept session =>
    rw [session]
    exact h.step (.sendAll _)
  | failed => exact h
  | broke => exact h

theorem round_built (ho : RoundOutcome t u t') (h : Built t.session.communicator) :
    Built t'.session.communicator := by
  cases ho with
  | listen => exact h
  | start _ _ start => exact start_built start h
  | advance _ _ _ _ session =>
    rw [session]
    exact h.step .relay
  | final _ _ final =>
    cases final with
    | finished _ session =>
      rw [session]
      exact h.step .clearInput
    | failed _ _ session =>
      rw [session]
      exact h
    | broke _ _ session =>
      rcases session with session | session
      · rw [session]
        exact h
      · rw [session]
        exact h.step .clearInput

theorem update_built (ho : UpdateOutcome d messages t u t') (h : Built t.session.communicator) :
    Built t'.session.communicator := by
  cases ho with
  | notWaiting => exact h
  | broke => exact h
  | received _ _ receive _ session round =>
    apply round_built round
    rw [session]
    exact h.step (.receive receive)

theorem restart_built (ho : RestartOutcome t u t') (h : Built t.session.communicator) :
    Built t'.session.communicator := by
  cases ho with
  | broke => exact h
  | again _ _ _ session start =>
    apply start_built start
    rw [session]
    exact h

theorem initialize_built (ho : InitializeOutcome t u t') (h : Built t.session.communicator) :
    Built t'.session.communicator := by
  cases ho with
  | certificates f _ _ _ _ session =>
    rw [session]
    exact h.step (.sendAll f)
  | start _ start => exact start_built start h

end Methods

section Cached

variable {env : Env} {s : Server} {id : Uuid}

def BuiltEntry : TaskEntry → Prop
  | .running t => Built t.session.communicator
  | _ => True

theorem construct_built {v : VotingTask} {chosen : List Device} {t : RunningTask}
    (h : construct v chosen = .ok t) : Built t.session.communicator := by
  obtain ⟨m, -, hcon⟩ := construct_ok h
  exact ⟨_, _, _, _, hcon.communicator, .refl⟩

theorem record_builtEntry {t : RunningTask} {db db' : Database} {u : Except Stop RoundUpdate}
    {r : Except Stop Unit} {e : TaskEntry} (h : RecordOutcome env id t db u r db' e)
    (ht : Built t.session.communicator) : BuiltEntry e := by
  rcases record_phase h with rfl | ⟨f, rfl⟩ | ⟨f, rfl⟩
  · exact ht
  · trivial
  · trivial

theorem build_builtEntry {v : VotingTask} {chosen : List Device} {db db' : Database}
    {r : Except Stop Unit} {e e' : TaskEntry} (h : BuildOutcome env id v chosen db e r db' e')
    (he : BuiltEntry e) : BuiltEntry e' := by
  cases h with
  | notConstructed => exact he
  | notInitialized => exact he
  | certificates hcon init stored =>
    cases stored with
    | served => exact initialize_built init (construct_built hcon)
    | fails => exact he
  | nextRound hcon init stored =>
    cases stored with
    | served => exact initialize_built init (construct_built hcon)
    | fails => exact he
  | failed _ _ stored =>
    cases stored with
    | served => trivial
    | fails => exact he

theorem body_builtEntry {op : Op} {g g' : Guarded} {r : Except Stop Unit}
    (h : BodyOutcome env op id g r g') (hg : BuiltEntry g.entry) : BuiltEntry g'.entry := by
  cases h with
  | decide h =>
    cases h with
    | notVoting => exact hg
    | notParticipant => exact hg
    | notStored => trivial
    | undecided => trivial
    | declined _ _ _ _ stored => cases stored <;> trivial
    | accepted _ _ _ _ start =>
      cases start with
      | notStored => trivial
      | built _ build => exact build_builtEntry build trivial
  | update h =>
    cases h with
    | notRunning => exact hg
    | stale => exact hg
    | updated ht _ update record =>
      rw [ht] at hg
      exact record_builtEntry record (update_built update hg)
  | restart _ h =>
    cases h with
    | notRunning => exact hg
    | notStored => exact hg
    | restarted ht _ restart record =>
      rw [ht] at hg
      exact record_builtEntry record (restart_built restart hg)
  | acknowledge h =>
    cases h with
    | notFinished => exact hg
    | acknowledged _ hack stored =>
      subst hack
      cases stored <;> trivial
  | read => exact hg

theorem hydrated_builtEntry {db : Database} {e : TaskEntry} (h : Tables db)
    (hh : hydrateTask db id = .ok e) : BuiltEntry e := by
  obtain ⟨row, hrow⟩ := hydrate_row hh
  have ho := hydrate_outcome h hrow
  rw [hh] at ho
  cases ho with
  | running _ _ communicator =>
    obtain ⟨m, -, -, hnew⟩ := hydrateCommunicator_spec h hrow
    rw [hnew] at communicator
    exact ⟨_, _, _, _, communicator, .refl⟩
  | voting | finished | declined | failed => trivial

theorem builtEntry_rule : EntryRule BuiltEntry where
  voting _ := trivial
  hydrated _ _ _ h hh := hydrated_builtEntry h hh
  body _ _ _ _ _ _ h hg := body_builtEntry h hg

theorem found_whole {t : RunningTask} (hs : Reachable s) (hl : Loaded env s id (.running t)) :
    Whole t.session.communicator :=
  built_whole (builtEntry_rule.found hs hl)

end Cached

end CachedBuffers

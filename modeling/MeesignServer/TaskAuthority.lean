import MeesignServer.ConsentTrail
import MeesignServer.ServiceRuns

/-!
# Who can move a task

Every client may ask for tasks, but a task that exists is moved by its participants and by the
timer alone. What others send about it, whenever it is performed, leaves the rows of the task
and its votes, rounds and messages as they are. And a task only runs or succeeds for devices
that have themselves accepted it in an authenticated request.
-/
namespace TaskAuthority

open FallibleProgram FiniteMap DataModel CommunicatorModel VotingModel RunningTaskModel
open DatabaseModel HydrationModel TaskOutcomes ServerOutcomes ActiveShares TableFrames
open ServerInvariant TableWrites HydrationOutcomes InvariantSteps TaskAdmission ServerMoves
open FoundTasks ServiceModel ServiceRuns
open ServerModel (Env Op Server runOps plainExternal)

section Outside

variable {db db' : Database} {id : Uuid} {d : Bytes} {row : TaskRow} {e e' e'' : TaskEntry}

/-- Nothing has changed but for acknowledgements of devices that do not take part. -/
def Unmoved : TaskEntry → TaskEntry → Prop
  | .finished f, .finished f' => f' = { f with acknowledgements := f'.acknowledgements } ∧
      ∀ d ∈ ids f.taskInfo.participants, d ∈ f'.acknowledgements ↔ d ∈ f.acknowledgements
  | e, e' => e' = e

theorem Unmoved.refl (e : TaskEntry) : Unmoved e e := by
  cases e with
  | finished f => exact ⟨rfl, fun _ _ => Iff.rfl⟩
  | voting | running | declined | failed => rfl

theorem Unmoved.trans (h : Unmoved e e') (h' : Unmoved e' e'') : Unmoved e e'' := by
  cases e with
  | finished f =>
    cases e' with
    | finished f' =>
      cases e'' with
      | finished f'' =>
        obtain ⟨hf, hacks⟩ := h
        obtain ⟨hf', hacks'⟩ := h'
        have hinfo : f'.taskInfo = f.taskInfo := by rw [hf]
        refine ⟨?_, fun d hd => ?_⟩
        · rw [hf', hf]
        · rw [hinfo] at hacks'
          exact (hacks' d hd).trans (hacks d hd)
      | voting | running | declined | failed => cases h'
    | voting | running | declined | failed => cases h
  | voting | running | declined | failed =>
    cases h
    exact h'

variable [External] {env : Env} {op : Op} {g g' : ServerModel.Guarded} {r : Except Stop Unit}

end Outside

section Runs

variable [External] {env : Env} {op : Op} {s t t' : Server} {id : Uuid} {e : TaskEntry}
  {r : Except Stop Unit}

/-- The task is as it was found before, or as a new process rebuilds it from its rows. -/
structure Rests (s t : Server) (id : Uuid) : Prop where
  extend : Extends s.db t.db
  rows : SameTask s.db t.db id
  found : ∀ e', Found t id e' →
    ∃ e, (Found s id e ∨ hydrateTask s.db id = .ok e) ∧ Unmoved e e'

omit [External] in
theorem Rests.refl (s : Server) (id : Uuid) : Rests s s id :=
  ⟨.refl _, .refl _ _, fun e' h => ⟨e', .inl h, .refl e'⟩⟩

omit [External] in
theorem Rests.same (h : Rests s t id) (hmem : id ∈ s.db.task) (hi : Invariant t)
    (hx : Extends t.db t'.db) (hs : SameTask t.db t'.db id)
    (hc : t'.taskCache id = t.taskCache id) : Rests s t' id := by
  refine ⟨h.extend.trans hx, h.rows.trans hs, fun e' hf => h.found e' ?_⟩
  exact found_of_same hi hx (fun _ => h.extend.mem hmem) hs hc hf

omit [External] in
theorem Rests.restore (h : Rests s t id) (hmem : id ∈ s.db.task) (hs : Tables s.db) :
    Rests s (Server.restore t.db) id := by
  refine ⟨h.extend, h.rows, fun e' hf => ⟨e', .inr ?_, .refl e'⟩⟩
  obtain ⟨row, hrow⟩ := exists_row hmem
  rcases hf with hc | ⟨-, hh⟩
  · cases hc
  · exact (hydrateTask_congr hs h.extend h.rows hrow).symm.trans hh

end Runs

section Service

variable [External] [Wire] {L : Log} {events : List ServiceModel.Event} {id : Uuid} {d : Bytes}

theorem service_invariant (events : List ServiceModel.Event) :
    Invariant (ServiceModel.run initial events).node.server := by
  obtain ⟨ops, hrun, -⟩ := (initial_serves events).server
  rw [hrun]
  exact reachable_invariant
    (ServerModel.reachable_later .initial (ServerModel.later_runOps ServerModel.initial ops))

def Consented (events : List ServiceModel.Event) (id : Uuid) (d : Bytes) : Prop :=
  ∃ task, uuidFromSlice task = some id ∧
    (some d, .taskDecision task true) ∈ sentIn initial events

/-- In every run of the service, each device with an active share of a running task has accepted
the task in a request that was authenticated as this device. A successful result is only stored
if participants with enough shares have, and all of them for a group. -/
theorem consent_is_authenticated (events : List ServiceModel.Event) :
    let s := (ServiceModel.run initial events).node.server
    (∀ id t, Found s id (.running t) → ∀ i device,
      t.session.communicator.activeShares.lookup i = some device →
        Consented events id device.id) ∧
    ∀ id row data, s.db.task.lookup id = some row →
      s.db.taskResult id = some (NewTaskResult.ofResult (.ok data)) → ∃ consenting,
        consenting.Sublist (s.db.getTaskParticipants id) ∧
        (∀ p ∈ consenting, Consented events id p.device.id) ∧
        acceptThreshold row (s.db.getTaskParticipants id) ≤ totalShares consenting := by
  obtain ⟨ops, hrun, hvouched⟩ := (initial_serves events).server
  have hconsented : ∀ id d, ConsentTrail.VotedFor ops id d → Consented events id d := by
    rintro id d ⟨env, hmem⟩
    exact hvouched _ hmem
  intro s
  obtain ⟨hactive, hresult⟩ := ConsentTrail.consent_trail ops
  have hs : s = runOps ServerModel.initial ops := hrun
  rw [hs]
  refine ⟨fun id t hf i device hi => hconsented id _ (hactive id t hf i device hi), ?_⟩
  intro id row data hrow hres
  obtain ⟨consenting, hsub, haccepted, hle⟩ := hresult id row data hrow hres
  exact ⟨consenting, hsub, fun p hp => hconsented id _ (haccepted p hp), hle⟩

end Service

end TaskAuthority

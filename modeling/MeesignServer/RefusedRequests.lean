import MeesignServer.ClientMessages
import MeesignServer.SweepSchedule

/-!
# Refused requests

`update_task` and `decide_task` record the time of a request before they look at it. A
request that is refused afterwards has already moved the moment from which the sweep
restarts the task.
-/
namespace RefusedRequests

open FallibleProgram FiniteMap DataModel CommunicatorModel VotingModel RunningTaskModel
open ServerModel TaskOutcomes ServerOutcomes SweepSchedule AcknowledgedUpdates ResultAgreement
open ClientMessages DatabaseModel

variable [External]

section Refusals

/-- A request that the server refuses for its attempt or for its sender. -/
inductive Refused (env : Env) (s : Server) : Op → Uuid → Prop where
  | stale {id : Uuid} {t : RunningTask} {d : Bytes} {messages : List ClientMessage} {attempt : ℕ}
      (found : lockedTask env s id = .ok (.running t)) (ne : attempt ≠ t.taskInfo.attempts) :
      Refused env s (.updateTask id d messages attempt) id
  | notWaiting {id : Uuid} {t : RunningTask} {d : Bytes} {messages : List ClientMessage}
      {attempt : ℕ} (found : lockedTask env s id = .ok (.running t))
      (h : t.waitingFor d = false) : Refused env s (.updateTask id d messages attempt) id
  | notParticipant {id : Uuid} {v : VotingTask} {d : Bytes} {accept : Bool}
      (found : lockedTask env s id = .ok (.voting v))
      (h : ∀ p ∈ v.taskInfo.participants, p.device.id ≠ d) :
      Refused env s (.decideTask id d accept) id

variable {env : Env} {s : Server} {op : Op} {id : Uuid}

omit [External] in
theorem target_refused (h : Refused env s op id) : target op = some id := by
  cases h <;> rfl

def OnlyTouches (env : Env) (id : Uuid) (g : Guarded)
    (r : Except Stop Unit) (g' : Guarded) : Prop :=
  (∃ e, r = .error (.err e)) ∧ g' = ⟨g.entry, touched env id g.server⟩

theorem update_notWaiting {t : RunningTask} {d : Bytes} {messages : List ClientMessage}
    {helper : Helper} {helpers : PdfHelpers} (h : t.waitingFor d = false) :
    post (RunningTask.update helper d messages) ⟨t, helpers⟩ fun r runner =>
      r = .error notWaiting ∧ runner = ⟨t, helpers⟩ := by
  rw [← post_updateIn_same, post_updateIn, h]
  exact ⟨rfl, rfl⟩

theorem updateEntry_refused {t : RunningTask} {d : Bytes} {messages : List ClientMessage}
    {attempt : ℕ} (h : attempt ≠ t.taskInfo.attempts ∨ t.waitingFor d = false) :
    post (updateEntry env id d messages attempt) ⟨.running t, s⟩
      (OnlyTouches env id ⟨.running t, s⟩) := by
  simp only [updateEntry, post_bind, post_get, onServer, post_zoom, setTaskLastUpdate, post_modify]
  by_cases hattempt : attempt = t.taskInfo.attempts
  · rcases h with hne | hwaiting
    · exact absurd hattempt hne
    · simp only [hattempt, ne_eq, not_true_eq_false, ↓reduceIte, post_bind, onRunning, post_zoom]
      refine post_mono (update_notWaiting hwaiting) fun r runner hr => ?_
      obtain ⟨rfl, rfl⟩ := hr
      exact ⟨⟨_, rfl⟩, rfl⟩
  · simp only [hattempt, ne_eq, not_false_eq_true, ↓reduceIte]
    exact ⟨⟨_, rfl⟩, rfl⟩

theorem decideEntry_refused {v : VotingTask} {d : Bytes} {accept : Bool}
    (h : ∀ p ∈ v.taskInfo.participants, p.device.id ≠ d) :
    post (decideEntry env id d accept) ⟨.voting v, s⟩ (OnlyTouches env id ⟨.voting v, s⟩) := by
  have hfind : v.taskInfo.participants.find? (fun p => p.device.id = d) = none := by
    rw [List.find?_eq_none]
    intro p hp hd
    exact h p hp (of_decide_eq_true hd)
  simp only [decideEntry, post_bind, post_get, onServer, post_zoom, setTaskLastUpdate, post_modify,
    VotingTask.decide, hfind, post_fromExcept, Except.mapError]
  exact ⟨⟨_, rfl⟩, rfl⟩

omit [External] in
theorem post_withTaskMut {e : TaskEntry} {m : EStateM Stop Guarded Unit}
    {Q : Except Stop Unit → Server → Prop} (hl : Loaded env s id e) :
    post (withTaskMut env id m) s Q ↔
      post m ⟨e, cached s id e⟩ fun r g => Q r (cached g.server id g.entry) := by
  have hrun : outcome (withTaskMut env id m) s = outcome (zoom (fun s => (⟨e, s⟩ : Guarded))
      (fun _ g => cached g.server id g.entry) m) (cached s id e) := by
    rw [outcome, withTaskMut_loaded hl, outcome]
  unfold post
  rw [hrun]
  exact post_zoom (fun s => (⟨e, s⟩ : Guarded)) (fun _ g => cached g.server id g.entry) m

omit [External] in
theorem withTaskMut_touches {e : TaskEntry} {m : EStateM Stop Guarded Unit}
    (hl : Loaded env s id e)
    (h : post m ⟨e, cached s id e⟩ (OnlyTouches env id ⟨e, cached s id e⟩)) :
    post (withTaskMut env id m) s fun r s' =>
      (∃ e, r = .error (.err e)) ∧ s' = touched env id (cached s id e) := by
  rw [post_withTaskMut hl]
  refine post_mono h fun r g hg => ?_
  obtain ⟨herr, rfl⟩ := hg
  refine ⟨herr, ?_⟩
  unfold cached touched
  simp only [Function.update_idem]

theorem exec_refused (h : Refused env s op id) : ∃ e, lockedTask env s id = .ok e ∧
    post (exec env op) s fun r s' =>
      (∃ err, r = .error (.err err)) ∧ s' = touched env id (cached s id e) := by
  cases h with
  | stale found ne =>
    refine ⟨_, found, withTaskMut_touches (lockedTask_ok.mp found) ?_⟩
    exact updateEntry_refused (.inl ne)
  | notWaiting found h =>
    refine ⟨_, found, withTaskMut_touches (lockedTask_ok.mp found) ?_⟩
    exact updateEntry_refused (.inr h)
  | notParticipant found h =>
    refine ⟨_, found, withTaskMut_touches (lockedTask_ok.mp found) ?_⟩
    exact decideEntry_refused h

theorem next_refused (h : Refused env s op id) : ∃ e, lockedTask env s id = .ok e ∧
    (∃ err, result env op s = .error (.err err)) ∧
    next env op s = touched env id (cached s id e) := by
  obtain ⟨e, he, ⟨err, herr⟩, hstate⟩ := exec_refused h
  have hresult : result env op s = .error (.err err) := herr
  have hcrash : result env op s ≠ .error .crash := by
    rw [hresult]
    exact nofun
  refine ⟨e, he, ⟨err, hresult⟩, ?_⟩
  rw [next_eq, if_neg hcrash]
  exact hstate

omit [External] in
theorem touched_cached_iff {e : TaskEntry} (he : lockedTask env s id = .ok e) :
    touched env id (cached s id e) = s ↔
      (s.taskCache id).isSome ∧ s.taskLastUpdates id = some env.now := by
  constructor
  · intro h
    constructor
    · rw [← h]
      change ((cached s id e).taskCache id).isSome
      rw [cached_self]
      rfl
    · rw [← h]
      exact Function.update_self ..
  · rintro ⟨hcache, htime⟩
    obtain ⟨e', he'⟩ := Option.isSome_iff_exists.mp hcache
    have hl := lockedTask_ok.mp he
    have heq : e' = e := loaded_unique (.hit he' hl.served) hl
    subst heq
    unfold touched cached
    rw [← he', ← htime]
    simp only [Function.update_eq_self]

end Refusals

section Runs

/-- Requests of any kind, at any times, each of which is refused when it arrives. -/
inductive RefusedRun : Server → List (Env × Op) → Prop where
  | nil {s : Server} : RefusedRun s []
  | cons {s : Server} {env : Env} {op : Op} {id : Uuid} {calls : List (Env × Op)}
      (refused : Refused env s op id) (rest : RefusedRun (next env op s) calls) :
      RefusedRun s ((env, op) :: calls)

def callTimes (id : Uuid) (calls : List (Env × Op)) : List ℕ :=
  calls.filterMap fun call => if target call.2 = some id then some call.1.now else none

/-- The sweep restarts the task from this second on. -/
def eligibleFrom (s : Server) (id : Uuid) : Option ℕ := (s.taskLastUpdates id).map (· + 31)

variable {s : Server} {calls : List (Env × Op)} {id : Uuid}

/-- The last update of a task after refused requests is the last of them. -/
theorem lastUpdate_refused (h : RefusedRun s calls) : (runOps s calls).taskLastUpdates id =
    (callTimes id calls).getLast?.or (s.taskLastUpdates id) := by
  induction h with
  | nil => rfl
  | @cons s env op j calls refused rest ih =>
    obtain ⟨e, -, -, hnext⟩ := next_refused refused
    have htarget := target_refused refused
    change (runOps (next env op s) calls).taskLastUpdates id = _
    rw [ih, hnext]
    by_cases hj : j = id
    · subst hj
      have htimes : callTimes j ((env, op) :: calls) = env.now :: callTimes j calls := by
        simp only [callTimes, List.filterMap_cons, htarget, ↓reduceIte]
      have htouched : (touched env j (cached s j e)).taskLastUpdates j = some env.now :=
        Function.update_self ..
      rw [htimes, htouched, List.getLast?_cons]
      cases (callTimes j calls).getLast? <;> rfl
    · have hne : target op ≠ some id := by
        rw [htarget]
        exact fun h => hj (Option.some.inj h)
      have htimes : callTimes id ((env, op) :: calls) = callTimes id calls := by
        simp only [callTimes, List.filterMap_cons, hne, ↓reduceIte]
      have htouched : (touched env j (cached s j e)).taskLastUpdates id = s.taskLastUpdates id :=
        Function.update_of_ne (Ne.symm hj) ..
      rw [htimes, htouched]

omit [External] in
theorem eligibleFrom_eq_iff {s' : Server} :
    eligibleFrom s' id = eligibleFrom s id ↔ s'.taskLastUpdates id = s.taskLastUpdates id := by
  unfold eligibleFrom
  constructor
  · intro h
    exact Option.map_injective (add_left_injective 31) h
  · intro h
    rw [h]

/-- A refused request leaves the server as it was exactly when the task is cached and its last
update was in the same second. After a run of refused requests, the moment from which a task is
restarted is the same exactly when the last of those requests for it came in the second of its
last update. -/
theorem refused_unchanged_iff :
    (∀ env s op id, Refused env s op id →
      (∃ err, result env op s = .error (.err err)) ∧
      (next env op s = s ↔ (s.taskCache id).isSome ∧ s.taskLastUpdates id = some env.now)) ∧
    ∀ s calls id, RefusedRun s calls →
      (eligibleFrom (runOps s calls) id = eligibleFrom s id ↔
        ∀ last ∈ (callTimes id calls).getLast?, s.taskLastUpdates id = some last) := by
  constructor
  · intro env s op id h
    obtain ⟨e, he, herr, hnext⟩ := next_refused h
    refine ⟨herr, ?_⟩
    rw [hnext]
    exact touched_cached_iff he
  · intro s calls id h
    rw [eligibleFrom_eq_iff, lastUpdate_refused h]
    cases (callTimes id calls).getLast? with
    | none => simp
    | some last =>
      constructor
      · rintro hlast _ ⟨⟩
        exact hlast.symm
      · intro hall
        exact (hall last rfl).symm

def staleUpdate : Op := .updateTask 0 alice.id (answer [7]) 5

omit [External] in
theorem staleUpdate_refused {env : Env} (hserves : env.RepositoryServes) :
    Refused env certificatesSent staleUpdate 0 := by
  obtain ⟨t, ht, hattempts, -⟩ := certificatesSent_waits
  have hl := (lockedTask_ok.mp ht).of_served (hserves .hydrateTasks 0)
  apply Refused.stale (lockedTask_ok.mpr hl)
  rw [hattempts]
  decide

omit [External] in
/-- In the second of the last update, Alice's stale update changes nothing. -/
theorem refused_unchanged_iff_stale :
    @next plainExternal (servingEnv 0 0) staleUpdate certificatesSent = certificatesSent := by
  have hcached : (certificatesSent.taskCache 0).isSome := by decide +kernel
  have htime : certificatesSent.taskLastUpdates 0 = some 0 := by decide +kernel
  exact (((@refused_unchanged_iff plainExternal).1 _ _ _ _
    (staleUpdate_refused (servingEnv_serves 0 0))).2).mpr
    ⟨hcached, htime⟩

def attemptsAt35 (s : Server) : Option ℕ :=
  ((@next plainExternal (servingEnv 35 0) .restartStaleTasks s).db.task.lookup 0).map
    TaskRow.attemptCount

omit [External] in
/-- The task was updated in second 0, and the sweep of second 35 restarts it. A stale update in
second 20 keeps it from that. -/
theorem stale_update_postpones : @Reachable plainExternal certificatesSent ∧
    Refused (servingEnv 20 0) certificatesSent staleUpdate 0 ∧
    attemptsAt35 certificatesSent = some 1 ∧
    attemptsAt35 (@next plainExternal (servingEnv 20 0) staleUpdate certificatesSent) = some 0 :=
  ⟨certificatesSent_reachable, staleUpdate_refused (servingEnv_serves 20 0),
    by decide +kernel, by decide +kernel⟩

end Runs

end RefusedRequests

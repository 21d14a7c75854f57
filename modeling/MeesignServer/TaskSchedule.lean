import MeesignServer.LazyCache
import MeesignServer.PhaseOrder

/-!
# Schedules of the cached task store

Calls on one task that run at the same time. A call finds the task in the cache or
hydrates it in several queries, takes the cached task, waits for its lock, works on
it and unlocks it. The calls are interleaved in any order, and so are the two steps
of `persist_task`.
-/
namespace TaskSchedule

open FallibleProgram FiniteMap DataModel CommunicatorModel ProtocolModel VotingModel
open RunningTaskModel DatabaseModel HydrationModel ServerModel TaskOutcomes ServerOutcomes
open ServerMoves PhaseOrder LazyCache

/-- The tables that the queries of a hydration see, in their order. A hydration that leaves out
some of the queries does not depend on their tables. -/
structure Reads where
  models : Database
  participants : Database
  groupParticipants : Database
  groups : Database
  decisions : Database
  activeShares : Database

def Reads.tables (reads : Reads) : Database :=
  { reads.models with
    groupParticipant := reads.groupParticipants.groupParticipant
    group := reads.groups.group
    taskParticipant := reads.decisions.taskParticipant
    activeTaskParticipant := reads.activeShares.activeTaskParticipant }

/-- `hydrate_tasks` for one id, over tables that change between the queries. -/
def hydrateReads (reads : Reads) (taskId : Uuid) : Except Stop TaskEntry :=
  match reads.models.task.lookup taskId with
  | none => .error (.err (.generalProtocol "Invalid task id(s)"))
  | some row =>
    let participants := reads.participants.getTaskParticipants taskId
    if participants.isEmpty then .error (.panic .taskWithoutParticipants)
    else
      let taskInfo := hydratedTaskInfo taskId row participants
      if row.taskType = .group then groupTaskFromModel reads.tables taskInfo row
      else thresholdTaskFromModel reads.tables taskInfo row

theorem hydrateReads_same (db : Database) (id : Uuid) :
    hydrateReads ⟨db, db, db, db, db, db⟩ id = hydrateTask db id := rfl

def hydrateSeen (taskId : Uuid) : List Server → Option TaskEntry
  | [models, participants, groupParticipants, groups, decisions, activeShares] =>
    (hydrateReads ⟨models.db, participants.db, groupParticipants.db, groups.db, decisions.db,
      activeShares.db⟩ taskId).toOption
  | _ => none

theorem hydrateSeen_missing {s : Server} {id : Uuid} (h : s.db.task.lookup id = none)
    (rest : List Server) : hydrateSeen id (s :: rest) = none := by
  unfold hydrateSeen
  split
  · rename_i heq
    cases heq
    simp only [hydrateReads, h]
    rfl
  · rfl

theorem hydrateSeen_same {s : Server} {id : Uuid} {e : TaskEntry}
    (h : hydrateSeen id (List.replicate 6 s) = some e) : hydrateTask s.db id = .ok e := by
  change (hydrateReads ⟨s.db, s.db, s.db, s.db, s.db, s.db⟩ id).toOption = some e at h
  rw [hydrateReads_same] at h
  cases hh : hydrateTask s.db id with
  | error stop =>
    rw [hh] at h
    cases h
  | ok e' =>
    rw [hh] at h
    cases h
    rfl

inductive TaskRequest where
  | decide (deviceId : Bytes) (accept : Bool)
  | update (device : Bytes) (data : List ClientMessage) (attempt : ℕ)
  | acknowledge (device : Bytes)
  | restart
  | format (deviceId : Option Bytes) (withRequest : Bool)

abbrev CallResult := Except Stop (Option ProtoTask)

/-- `get_task` takes the lock for reading, `get_task_mut` for writing. -/
def TaskRequest.isRead : TaskRequest → Bool
  | .format _ _ => true
  | _ => false

variable [External]

def TaskRequest.body (env : Env) (id : Uuid) :
    TaskRequest → EStateM Stop Guarded (Option ProtoTask)
  | .decide deviceId accept => do
    decideEntry env id deviceId accept
    return none
  | .update device data attempt => do
    updateEntry env id device data attempt
    return none
  | .acknowledge device => do
    acknowledgeEntry env id device
    return none
  | .restart => do
    restartEntry env id
    return none
  | .format deviceId withRequest => do
    let task := (← get).entry
    return some (task.format deviceId (if withRequest then some task.taskInfo.request else none))

def resetSlot (s : Server) (id : Uuid) (slot : Option TaskEntry) : Server :=
  { s with taskCache := Function.update s.taskCache id slot }

omit [External] in
theorem cached_resetSlot (s : Server) (id : Uuid) (slot : Option TaskEntry) (e : TaskEntry) :
    cached (resetSlot s id slot) id e = cached s id e := by
  rw [cached, resetSlot, Function.update_idem]
  rfl

omit [External] in
theorem resetSlot_cached (s : Server) (id : Uuid) (e : TaskEntry) :
    resetSlot (cached s id e) id (s.taskCache id) = s := by
  rw [cached, resetSlot, Function.update_idem, Function.update_eq_self]

def work (env : Env) (id : Uuid) (request : TaskRequest) (x : TaskEntry × Server) :
    CallResult × (TaskEntry × Server) :=
  let o := outcome (request.body env id) ⟨x.1, cached x.2 id x.1⟩
  (o.1, (o.2.entry, resetSlot o.2.server id (x.2.taskCache id)))

/-- A call and the steps in which its effects become visible. Its queries for the task are
served: where one of them fails is a step of the schedule. -/
structure TaskCall (id : Uuid) where
  env : Env
  queried : env.fault .hydrateTasks id = .served
  request : TaskRequest
  pieces : TaskEntry × Server → List (TaskEntry × Server → TaskEntry × Server)
  composes : ∀ x, (pieces x).foldl (fun y f => f y) x = (work env id request x).2

theorem work_read {env : Env} {id : Uuid} {request : TaskRequest} (h : request.isRead)
    (x : TaskEntry × Server) : (work env id request x).2 = x := by
  cases request with
  | format deviceId withRequest =>
    exact congrArg (x.1, ·) (resetSlot_cached x.2 id x.1)
  | decide | update | acknowledge | restart => cases h

def TaskCall.job {id : Uuid} (call : TaskCall id) : Job Server TaskEntry CallResult where
  run := work call.env id call.request
  pieces := call.pieces
  composes := call.composes
  isRead := call.request.isRead
  read_only h := work_read h

/-- The calls on the task `v`. The creator is `persist_task`. -/
def taskSetting (v : VotingTask) (calls : ℕ → TaskCall v.taskInfo.id) :
    Setting Server TaskEntry CallResult where
  reads := 6
  hydrate := hydrateSeen v.taskInfo.id
  commit s :=
    match createRows v s.db with
    | .ok db => some { s with db }
    | .error _ => none
  fresh := .voting v
  job p := (calls p).job

/-- The calls one after the other on a server, each with its answer. -/
inductive Sequential {id : Uuid} (calls : ℕ → TaskCall id) (s : Server) :
    List (ℕ × CallResult) → Server → Prop where
  | nil : Sequential calls s [] s
  | snoc {order : List (ℕ × CallResult)} {t u : Server} {p : ℕ} {answer : CallResult}
      (h : Sequential calls s order t)
      (call : outcome (withTaskMut (calls p).env id ((calls p).request.body (calls p).env id)) t =
        (answer, u)) : Sequential calls s (order ++ [(p, answer)]) u

omit [External] in
theorem withTaskMut_cached {α : Type} {env : Env} {id : Uuid}
    (h : env.fault .hydrateTasks id = .served) (body : EStateM Stop Guarded α)
    (s : Server) (e : TaskEntry) : outcome (withTaskMut env id body) (cached s id e) =
      ((outcome body ⟨e, cached s id e⟩).1,
        cached (outcome body ⟨e, cached s id e⟩).2.server id
          (outcome body ⟨e, cached s id e⟩).2.entry) := by
  have hl : Loaded env (cached s id e) id e := .hit (cached_self ..) h
  have hpost : post (zoom (Guarded.mk e) (fun _ g => cached g.server id g.entry) body)
      (cached s id e) (fun r t => r = (outcome body ⟨e, cached s id e⟩).1 ∧
        t = cached (outcome body ⟨e, cached s id e⟩).2.server id
          (outcome body ⟨e, cached s id e⟩).2.entry) := (post_zoom ..).mpr ⟨rfl, rfl⟩
  have hsame : cached (cached s id e) id e = cached s id e := cached_resetSlot s id (some e) e
  have hrun : outcome (withTaskMut env id body) (cached s id e) =
      outcome (zoom (Guarded.mk e) (fun _ g => cached g.server id g.entry) body)
        (cached s id e) := by
    unfold outcome
    rw [withTaskMut_loaded hl, hsame]
  rw [hrun]
  exact Prod.ext hpost.1 hpost.2

theorem serial_sequential {v : VotingTask} {calls : ℕ → TaskCall v.taskInfo.id}
    {x y : TaskEntry × Server} {order : List (ℕ × CallResult)}
    (h : Serial (taskSetting v calls) x order y) :
    Sequential calls (cached x.2 v.taskInfo.id x.1) order (cached y.2 v.taskInfo.id y.1) := by
  induction h with
  | nil => exact .nil
  | @snoc order y z p answer _ run ih =>
    refine .snoc ih ?_
    rw [withTaskMut_cached (calls p).queried]
    change work (calls p).env _ (calls p).request y = (answer, z) at run
    unfold work at run
    obtain ⟨rfl, rfl⟩ := Prod.mk.inj run
    exact congrArg (Prod.mk _) (cached_resetSlot ..).symm

/-- Calls on a stored task, interleaved in any order from an empty cache: those that complete
have worked on one instance, no hydrated copy replaces it, only the holder of the lock changes
it, and the calls have had the effect of some serial order. -/
theorem hydration_never_forks (v : VotingTask) (calls : ℕ → TaskCall v.taskInfo.id) (s : Server)
    (e₀ : TaskEntry) (evs : List Event) :
    let m := (start s e₀ .placed).run (taskSetting v calls) evs
    (∀ p j answer, m.phase p = .done j answer → m.slot = some j) ∧
    (m.slot = none → m.store = s) ∧
    ∀ i, m.slot = some i →
      (∀ evs', (m.run (taskSetting v calls) evs').slot = some i) ∧
      (∀ ev, (m.step (taskSetting v calls) ev).instances i ≠ m.instances i →
        ∃ p rest answer, ev = .piece p ∧ m.phase p = .locked i rest answer) ∧
      ∃ e order t, hydrateTask s.db v.taskInfo.id = .ok e ∧ (order.map Prod.fst).Nodup ∧
        (∀ p answer, (p, answer) ∈ order ↔ m.phase p = .done i answer) ∧
        Sequential calls (cached s v.taskInfo.id e) order t ∧
        (m.writer i = none → t = cached m.store v.taskInfo.id (m.instances i)) := by
  intro m
  have hplaced : m.creation = .placed := by
    have hrun : ∀ (evs : List Event) (m : Machine Server TaskEntry CallResult),
        m.creation = .placed → (m.run (taskSetting v calls) evs).creation = .placed := by
      intro evs
      induction evs with
      | nil => exact fun _ h => h
      | cons ev evs ih => exact fun _ h => ih _ (step_placed h ev)
    exact hrun evs _ rfl
  rcases (detached_start (taskSetting v calls) s e₀ .placed).run rfl evs with
    hd | ⟨e, i, order, he, ha⟩
  · refine ⟨fun p j answer hp => ?_, fun _ => hd.store, fun i hi => ?_⟩
    · have hnot := (hd.not_refers p).2.2
      rw [show _ = Phase.done j answer from hp] at hnot
      cases hnot
    · rw [hd.slot] at hi
      cases hi
  · have hdone : ∀ p j answer, m.phase p = .done j answer → j = i ∧ (p, answer) ∈ order :=
      fun p j answer hp => (ha.done p j answer hp).resolve_left (Set.notMem_empty _)
    refine ⟨fun p j answer hp => ?_, fun hnone => ?_, fun i' hi' => ?_⟩
    · rw [(hdone p j answer hp).1]
      exact ha.slot
    · rw [show m.slot = some i from ha.slot] at hnone
      cases hnone
    · rw [show m.slot = some i from ha.slot] at hi'
      cases hi'
      refine ⟨fun evs' => ?_, fun ev hev => step_instances ha.made hev, ?_⟩
      · obtain ⟨order', -, ha'⟩ := ha.run hplaced evs'
        exact ha'.slot
      · obtain ⟨y, hserial, hstate⟩ := ha.state
        refine ⟨e, order, cached y.2 v.taskInfo.id y.1, hydrateSeen_same he, ha.nodup,
          fun p answer => ⟨ha.logged p answer, fun hp => (hdone p i answer hp).2⟩,
          serial_sequential hserial, fun hfree => ?_⟩
        rcases hstate with ⟨-, hy⟩ | ⟨p, rest, answer, hp, -⟩
        · rw [← hy]
        · exact absurd hp (ha.not_locked hfree p rest answer)

/-- As long as the task is voted on, it has this vote of the device. -/
def Voted (d : Bytes) (accept : Bool) (e : TaskEntry) : Prop :=
  ∀ v, e = .voting v → ∃ p, v.taskInfo.participants.find? (fun p => p.device.id = d) = some p ∧
    v.decisions.lookup d = some (voteOf p.shares accept)

section Votes

variable {env : Env} {id : Uuid} {d : Bytes} {accept : Bool} {g g' : Guarded}

theorem decide_voting {r : Except Stop Unit} {v' : VotingTask}
    (h : DecideOutcome env id d accept g r g') (hv' : g'.entry = .voting v') :
    ∃ v, g.entry = .voting v ∧ ((v' = v ∧ ∃ stop, r = .error stop) ∨
      ∃ p, v.taskInfo.participants.find? (fun p => p.device.id = d) = some p ∧
        v' = v.vote d (voteOf p.shares accept)) := by
  cases h with
  | notVoting hnot => exact absurd hv' (hnot v')
  | notParticipant hv =>
    rw [hv] at hv'
    cases hv'
    exact ⟨v', hv, .inl ⟨rfl, _, rfl⟩⟩
  | notStored hv find | undecided hv find =>
    cases hv'
    exact ⟨_, hv, .inr ⟨_, find, rfl⟩⟩
  | declined hv find _ _ stored =>
    cases stored with
    | served => cases hv'
    | fails =>
      cases hv'
      exact ⟨_, hv, .inr ⟨_, find, rfl⟩⟩
  | accepted hv find _ _ start =>
    cases start with
    | notStored =>
      cases hv'
      exact ⟨_, hv, .inr ⟨_, find, rfl⟩⟩
    | built _ build =>
      rcases build_phase build with h | ⟨t, h⟩ | ⟨f, h⟩
      · rw [h] at hv'
        cases hv'
        exact ⟨_, hv, .inr ⟨_, find, rfl⟩⟩
      · rw [h] at hv'
        cases hv'
      · rw [h] at hv'
        cases hv'

theorem decide_voted (h : DecideOutcome env id d accept g (.ok ()) g') :
    Voted d accept g'.entry := by
  intro v' hv'
  obtain ⟨v, -, ⟨-, stop, herr⟩ | ⟨p, hfind, rfl⟩⟩ := decide_voting h hv'
  · cases herr
  · exact ⟨p, hfind, AList.lookup_insert _⟩

theorem decide_keeps_voted {d' : Bytes} {accept' : Bool} {r : Except Stop Unit}
    (h : DecideOutcome env id d' accept' g r g') (hd : d' ≠ d) (hg : Voted d accept g.entry) :
    Voted d accept g'.entry := by
  intro v' hv'
  obtain ⟨v, hv, ⟨rfl, -⟩ | ⟨p, -, rfl⟩⟩ := decide_voting h hv'
  · exact hg v' hv
  · obtain ⟨q, hq, hvote⟩ := hg v hv
    exact ⟨q, hq, (AList.lookup_insert_ne (Ne.symm hd)).trans hvote⟩

/-- What a request does to the task under the lock. -/
inductive RequestOutcome (env : Env) (id : Uuid) (g : Guarded) :
    TaskRequest → CallResult → Guarded → Prop where
  | decide {d : Bytes} {accept : Bool} {r : Except Stop Unit} {g' : Guarded}
      (h : DecideOutcome env id d accept g r g') :
      RequestOutcome env id g (.decide d accept) (r.map fun _ => none) g'
  | update {d : Bytes} {messages : List ClientMessage} {attempt : ℕ} {r : Except Stop Unit}
      {g' : Guarded} (h : UpdateEntryOutcome env id d messages attempt g r g') :
      RequestOutcome env id g (.update d messages attempt) (r.map fun _ => none) g'
  | acknowledge {d : Bytes} {r : Except Stop Unit} {g' : Guarded}
      (h : AcknowledgeOutcome env id d g r g') :
      RequestOutcome env id g (.acknowledge d) (r.map fun _ => none) g'
  | restart {r : Except Stop Unit} {g' : Guarded} (h : RestartEntryOutcome env id g r g') :
      RequestOutcome env id g .restart (r.map fun _ => none) g'
  | format {d : Option Bytes} {withRequest : Bool} {answer : CallResult} :
      RequestOutcome env id g (.format d withRequest) answer g

theorem requestBody_outcome (env : Env) (id : Uuid) (request : TaskRequest) (g : Guarded) :
    post (request.body env id) g (RequestOutcome env id g request) := by
  cases request with
  | decide d accept =>
    exact post_seq (decideEntry_outcome env id d accept g) (fun _ _ h => .decide h)
      (fun _ _ h => .decide h)
  | update d messages attempt =>
    exact post_seq (updateEntry_outcome env id d messages attempt g) (fun _ _ h => .update h)
      (fun _ _ h => .update h)
  | acknowledge d =>
    exact post_seq (acknowledgeEntry_outcome env id d g) (fun _ _ h => .acknowledge h)
      (fun _ _ h => .acknowledge h)
  | restart =>
    exact post_seq (restartEntry_outcome env id g) (fun _ _ h => .restart h)
      (fun _ _ h => .restart h)
  | format => exact .format

variable {request : TaskRequest} {answer : CallResult}

theorem request_phase (h : RequestOutcome env id g request answer g') :
    ∃ op, PhaseStep op id g.entry g'.entry := by
  cases h with
  | decide h => exact ⟨.restartServer, decide_phase h⟩
  | update h => exact ⟨_, update_phase h⟩
  | acknowledge h => exact ⟨_, body_phase (.acknowledge h)⟩
  | restart h => exact ⟨_, restart_phase h⟩
  | format => exact ⟨.restartServer, .same _⟩

omit [External] in
theorem record_not_voting {t : RunningTask} {u : Except Stop RoundUpdate} {r : Except Stop Unit}
    {db db' : Database} {e : TaskEntry} {v : VotingTask}
    (h : RecordOutcome env id t db u r db' e) : e ≠ .voting v := by
  rcases record_phase h with rfl | ⟨f, rfl⟩ | ⟨f, rfl⟩
  · intro hv
    cases hv
  · intro hv
    cases hv
  · intro hv
    cases hv

theorem request_keeps_voted (h : RequestOutcome env id g request answer g')
    (hr : ∀ accept', request ≠ .decide d accept') (hg : Voted d accept g.entry) :
    Voted d accept g'.entry := by
  cases h with
  | @decide d' accept' _ _ h =>
    refine decide_keeps_voted h ?_ hg
    rintro rfl
    exact hr accept' rfl
  | update h =>
    cases h with
    | notRunning | stale => exact hg
    | updated _ _ _ record =>
      intro v hv
      exact absurd hv (record_not_voting record)
  | restart h =>
    cases h with
    | notRunning | notStored => exact hg
    | restarted _ _ _ record =>
      intro v hv
      exact absurd hv (record_not_voting record)
  | acknowledge h =>
    cases h with
    | notFinished => exact hg
    | acknowledged _ _ stored =>
      intro v hv
      cases stored <;> cases hv
  | format => exact hg

theorem work_outcome {x y : TaskEntry × Server} (h : work env id request x = (answer, y)) :
    ∃ g, RequestOutcome env id ⟨x.1, cached x.2 id x.1⟩ request answer g ∧ g.entry = y.1 := by
  have ho : post _ _ _ := requestBody_outcome env id request ⟨x.1, cached x.2 id x.1⟩
  obtain ⟨rfl, rfl⟩ := Prod.mk.inj h
  exact ⟨_, ho, rfl⟩

variable {v : VotingTask} {calls : ℕ → TaskCall v.taskInfo.id} {x y : TaskEntry × Server}
  {order : List (ℕ × CallResult)}

theorem serial_ahead (h : Serial (taskSetting v calls) x order y) : Ahead x.1 y.1 := by
  induction h with
  | nil => exact .refl _
  | snoc _ run ih =>
    obtain ⟨g, ho, hg⟩ := work_outcome run
    obtain ⟨op, hstep⟩ := request_phase ho
    rw [hg] at hstep
    exact ih.step hstep

theorem serial_voted (h : Serial (taskSetting v calls) x order y)
    (hother : ∀ q answer accept', (q, answer) ∈ order → (calls q).request ≠ .decide d accept')
    (hx : Voted d accept x.1) : Voted d accept y.1 := by
  induction h with
  | nil => exact hx
  | @snoc order y z q answer _ run ih =>
    have hy := ih fun q answer accept' hq => hother q answer accept' (List.mem_append_left _ hq)
    obtain ⟨g, ho, hg⟩ := work_outcome run
    rw [← hg]
    exact request_keeps_voted ho
      (fun accept' => hother q answer accept' (List.mem_append_right _ (List.mem_singleton_self _)))
      hy

/-- In the order, call `p` is a vote of the device. What it left has not been taken back, and the
vote is in the task unless the device voted again or the vote is over. -/
def VoteKept (calls : ℕ → TaskCall v.taskInfo.id) (s : Server) (order : List (ℕ × CallResult))
    (p : ℕ) (answer : Option ProtoTask) (d : Bytes) (accept : Bool) (e : TaskEntry) : Prop :=
  ∃ before after e' s', order = before ++ (p, .ok answer) :: after ∧
    Sequential calls s (before ++ [(p, .ok answer)]) (cached s' v.taskInfo.id e') ∧
    Voted d accept e' ∧ Ahead e' e ∧
    ((∀ q answer' accept', (q, answer') ∈ after → (calls q).request ≠ .decide d accept') →
      Voted d accept e)

theorem serial_voteKept {p : ℕ} {answer : Option ProtoTask}
    (h : Serial (taskSetting v calls) x order y) (hp : (p, .ok answer) ∈ order)
    (hr : (calls p).request = .decide d accept) :
    VoteKept calls (cached x.2 v.taskInfo.id x.1) order p answer d accept y.1 := by
  obtain ⟨before, after, rfl⟩ := List.append_of_mem hp
  obtain ⟨y₁, y₂, hbefore, hrun, hafter⟩ := h.split
  have hvoted : Voted d accept y₂.1 := by
    obtain ⟨g, ho, hg⟩ := work_outcome hrun
    rw [hr] at ho
    rw [← hg]
    generalize hok : (Except.ok answer : CallResult) = r at ho
    cases ho with
    | @decide _ _ r _ ho =>
      cases r with
      | error => cases hok
      | ok => exact decide_voted ho
  exact ⟨before, after, y₂.1, y₂.2, rfl, serial_sequential (.snoc hbefore hrun), hvoted,
    serial_ahead hafter, fun hother => serial_voted hafter hother hvoted⟩

end Votes

def Decided {id : Uuid} (calls : ℕ → TaskCall id) (p : ℕ) (answer : CallResult) : Prop :=
  (∃ d accept, (calls p).request = .decide d accept) ∧ ∃ a, answer = .ok a

/-- A task is created while calls on it are interleaved in any order, and at the moment when
`persist_task` fills the cache nobody holds the task and nobody has voted yet. Then
`persist_task` does not panic, and every vote that was accepted is in the cached task. -/
theorem created_task_keeps_votes (v : VotingTask) (calls : ℕ → TaskCall v.taskInfo.id)
    (s : Server) (hnew : s.db.task.lookup v.taskInfo.id = none) (evs : List Event)
    (hcareful : CarefulRun (taskSetting v calls) (Decided calls)
      (start s (.voting v) .pending) evs) :
    let m := (start s (.voting v) .pending).run (taskSetting v calls) evs
    m.creation ≠ .panicked ∧ (m.creation = .placed → ∃ i s₀ order t, m.slot = some i ∧
      (order.map Prod.fst).Nodup ∧ (∀ p answer, (p, answer) ∈ order → m.phase p = .done i answer) ∧
      (∀ p j answer, m.phase p = .done j answer → Decided calls p answer →
        (p, answer) ∈ order) ∧
      Sequential calls (cached s₀ v.taskInfo.id (.voting v)) order t ∧
      (m.writer i = none → t = cached m.store v.taskInfo.id (m.instances i) ∧
        ∀ p j answer d accept, m.phase p = .done j (.ok answer) →
          (calls p).request = .decide d accept →
          VoteKept calls (cached s₀ v.taskInfo.id (.voting v)) order p answer d accept
            (m.instances i))) := by
  intro m
  have hdetached := detached_start (taskSetting v calls) s (.voting v) .pending
  have hcreating : Creating (taskSetting v calls) (Decided calls) s
      (((taskSetting v calls).commit s).getD s) m := by
    refine Creating.run (.pending rfl hdetached) (by decide : 0 < 6) (fun d hd => ?_)
      (hydrateSeen_missing hnew) hcareful
    rw [hd]
    rfl
  cases hcreating with
  | pending hc | committed hc | overtaken hc =>
    rw [hc]
    exact ⟨nofun, nofun⟩
  | @placed s₀ old i order hc hold ha =>
    refine ⟨by rw [hc]; nofun, fun _ => ?_⟩
    have hdone : ∀ p j answer, m.phase p = .done j answer → Decided calls p answer →
        (p, answer) ∈ order := by
      intro p j answer hp hdecided
      rcases ha.done p j answer hp with hmem | ⟨-, hmem⟩
      · exact absurd hdecided (hold p answer hmem)
      · exact hmem
    obtain ⟨y, hserial, hstate⟩ := ha.state
    refine ⟨i, s₀, order, cached y.2 v.taskInfo.id y.1, ha.slot, ha.nodup, ha.logged, hdone,
      serial_sequential hserial, fun hfree => ?_⟩
    rcases hstate with ⟨-, hy⟩ | ⟨p, rest, answer, hp, -⟩
    · rw [← hy] at hserial
      refine ⟨by rw [← hy], fun p j answer d accept hp hr => ?_⟩
      have hmem := hdone p j _ hp ⟨⟨d, accept, hr⟩, answer, rfl⟩
      exact serial_voteKept hserial hmem hr
    · exact absurd hp (ha.not_locked hfree p rest answer)

def newGroup : VotingTask :=
  @newGroupTask plainExternal (servingEnv 0 0) registered "Group" ⟨[alice.id, bob.id], pair_fits⟩ 2
    .frost .signChallenge none

def bobApproves (_ : ℕ) : @TaskCall plainExternal newGroup.taskInfo.id :=
  @TaskCall.mk plainExternal _ (servingEnv 0 0) rfl (.decide bob.id true)
    (fun _ => [fun x => (@work plainExternal (servingEnv 0 0) newGroup.taskInfo.id
      (.decide bob.id true) x).2]) (fun _ => rfl)

def groupSchedule (evs : List Event) : Machine Server TaskEntry CallResult :=
  (start registered (.voting newGroup) .pending).run
    (@taskSetting plainExternal newGroup bobApproves) evs

def hydrating : List Event :=
  .lookup 0 :: List.replicate 6 (.read 0) ++ [.insert 0, .fetch 0]

def voting : List Event := [.lock 0, .piece 0, .unlock 0]

def answeredCall : Phase Server TaskEntry CallResult → Bool
  | .done _ (.ok none) => true
  | _ => false

omit [External] in
theorem answered_done {ph : Phase Server TaskEntry CallResult} (h : answeredCall ph) :
    ∃ i, ph = .done i (.ok none) := by
  unfold answeredCall at h
  split at h
  · exact ⟨_, rfl⟩
  · cases h

def openVote (d : Bytes) : TaskEntry → Option (Option ℤ)
  | .voting v => some (v.decisions.lookup d)
  | _ => none

omit [External] in
theorem created_task_keeps_votes_approved :
    let m := groupSchedule ([.commit, .place, .lookup 0, .fetch 0] ++ voting)
    m.creation = .placed ∧ ∃ i s₀ order, m.slot = some i ∧
      @VoteKept plainExternal newGroup bobApproves (cached s₀ newGroup.taskInfo.id
        (.voting newGroup)) order 0 none bob.id true (m.instances i) := by
  intro m
  have hcareful : CarefulRun (@taskSetting plainExternal newGroup bobApproves)
      (@Decided plainExternal _ bobApproves) (start registered (.voting newGroup) .pending)
      ([.commit, .place, .lookup 0, .fetch 0] ++ voting) :=
    carefulRun_commit_place (fun _ => rfl) (by decide)
  have hplaced : m.creation = .placed := by decide +kernel
  have hslot : m.slot = some 0 := by decide +kernel
  have hfree : m.writer 0 = none := by decide +kernel
  have hanswered : answeredCall (m.phase 0) := by decide +kernel
  obtain ⟨-, hkept⟩ := @created_task_keeps_votes plainExternal newGroup bobApproves registered
    (by decide +kernel) _ hcareful
  obtain ⟨i, s₀, order, t, hi, -, -, -, -, hcached⟩ := hkept hplaced
  have hi' : i = 0 := Option.some.inj (hi.symm.trans hslot)
  subst hi'
  obtain ⟨j, hdone⟩ := answered_done hanswered
  exact ⟨hplaced, 0, s₀, order, hslot, (hcached hfree).2 0 j none bob.id true hdone rfl⟩

omit [External] in
/-- Bob sees the new task before it is cached. If Bob still waits for the lock when
`persist_task` fills the cache, it panics. If Bob has voted, the vote is lost. -/
theorem vote_lost_while_creating :
    registered.db.task.lookup newGroup.taskInfo.id = none ∧
    (groupSchedule ([.commit] ++ hydrating ++ [.place])).creation = .panicked ∧
    let m := groupSchedule ([.commit] ++ hydrating ++ voting ++ [.place])
    m.creation = .placed ∧ answeredCall (m.phase 0) ∧ m.slot = some 1 ∧
      openVote bob.id (m.instances 0) = some (some 1) ∧
      openVote bob.id (m.instances 1) = some none := by
  decide +kernel

end TaskSchedule

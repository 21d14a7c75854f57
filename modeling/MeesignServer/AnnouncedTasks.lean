import MeesignServer.PushModel
import MeesignServer.ServerMoves

/-!
# What the operations announce

The sends of an operation are its last act. The operations with their sends therefore
do to the server what the operations without them do, and the tasks that they announce
are a function of the server: the task that a successful call leaves under the lock, if
the call did more than to fill a buffer.
-/
namespace AnnouncedTasks

open FallibleProgram DataModel CommunicatorModel ProtocolModel VotingModel RunningTaskModel
open DatabaseModel HydrationModel ServerModel ServerOutcomes Subscriptions PushModel

section Outcomes

variable {ε σ τ α β : Type}

theorem outcome_zoom (get : σ → τ) (put : σ → τ → σ) (m : EStateM ε τ α) (s : σ) :
    outcome (zoom get put m) s = ((outcome m (get s)).1, put s (outcome m (get s)).2) := by
  simp only [outcome, zoom]
  cases m (get s) <;> rfl

theorem outcome_bind (m : EStateM ε σ α) (f : α → EStateM ε σ β) (s : σ) :
    outcome (m >>= f) s =
      match outcome m s with
      | (.ok a, t) => outcome (f a) t
      | (.error e, t) => (.error e, t) := by
  simp only [outcome, bind, EStateM.bind]
  cases m s <;> rfl

theorem outcome_discard (m : EStateM ε σ α) (s : σ) :
    outcome (discard m) s = ((outcome m s).1.map fun _ => (), (outcome m s).2) := by
  change outcome ((fun _ => ()) <$> m) s = _
  simp only [outcome, Functor.map, EStateM.map]
  cases m s <;> rfl

end Outcomes

section Guarded

variable {α β : Type}

theorem guarded_fromExcept (x : Except Stop α) : guarded (fromExcept x) = fromExcept x := by
  cases x <;> rfl

theorem guarded_bind (m : EStateM Stop Guarded α) (f : α → EStateM Stop Guarded β) :
    guarded (m >>= f) = guarded m >>= fun a => guarded (f a) := by
  funext h
  simp only [guarded, zoom, bind, EStateM.bind]
  cases m ⟨h.entry, h.node.server⟩ <;> simp only

theorem guarded_get (f : Guarded → EStateM Stop Guarded β) :
    guarded (get >>= f) = get >>= fun h => guarded (f ⟨h.entry, h.node.server⟩) := rfl

end Guarded

variable [External]

theorem startEntry_eq (env : Env) (taskId : Uuid) (task : VotingTask) :
    PushModel.startEntry env taskId task =
      guarded (ServerModel.startEntry env taskId task) >>= fun _ => sendUpdates := by
  unfold PushModel.startEntry ServerModel.startEntry
  simp only [guarded_bind, guarded_fromExcept, bind_assoc]
  congr 1
  funext activeShares
  congr 1
  funext running
  congr 1
  funext p
  obtain ⟨update, running⟩ := p
  cases update with
  | listen | finished => rfl
  | groupCertificatesSent | nextRound | failed => simp only [guarded_bind, bind_assoc]

theorem decideEntry_eq (env : Env) (taskId : Uuid) (deviceId : Bytes) (accept : Bool) :
    PushModel.decideEntry env taskId deviceId accept =
      guarded (ServerModel.decideEntry env taskId deviceId accept) >>= fun _ => sendUpdates := by
  unfold PushModel.decideEntry ServerModel.decideEntry
  rw [guarded_get, bind_assoc]
  congr 1
  funext h
  cases h.entry with
  | voting task =>
    simp only [guarded_bind, guarded_fromExcept, bind_assoc]
    congr 1
    funext _
    congr 1
    funext p
    obtain ⟨task, update⟩ := p
    congr 1
    funext _
    congr 1
    funext _
    cases update with
    | undecided => rfl
    | accepted => exact startEntry_eq env taskId task
    | declined => simp only [guarded_bind, bind_assoc]
  | running | finished | failed | declined => rfl

theorem restartEntry_eq (env : Env) (taskId : Uuid) : PushModel.restartEntry env taskId =
    guarded (ServerModel.restartEntry env taskId) >>= fun _ => sendUpdates := by
  unfold PushModel.restartEntry ServerModel.restartEntry
  rw [guarded_get, bind_assoc]
  congr 1
  funext h
  cases h.entry with
  | running task =>
    simp only [guarded_bind, bind_assoc]
    congr 1
    funext _
    congr 1
    funext _
    congr 1
    funext update
    cases update with
    | listen | finished => rfl
    | groupCertificatesSent | nextRound | failed => simp only [guarded_bind, bind_assoc]
  | voting | finished | failed | declined => rfl

section Sends

variable {α : Type} {m : EStateM Stop Held α} {m₀ : EStateM Stop Guarded α}
  {quiet : Guarded → Bool} {env : Env} {id : Uuid} {e : TaskEntry} {n : Node}

/-- `m` is `m₀` with an announcement at the end, unless it fails or has nothing to announce. -/
def Sends (m : EStateM Stop Held α) (m₀ : EStateM Stop Guarded α) (quiet : Guarded → Bool) : Prop :=
  ∀ h : Held, ∃ r g, outcome m₀ ⟨h.entry, h.node.server⟩ = (r, g) ∧
    outcome m h = (r, ⟨g.entry, ⟨g.server,
      if r.isOk && !quiet ⟨h.entry, h.node.server⟩ then h.node.feeds.sendUpdates g.entry
      else h.node.feeds⟩⟩)

omit [External] in
theorem sends_always (m₀ : EStateM Stop Guarded Unit) :
    Sends (guarded m₀ >>= fun _ => sendUpdates) m₀ fun _ => false := by
  intro h
  refine ⟨_, _, rfl, ?_⟩
  simp only [outcome, guarded, zoom, bind, EStateM.bind]
  cases m₀ ⟨h.entry, h.node.server⟩ <;> rfl

def listens (env : Env) (device : Bytes) (data : List ClientMessage) (g : Guarded) : Bool :=
  match g.entry with
  | .running task =>
    match (outcome (RunningTask.update env.helper device data) ⟨task, g.server.pdfHelpers⟩).1 with
    | .ok .listen => true
    | _ => false
  | _ => false

def recordUpdate (env : Env) (taskId : Uuid) : RoundUpdate → EStateM Stop Guarded Unit
  | .listen => pure ()
  | .groupCertificatesSent => throw (.panic .unreachable)
  | .nextRound round =>
    onServer (repoWrite env .setTaskRound taskId fun db => db.setTaskRound taskId round)
  | .failed task => do
    onServer (repoWrite env .setTaskResult taskId fun db =>
      db.setTaskResult taskId (.error task.reason))
    setEntry (.failed task)
  | .finished round task => do
    onServer (repoWrite env .setTaskRound taskId fun db => db.setTaskRound taskId round)
    match task.result with
    | .groupEstablished group =>
      onServer (repoWrite env .addGroup taskId fun db =>
        db.addGroup taskId group.id group.name (asU32 group.threshold) group.protocol
          group.keyType group.certificate group.note)
    | _ => pure ()
    onServer (repoWrite env .setTaskResult taskId fun db =>
      db.setTaskResult taskId (.ok task.result.asBytes))
    setEntry (.finished task)

def announceUpdate (env : Env) (taskId : Uuid) : RoundUpdate → EStateM Stop Held Unit
  | .listen => pure ()
  | update => guarded (recordUpdate env taskId update) >>= fun _ => sendUpdates

theorem updateEntry_running (env : Env) (taskId : Uuid) (device : Bytes)
    (data : List ClientMessage) (attempt : ℕ) (task : RunningTask) (s : Server) :
    ServerModel.updateEntry env taskId device data attempt ⟨.running task, s⟩ =
      (onServer (setTaskLastUpdate env taskId) >>= fun _ =>
        if attempt ≠ task.taskInfo.attempts then throw (protocolError "Stale update")
        else onRunning task (RunningTask.update env.helper device data) >>=
          recordUpdate env taskId) ⟨.running task, s⟩ := by
  unfold ServerModel.updateEntry
  rfl

theorem pushedUpdate_running (env : Env) (taskId : Uuid) (device : Bytes)
    (data : List ClientMessage) (attempt : ℕ) (task : RunningTask) (n : Node) :
    PushModel.updateEntry env taskId device data attempt ⟨.running task, n⟩ =
      (guarded (onServer (setTaskLastUpdate env taskId)) >>= fun _ =>
        if attempt ≠ task.taskInfo.attempts then throw (protocolError "Stale update")
        else guarded (onRunning task (RunningTask.update env.helper device data)) >>=
          announceUpdate env taskId) ⟨.running task, n⟩ := by
  unfold PushModel.updateEntry
  change (guarded (onServer (setTaskLastUpdate env taskId)) >>= fun _ =>
    if attempt ≠ task.taskInfo.attempts then throw (protocolError "Stale update")
    else guarded (onRunning task (RunningTask.update env.helper device data)) >>= _) _ = _
  refine congrFun ?_ _
  congr 1
  funext _
  congr 2
  funext update
  cases update with
  | listen | groupCertificatesSent => rfl
  | nextRound => rfl
  | failed => simp only [announceUpdate, recordUpdate, guarded_bind, bind_assoc]
  | finished round task =>
    simp only [announceUpdate, recordUpdate, guarded_bind, bind_assoc]
    congr 1
    funext _
    cases task.result <;> simp only [guarded_bind, bind_assoc]

omit [External] in
theorem ran_guarded (env : Env) (taskId : Uuid) (task : RunningTask)
    (m : EStateM Stop Runner RoundUpdate) (k : RoundUpdate → EStateM Stop Guarded Unit)
    (s : Server) :
    (onServer (setTaskLastUpdate env taskId) >>= fun _ => onRunning task m >>= k)
      ⟨.running task, s⟩ =
    match m ⟨task, s.pdfHelpers⟩ with
    | .ok update r =>
      k update ⟨.running r.task, { touched env taskId s with pdfHelpers := r.helpers }⟩
    | .error stop r =>
      .error stop ⟨.running r.task, { touched env taskId s with pdfHelpers := r.helpers }⟩ := by
  simp only [onServer, onRunning, setTaskLastUpdate, zoom, bind, EStateM.bind, modify, modifyGet,
    MonadStateOf.modifyGet, EStateM.modifyGet]
  cases m ⟨task, s.pdfHelpers⟩ <;> rfl

omit [External] in
theorem ran_held (env : Env) (taskId : Uuid) (task : RunningTask)
    (m : EStateM Stop Runner RoundUpdate) (k : RoundUpdate → EStateM Stop Held Unit) (n : Node) :
    (guarded (onServer (setTaskLastUpdate env taskId)) >>= fun _ =>
      guarded (onRunning task m) >>= k)
      ⟨.running task, n⟩ =
    match m ⟨task, n.server.pdfHelpers⟩ with
    | .ok update r => k update ⟨.running r.task, { n with
        server := { touched env taskId n.server with pdfHelpers := r.helpers } }⟩
    | .error stop r => .error stop ⟨.running r.task, { n with
        server := { touched env taskId n.server with pdfHelpers := r.helpers } }⟩ := by
  simp only [guarded, onServer, onRunning, setTaskLastUpdate, zoom, bind, EStateM.bind, modify,
    modifyGet, MonadStateOf.modifyGet, EStateM.modifyGet]
  cases m ⟨task, n.server.pdfHelpers⟩ <;> rfl

theorem updateEntry_sends (env : Env) (taskId : Uuid) (device : Bytes) (data : List ClientMessage)
    (attempt : ℕ) : Sends (PushModel.updateEntry env taskId device data attempt)
      (ServerModel.updateEntry env taskId device data attempt) (listens env device data) := by
  rintro ⟨entry, n⟩
  cases entry with
  | running task =>
    simp only [outcome, updateEntry_running, pushedUpdate_running]
    by_cases hstale : attempt ≠ task.taskInfo.attempts
    · simp only [hstale, ne_eq, not_false_eq_true, ↓reduceIte]
      exact ⟨_, _, rfl, rfl⟩
    · simp only [hstale, ↓reduceIte, ran_guarded, ran_held]
      generalize hquiet : listens env device data ⟨.running task, n.server⟩ = q
      simp only [listens, outcome] at hquiet
      cases hran : RunningTask.update env.helper device data ⟨task, n.server.pdfHelpers⟩ with
      | error stop r => exact ⟨_, _, rfl, rfl⟩
      | ok update r =>
        rw [hran] at hquiet
        subst hquiet
        have hsends := fun update => sends_always (recordUpdate env taskId update)
          ⟨.running r.task, { n with
            server := { touched env taskId n.server with pdfHelpers := r.helpers } }⟩
        cases update with
        | listen | groupCertificatesSent => exact ⟨_, _, rfl, rfl⟩
        | nextRound round => exact hsends (.nextRound round)
        | failed f => exact hsends (.failed f)
        | finished round f => exact hsends (.finished round f)
  | voting | finished | failed | declined => exact ⟨_, _, rfl, rfl⟩

omit [External] in
theorem withTaskMut_held (h : Loaded env n.server id e) (m : EStateM Stop Held α) :
    PushModel.withTaskMut env id m n =
      zoom (fun n => ⟨e, n⟩)
        (fun _ h => { h.node with server := cached h.node.server id h.entry }) m
        { n with server := cached n.server id e } := by
  simp only [PushModel.withTaskMut, onState, zoom, bind, EStateM.bind, ensureCachedTask_loaded h,
    get, getThe, MonadStateOf.get, EStateM.get, cached_self]
  rfl

omit [External] in
theorem withTaskMut_not_held {stop : Stop} (h : NotLoaded env n.server id stop)
    (m : EStateM Stop Held α) : PushModel.withTaskMut env id m n = .error stop n := by
  simp only [PushModel.withTaskMut, onState, zoom, bind, EStateM.bind,
    ensureCachedTask_notLoaded h]

end Sends

section Operations

variable {α β : Type} {env : Env} {id : Uuid}

def announceAll (f : Feeds) (tasks : List TaskEntry) : Feeds := tasks.foldl Feeds.sendUpdates f

/-- `M` does to the server what `M₀` does, and announces the tasks of `A`. -/
def Announces (M : EStateM Stop Node α) (M₀ : EStateM Stop Server α) (A : Server → List TaskEntry) :
    Prop :=
  ∀ n, outcome M n = ((outcome M₀ n.server).1,
    ⟨(outcome M₀ n.server).2, announceAll n.feeds (A n.server)⟩)

def announced (id : Uuid) (p : Except Stop α × Server) : List TaskEntry :=
  match p.1 with
  | .ok _ => (p.2.taskCache id).toList
  | .error _ => []

def quietAt (env : Env) (id : Uuid) (quiet : Guarded → Bool) (s : Server) : Bool :=
  match lockedTask env s id with
  | .ok e => quiet ⟨e, cached s id e⟩
  | .error _ => false

omit [External] in
theorem withTaskMut_announces {m : EStateM Stop Held α} {m₀ : EStateM Stop Guarded α}
    {quiet : Guarded → Bool} (hm : Sends m m₀ quiet) :
    Announces (PushModel.withTaskMut env id m) (ServerModel.withTaskMut env id m₀) fun s =>
      if quietAt env id quiet s then [] else
        announced id (outcome (ServerModel.withTaskMut env id m₀) s)
    := by
  intro n
  rcases lockedTask_post env n.server id with ⟨stop, hl, hn⟩ | ⟨e, hl, hloaded⟩
  · simp only [outcome, withTaskMut_not_held hn, withTaskMut_notLoaded hn, quietAt, hl, announced,
      Bool.false_eq_true, ↓reduceIte]
    rfl
  · obtain ⟨r, g, hran, hheld⟩ := hm ⟨e, { n with server := cached n.server id e }⟩
    have hserver : outcome (ServerModel.withTaskMut env id m₀) n.server =
        (r, cached g.server id g.entry) := by
      rw [outcome, withTaskMut_loaded hloaded]
      change outcome (zoom _ _ m₀) _ = _
      rw [outcome_zoom, hran]
    have hnode : outcome (PushModel.withTaskMut env id m) n = (r, ⟨cached g.server id g.entry,
        if r.isOk && !quiet ⟨e, cached n.server id e⟩ then n.feeds.sendUpdates g.entry
        else n.feeds⟩) := by
      rw [outcome, withTaskMut_held hloaded]
      change outcome (zoom _ _ m) _ = _
      rw [outcome_zoom, hheld]
    simp only [hnode, hserver, quietAt, hl, announced]
    cases quiet ⟨e, cached n.server id e⟩ with
    | true =>
      rw [Bool.not_true, Bool.and_false]
      rfl
    | false =>
      cases r with
      | ok a =>
        rw [cached_self]
        rfl
      | error stop => rfl

def afterOk (p : Except Stop α × Server) (f : α → Server → List TaskEntry) : List TaskEntry :=
  match p with
  | (.ok a, s) => f a s
  | (.error _, _) => []

omit [External] in
theorem announces_onState (m : EStateM Stop Server α) : Announces (onState m) m fun _ => [] := by
  intro n
  rw [onState, outcome_zoom]
  rfl

omit [External] in
theorem Announces.bind {M : EStateM Stop Node α} {M₀ : EStateM Stop Server α}
    {F : α → EStateM Stop Node β} {F₀ : α → EStateM Stop Server β} {A : Server → List TaskEntry}
    {B : α → Server → List TaskEntry} (hM : Announces M M₀ A)
    (hF : ∀ a, Announces (F a) (F₀ a) (B a)) : Announces (M >>= F) (M₀ >>= F₀) fun s =>
      A s ++ afterOk (outcome M₀ s) B := by
  intro n
  simp only [outcome_bind, hM n]
  rcases outcome M₀ n.server with ⟨r, s'⟩
  cases r with
  | ok a =>
    have hrest := hF a ⟨s', announceAll n.feeds (A n.server)⟩
    simp only [announceAll, afterOk, List.foldl_append] at hrest ⊢
    exact hrest
  | error stop => simp only [afterOk, List.append_nil]

/-- The task that `M` announces is the one that it leaves in the cache. -/
def Tells (id : Uuid) (M : EStateM Stop Node α) (M₀ : EStateM Stop Server α) : Prop :=
  Announces M M₀ fun s => announced id (outcome M₀ s)

omit [External] in
theorem tells_throw (stop : Stop) : Tells id (throw stop : EStateM Stop Node α) (throw stop) :=
  fun _ => rfl

omit [External] in
theorem Tells.after {M₀ : EStateM Stop Server α} {F : α → EStateM Stop Node β}
    {F₀ : α → EStateM Stop Server β} (hF : ∀ a, Tells id (F a) (F₀ a)) :
    Tells id (onState M₀ >>= F) (M₀ >>= F₀) := by
  intro n
  rw [(announces_onState M₀).bind hF n]
  simp only [outcome_bind, List.nil_append]
  rcases outcome M₀ n.server with ⟨r, s'⟩
  cases r <;> rfl

omit [External] in
theorem tells_get {F : Node → EStateM Stop Node β} {F₀ : Server → EStateM Stop Server β}
    (hF : ∀ n, Tells id (F n) (F₀ n.server)) : Tells id (get >>= F) (get >>= F₀) :=
  fun n => hF n n

omit [External] in
theorem Tells.discard {M : EStateM Stop Node α} {M₀ : EStateM Stop Server α} (h : Tells id M M₀) :
    Tells id (Functor.discard M) (Functor.discard M₀) := by
  intro n
  simp only [outcome_discard, h n, announced]
  cases (outcome M₀ n.server).1 <;> rfl

omit [External] in
theorem quietAt_false (env : Env) (id : Uuid) (s : Server) :
    quietAt env id (fun _ => false) s = false := by
  unfold quietAt
  split <;> rfl

omit [External] in
theorem withTaskMut_tells (env : Env) (id : Uuid) {m : EStateM Stop Held α}
    {m₀ : EStateM Stop Guarded α} (hm : Sends m m₀ fun _ => false) :
    Tells id (PushModel.withTaskMut env id m) (ServerModel.withTaskMut env id m₀) := by
  intro n
  rw [withTaskMut_announces hm n]
  simp only [quietAt_false, Bool.false_eq_true, ↓reduceIte]

omit [External] in
theorem addTask_tells (task : VotingTask) :
    Tells task.taskInfo.id (PushModel.addTask env task) (ServerModel.addTask env task) := by
  refine Tells.after fun _ => withTaskMut_tells env task.taskInfo.id ?_
  exact fun h => ⟨_, _, rfl, rfl⟩

theorem addGroupTask_tells (name : String) (deviceIds : GroupDevices) (threshold : ℕ)
    (protocolType : ProtocolType) (keyType : KeyType) (note : Option String) :
    Tells env.newUuid
      (PushModel.addGroupTask env name deviceIds threshold protocolType keyType note)
      (ServerModel.addGroupTask env name deviceIds threshold protocolType keyType note) := by
  unfold PushModel.addGroupTask ServerModel.addGroupTask
  cases isNameValid name with
  | false => exact tells_throw _
  | true => exact tells_get fun n =>
      addTask_tells (newGroupTask env n.server name deviceIds threshold protocolType keyType note)

theorem addSignTask_tells (groupId : Bytes) (name : String) (data : Bytes) :
    Tells env.newUuid (PushModel.addSignTask env groupId name data)
      (ServerModel.addSignTask env groupId name data) := by
  unfold PushModel.addSignTask ServerModel.addSignTask
  refine Tells.after fun _ => tells_get fun n => ?_
  cases n.server.db.getGroup groupId with
  | none => exact tells_throw _
  | some group =>
    refine Tells.after fun _ => tells_get fun n => ?_
    cases group.keyType with
    | signPdf | signChallenge => exact addTask_tells _
    | decrypt => exact tells_throw _

theorem addDecryptTask_tells (groupId : Bytes) (name : String) (data : Bytes) (dataType : String)
    (creator : Option Bytes) :
    Tells env.newUuid (PushModel.addDecryptTask env groupId name data dataType creator)
      (ServerModel.addDecryptTask env groupId name data dataType creator) := by
  unfold PushModel.addDecryptTask ServerModel.addDecryptTask
  refine Tells.after fun _ => tells_get fun n => ?_
  cases n.server.db.getGroup groupId with
  | none => exact tells_throw _
  | some group =>
    refine Tells.after fun _ => tells_get fun n => ?_
    cases group.keyType with
    | decrypt => exact addTask_tells _
    | signPdf | signChallenge => exact tells_throw _

def sweepAnnouncements (env : Env) : List Uuid → Server → List TaskEntry
  | [], _ => []
  | taskId :: rest, s =>
    announced taskId (outcome (ServerModel.withTaskMut env taskId
      (ServerModel.restartEntry env taskId)) s) ++
    afterOk (outcome (ServerModel.withTaskMut env taskId (ServerModel.restartEntry env taskId)) s)
      fun _ => sweepAnnouncements env rest

theorem restartTask_tells (env : Env) (taskId : Uuid) :
    Tells taskId (PushModel.withTaskMut env taskId (PushModel.restartEntry env taskId))
      (ServerModel.withTaskMut env taskId (ServerModel.restartEntry env taskId)) := by
  rw [restartEntry_eq]
  exact withTaskMut_tells env taskId (sends_always _)

theorem restartTasks_announces (env : Env) (l : List Uuid) :
    Announces (PushModel.restartTasks env l)
    (ServerModel.restartTasks env l) (sweepAnnouncements env l) := by
  induction l with
  | nil => exact fun n => rfl
  | cons taskId rest ih =>
    rw [PushModel.restartTasks, ServerModel.restartTasks]
    exact Announces.bind (restartTask_tells env taskId) fun _ => ih

def announcements (env : Env) (op : Op) (s : Server) : List TaskEntry :=
  match op with
  | .decideTask taskId _ _ => announced taskId (outcome (ServerModel.exec env op) s)
  | .updateTask taskId device data _ =>
    if quietAt env taskId (listens env device data) s then []
    else announced taskId (outcome (ServerModel.exec env op) s)
  | .restartStaleTasks =>
    afterOk (outcome (restartCandidates env) s) (sweepAnnouncements env)
  | .addGroupTask .. | .addSignTask .. | .addDecryptTask .. =>
    announced env.newUuid (outcome (ServerModel.exec env op) s)
  | _ => []

/-- Every operation does to the server what it does without subscribers. -/
theorem exec_announces (env : Env) {op : Op} (hop : op ≠ .restartServer) :
    Announces (PushModel.exec env op) (ServerModel.exec env op) (announcements env op) := by
  cases op with
  | addGroupTask => exact Tells.discard (addGroupTask_tells _ _ _ _ _ _)
  | addSignTask => exact Tells.discard (addSignTask_tells _ _ _)
  | addDecryptTask => exact Tells.discard (addDecryptTask_tells _ _ _ _ _)
  | decideTask taskId deviceId accept =>
    change Announces (PushModel.withTaskMut env taskId _) _ _
    rw [decideEntry_eq]
    exact withTaskMut_tells env taskId (sends_always _)
  | updateTask taskId device data attempt =>
    exact withTaskMut_announces (updateEntry_sends env taskId device data attempt)
  | restartStaleTasks =>
    exact (announces_onState (restartCandidates env)).bind (restartTasks_announces env)
  | restartServer => exact absurd rfl hop
  | addDevice | activateDevice | acknowledgeTask | getFormattedTask => exact announces_onState _

end Operations

section Runs

variable {env : Env} {op : Op} {n : Node}

theorem call_crash (hop : op ≠ .restartServer) (h : result env op n.server = .error .crash) :
    call env op n = ⟨ServerModel.next env op n.server,
      (announceAll n.feeds (announcements env op n.server)).restore⟩ := by
  have hcrash : (outcome (ServerModel.exec env op) n.server).1 = .error .crash := h
  rw [call, exec_announces env hop n, hcrash, next_eq, if_pos h]

theorem call_survived (hop : op ≠ .restartServer) (h : result env op n.server ≠ .error .crash) :
    call env op n = ⟨ServerModel.next env op n.server,
      announceAll n.feeds (announcements env op n.server)⟩ := by
  have hnext : ServerModel.next env op n.server =
      (outcome (ServerModel.exec env op) n.server).2 := by
    rw [next_eq, if_neg h]
  rw [call, exec_announces env hop n, hnext]
  change (outcome (ServerModel.exec env op) n.server).1 ≠ _ at h
  split
  · rename_i heq
    exact absurd (Prod.mk.inj heq).1 h
  · rename_i heq
    exact (Prod.mk.inj heq).2.symm

theorem call_server (env : Env) (op : Op) (n : Node) :
    (call env op n).server = ServerModel.next env op n.server := by
  by_cases hop : op = .restartServer
  · subst hop
    rfl
  · by_cases hcrash : result env op n.server = .error .crash
    · rw [call_crash hop hcrash]
    · rw [call_survived hop hcrash]

def isOpen (f : Feeds) (deviceId : Bytes) : Bool :=
  match f.subscribers deviceId with
  | none => false
  | some tx => !(f.channels tx).isClosed

/-- What an event is to the server. A check activates the devices that are connected. -/
def serverCalls (n : Node) : PushModel.Event → List (Env × Op)
  | .call env op => [(env, op)]
  | .checkSubscribers now order =>
    (order.filter (isOpen n.feeds)).map fun deviceId => (servingEnv now 0, .activateDevice deviceId)
  | .addSubscriber _ | .receive _ | .close _ => []

def serverRun (n : Node) : List PushModel.Event → List (Env × Op)
  | [] => []
  | ev :: events => serverCalls n ev ++ serverRun (next n ev) events

omit [External] in
theorem checkSubscriber_open {now : ℕ} {deviceId : Bytes} (h : isOpen n.feeds deviceId) :
    checkSubscriber now deviceId n = (false, { n with server := { n.server with
      deviceLastActivations :=
        Function.update n.server.deviceLastActivations deviceId (some now) } }) := by
  unfold isOpen at h
  cases hsub : n.feeds.subscribers deviceId with
  | none =>
    rw [hsub] at h
    cases h
  | some tx =>
    rw [hsub] at h
    have hopen := Bool.eq_false_iff.mp ((Bool.not_eq_true' _).mp h)
    simp only [checkSubscriber, Feeds.checkSubscriber, hsub, if_neg hopen]

omit [External] in
theorem checkSubscriber_not_open (now : ℕ) {deviceId : Bytes} (h : ¬ isOpen n.feeds deviceId) :
    ∃ closed, checkSubscriber now deviceId n = (closed, n) := by
  unfold isOpen at h
  cases hsub : n.feeds.subscribers deviceId with
  | none => exact ⟨false, by simp only [checkSubscriber, Feeds.checkSubscriber, hsub]⟩
  | some tx =>
    rw [hsub] at h
    have hclosed : (n.feeds.channels tx).isClosed = true := by simpa using h
    exact ⟨true, by simp only [checkSubscriber, Feeds.checkSubscriber, hsub, if_pos hclosed]⟩

theorem checkLoop_server (now : ℕ) (order remove : List Bytes) (n : Node) :
    (checkLoop now order remove n).2.server = runOps n.server
      ((order.filter (isOpen n.feeds)).map fun deviceId =>
        (servingEnv now 0, .activateDevice deviceId)) ∧
    (checkLoop now order remove n).2.feeds = n.feeds := by
  induction order generalizing remove n with
  | nil => exact ⟨rfl, rfl⟩
  | cons deviceId order ih =>
    rw [checkLoop]
    by_cases hopen : isOpen n.feeds deviceId
    · rw [checkSubscriber_open hopen, List.filter_cons_of_pos hopen]
      exact ih remove _
    · obtain ⟨closed, hcheck⟩ := checkSubscriber_not_open now hopen
      rw [hcheck, List.filter_cons_of_neg hopen]
      exact ih _ n

theorem next_server (n : Node) (ev : PushModel.Event) :
    (next n ev).server = runOps n.server (serverCalls n ev) := by
  cases ev with
  | call env op => exact call_server env op n
  | addSubscriber | receive | close => rfl
  | checkSubscribers now order => exact (checkLoop_server now order [] n).1

theorem runOps_append (s : Server) (ops ops' : List (Env × Op)) :
    runOps s (ops ++ ops') = runOps (runOps s ops) ops' := List.foldl_append

theorem exec_answer (env : Env) (op : Op) (n : Node) :
    (outcome (PushModel.exec env op) n).1 = result env op n.server := by
  by_cases hop : op = .restartServer
  · subst hop
    rfl
  · rw [exec_announces env hop n]
    rfl

theorem run_server (n : Node) (events : List PushModel.Event) :
    (run n events).server = runOps n.server (serverRun n events) := by
  induction events generalizing n with
  | nil => rfl
  | cons ev events ih =>
    rw [serverRun, runOps_append, ← next_server]
    exact ih (next n ev)

/-- A run with subscribers is a run of the server without them, and every call is answered as
without them. -/
theorem subscribers_invisible (n : Node) (events : List PushModel.Event) :
    (run n events).server = runOps n.server (serverRun n events) ∧
    ∀ env op, (outcome (PushModel.exec env op) (run n events)).1 =
      result env op (runOps n.server (serverRun n events)) := by
  have hserver := run_server n events
  refine ⟨hserver, fun env op => ?_⟩
  rw [exec_answer, hserver]

end Runs

end AnnouncedTasks

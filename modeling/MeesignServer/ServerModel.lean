import MeesignServer.HydrationModel

/-!
# The server

The operations of `StateInner` over the cached task store. An operation takes
the write lock of its task, so one operation at a time works on a cached task.
Subscriptions are left out: `send_updates` always succeeds and changes nothing
else.
-/
namespace ServerModel

open FallibleProgram FiniteMap DataModel CommunicatorModel ProtocolModel VotingModel
open RunningTaskModel DatabaseModel HydrationModel

/-- `choose_multiple` of the `rand` package: that many elements of the list, without
replacement and in any order. -/
structure ChooseMultiple where
  pick : List Device → ℕ → List Device
  subperm : ∀ l n, (pick l n).Subperm l
  length : ∀ l n, (pick l n).length = min n l.length

def ChooseMultiple.first : ChooseMultiple where
  pick l n := l.take n
  subperm l n := (List.take_sublist n l).subperm
  length _ _ := List.length_take

inductive RepoCall where
  | addDevice
  | getGroup
  | getGroupParticipants
  | createTask
  | hydrateTasks
  | getRestartCandidates
  | setTaskDecision
  | setTaskActiveShares
  | setTaskGroupCertificatesSent
  | setTaskRound
  | setTaskResult
  | addGroup
  | incrementTaskAttemptCount
  | setTaskAcknowledgement
  deriving DecidableEq

/-- What happens at a repository call: it is served, it fails without effect, or the process
stops in front of it. -/
inductive Fault where
  | served
  | fails
  | stops
  deriving DecidableEq

/-- Everything an operation meets from outside: the clock, the database connection, the
random choice, new task ids and the helper processes. -/
structure Env where
  now : ℕ
  fault : RepoCall → Uuid → Fault
  chooseMultiple : ChooseMultiple
  newUuid : Uuid
  helper : Helper

def Env.RepositoryServes (env : Env) : Prop := ∀ call id, env.fault call id = .served

structure Server where
  db : Database
  devices : Bytes → Option Device
  taskCache : Uuid → Option TaskEntry
  taskLastUpdates : Uuid → Option ℕ
  deviceLastActivations : Bytes → Option ℕ
  pdfHelpers : PdfHelpers

def Server.restore (db : Database) : Server where
  db := db
  devices := db.findDevice
  taskCache := fun _ => none
  taskLastUpdates := fun _ => none
  deviceLastActivations := fun _ => none
  pdfHelpers := .empty

/-- A cached task under its write lock, with the rest of the server. -/
structure Guarded where
  entry : TaskEntry
  server : Server

def protocolError (message : String) : Stop := .err (.generalProtocol message)

section Operations

variable [External] (env : Env)

def repoRead (call : RepoCall) (id : Uuid) : EStateM Stop Server Unit :=
  match env.fault call id with
  | .served => pure ()
  | .fails => throw (.err (.persistence .execution))
  | .stops => throw .crash

def repoWrite (call : RepoCall) (id : Uuid) (f : Database → Except PersistenceError Database) :
    EStateM Stop Server Unit := do
  repoRead env call id
  let s ← get
  let db ← fromExcept ((f s.db).mapError fun e => .err (.persistence e))
  set { s with db }

/-- `ensure_cached_tasks` for one id. The repository is queried for a cached task too, with an
empty list of ids. A failing read has no effect, so one point of failure stands for all the reads
of a hydration. -/
def ensureCachedTask (taskId : Uuid) : EStateM Stop Server Unit := do
  let s ← get
  repoRead env .hydrateTasks taskId
  match s.taskCache taskId with
  | some _ => pure ()
  | none => do
    let task ← fromExcept (hydrateTask s.db taskId)
    set { s with taskCache := Function.update s.taskCache taskId (some task) }

def withTaskMut {α : Type} (taskId : Uuid) (body : EStateM Stop Guarded α) :
    EStateM Stop Server α := do
  ensureCachedTask env taskId
  match (← get).taskCache taskId with
  | none => throw (protocolError "Task not found")
  | some task =>
    zoom (fun s => ⟨task, s⟩)
      (fun _ g => { g.server with
        taskCache := Function.update g.server.taskCache taskId (some g.entry) }) body

def onServer {α : Type} (m : EStateM Stop Server α) : EStateM Stop Guarded α :=
  zoom Guarded.server (fun g server => { g with server }) m

def setEntry (task : TaskEntry) : EStateM Stop Guarded Unit :=
  modify fun g => { g with entry := task }

def onRunning {α : Type} (task : RunningTask) (m : EStateM Stop Runner α) :
    EStateM Stop Guarded α :=
  zoom (fun g => ⟨task, g.server.pdfHelpers⟩)
    (fun g r => ⟨.running r.task, { g.server with pdfHelpers := r.helpers }⟩) m

def setTaskLastUpdate (taskId : Uuid) : EStateM Stop Server Unit :=
  modify fun s =>
    { s with taskLastUpdates := Function.update s.taskLastUpdates taskId (some env.now) }

def getTaskLastUpdate (taskId : Uuid) : EStateM Stop Server ℕ := do
  let s ← get
  match s.taskLastUpdates taskId with
  | some last => return last
  | none => do
    setTaskLastUpdate env taskId
    return env.now

def getDeviceLastActivation (deviceId : Bytes) : EStateM Stop Server ℕ := do
  let s ← get
  match s.deviceLastActivations deviceId with
  | some last => return last
  | none => do
    set { s with
      deviceLastActivations := Function.update s.deviceLastActivations deviceId (some env.now) }
    return env.now

/-- The accepting participants that have been active in the last five seconds. -/
def connectedParticipants : List Participant → EStateM Stop Server (List Participant)
  | [] => return []
  | p :: rest => do
    let lastActiveTime ← getDeviceLastActivation env p.device.id
    let connected ← connectedParticipants rest
    return if env.now - 5 < lastActiveTime then p :: connected else connected

def countDevices (devices : List Device) : Map Bytes ℕ := counts (devices.map Device.id)

/-- Picks which shares shall participate in the protocol and stores how many each device has. -/
def chooseActiveShares (task : VotingTask) : EStateM Stop Server (Map ℕ Device) := do
  let accepting := task.taskInfo.participants.filter (fun p => task.deviceAccepted p.device.id)
  let connected ← connectedParticipants env accepting
  let candidates := if task.acceptThreshold ≤ totalShares connected then connected else accepting
  let chosenDevices := env.chooseMultiple.pick
    (candidates.flatMap fun p => List.replicate p.shares p.device) task.acceptThreshold
  repoWrite env .setTaskActiveShares task.taskInfo.id fun db =>
    db.setTaskActiveShares task.taskInfo.id (countDevices chosenDevices)
  fromExcept (assignShareIndices task.taskInfo.participants chosenDevices)

/-- The approved task is built aside and replaces the voting task when it is stored. -/
def startEntry (taskId : Uuid) (task : VotingTask) : EStateM Stop Guarded Unit := do
  let activeShares ← onServer (chooseActiveShares env task)
  let running ← fromExcept
    (RunningTaskContext.createRunningTask task.runningTaskContext task activeShares)
  let (update, running) ← onServer <|
    zoom (fun s => Runner.mk running s.pdfHelpers)
      (fun s (r : Runner) => { s with pdfHelpers := r.helpers })
      (do
        let update ← RunningTask.initializeTask env.helper
        return (update, (← get).task))
  match update with
  | .listen | .finished _ _ => throw (.panic .unreachable)
  | .groupCertificatesSent => do
    onServer (repoWrite env .setTaskGroupCertificatesSent taskId fun db =>
      .ok (db.setTaskGroupCertificatesSent taskId (some true)))
    setEntry (.running running)
  | .nextRound round => do
    onServer (repoWrite env .setTaskRound taskId fun db => db.setTaskRound taskId round)
    setEntry (.running running)
  | .failed task => do
    onServer (repoWrite env .setTaskResult taskId fun db =>
      db.setTaskResult taskId (.error task.reason))
    setEntry (.failed task)

/-- `decide_task` once it holds the lock. The vote is counted in memory before it is stored. -/
def decideEntry (taskId : Uuid) (deviceId : Bytes) (accept : Bool) :
    EStateM Stop Guarded Unit := do
  match (← get).entry with
  | .voting task => do
    onServer (setTaskLastUpdate env taskId)
    let (task, update) ← fromExcept ((task.decide deviceId accept).mapError .err)
    setEntry (.voting task)
    onServer (repoWrite env .setTaskDecision taskId fun db =>
      .ok (db.setTaskDecision taskId deviceId accept))
    match update with
    | .undecided => pure ()
    | .accepted => startEntry env taskId task
    | .declined task => do
      onServer (repoWrite env .setTaskResult taskId fun db =>
        db.setTaskResult taskId (.error "Task declined"))
      setEntry (.declined task)
  | _ => throw (protocolError "Cannot decide non-voting task")

def decideTask (taskId : Uuid) (deviceId : Bytes) (accept : Bool) : EStateM Stop Server Unit :=
  withTaskMut env taskId (decideEntry env taskId deviceId accept)

def updateEntry (taskId : Uuid) (device : Bytes) (data : List ClientMessage) (attempt : ℕ) :
    EStateM Stop Guarded Unit := do
  match (← get).entry with
  | .running task => do
    onServer (setTaskLastUpdate env taskId)
    if attempt ≠ task.taskInfo.attempts then throw (protocolError "Stale update")
    else match ← onRunning task (RunningTask.update env.helper device data) with
    | .listen => pure ()
    | .groupCertificatesSent => throw (.panic .unreachable)
    | .nextRound round =>
      onServer (repoWrite env .setTaskRound taskId fun db => db.setTaskRound taskId round)
    | .failed task => do
      onServer (repoWrite env .setTaskResult taskId fun db =>
        db.setTaskResult taskId (.error task.reason))
      setEntry (.failed task)
    | .finished round task => do
      onServer (repoWrite env .setTaskRound taskId fun db => db.setTaskRound taskId round)
      match task.result with
      | .groupEstablished group =>
        onServer (repoWrite env .addGroup taskId fun db =>
          db.addGroup taskId group.id group.name (asU32 group.threshold) group.protocol
            group.keyType group.certificate group.note)
      | _ => pure ()
      onServer (repoWrite env .setTaskResult taskId fun db =>
        db.setTaskResult taskId (.ok task.result.asBytes))
      setEntry (.finished task)
  | _ => throw (protocolError "Cannot update non-running task")

def updateTask (taskId : Uuid) (device : Bytes) (data : List ClientMessage) (attempt : ℕ) :
    EStateM Stop Server Unit :=
  withTaskMut env taskId (updateEntry env taskId device data attempt)

def restartEntry (taskId : Uuid) : EStateM Stop Guarded Unit := do
  match (← get).entry with
  | .running task => do
    onServer (setTaskLastUpdate env taskId)
    onServer (repoWrite env .incrementTaskAttemptCount taskId fun db =>
      db.incrementTaskAttemptCount taskId)
    match ← onRunning task (RunningTask.restart env.helper) with
    | .listen | .finished _ _ => throw (.panic .unreachable)
    | .groupCertificatesSent =>
      onServer (repoWrite env .setTaskGroupCertificatesSent taskId fun db =>
        .ok (db.setTaskGroupCertificatesSent taskId (some true)))
    | .nextRound round =>
      onServer (repoWrite env .setTaskRound taskId fun db => db.setTaskRound taskId round)
    | .failed task => do
      onServer (repoWrite env .setTaskResult taskId fun db =>
        db.setTaskResult taskId (.error task.reason))
      setEntry (.failed task)
  | _ => throw (inconsistent "non-running task in candidates for restart")

/-- The candidates whose last update is more than 30 seconds before `now`. -/
def staleTasks (now : ℕ) : List Uuid → EStateM Stop Server (List Uuid)
  | [] => return []
  | taskId :: rest => do
    let lastUpdate ← getTaskLastUpdate env taskId
    let stale ← staleTasks now rest
    return if 30 < now - lastUpdate then taskId :: stale else stale

def restartCandidates : EStateM Stop Server (List Uuid) := do
  repoRead env .getRestartCandidates 0
  staleTasks env env.now (← get).db.getRestartCandidates

def restartTasks : List Uuid → EStateM Stop Server Unit
  | [] => return
  | taskId :: rest => do
    withTaskMut env taskId (restartEntry env taskId)
    restartTasks rest

def restartStaleTasks : EStateM Stop Server Unit := do
  restartTasks env (← restartCandidates env)

def addDevice (device : Device) : EStateM Stop Server Unit := do
  repoWrite env .addDevice 0 fun db => db.addDevice device
  modify fun s => { s with devices := Function.update s.devices device.id (some device) }

def activateDevice (deviceId : Bytes) : EStateM Stop Server Unit :=
  modify fun s => { s with
    deviceLastActivations := Function.update s.deviceLastActivations deviceId (some env.now) }

def createRows (task : VotingTask) (db : Database) : Except PersistenceError Database :=
  let info := task.taskInfo
  let participantIdsShares := info.participants.map fun p => (p.device.id, p.shares)
  let createThresholdTask (group : Group) (taskType : TaskType) (data : Bytes) :=
    db.createTask info.id group.id taskType info.name participantIdsShares data info.request
      (asU32 group.threshold) info.keyType info.protocolType
  match task.runningTaskContext with
  | .group threshold note => db.createGroupTask info.id participantIdsShares threshold info.name
      info.keyType info.protocolType info.request note
  | .signChallenge group data => createThresholdTask group .signChallenge data
  | .signPdf group data => createThresholdTask group .signPdf data
  | .decrypt group data => createThresholdTask group .decrypt data

/-- `persist_task`: the rows are committed first, the cache entry follows. -/
def persistTask (task : VotingTask) : EStateM Stop Server Unit := do
  repoWrite env .createTask task.taskInfo.id (createRows task)
  modify fun s =>
    { s with taskCache := Function.update s.taskCache task.taskInfo.id (some (.voting task)) }

/-- The new task is read back from the store, so the request can fail when the task exists. -/
def addTask (task : VotingTask) : EStateM Stop Server ProtoTask := do
  persistTask env task
  withTaskMut env task.taskInfo.id do
    return (← get).entry.format none none

/-- The device list of a group request. A decoded request message is far shorter than `2^32`
entries (the default limit of `tonic` is 4 MiB), so share counts fit in a `u32`. -/
structure GroupDevices where
  ids : List Bytes
  fits : ids.length < 2 ^ 32

def countShares (deviceIds : List Bytes) : Map Bytes ℕ := counts deviceIds

def groupParticipants (s : Server) (shares : Map Bytes ℕ) : List Participant :=
  (shares.keys.filterMap s.devices).map fun device =>
    ⟨device, (shares.lookup device.id).getD 0⟩

def newGroupTask (s : Server) (name : String) (deviceIds : GroupDevices) (threshold : ℕ)
    (protocolType : ProtocolType) (keyType : KeyType) (note : Option String) : VotingTask :=
  let shares := countShares deviceIds.ids
  let participants := groupParticipants s shares
  let request := External.encodeGroupRequest
    ⟨name, shares.keys, threshold, protocolType, keyType, note⟩
  let taskInfo : TaskInfo :=
    ⟨env.newUuid, name, .group, protocolType, keyType, participants, [], 0, request⟩
  ⟨taskInfo, ∅, taskInfo.totalShares, .group threshold note⟩

def addGroupTask (name : String) (deviceIds : GroupDevices) (threshold : ℕ)
    (protocolType : ProtocolType) (keyType : KeyType) (note : Option String) :
    EStateM Stop Server ProtoTask := do
  if !isNameValid name then throw (protocolError ("Invalid group name " ++ name))
  else do
    addTask env (newGroupTask env (← get) name deviceIds threshold protocolType keyType note)

def newThresholdTask (group : Group) (participants : List Participant) (name : String)
    (taskType : TaskType) (observers : List Bytes) (request : Bytes)
    (context : RunningTaskContext) : VotingTask :=
  ⟨⟨env.newUuid, name, taskType, group.protocol, group.keyType, participants, observers, 0,
    request⟩, ∅, asU32 group.threshold, context⟩

def addSignTask (groupId : Bytes) (name : String) (data : Bytes) :
    EStateM Stop Server ProtoTask := do
  repoRead env .getGroup 0
  match (← get).db.getGroup groupId with
  | none => throw (protocolError "Invalid group_id")
  | some group => do
    repoRead env .getGroupParticipants 0
    let participants := (← get).db.getGroupParticipants groupId
    let request := External.encodeSignRequest ⟨name, group.id, data⟩
    match group.keyType with
    | .signPdf =>
      addTask env
        (newThresholdTask env group participants name .signPdf [] request (.signPdf group data))
    | .signChallenge =>
      addTask env (newThresholdTask env group participants name .signChallenge [] request
        (.signChallenge group data))
    | .decrypt => throw (protocolError "Decryption groups can't accept signing requests")

/-- The creator of a decryption is an observer if it does not participate itself. -/
def decryptObservers (participants : List Participant) : Option Bytes → List Bytes
  | some did => if participants.any (fun p => p.device.id = did) then [] else [did]
  | none => []

def addDecryptTask (groupId : Bytes) (name : String) (data : Bytes) (dataType : String)
    (creatorDeviceId : Option Bytes) : EStateM Stop Server ProtoTask := do
  repoRead env .getGroup 0
  match (← get).db.getGroup groupId with
  | none => throw (protocolError "Invalid group_id")
  | some group => do
    repoRead env .getGroupParticipants 0
    let participants := (← get).db.getGroupParticipants groupId
    let request := External.encodeDecryptRequest ⟨name, group.id, data, dataType⟩
    match group.keyType with
    | .decrypt =>
      addTask env (newThresholdTask env group participants name .decrypt
        (decryptObservers participants creatorDeviceId) request (.decrypt group data))
    | .signPdf | .signChallenge =>
      throw (protocolError "Signing group can't accept decryption requests")

def getFormattedTask (taskId : Uuid) (deviceId : Option Bytes) : EStateM Stop Server ProtoTask :=
  withTaskMut env taskId do
    let task := (← get).entry
    return task.format deviceId (some task.taskInfo.request)

def acknowledgeEntry (taskId : Uuid) (device : Bytes) : EStateM Stop Guarded Unit := do
  match (← get).entry with
  | .finished task => do
    setEntry (.finished { task with acknowledgements := insert device task.acknowledgements })
    onServer (repoWrite env .setTaskAcknowledgement taskId fun db =>
      .ok (db.setTaskAcknowledgement taskId device))
  | _ => throw (protocolError "Cannot acknowledge unfinished task")

def acknowledgeTask (taskId : Uuid) (device : Bytes) : EStateM Stop Server Unit :=
  withTaskMut env taskId (acknowledgeEntry env taskId device)

end Operations

inductive Op where
  | addDevice (device : Device)
  | activateDevice (deviceId : Bytes)
  | addGroupTask (name : String) (deviceIds : GroupDevices) (threshold : ℕ)
      (protocolType : ProtocolType) (keyType : KeyType) (note : Option String)
  | addSignTask (groupId : Bytes) (name : String) (data : Bytes)
  | addDecryptTask (groupId : Bytes) (name : String) (data : Bytes) (dataType : String)
      (creatorDeviceId : Option Bytes)
  | decideTask (taskId : Uuid) (deviceId : Bytes) (accept : Bool)
  | updateTask (taskId : Uuid) (device : Bytes) (data : List ClientMessage) (attempt : ℕ)
  | acknowledgeTask (taskId : Uuid) (device : Bytes)
  | restartStaleTasks
  | getFormattedTask (taskId : Uuid) (deviceId : Option Bytes)
  | restartServer

variable [External]

def exec (env : Env) : Op → EStateM Stop Server Unit
  | .addDevice device => addDevice env device
  | .activateDevice deviceId => activateDevice env deviceId
  | .addGroupTask name deviceIds threshold protocolType keyType note =>
    discard (addGroupTask env name deviceIds threshold protocolType keyType note)
  | .addSignTask groupId name data => discard (addSignTask env groupId name data)
  | .addDecryptTask groupId name data dataType creatorDeviceId =>
    discard (addDecryptTask env groupId name data dataType creatorDeviceId)
  | .decideTask taskId deviceId accept => decideTask env taskId deviceId accept
  | .updateTask taskId device data attempt => updateTask env taskId device data attempt
  | .acknowledgeTask taskId device => acknowledgeTask env taskId device
  | .restartStaleTasks => restartStaleTasks env
  | .getFormattedTask taskId deviceId => discard (getFormattedTask env taskId deviceId)
  | .restartServer => modify fun s => Server.restore s.db

def result (env : Env) (op : Op) (s : Server) : Except Stop Unit := (outcome (exec env op) s).1

/-- The server after an operation. When the process stops, a new one starts over the tables. -/
def next (env : Env) (op : Op) (s : Server) : Server :=
  match outcome (exec env op) s with
  | (.error .crash, t) => Server.restore t.db
  | (_, t) => t

theorem next_eq (env : Env) (op : Op) (s : Server) : next env op s =
    if result env op s = .error .crash then Server.restore (outcome (exec env op) s).2.db
    else (outcome (exec env op) s).2 := by
  unfold next result
  rcases outcome (exec env op) s with ⟨r | r, t⟩
  · cases r <;> rfl
  · rfl

def initial : Server := Server.restore .empty

/-- Servers reached by any operations, with repository calls failing and the process
stopping anywhere. -/
inductive Reachable : Server → Prop where
  | initial : Reachable initial
  | step {s : Server} (env : Env) (op : Op) : Reachable s → Reachable (next env op s)

/-- Servers reached while the repository serves every call. -/
inductive ServedReachable : Server → Prop where
  | initial : ServedReachable initial
  | step {s : Server} (env : Env) (op : Op) : ServedReachable s → env.RepositoryServes →
      ServedReachable (next env op s)

def Step (s t : Server) : Prop := ∃ env op, t = next env op s

abbrev Later (s t : Server) : Prop := Relation.ReflTransGen Step s t

def runOps (s : Server) (ops : List (Env × Op)) : Server :=
  ops.foldl (fun s p => next p.1 p.2 s) s

theorem later_runOps (s : Server) (ops : List (Env × Op)) : Later s (runOps s ops) := by
  induction ops generalizing s with
  | nil => exact .refl
  | cons p ops ih => exact .head ⟨p.1, p.2, rfl⟩ (ih _)

theorem reachable_later {s t : Server} (h : Reachable s) (hl : Later s t) : Reachable t := by
  induction hl with
  | refl => exact h
  | tail _ step ih =>
    obtain ⟨env, op, rfl⟩ := step
    exact .step env op ih

theorem ServedReachable.reachable {s : Server} (h : ServedReachable s) : Reachable s := by
  induction h with
  | initial => exact .initial
  | step env op _ _ ih => exact .step env op ih

/-- Broadcasts are taken at their word, encoded messages are empty, and a protocol has two
rounds. -/
@[reducible] def plainExternal : External where
  verifyBroadcast broadcast _ := some broadcast
  keygenRounds _ := 2
  thresholdRounds _ := 2
  keygen_pos _ := by decide
  keygen_lt _ := by decide
  threshold_pos _ := by decide
  threshold_lt _ := by decide
  encodeServerMessage _ := []
  encodeProtocolGroupInit _ := []
  encodeProtocolInit _ := []
  encodeGroupRequest _ := []
  encodeSignRequest _ := []
  encodeDecryptRequest _ := []

def servingEnv (now newUuid : ℕ) : Env where
  now := now
  fault _ _ := .served
  chooseMultiple := .first
  newUuid := newUuid
  helper := ⟨none, .broken, none, true⟩

omit [External] in
theorem servingEnv_serves (now newUuid : ℕ) : (servingEnv now newUuid).RepositoryServes :=
  fun _ _ => rfl

def alice : Device := ⟨[1], "Alice", .user, [1]⟩
def bob : Device := ⟨[2], "Bob", .user, [2]⟩

omit [External] in
theorem pair_fits : [alice.id, bob.id].length < 2 ^ 32 := by decide

/-- Alice and Bob register, and a group of theirs is requested and approved by Alice. Its task
has id 0. -/
def groupRequested : List Op :=
  [.addDevice alice, .addDevice bob,
    .addGroupTask "Group" ⟨[alice.id, bob.id], pair_fits⟩ 2 .frost .signChallenge none,
    .decideTask 0 alice.id true]

def answer (broadcast : Bytes) : List ClientMessage := [⟨0, ∅, some broadcast⟩]

/-- Bob approves the group, and both devices run its three rounds. The group's id is `[7]`. -/
def groupEstablished : List Op :=
  .decideTask 0 bob.id true :: (List.replicate 3
    [.updateTask 0 alice.id (answer [7]) 0, .updateTask 0 bob.id (answer [7]) 0]).flatten

/-- A signature is requested from the group and approved. Its task has id 1. -/
def signatureStarted : List Op :=
  [.addSignTask [7] "Document" [5], .decideTask 1 alice.id true, .decideTask 1 bob.id true]

def servedOps (now newUuid : ℕ) (ops : List Op) : List (Env × Op) :=
  ops.map fun op => (servingEnv now newUuid, op)

def registered : Server :=
  @runOps plainExternal initial (servedOps 0 0 [.addDevice alice, .addDevice bob])

end ServerModel

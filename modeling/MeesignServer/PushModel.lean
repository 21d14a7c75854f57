import MeesignServer.Subscriptions

/-!
# The server with its update streams

`StateInner` as a whole: beside the task state it has a map of subscribers, and an
operation on a task sends the new view of the task to its participants and observers
before it releases the lock. Apart from these sends the operations are those of the
server, and what is sent can be told from the server alone.
-/
namespace PushModel

open FallibleProgram DataModel CommunicatorModel ProtocolModel VotingModel RunningTaskModel
open DatabaseModel HydrationModel ServerModel Subscriptions

structure Node where
  server : Server
  feeds : Feeds

/-- A cached task under its write lock, with the rest of the state. -/
structure Held where
  entry : TaskEntry
  node : Node

def onState {α : Type} (m : EStateM Stop Server α) : EStateM Stop Node α :=
  zoom Node.server (fun n server => { n with server }) m

def guarded {α : Type} (m : EStateM Stop Guarded α) : EStateM Stop Held α :=
  zoom (fun h => ⟨h.entry, h.node.server⟩)
    (fun h g => ⟨g.entry, { h.node with server := g.server }⟩) m

def sendUpdates : EStateM Stop Held Unit :=
  modify fun h => { h with node := { h.node with feeds := h.node.feeds.sendUpdates h.entry } }

section Operations

variable [External] (env : Env)

def withTaskMut {α : Type} (taskId : Uuid) (body : EStateM Stop Held α) : EStateM Stop Node α := do
  onState (ensureCachedTask env taskId)
  match (← get).server.taskCache taskId with
  | none => throw (protocolError "Task not found")
  | some task =>
    zoom (fun n => ⟨task, n⟩)
      (fun _ h => { h.node with server := { h.node.server with
        taskCache := Function.update h.node.server.taskCache taskId (some h.entry) } }) body

def startEntry (taskId : Uuid) (task : VotingTask) : EStateM Stop Held Unit := do
  let activeShares ← guarded (onServer (chooseActiveShares env task))
  let running ← fromExcept
    (RunningTaskContext.createRunningTask task.runningTaskContext task activeShares)
  let (update, running) ← guarded <| onServer <|
    zoom (fun s => Runner.mk running s.pdfHelpers)
      (fun s (r : Runner) => { s with pdfHelpers := r.helpers })
      (do
        let update ← RunningTask.initializeTask env.helper
        return (update, (← get).task))
  match update with
  | .listen | .finished _ _ => throw (.panic .unreachable)
  | .groupCertificatesSent => do
    guarded (onServer (repoWrite env .setTaskGroupCertificatesSent taskId fun db =>
      .ok (db.setTaskGroupCertificatesSent taskId (some true))))
    guarded (setEntry (.running running))
    sendUpdates
  | .nextRound round => do
    guarded (onServer (repoWrite env .setTaskRound taskId fun db => db.setTaskRound taskId round))
    guarded (setEntry (.running running))
    sendUpdates
  | .failed task => do
    guarded (onServer (repoWrite env .setTaskResult taskId fun db =>
      db.setTaskResult taskId (.error task.reason)))
    guarded (setEntry (.failed task))
    sendUpdates

def decideEntry (taskId : Uuid) (deviceId : Bytes) (accept : Bool) : EStateM Stop Held Unit := do
  match (← get).entry with
  | .voting task => do
    guarded (onServer (setTaskLastUpdate env taskId))
    let (task, update) ← fromExcept ((task.decide deviceId accept).mapError .err)
    guarded (setEntry (.voting task))
    guarded (onServer (repoWrite env .setTaskDecision taskId fun db =>
      .ok (db.setTaskDecision taskId deviceId accept)))
    match update with
    | .undecided => sendUpdates
    | .accepted => startEntry env taskId task
    | .declined task => do
      guarded (onServer (repoWrite env .setTaskResult taskId fun db =>
        db.setTaskResult taskId (.error "Task declined")))
      guarded (setEntry (.declined task))
      sendUpdates
  | _ => throw (protocolError "Cannot decide non-voting task")

def decideTask (taskId : Uuid) (deviceId : Bytes) (accept : Bool) : EStateM Stop Node Unit :=
  withTaskMut env taskId (decideEntry env taskId deviceId accept)

/-- An update that only fills a buffer is not announced. -/
def updateEntry (taskId : Uuid) (device : Bytes) (data : List ClientMessage) (attempt : ℕ) :
    EStateM Stop Held Unit := do
  match (← get).entry with
  | .running task => do
    guarded (onServer (setTaskLastUpdate env taskId))
    if attempt ≠ task.taskInfo.attempts then throw (protocolError "Stale update")
    else match ← guarded (onRunning task (RunningTask.update env.helper device data)) with
    | .listen => pure ()
    | .groupCertificatesSent => throw (.panic .unreachable)
    | .nextRound round => do
      guarded (onServer (repoWrite env .setTaskRound taskId fun db => db.setTaskRound taskId round))
      sendUpdates
    | .failed task => do
      guarded (onServer (repoWrite env .setTaskResult taskId fun db =>
        db.setTaskResult taskId (.error task.reason)))
      guarded (setEntry (.failed task))
      sendUpdates
    | .finished round task => do
      guarded (onServer (repoWrite env .setTaskRound taskId fun db => db.setTaskRound taskId round))
      match task.result with
      | .groupEstablished group =>
        guarded (onServer (repoWrite env .addGroup taskId fun db =>
          db.addGroup taskId group.id group.name (asU32 group.threshold) group.protocol
            group.keyType group.certificate group.note))
      | _ => pure ()
      guarded (onServer (repoWrite env .setTaskResult taskId fun db =>
        db.setTaskResult taskId (.ok task.result.asBytes)))
      guarded (setEntry (.finished task))
      sendUpdates
  | _ => throw (protocolError "Cannot update non-running task")

def updateTask (taskId : Uuid) (device : Bytes) (data : List ClientMessage) (attempt : ℕ) :
    EStateM Stop Node Unit :=
  withTaskMut env taskId (updateEntry env taskId device data attempt)

def restartEntry (taskId : Uuid) : EStateM Stop Held Unit := do
  match (← get).entry with
  | .running task => do
    guarded (onServer (setTaskLastUpdate env taskId))
    guarded (onServer (repoWrite env .incrementTaskAttemptCount taskId fun db =>
      db.incrementTaskAttemptCount taskId))
    match ← guarded (onRunning task (RunningTask.restart env.helper)) with
    | .listen | .finished _ _ => throw (.panic .unreachable)
    | .groupCertificatesSent => do
      guarded (onServer (repoWrite env .setTaskGroupCertificatesSent taskId fun db =>
        .ok (db.setTaskGroupCertificatesSent taskId (some true))))
      sendUpdates
    | .nextRound round => do
      guarded (onServer (repoWrite env .setTaskRound taskId fun db => db.setTaskRound taskId round))
      sendUpdates
    | .failed task => do
      guarded (onServer (repoWrite env .setTaskResult taskId fun db =>
        db.setTaskResult taskId (.error task.reason)))
      guarded (setEntry (.failed task))
      sendUpdates
  | _ => throw (inconsistent "non-running task in candidates for restart")

def restartTasks : List Uuid → EStateM Stop Node Unit
  | [] => return
  | taskId :: rest => do
    withTaskMut env taskId (restartEntry env taskId)
    restartTasks rest

def restartStaleTasks : EStateM Stop Node Unit := do
  restartTasks env (← onState (restartCandidates env))

def addTask (task : VotingTask) : EStateM Stop Node ProtoTask := do
  onState (persistTask env task)
  withTaskMut env task.taskInfo.id do
    sendUpdates
    return (← get).entry.format none none

def addGroupTask (name : String) (deviceIds : GroupDevices) (threshold : ℕ)
    (protocolType : ProtocolType) (keyType : KeyType) (note : Option String) :
    EStateM Stop Node ProtoTask := do
  if !isNameValid name then throw (protocolError ("Invalid group name " ++ name))
  else do
    addTask env
      (newGroupTask env (← get).server name deviceIds threshold protocolType keyType note)

def addSignTask (groupId : Bytes) (name : String) (data : Bytes) :
    EStateM Stop Node ProtoTask := do
  onState (repoRead env .getGroup 0)
  match (← get).server.db.getGroup groupId with
  | none => throw (protocolError "Invalid group_id")
  | some group => do
    onState (repoRead env .getGroupParticipants 0)
    let participants := (← get).server.db.getGroupParticipants groupId
    let request := External.encodeSignRequest ⟨name, group.id, data⟩
    match group.keyType with
    | .signPdf =>
      addTask env
        (newThresholdTask env group participants name .signPdf [] request (.signPdf group data))
    | .signChallenge =>
      addTask env (newThresholdTask env group participants name .signChallenge [] request
        (.signChallenge group data))
    | .decrypt => throw (protocolError "Decryption groups can't accept signing requests")

def addDecryptTask (groupId : Bytes) (name : String) (data : Bytes) (dataType : String)
    (creatorDeviceId : Option Bytes) : EStateM Stop Node ProtoTask := do
  onState (repoRead env .getGroup 0)
  match (← get).server.db.getGroup groupId with
  | none => throw (protocolError "Invalid group_id")
  | some group => do
    onState (repoRead env .getGroupParticipants 0)
    let participants := (← get).server.db.getGroupParticipants groupId
    let request := External.encodeDecryptRequest ⟨name, group.id, data, dataType⟩
    match group.keyType with
    | .decrypt =>
      addTask env (newThresholdTask env group participants name .decrypt
        (decryptObservers participants creatorDeviceId) request (.decrypt group data))
    | .signPdf | .signChallenge =>
      throw (protocolError "Signing group can't accept decryption requests")

end Operations

inductive Event where
  | call (env : Env) (op : Op)
  | addSubscriber (deviceId : Bytes)
  | receive (channel : ℕ)
  | close (channel : ℕ)
  /-- The order in which the map is iterated is arbitrary. -/
  | checkSubscribers (now : ℕ) (order : List Bytes)

variable [External]

def exec (env : Env) : Op → EStateM Stop Node Unit
  | .addGroupTask name deviceIds threshold protocolType keyType note =>
    discard (addGroupTask env name deviceIds threshold protocolType keyType note)
  | .addSignTask groupId name data => discard (addSignTask env groupId name data)
  | .addDecryptTask groupId name data dataType creatorDeviceId =>
    discard (addDecryptTask env groupId name data dataType creatorDeviceId)
  | .decideTask taskId deviceId accept => decideTask env taskId deviceId accept
  | .updateTask taskId device data attempt => updateTask env taskId device data attempt
  | .restartStaleTasks => restartStaleTasks env
  | .restartServer => modify fun n => ⟨Server.restore n.server.db, n.feeds.restore⟩
  | .addDevice device => onState (ServerModel.exec env (.addDevice device))
  | .activateDevice deviceId => onState (ServerModel.exec env (.activateDevice deviceId))
  | .acknowledgeTask taskId device =>
    onState (ServerModel.exec env (.acknowledgeTask taskId device))
  | .getFormattedTask taskId deviceId =>
    onState (ServerModel.exec env (.getFormattedTask taskId deviceId))

def call (env : Env) (op : Op) (n : Node) : Node :=
  match outcome (exec env op) n with
  | (.error .crash, n') => ⟨Server.restore n'.server.db, n'.feeds.restore⟩
  | (_, n') => n'

def checkSubscriber (now : ℕ) (deviceId : Bytes) (n : Node) : Bool × Node :=
  let (closed, deviceLastActivations) :=
    n.feeds.checkSubscriber n.server.deviceLastActivations now deviceId
  (closed, { n with server := { n.server with deviceLastActivations } })

def checkLoop (now : ℕ) : List Bytes → List Bytes → Node → List Bytes × Node
  | [], remove, n => (remove, n)
  | deviceId :: rest, remove, n =>
    let (closed, n) := checkSubscriber now deviceId n
    checkLoop now rest (if closed then remove ++ [deviceId] else remove) n

def checkSubscribers (now : ℕ) (order : List Bytes) (n : Node) : Node :=
  let (remove, n) := checkLoop now order [] n
  { n with feeds := remove.foldl Feeds.removeSubscriber n.feeds }

def next (n : Node) : Event → Node
  | .call env op => call env op n
  | .addSubscriber deviceId => { n with feeds := n.feeds.addSubscriber deviceId }
  | .receive channel => { n with feeds := n.feeds.onChannel channel Channel.receive }
  | .close channel => { n with feeds := n.feeds.onChannel channel Channel.close }
  | .checkSubscribers now order => checkSubscribers now order n

def initial : Node := ⟨ServerModel.initial, .empty⟩

def run (n : Node) (events : List Event) : Node := events.foldl next n

end PushModel

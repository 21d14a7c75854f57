import MeesignServer.IndexBlocks
import MeesignServer.RunningTaskModel
import MeesignServer.DatabaseModel

/-!
# Hydration of tasks

A task that is not in the cache is rebuilt from the tables. Its phase is not
stored: it follows from the result row and from the votes.
-/
namespace HydrationModel

open FiniteMap IndexBlocks DataModel CommunicatorModel ProtocolModel VotingModel
open RunningTaskModel DatabaseModel

def sortById (participants : List Participant) : List Participant :=
  participants.insertionSort (fun a b => a.device.id ≤ b.device.id)

/-- The indices of the first shares, generated from the sorted list of devices. -/
def firstShareIndices (participants : List Participant) : Map Bytes ℕ :=
  collect (scanStarts 0 ((sortById participants).map fun p => (p.device.id, p.shares)))

/-- The `scan` that walks over the active shares and counts up the index of their device. -/
def assignShareIndices (participants : List Participant) (devices : List Device) :
    Except Stop (Map ℕ Device) :=
  match assign Device.id (firstShareIndices participants) devices with
  | none => .error (.panic .unknownShareIndex)
  | some shares => .ok (collect shares)

def activeDevices (activeShares : Map Bytes ℕ) (participants : List Participant) : List Device :=
  (sortById participants).flatMap fun p =>
    List.replicate ((activeShares.lookup p.device.id).getD 0) p.device

def hydrateCommunicator (db : Database) (taskId : Uuid) (row : TaskRow)
    (participants : List Participant) : Except Stop Communicator := do
  let threshold := if row.taskType = .group then totalShares participants else asU32 row.threshold
  let activeShares ← assignShareIndices participants
    (activeDevices (db.getTaskActiveShares taskId) participants)
  Communicator.new threshold row.protocolType activeShares

def inconsistent (message : String) : Stop := .err (.persistence (.dataInconsistency message))

def GroupTask.fromModel (taskInfo : TaskInfo) (row : TaskRow) (communicator : Communicator) :
    Except Stop GroupTask := do
  let protocol ← orProtocolError (createKeygenProtocol row.protocolType row.keyType
    taskInfo.totalShares (asU32 row.threshold) row.protocolRound)
  match row.groupCertificatesSent with
  | none => .error (inconsistent "certificates_sent flag missing in group task")
  | some certificatesSent =>
    .ok {
      taskInfo, communicator, protocol, certificatesSent
      threshold := asU32 row.threshold
      note := row.note }

def SignTask.fromModel (taskInfo : TaskInfo) (row : TaskRow) (communicator : Communicator)
    (group : Group) : Except Stop SignTask := do
  let protocol ← orProtocolError
    (createThresholdProtocol group.protocol group.keyType row.protocolRound)
  match row.taskData with
  | none => .error (inconsistent "Task data not set for a sign task")
  | some data =>
    .ok { taskInfo, group, communicator, data, protocol, preprocessed := row.preprocessed }

def SignPDFTask.fromModel (taskInfo : TaskInfo) (row : TaskRow) (communicator : Communicator)
    (group : Group) : Except Stop SignPDFTask :=
  (SignTask.fromModel taskInfo row communicator group).map SignPDFTask.mk

def DecryptTask.fromModel (taskInfo : TaskInfo) (row : TaskRow) (communicator : Communicator)
    (group : Group) : Except Stop DecryptTask := do
  let protocol ← orProtocolError
    (createThresholdProtocol group.protocol group.keyType row.protocolRound)
  match row.taskData with
  | none => .error (inconsistent "Task data not set for a sign task")
  | some data => .ok { taskInfo, group, communicator, data, protocol }

def tryIntoResult (row : TaskResultRow) : Except Stop (Except String Bytes) :=
  row.tryIntoResult.mapError fun e => .err (.persistence e)

def groupTaskWithResult (db : Database) (taskInfo : TaskInfo) :
    Except String Bytes → Except Stop TaskEntry
  | .ok groupId =>
    match db.getGroup groupId with
    | none => .error (inconsistent "Group task result references nonexistent group")
    | some group =>
      .ok (.finished ⟨taskInfo, .groupEstablished group, db.getTaskAcknowledgements taskInfo.id⟩)
  | .error reason =>
    let (accepts, rejects) := acceptsRejects (db.getTaskDecisions taskInfo.id)
    if 0 < rejects then .ok (.declined ⟨taskInfo, accepts, rejects⟩)
    else .ok (.failed ⟨taskInfo, reason⟩)

def groupTaskFromModel (db : Database) (taskInfo : TaskInfo) (row : TaskRow) :
    Except Stop TaskEntry :=
  match db.taskResult taskInfo.id with
  | some result => do groupTaskWithResult db taskInfo (← tryIntoResult result)
  | none =>
    let decisions := db.getTaskDecisions taskInfo.id
    let acceptThreshold := taskInfo.totalShares
    if (acceptsRejects decisions).1 < acceptThreshold then
      .ok (.voting ⟨taskInfo, decisions, acceptThreshold, .group (asU32 row.threshold) row.note⟩)
    else do
      let communicator ← hydrateCommunicator db taskInfo.id row taskInfo.participants
      let task ← GroupTask.fromModel taskInfo row communicator
      return .running (.group task)

def thresholdTaskWithResult (db : Database) (taskInfo : TaskInfo) (row : TaskRow) :
    Except String Bytes → Except Stop TaskEntry
  | .ok data =>
    let finished (result : TaskResult) : Except Stop TaskEntry :=
      .ok (.finished ⟨taskInfo, result, db.getTaskAcknowledgements taskInfo.id⟩)
    match row.taskType with
    | .group => .error (.panic .unreachable)
    | .signPdf => finished (.signedPdf data)
    | .signChallenge => finished (.signed data)
    | .decrypt => finished (.decrypted data)
  | .error reason =>
    let (accepts, rejects) := acceptsRejects (db.getTaskDecisions taskInfo.id)
    if rejectThreshold taskInfo.totalShares (asU32 row.threshold) ≤ rejects then
      .ok (.declined ⟨taskInfo, accepts, rejects⟩)
    else .ok (.failed ⟨taskInfo, reason⟩)

def votingContext (taskType : TaskType) (group : Group) (data : Bytes) :
    Except Stop RunningTaskContext :=
  match taskType with
  | .group => .error (.panic .unreachable)
  | .signPdf => .ok (.signPdf group data)
  | .signChallenge => .ok (.signChallenge group data)
  | .decrypt => .ok (.decrypt group data)

def runningFromModel (taskInfo : TaskInfo) (row : TaskRow) (communicator : Communicator)
    (group : Group) : Except Stop RunningTask :=
  match row.taskType with
  | .group => .error (.panic .unreachable)
  | .signPdf => (SignPDFTask.fromModel taskInfo row communicator group).map .signPdf
  | .signChallenge => (SignTask.fromModel taskInfo row communicator group).map .sign
  | .decrypt => (DecryptTask.fromModel taskInfo row communicator group).map .decrypt

def unfinishedThresholdTask (db : Database) (taskInfo : TaskInfo) (row : TaskRow)
    (group : Group) : Except Stop TaskEntry :=
  let decisions := db.getTaskDecisions taskInfo.id
  let acceptThreshold := asU32 group.threshold
  if (acceptsRejects decisions).1 < acceptThreshold then
    match row.taskData with
    | none => .error (inconsistent "Threshold task has no task data")
    | some data => do
      let context ← votingContext row.taskType group data
      return .voting ⟨taskInfo, decisions, acceptThreshold, context⟩
  else do
    let communicator ← hydrateCommunicator db taskInfo.id row taskInfo.participants
    let task ← runningFromModel taskInfo row communicator group
    return .running task

def thresholdTaskFromModel (db : Database) (taskInfo : TaskInfo) (row : TaskRow) :
    Except Stop TaskEntry :=
  match db.taskResult taskInfo.id with
  | some result => do thresholdTaskWithResult db taskInfo row (← tryIntoResult result)
  | none =>
    match row.groupId with
    | none => .error (inconsistent "Threshold task is missing a group")
    | some groupId =>
      match db.getGroup groupId with
      | none => .error (inconsistent "Threshold task references nonexistent group")
      | some group => unfinishedThresholdTask db taskInfo row group

def hydratedTaskInfo (taskId : Uuid) (row : TaskRow) (participants : List Participant) :
    TaskInfo where
  id := taskId
  name := row.name
  taskType := row.taskType
  protocolType := row.protocolType
  keyType := row.keyType
  participants := participants
  observers := []
  attempts := row.attemptCount
  request := row.request

def hydrateTask (db : Database) (taskId : Uuid) : Except Stop TaskEntry :=
  match db.task.lookup taskId with
  | none => .error (.err (.generalProtocol "Invalid task id(s)"))
  | some row =>
    let participants := db.getTaskParticipants taskId
    if participants.isEmpty then .error (.panic .taskWithoutParticipants)
    else
      let taskInfo := hydratedTaskInfo taskId row participants
      if row.taskType = .group then groupTaskFromModel db taskInfo row
      else thresholdTaskFromModel db taskInfo row

end HydrationModel

import MeesignServer.ProtocolModel
import MeesignServer.VotingModel

/-!
# Running tasks

The four implementations of the `RunningTask` trait. A method works on the task
in place, so what it changed before an error or a panic stays changed.
-/
namespace RunningTaskModel

open FallibleProgram FiniteMap DataModel CommunicatorModel ProtocolModel VotingModel

inductive TaskResult where
  | groupEstablished (group : Group)
  | signed (data : Bytes)
  | signedPdf (data : Bytes)
  | decrypted (data : Bytes)

def TaskResult.asBytes : TaskResult → Bytes
  | .groupEstablished group => group.id
  | .signed data => data
  | .signedPdf data => data
  | .decrypted data => data

structure FinishedTask where
  taskInfo : TaskInfo
  result : TaskResult
  acknowledgements : Finset Bytes

def FinishedTask.new (taskInfo : TaskInfo) (result : TaskResult) : FinishedTask :=
  ⟨taskInfo, result, ∅⟩

structure FailedTask where
  taskInfo : TaskInfo
  reason : String

inductive RoundUpdate where
  | listen
  | groupCertificatesSent
  | nextRound (round : ℕ)
  | finished (round : ℕ) (task : FinishedTask)
  | failed (task : FailedTask)

/-- What the Java helper does when it is asked to prepare a PDF. -/
inductive PdfStart where
  | noTempFile
  | notWritten
  | notSpawned
  | hash (hash : Bytes)
  | broken

/-- The answers of the helper processes during one call. -/
structure Helper where
  /-- `none` when the process cannot be run or read -/
  issuedCertificate : Option Bytes
  pdfStart : PdfStart
  /-- `none` when an unwrap of `include_signature` fails -/
  signedPdf : Option Bytes
  killed : Bool

/-- The process-wide `PDF_HELPERS`. A panic that holds the lock poisons it. -/
structure PdfHelpers where
  helper : Uuid → Bool
  poisoned : Bool

def PdfHelpers.empty : PdfHelpers := ⟨fun _ => false, false⟩

def PdfHelpers.insert (h : PdfHelpers) (id : Uuid) : PdfHelpers :=
  { h with helper := Function.update h.helper id true }

def PdfHelpers.remove (h : PdfHelpers) (id : Uuid) : PdfHelpers :=
  { h with helper := Function.update h.helper id false }

def PdfHelpers.poison (h : PdfHelpers) : PdfHelpers := { h with poisoned := true }

def notWaiting : Stop := .err (.generalProtocol "Wasn't waiting for a message from this ID.")

variable [External]

structure GroupTask extends Session where
  taskInfo : TaskInfo
  threshold : ℕ
  note : Option String
  certificatesSent : Bool

namespace GroupTask

def tryNew (taskInfo : TaskInfo) (threshold : ℕ) (note : Option String)
    (communicator : Communicator) : Except String GroupTask :=
  match createKeygenProtocol taskInfo.protocolType taskInfo.keyType taskInfo.totalShares
    threshold 0 with
  | .error e => .error e
  | .ok protocol =>
    if taskInfo.totalShares < 1 then .error "Invalid input"
    else if !protocol.getType.checkThreshold threshold taskInfo.totalShares then
      .error "Invalid input"
    else
      let participants :=
        taskInfo.participants.insertionSort (fun a b => a.device.id ≤ b.device.id)
      .ok {
        taskInfo := { taskInfo with participants }
        threshold, note, communicator, protocol
        certificatesSent := false }

def onSession {α : Type} (m : EStateM Stop Session α) : EStateM Stop GroupTask α :=
  zoom GroupTask.toSession (fun task s => { task with toSession := s }) m

def startTask : EStateM Stop GroupTask RoundUpdate := do
  onSession (modify fun s => s.initializeProtocol [])
  return .nextRound (← get).protocol.round

def advanceTask : EStateM Stop GroupTask RoundUpdate := do
  onSession Session.advance
  return .nextRound (← get).protocol.round

def issueCertificate (helper : Helper) (publicKey : Bytes) : Except Stop Bytes :=
  if publicKey.length = 65 then
    match helper.issuedCertificate with
    | some certificate => .ok certificate
    | none => .error (.err .io)
  else .error (.panic .publicKeyLength)

def establishedGroup (task : GroupTask) (identifier : Bytes) (certificate : Option Bytes) :
    Group where
  id := identifier
  name := task.taskInfo.name
  threshold := asI32 task.threshold
  protocol := task.protocol.getType
  keyType := task.taskInfo.keyType
  certificate := certificate
  note := task.note
  participantIdsShares := task.taskInfo.participants.map fun p => (p.device.id, p.shares)

def finalizeTask (helper : Helper) : EStateM Stop GroupTask RoundUpdate := do
  let identifier ← onSession Session.finalize
  let task ← get
  match identifier with
  | none => return .failed ⟨task.taskInfo, "Task failed (group key not output)"⟩
  | some identifier =>
    let certificate ← fromExcept (
      if task.protocol.getType = .gg18 then (issueCertificate helper identifier).map some
      else .ok none)
    onSession (modify fun s => { s with communicator := s.communicator.clearInput })
    return .finished task.protocol.round
      (.new task.taskInfo (.groupEstablished (task.establishedGroup identifier certificate)))

def certificates (task : GroupTask) : ServerMessage where
  broadcasts := collect (task.taskInfo.participants.flatMap fun p =>
    (task.communicator.identifierToIndices p.device.id).map fun idx => (idx, p.device.certificate))
  unicasts := ∅
  protocolType := task.protocol.getType

def sendCertificates : EStateM Stop GroupTask RoundUpdate := do
  modify fun task =>
    { task with
      communicator := task.communicator.sendAll
        (fun _ => External.encodeServerMessage task.certificates)
      certificatesSent := true }
  return .groupCertificatesSent

def nextRound (helper : Helper) : EStateM Stop GroupTask RoundUpdate := do
  let task ← get
  if !task.certificatesSent then sendCertificates
  else if task.protocol.round = 0 then startTask
  else if task.protocol.round < task.protocol.lastRound then advanceTask
  else finalizeTask helper

def waitingFor (task : GroupTask) (deviceId : Bytes) : Bool :=
  task.communicator.waitingFor deviceId

def getRound (task : GroupTask) : ℕ :=
  if !task.certificatesSent then 0 else task.protocol.round + 1

def update (helper : Helper) (deviceId : Bytes) (messages : List ClientMessage) :
    EStateM Stop GroupTask RoundUpdate := do
  let task ← get
  if !task.waitingFor deviceId then throw notWaiting
  else if !task.certificatesSent then throw (.panic .certificatesNotSent)
  else do
    onSession (Session.receive deviceId messages)
    if (← get).toSession.roundComplete then nextRound helper
    else return .listen

def incrementAttemptCount (task : GroupTask) : GroupTask :=
  { task with taskInfo := { task.taskInfo with attempts := task.taskInfo.attempts + 1 } }

def restart : EStateM Stop GroupTask RoundUpdate := do
  modify incrementAttemptCount
  startTask

end GroupTask

structure SignTask extends Session where
  taskInfo : TaskInfo
  group : Group
  data : Bytes
  preprocessed : Option Bytes

namespace SignTask

def tryNew (taskInfo : TaskInfo) (group : Group) (data : Bytes) (communicator : Communicator) :
    Except String SignTask :=
  let task (protocol : Protocol) : SignTask :=
    { taskInfo, group, communicator, data, protocol, preprocessed := none }
  match group.protocol with
  | .gg18 => .ok (task (GG18Sign.fromModel 0))
  | .frost => .ok (task (FROSTSign.fromModel 0))
  | .musig2 => .ok (task (MuSig2Sign.fromModel 0))
  | .elgamal => .error "Unsupported protocol type for signing"

def onSession {α : Type} (m : EStateM Stop Session α) : EStateM Stop SignTask α :=
  zoom SignTask.toSession (fun task s => { task with toSession := s }) m

def setPreprocessed (task : SignTask) (preprocessed : Bytes) : SignTask :=
  { task with preprocessed := some preprocessed }

def startTask : EStateM Stop SignTask RoundUpdate := do
  let task ← get
  onSession (modify fun s => s.initializeProtocol (task.preprocessed.getD task.data))
  return .nextRound (← get).protocol.round

def advanceTask : EStateM Stop SignTask RoundUpdate := do
  onSession Session.advance
  return .nextRound (← get).protocol.round

def finalizeTask : EStateM Stop SignTask RoundUpdate := do
  let signature ← onSession Session.finalize
  let task ← get
  match signature with
  | none => return .failed ⟨task.taskInfo, "Task failed (signature not output)"⟩
  | some signature =>
    onSession (modify fun s => { s with communicator := s.communicator.clearInput })
    return .finished task.protocol.round (.new task.taskInfo (.signed signature))

def nextRound : EStateM Stop SignTask RoundUpdate := do
  let task ← get
  if task.protocol.round = 0 then startTask
  else if task.protocol.round < task.protocol.lastRound then advanceTask
  else finalizeTask

def waitingFor (task : SignTask) (deviceId : Bytes) : Bool :=
  task.communicator.waitingFor deviceId

def updateInternal (deviceId : Bytes) (messages : List ClientMessage) :
    EStateM Stop SignTask Bool := do
  let task ← get
  if !task.waitingFor deviceId then throw notWaiting
  else do
    onSession (Session.receive deviceId messages)
    return (← get).toSession.roundComplete

def incrementAttemptCount (task : SignTask) : SignTask :=
  { task with taskInfo := { task.taskInfo with attempts := task.taskInfo.attempts + 1 } }

def update (deviceId : Bytes) (messages : List ClientMessage) :
    EStateM Stop SignTask RoundUpdate := do
  if ← updateInternal deviceId messages then nextRound
  else return .listen

def restart : EStateM Stop SignTask RoundUpdate := do
  modify incrementAttemptCount
  startTask

end SignTask

structure SignPDFTask where
  signTask : SignTask

/-- A PDF task with the helper processes it shares with the other PDF tasks. -/
structure PdfState where
  task : SignPDFTask
  helpers : PdfHelpers

namespace SignPDFTask

def maxDataLength : ℕ := 8 * 1024 * 1024

def tryNew (taskInfo : TaskInfo) (group : Group) (data : Bytes) (communicator : Communicator) :
    Except String SignPDFTask :=
  if maxDataLength < data.length || 256 < byteLength taskInfo.name
    || taskInfo.name.toList.any isControl then .error "Invalid input"
  else (SignTask.tryNew taskInfo group data communicator).map SignPDFTask.mk

def onSignTask {α : Type} (m : EStateM Stop SignTask α) : EStateM Stop PdfState α :=
  zoom (fun s => s.task.signTask) (fun s signTask => { s with task := ⟨signTask⟩ }) m

def lockHelpers : EStateM Stop PdfState Unit := do
  if (← get).helpers.poisoned then throw (.panic .pdfHelpersPoisoned)

def failed (task : SignPDFTask) (reason : String) : RoundUpdate :=
  .failed ⟨task.signTask.taskInfo, reason⟩

def startTask (helper : Helper) : EStateM Stop PdfState RoundUpdate := do
  let s ← get
  match helper.pdfStart with
  | .noTempFile | .notWritten | .notSpawned =>
    return s.task.failed "Task failed (server error)"
  | answer =>
    if s.task.signTask.group.certificate.isNone then throw (.panic .groupWithoutCertificate)
    else match answer with
    | .hash [] => return s.task.failed "Task failed (invalid PDF)"
    | .hash hash => do
      lockHelpers
      modify fun s => { s with helpers := s.helpers.insert s.task.signTask.taskInfo.id }
      onSignTask (modify fun task => task.setPreprocessed hash)
      onSignTask SignTask.startTask
    | _ => throw (.panic .pdfHelperFailed)

/-- The lock is held while the removed helper is unwrapped. -/
def finalizeTask (helper : Helper) : EStateM Stop PdfState RoundUpdate := do
  match ← onSignTask SignTask.finalizeTask with
  | .finished round task => do
    lockHelpers
    let s ← get
    if s.helpers.helper s.task.signTask.taskInfo.id then do
      set { s with helpers := s.helpers.remove s.task.signTask.taskInfo.id }
      match helper.signedPdf with
      | some signed => return .finished round { task with result := .signedPdf signed }
      | none => throw (.panic .pdfHelperFailed)
    else do
      set { s with helpers := s.helpers.poison }
      throw (.panic .pdfHelperMissing)
  | other => return other

def nextRound (helper : Helper) : EStateM Stop PdfState RoundUpdate := do
  let protocol := (← get).task.signTask.protocol
  if protocol.round = 0 then startTask helper
  else if protocol.round < protocol.lastRound then onSignTask SignTask.advanceTask
  else finalizeTask helper

def update (helper : Helper) (deviceId : Bytes) (messages : List ClientMessage) :
    EStateM Stop PdfState RoundUpdate := do
  if ← onSignTask (SignTask.updateInternal deviceId messages) then nextRound helper
  else return .listen

/-- A helper left from the previous attempt is killed, again under the lock. -/
def restart (helper : Helper) : EStateM Stop PdfState RoundUpdate := do
  lockHelpers
  let s ← get
  if s.helpers.helper s.task.signTask.taskInfo.id && !helper.killed then do
    set { s with helpers := (s.helpers.remove s.task.signTask.taskInfo.id).poison }
    throw (.panic .pdfHelperFailed)
  else do
    set { s with helpers := s.helpers.remove s.task.signTask.taskInfo.id }
    onSignTask (modify SignTask.incrementAttemptCount)
    startTask helper

end SignPDFTask

structure DecryptTask extends Session where
  taskInfo : TaskInfo
  group : Group
  data : Bytes

namespace DecryptTask

def new (taskInfo : TaskInfo) (group : Group) (data : Bytes) (communicator : Communicator) :
    DecryptTask :=
  { taskInfo, group, communicator, data, protocol := ElgamalDecrypt.fromModel 0 }

def onSession {α : Type} (m : EStateM Stop Session α) : EStateM Stop DecryptTask α :=
  zoom DecryptTask.toSession (fun task s => { task with toSession := s }) m

def startTask : EStateM Stop DecryptTask RoundUpdate := do
  let task ← get
  onSession (modify fun s => s.initializeProtocol task.data)
  return .nextRound (← get).protocol.round

def advanceTask : EStateM Stop DecryptTask RoundUpdate := do
  onSession Session.advance
  return .nextRound (← get).protocol.round

def finalizeTask : EStateM Stop DecryptTask RoundUpdate := do
  let decrypted ← onSession Session.finalize
  let task ← get
  match decrypted with
  | none => return .failed ⟨task.taskInfo, "Task failed (data not output)"⟩
  | some decrypted =>
    onSession (modify fun s => { s with communicator := s.communicator.clearInput })
    return .finished task.protocol.round (.new task.taskInfo (.decrypted decrypted))

def nextRound : EStateM Stop DecryptTask RoundUpdate := do
  let task ← get
  if task.protocol.round = 0 then startTask
  else if task.protocol.round < task.protocol.lastRound then advanceTask
  else finalizeTask

def waitingFor (task : DecryptTask) (deviceId : Bytes) : Bool :=
  task.communicator.waitingFor deviceId

def updateInternal (deviceId : Bytes) (messages : List ClientMessage) :
    EStateM Stop DecryptTask Bool := do
  let task ← get
  if !task.waitingFor deviceId then throw notWaiting
  else do
    onSession (Session.receive deviceId messages)
    return (← get).toSession.roundComplete

def incrementAttemptCount (task : DecryptTask) : DecryptTask :=
  { task with taskInfo := { task.taskInfo with attempts := task.taskInfo.attempts + 1 } }

def update (deviceId : Bytes) (messages : List ClientMessage) :
    EStateM Stop DecryptTask RoundUpdate := do
  if ← updateInternal deviceId messages then nextRound
  else return .listen

def restart : EStateM Stop DecryptTask RoundUpdate := do
  modify incrementAttemptCount
  startTask

end DecryptTask

inductive RunningTask where
  | group (task : GroupTask)
  | sign (task : SignTask)
  | signPdf (task : SignPDFTask)
  | decrypt (task : DecryptTask)

/-- A running task and the PDF helpers, which every task may use. -/
structure Runner where
  task : RunningTask
  helpers : PdfHelpers

namespace RunningTask

def taskInfo : RunningTask → TaskInfo
  | .group task => task.taskInfo
  | .sign task => task.taskInfo
  | .signPdf task => task.signTask.taskInfo
  | .decrypt task => task.taskInfo

def session : RunningTask → Session
  | .group task => task.toSession
  | .sign task => task.toSession
  | .signPdf task => task.signTask.toSession
  | .decrypt task => task.toSession

def waitingFor (task : RunningTask) (deviceId : Bytes) : Bool :=
  task.session.communicator.waitingFor deviceId

def getWork (task : RunningTask) (deviceId : Bytes) : List Bytes :=
  if !task.waitingFor deviceId then [] else task.session.communicator.getMessages deviceId

def getRound : RunningTask → ℕ
  | .group task => task.getRound
  | .sign task => task.protocol.round
  | .signPdf task => task.signTask.protocol.round
  | .decrypt task => task.protocol.round

def run {τ α : Type} (wrap : τ → RunningTask) (task : τ) (m : EStateM Stop τ α) :
    EStateM Stop Runner α :=
  zoom (fun _ => task) (fun r task => { r with task := wrap task }) m

def runPdf {α : Type} (task : SignPDFTask) (m : EStateM Stop PdfState α) :
    EStateM Stop Runner α :=
  zoom (fun r => ⟨task, r.helpers⟩) (fun _ s => ⟨.signPdf s.task, s.helpers⟩) m

def initializeTask (helper : Helper) : EStateM Stop Runner RoundUpdate := do
  match (← get).task with
  | .group task => run .group task GroupTask.sendCertificates
  | .sign task => run .sign task SignTask.startTask
  | .signPdf task => runPdf task (SignPDFTask.startTask helper)
  | .decrypt task => run .decrypt task DecryptTask.startTask

def update (helper : Helper) (deviceId : Bytes) (messages : List ClientMessage) :
    EStateM Stop Runner RoundUpdate := do
  match (← get).task with
  | .group task => run .group task (GroupTask.update helper deviceId messages)
  | .sign task => run .sign task (SignTask.update deviceId messages)
  | .signPdf task => runPdf task (SignPDFTask.update helper deviceId messages)
  | .decrypt task => run .decrypt task (DecryptTask.update deviceId messages)

def restart (helper : Helper) : EStateM Stop Runner RoundUpdate := do
  match (← get).task with
  | .group task => run .group task GroupTask.restart
  | .sign task => run .sign task SignTask.restart
  | .signPdf task => runPdf task (SignPDFTask.restart helper)
  | .decrypt task => run .decrypt task DecryptTask.restart

end RunningTask

def orProtocolError {α : Type} (x : Except String α) : Except Stop α :=
  x.mapError fun message => .err (.generalProtocol message)

def RunningTaskContext.createRunningTask (context : RunningTaskContext) (votingTask : VotingTask)
    (activeShares : Map ℕ Device) : Except Stop RunningTask := do
  let taskInfo := votingTask.taskInfo
  let communicator ←
    Communicator.new votingTask.acceptThreshold taskInfo.protocolType activeShares
  orProtocolError <| match context with
    | .group threshold note =>
      (GroupTask.tryNew taskInfo threshold note communicator).map .group
    | .signChallenge group data =>
      (SignTask.tryNew taskInfo group data communicator).map .sign
    | .signPdf group data =>
      (SignPDFTask.tryNew taskInfo group data communicator).map .signPdf
    | .decrypt group data => .ok (.decrypt (DecryptTask.new taskInfo group data communicator))

inductive TaskEntry where
  | voting (task : VotingTask)
  | running (task : RunningTask)
  | declined (task : DeclinedTask)
  | finished (task : FinishedTask)
  | failed (task : FailedTask)

def TaskEntry.taskInfo : TaskEntry → TaskInfo
  | .voting task => task.taskInfo
  | .running task => task.taskInfo
  | .declined task => task.taskInfo
  | .finished task => task.taskInfo
  | .failed task => task.taskInfo

inductive ProtoTaskState where
  | created
  | running
  | finished
  | failed
  deriving DecidableEq, Repr

structure ProtoTask where
  id : Uuid
  taskType : TaskType
  state : ProtoTaskState
  round : ℕ
  attempt : ℕ
  accept : ℕ
  reject : ℕ
  data : List Bytes
  request : Option Bytes

def maxU16 : ℕ := 65535
def maxU32 : ℕ := 4294967295

def TaskEntry.format (task : TaskEntry) (deviceId : Option Bytes)
    (request : Option Bytes) : ProtoTask :=
  let info := task.taskInfo
  match task with
  | .voting task =>
    let (accept, reject) := acceptsRejects task.decisions
    ⟨info.id, info.taskType, .created, 0, info.attempts, accept, reject, [], request⟩
  | .running task =>
    let data := (deviceId.map task.getWork).getD []
    ⟨info.id, info.taskType, .running, task.getRound, info.attempts, maxU16, maxU16, data, request⟩
  | .finished task =>
    ⟨info.id, info.taskType, .finished, maxU16, info.attempts, maxU16, maxU16,
      [task.result.asBytes], request⟩
  | .failed task =>
    ⟨info.id, info.taskType, .failed, maxU32, info.attempts, maxU32, 0,
      [intoBytes task.reason], request⟩
  | .declined task =>
    ⟨info.id, info.taskType, .failed, 0, info.attempts, task.accepts, task.rejects,
      [intoBytes "Task declined"], request⟩

end RunningTaskModel

import MeesignServer.DataModel
import MeesignServer.VotingModel

/-!
# The repository

The tables of the Postgres schema and the queries over them. Every query on the
tables of a task filters by the task's id, so these tables are given per task.
A write either takes effect as a whole or is refused by a check or a constraint.
-/
namespace DatabaseModel

open FiniteMap DataModel VotingModel

structure GroupRow where
  id : Bytes
  name : String
  threshold : ℤ
  protocol : ProtocolType
  keyType : KeyType
  certificate : Option Bytes
  note : Option String

structure GroupParticipantRow where
  groupId : Bytes
  deviceId : Bytes
  shares : ℤ

structure TaskRow where
  protocolRound : ℕ
  attemptCount : ℕ
  threshold : ℤ
  name : String
  taskData : Option Bytes
  preprocessed : Option Bytes
  request : Bytes
  groupId : Option Bytes
  taskType : TaskType
  keyType : KeyType
  protocolType : ProtocolType
  note : Option String
  groupCertificatesSent : Option Bool

structure TaskResultRow where
  isSuccessful : Bool
  data : Option Bytes
  errorMessage : Option String
  deriving DecidableEq

structure TaskParticipantRow where
  deviceId : Bytes
  shares : ℤ
  decision : Option Bool
  acknowledgment : Option Bool

structure Database where
  device : List Device
  group : List GroupRow
  groupParticipant : List GroupParticipantRow
  task : Map Uuid TaskRow
  taskResult : Uuid → Option TaskResultRow
  taskParticipant : Uuid → List TaskParticipantRow
  activeTaskParticipant : Uuid → Map Bytes ℤ

def NewTaskResult.ofResult : Except String Bytes → TaskResultRow
  | .ok data => ⟨true, some data, none⟩
  | .error message => ⟨false, none, some message⟩

def TaskResultRow.tryIntoResult (row : TaskResultRow) :
    Except PersistenceError (Except String Bytes) :=
  match row.isSuccessful, row.data, row.errorMessage with
  | true, some data, _ => .ok (.ok data)
  | false, _, some message => .ok (.error message)
  | _, _, _ => .error (.dataInconsistency "Inconsistent task result")

@[simp] theorem tryIntoResult_ofResult (r : Except String Bytes) :
    (NewTaskResult.ofResult r).tryIntoResult = .ok r := by
  cases r <;> rfl

theorem ofResult_injective : Function.Injective NewTaskResult.ofResult := by
  intro r r' h
  have hread := congrArg TaskResultRow.tryIntoResult h
  rw [tryIntoResult_ofResult, tryIntoResult_ofResult] at hread
  exact Except.ok.inj hread

def GroupRow.toGroup (row : GroupRow) (participantIdsShares : List (Bytes × ℕ)) : Group :=
  ⟨row.id, row.name, row.threshold, row.protocol, row.keyType, row.certificate, row.note,
    participantIdsShares⟩

/-- The vote of a stored row: the shares are negated as `i32` and truncated afterwards. -/
def TaskParticipantRow.vote (row : TaskParticipantRow) : ℤ :=
  match row.decision with
  | some true => asI8 row.shares
  | some false => asI8 (-row.shares)
  | none => 0

namespace Database

def empty : Database :=
  ⟨[], [], [], ∅, fun _ => none, fun _ => [], fun _ => ∅⟩

def findDevice (db : Database) (id : Bytes) : Option Device :=
  db.device.find? (fun device => device.id = id)

def addDevice (db : Database) (device : Device) : Except PersistenceError Database :=
  if !isNameValid device.name then .error (.invalidArgument "Invalid device name: \x7bname\x7d")
  else if device.id.isEmpty then .error (.invalidArgument "Empty identifier")
  else if device.certificate.isEmpty then .error (.invalidArgument "Empty certificate")
  else if (db.findDevice device.id).isSome then .error .execution
  else .ok { db with device := db.device ++ [device] }

def getGroupParticipants (db : Database) (groupId : Bytes) : List Participant :=
  (db.groupParticipant.filter (fun row => row.groupId = groupId)).filterMap fun row =>
    (db.findDevice row.deviceId).map fun device => ⟨device, asU32 row.shares⟩

def getTaskParticipants (db : Database) (taskId : Uuid) : List Participant :=
  (db.taskParticipant taskId).filterMap fun row =>
    (db.findDevice row.deviceId).map fun device => ⟨device, asU32 row.shares⟩

def getGroup (db : Database) (groupId : Bytes) : Option Group :=
  let participantIdsShares :=
    (db.groupParticipant.filter (fun row => row.groupId = groupId)).map
      fun row => (row.deviceId, asU32 row.shares)
  (db.group.find? (fun row => row.id = groupId)).map fun row =>
    row.toGroup participantIdsShares

/-- The new group's participants are those of the task. Their rows satisfy the constraints of
`group_participant`, which are those of `task_participant`. -/
def addGroup (db : Database) (groupTaskId : Uuid) (id : Bytes) (name : String) (threshold : ℕ)
    (protocol : ProtocolType) (keyType : KeyType) (certificate : Option Bytes)
    (note : Option String) : Except PersistenceError Database :=
  if maxI32 < threshold then .error .tryFromInt
  else if id.isEmpty then .error (.invalidArgument "Empty identifier")
  else if (db.group.find? (fun row => row.id = id)).isSome || threshold = 0 then .error .execution
  else
    let participants := if groupTaskId ∈ db.task then db.taskParticipant groupTaskId else []
    .ok { db with
      group := db.group ++ [⟨id, name, threshold, protocol, keyType, certificate, note⟩]
      groupParticipant := db.groupParticipant ++
        participants.map fun row => ⟨id, row.deviceId, row.shares⟩ }

/-- The constraints on new rows of `task_participant`: the devices exist and are distinct, and
the shares are positive after `as i32`. -/
def ParticipantsInsertable (db : Database) (participants : List (Bytes × ℕ)) : Prop :=
  (participants.map Prod.fst).Nodup ∧
    ∀ p ∈ participants, (db.findDevice p.1).isSome ∧ 0 < asI32 p.2

instance (db : Database) (participants : List (Bytes × ℕ)) :
    Decidable (db.ParticipantsInsertable participants) :=
  inferInstanceAs (Decidable (_ ∧ _))

def newTaskParticipant (p : Bytes × ℕ) : TaskParticipantRow := ⟨p.1, asI32 p.2, none, none⟩

def insertTask (db : Database) (id : Uuid) (row : TaskRow) (participants : List (Bytes × ℕ)) :
    Except PersistenceError Database :=
  if id ∈ db.task || row.threshold ≤ 0 || !decide (db.ParticipantsInsertable participants) then
    .error .execution
  else .ok { db with
    task := db.task.insert id row
    taskParticipant := Function.update db.taskParticipant id (participants.map newTaskParticipant) }

def newGroupTaskRow (threshold : ℕ) (name : String) (keyType : KeyType)
    (protocolType : ProtocolType) (request : Bytes) (note : Option String) : TaskRow where
  protocolRound := 0
  attemptCount := 0
  threshold := threshold
  name := name
  taskData := none
  preprocessed := none
  request := request
  groupId := none
  taskType := .group
  keyType := keyType
  protocolType := protocolType
  note := note
  groupCertificatesSent := some false

def createGroupTask (db : Database) (id : Uuid) (participants : List (Bytes × ℕ)) (threshold : ℕ)
    (name : String) (keyType : KeyType) (protocolType : ProtocolType) (request : Bytes)
    (note : Option String) : Except PersistenceError Database :=
  if !isNameValid name then .error (.invalidArgument ("Invalid group name " ++ name))
  else if !(1 ≤ threshold && threshold ≤ (participants.map Prod.snd).sum) then
    .error (.invalidArgument ("Invalid threshold " ++ toString threshold))
  else if maxI32 < threshold then .error .tryFromInt
  else db.insertTask id (newGroupTaskRow threshold name keyType protocolType request note)
    participants

def newTaskRow (groupId : Bytes) (taskType : TaskType) (name : String) (taskData request : Bytes)
    (threshold : ℕ) (keyType : KeyType) (protocolType : ProtocolType) : TaskRow where
  protocolRound := 0
  attemptCount := 0
  threshold := asI32 threshold
  name := name
  taskData := some taskData
  preprocessed := none
  request := request
  groupId := some groupId
  taskType := taskType
  keyType := keyType
  protocolType := protocolType
  note := none
  groupCertificatesSent := none

def createTask (db : Database) (id : Uuid) (groupId : Bytes) (taskType : TaskType) (name : String)
    (participants : List (Bytes × ℕ)) (taskData request : Bytes) (threshold : ℕ)
    (keyType : KeyType) (protocolType : ProtocolType) : Except PersistenceError Database :=
  if !isNameValid name then .error (.invalidArgument ("Invalid group name " ++ name))
  else if (db.getGroup groupId).isNone then .error .execution
  else db.insertTask id
    (newTaskRow groupId taskType name taskData request threshold keyType protocolType) participants

/-- The SQL filter of `get_restart_candidates` on one task. -/
def isRestartCandidate (db : Database) (id : Uuid) : Bool :=
  match db.task.lookup id with
  | none => false
  | some row => (db.taskResult id).isNone &&
      (row.groupCertificatesSent == some true || 1 ≤ row.protocolRound)

def getRestartCandidates (db : Database) : List Uuid :=
  (db.task.keys.filter db.isRestartCandidate).insertionSort (· ≤ ·)

def setTaskDecision (db : Database) (taskId : Uuid) (deviceId : Bytes) (accept : Bool) :
    Database :=
  let rows := (db.taskParticipant taskId).map fun row =>
    if row.deviceId = deviceId then { row with decision := some accept } else row
  { db with taskParticipant := Function.update db.taskParticipant taskId rows }

def getTaskDecisions (db : Database) (taskId : Uuid) : Map Bytes ℤ :=
  collect ((db.taskParticipant taskId).map fun row => (row.deviceId, row.vote))

def setTaskAcknowledgement (db : Database) (taskId : Uuid) (deviceId : Bytes) : Database :=
  let rows := (db.taskParticipant taskId).map fun row =>
    if row.deviceId = deviceId then { row with acknowledgment := some true } else row
  { db with taskParticipant := Function.update db.taskParticipant taskId rows }

def getTaskAcknowledgements (db : Database) (taskId : Uuid) : Finset Bytes :=
  ((db.taskParticipant taskId).filterMap fun row =>
    if row.acknowledgment = some true then some row.deviceId else none).toFinset

def getTaskActiveShares (db : Database) (taskId : Uuid) : Map Bytes ℕ :=
  mapValues asU32 (db.activeTaskParticipant taskId)

def activeShareInsertable (db : Database) (taskId : Uuid) (deviceId : Bytes) (shares : ℕ) : Bool :=
  (db.taskParticipant taskId).any (fun row => row.deviceId = deviceId) && 0 < asI32 shares

/-- `ON CONFLICT DO NOTHING`: rows that are already there win. -/
def setTaskActiveShares (db : Database) (taskId : Uuid) (activeShares : Map Bytes ℕ) :
    Except PersistenceError Database :=
  if activeShares.entries.all (fun e => db.activeShareInsertable taskId e.1 e.2) then
    let rows := db.activeTaskParticipant taskId ∪ mapValues asI32 activeShares
    .ok { db with
      activeTaskParticipant := Function.update db.activeTaskParticipant taskId rows }
  else .error .execution

def setTaskResult (db : Database) (taskId : Uuid) (result : Except String Bytes) :
    Except PersistenceError Database :=
  if taskId ∈ db.task then
    .ok { db with
      taskResult := Function.update db.taskResult taskId (NewTaskResult.ofResult result) }
  else .error .execution

def modifyTask (db : Database) (taskId : Uuid) (f : TaskRow → TaskRow) : Database :=
  match db.task.lookup taskId with
  | none => db
  | some row => { db with task := db.task.insert taskId (f row) }

def setTaskGroupCertificatesSent (db : Database) (taskId : Uuid) (sent : Option Bool) : Database :=
  db.modifyTask taskId fun row => { row with groupCertificatesSent := sent }

def setTaskRound (db : Database) (taskId : Uuid) (round : ℕ) : Except PersistenceError Database :=
  if taskId ∈ db.task then .ok (db.modifyTask taskId fun row => { row with protocolRound := round })
  else .error .execution

/-- Postgres refuses to count past the column's `integer` range. -/
def incrementTaskAttemptCount (db : Database) (taskId : Uuid) : Except PersistenceError Database :=
  match db.task.lookup taskId with
  | none => .error .execution
  | some row =>
    if row.attemptCount < maxI32 then
      .ok { db with
        task := db.task.insert taskId { row with attemptCount := row.attemptCount + 1 } }
    else .error .execution

end Database

end DatabaseModel

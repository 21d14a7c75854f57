import MeesignServer.GroupListings
import MeesignServer.HexFormat
import MeesignServer.PushModel
import MeesignServer.TaskListings

/-!
# The service

The gRPC interface over the server state, and the timer beside it. A handler authenticates
its request, reads the message and notes the device as active before it waits for anything.
Then it awaits one call of the state and answers. Between the two parts of a handler those
of other handlers go on, so a request first arrives and its call is performed later.
-/
namespace ServiceModel

open FallibleProgram FiniteMap DataModel RunningTaskModel DatabaseModel ServerModel
open GroupListings TaskListings
open PushModel (Node onState)

structure JwtClaims where
  /-- The device id in hexadecimal digits -/
  sub : String
  iat : ℕ
  deriving DecidableEq

/-- What the interface takes from other packages: SHA-256, signed tokens and the decoder of
client messages. A token that was signed with a secret is valid under it. -/
class Wire where
  version : Option String
  sha256 : Bytes → Bytes
  encodeToken : Bytes → JwtClaims → Except String String
  decodeToken : Bytes → String → Option JwtClaims
  decodeClientMessage : Bytes → Option ClientMessage
  decode_encode : ∀ secret claims token, encodeToken secret claims = .ok token →
    decodeToken secret token = some claims

/-- The outcome of `issue_certificate`. A request for a certificate that does not parse makes
it panic. -/
inductive Issuance where
  | certificate (der : Bytes)
  | invalidSignature
  | panics

structure RowOrder (R : Type) where
  order : List R → List R
  perm : ∀ rows, (order rows).Perm rows

/-- Everything that the service meets from outside. The order in which the map of devices is
iterated is arbitrary. -/
structure ServiceEnv extends Env where
  query : Fault
  groupOrder : RowOrder GroupRow
  participantOrder : RowOrder GroupParticipantRow
  deviceOrder : List Bytes
  issueCertificate : String → Bytes → Issuance
  newSecret : Bytes
  secretReadable : Bool
  secretWritable : Bool

/-- The request messages, without the fields that no handler reads. -/
inductive Message where
  | serverInfo
  | registration (name : String) (csr : Bytes)
  | sign (groupId : Bytes) (name : String) (data : Bytes)
  | decrypt (groupId : Bytes) (name : String) (data : Bytes) (dataType : String)
  | task (taskId : Bytes) (deviceId : Option Bytes)
  | taskUpdate (task : Bytes) (data : List Bytes) (attempt : ℕ)
  | tasks (deviceId : Option Bytes)
  | groups (deviceId : Option Bytes)
  | group (name : String) (deviceIds : GroupDevices) (threshold : ℕ) (protocol keyType : ℤ)
  | devices
  | log (message : String)
  | taskDecision (task : Bytes) (accept : Bool)
  | taskAcknowledgement (taskId : Bytes)
  | subscribe

/-- A message with the certificates of the TLS connection and the `authorization` header. The
header may hold characters that cannot be read as text. -/
structure Request where
  peerCerts : Option (List Bytes)
  authorization : Option (Option String)
  message : Message

structure ProtoGroup where
  identifier : Bytes
  name : String
  threshold : ℕ
  protocol : ProtocolType
  keyType : KeyType
  deviceIds : List Bytes
  note : Option String

structure ProtoDevice where
  identifier : Bytes
  name : String
  kind : DeviceKind
  certificate : Bytes
  lastActive : ℕ

inductive Reply where
  | serverInfo (version : String)
  | registration (deviceId certificate : Bytes) (authToken : Option String)
  | task (task : ProtoTask)
  | resp (message : String)
  | tasks (tasks : List ProtoTask)
  | groups (groups : List ProtoGroup)
  | devices (devices : List ProtoDevice)
  | updates (channel : ℕ)

/-- A device is named once for each of its shares. -/
def ProtoGroup.fromModel (model : Group) : ProtoGroup where
  identifier := model.id
  name := model.name
  threshold := asU32 model.threshold
  protocol := model.protocol
  keyType := model.keyType
  deviceIds := model.participantIdsShares.flatMap fun p => List.replicate p.2 p.1
  note := model.note

/-- `Uuid::from_slice`: sixteen bytes, the most significant first. -/
def uuidFromSlice (bytes : Bytes) : Option Uuid :=
  if bytes.length = 16 then some (bytes.foldl (fun n b => 256 * n + b.val) 0) else none

def protocolTryFrom : ℤ → Option ProtocolType
  | 0 => some .gg18
  | 1 => some .elgamal
  | 2 => some .frost
  | 3 => some .musig2
  | _ => none

def keyTypeTryFrom : ℤ → Option KeyType
  | 0 => some .signPdf
  | 1 => some .signChallenge
  | 2 => some .decrypt
  | _ => none

inductive Code where
  | unauthenticated
  | invalidArgument
  | failedPrecondition
  | internal
  deriving DecidableEq

structure Status where
  code : Code
  message : String
  deriving DecidableEq

def Status.ofError : Error → Status
  | .persistence _ | .io => ⟨.internal, "Internal error occurred"⟩
  | .generalProtocol message => ⟨.failedPrecondition, message⟩

/-- How a handler ends without an answer: with a status, with a panic of its own task, or with
the process. -/
inductive Refusal where
  | status (status : Status)
  | panicked
  | crashed
  deriving DecidableEq

inductive Call where
  | register (device : Device)
  | sign (groupId : Bytes) (name : String) (data : Bytes)
  | decrypt (groupId : Bytes) (name : String) (data : Bytes) (dataType : String)
      (creatorDeviceId : Option Bytes)
  | getTask (taskId : Uuid) (deviceId : Option Bytes)
  | updateTask (taskId : Uuid) (deviceId : Bytes) (messages : List ClientMessage) (attempt : ℕ)
  | getTasks (deviceId : Option Bytes)
  | getGroups (deviceId : Option Bytes)
  | group (name : String) (deviceIds : GroupDevices) (threshold : ℕ) (protocol : ProtocolType)
      (keyType : KeyType)
  | decideTask (taskId : Uuid) (deviceId : Bytes) (accept : Bool)
  | acknowledgeTask (taskId : Uuid) (deviceId : Bytes)

/-- The state with the secret of the process, the file that it is kept in, and the calls that
handlers wait for. -/
structure Service where
  node : Node
  secret : Option Bytes
  secretFile : Option Bytes
  pending : List Call

/-- A new process over the tables and the file of the old one. -/
def Service.restore (s : Service) : Service :=
  ⟨⟨Server.restore s.node.server.db, s.node.feeds.restore⟩, none, s.secretFile, []⟩

abbrev Handler := EStateM Refusal Service

def refuse {α : Type} (code : Code) (message : String) : Handler α :=
  throw (.status ⟨code, message⟩)

def caught {α : Type} (status : Error → Status) (m : EStateM Stop Node α) : Handler α := fun s =>
  match m s.node with
  | .ok a node => .ok a { s with node }
  | .error (.err e) node => .error (.status (status e)) { s with node }
  | .error (.panic _) node => .error .panicked { s with node }
  | .error .crash node => .error .crashed { s with node }

def logged (m : EStateM Stop Node Unit) : Handler Unit := fun s =>
  match m s.node with
  | .ok () node => .ok () { s with node }
  | .error (.err _) node => .ok () { s with node }
  | .error (.panic _) node => .error .panicked { s with node }
  | .error .crash node => .error .crashed { s with node }

def called {α : Type} (m : EStateM Stop Node α) : Handler α := caught Status.ofError m

def unwrap {α : Type} : Option α → Handler α
  | some a => return a
  | none => throw .panicked

section Handlers

variable [External] [Wire] (env : ServiceEnv)

/-- `JWT_SECRET` is read when it is first used. If there is no file, a new secret is kept in
it where that is possible. -/
def jwtSecret : Handler Bytes := do
  let s ← get
  match s.secret with
  | some secret => return secret
  | none =>
    match if env.secretReadable then s.secretFile else none with
    | some key => do
      set { s with secret := some key }
      return key
    | none => do
      set { s with
        secret := some env.newSecret
        secretFile := if env.secretWritable then some env.newSecret else s.secretFile }
      return env.newSecret

def generateJwt (secret : Bytes) (deviceId : Bytes) : Except Status String :=
  (Wire.encodeToken secret ⟨HexFormat.encode deviceId, env.now⟩).mapError fun e =>
    ⟨.internal, "Failed to generate token: " ++ e⟩

def validateJwt (secret : Bytes) (token : String) : Except Status Bytes :=
  match Wire.decodeToken secret token with
  | none => .error ⟨.unauthenticated, "Invalid authentication token"⟩
  | some claims =>
    match HexFormat.decode claims.sub with
    | none => .error ⟨.unauthenticated, "Invalid device ID in token"⟩
    | some deviceId => .ok deviceId

def certToId (cert : Bytes) : Bytes := Wire.sha256 cert

def bearerToken (header : String) : String :=
  if "Bearer ".toList.isPrefixOf header.toList then String.ofList (header.toList.drop 7)
  else header

/-- The certificate of the connection comes first, the token is for web clients. -/
def extractDeviceId (request : Request) : Handler (Option Bytes) :=
  match request.peerCerts.bind List.head? with
  | some cert => return some (certToId cert)
  | none =>
    match request.authorization with
    | some (some header) => do
      let secret ← jwtSecret env
      return (validateJwt secret (bearerToken header)).toOption
    | _ => return none

def checkClientAuth (request : Request) (required : Bool) : Handler Unit := do
  match ← extractDeviceId env request with
  | some deviceId =>
    if ((← get).node.server.devices deviceId).isNone then
      refuse .unauthenticated "Unknown device"
    else return
  | none =>
    if required then refuse .unauthenticated "Authentication required" else return

def requiredDevice (request : Request) : Handler Bytes := do
  checkClientAuth env request true
  unwrap (← extractDeviceId env request)

def activate (deviceId : Bytes) : Handler Unit :=
  called (onState (activateDevice env.toEnv deviceId))

def activateIfGiven (deviceId : Option Bytes) : Handler Unit :=
  match deviceId with
  | some deviceId => activate env deviceId
  | none => return

/-- `get_devices` of the state: the time of a device that has not been seen is the current one. -/
def getDevices : List Bytes → EStateM Stop Server (List ProtoDevice)
  | [] => return []
  | deviceId :: rest => do
    match (← get).devices deviceId with
    | none => getDevices rest
    | some device => do
      let lastActive ← getDeviceLastActivation env.toEnv deviceId
      return ⟨device.id, device.name, device.kind, device.certificate, lastActive⟩ ::
        (← getDevices rest)

inductive Begun where
  | answered (reply : Reply)
  | awaits (call : Call)

def receive (request : Request) : Handler Begun :=
  match request.message with
  | .serverInfo => do
    checkClientAuth env request false
    return .answered (.serverInfo (Wire.version.getD "unknown"))
  | .registration name csr => do
    checkClientAuth env request false
    match env.issueCertificate name csr with
    | .certificate certificate =>
      return .awaits (.register ⟨certToId certificate, name, .user, certificate⟩)
    | .invalidSignature =>
      refuse .failedPrecondition "Request failed: certificate was not created"
    | .panics => throw .panicked
  | .sign groupId name data => do
    checkClientAuth env request false
    return .awaits (.sign groupId name data)
  | .decrypt groupId name data dataType => do
    checkClientAuth env request false
    let creatorDeviceId ← extractDeviceId env request
    return .awaits (.decrypt groupId name data dataType creatorDeviceId)
  | .task taskId deviceId => do
    checkClientAuth env request false
    let taskId ← unwrap (uuidFromSlice taskId)
    activateIfGiven env deviceId
    return .awaits (.getTask taskId deviceId)
  | .taskUpdate task data attempt => do
    let deviceId ← requiredDevice env request
    let taskId ← unwrap (uuidFromSlice task)
    if data.isEmpty then refuse .invalidArgument "Data must not be empty"
    else
      match data.mapM Wire.decodeClientMessage with
      | none => refuse .invalidArgument "Invalid ClientMessage data."
      | some messages => do
        activate env deviceId
        return .awaits (.updateTask taskId deviceId messages attempt)
  | .tasks deviceId => do
    checkClientAuth env request false
    activateIfGiven env deviceId
    return .awaits (.getTasks deviceId)
  | .groups deviceId => do
    checkClientAuth env request false
    activateIfGiven env deviceId
    return .awaits (.getGroups deviceId)
  | .group name deviceIds threshold protocol keyType => do
    checkClientAuth env request false
    let protocol ← unwrap (protocolTryFrom protocol)
    let keyType ← unwrap (keyTypeTryFrom keyType)
    return .awaits (.group name deviceIds threshold protocol keyType)
  | .devices => do
    checkClientAuth env request false
    return .answered (.devices (← called (onState (getDevices env env.deviceOrder))))
  | .log _ => do
    checkClientAuth env request false
    activateIfGiven env (← extractDeviceId env request)
    return .answered (.resp "OK")
  | .taskDecision task accept => do
    let deviceId ← requiredDevice env request
    let taskId ← unwrap (uuidFromSlice task)
    activate env deviceId
    return .awaits (.decideTask taskId deviceId accept)
  | .taskAcknowledgement taskId => do
    let deviceId ← requiredDevice env request
    activate env deviceId
    let taskId ← unwrap (uuidFromSlice taskId)
    return .awaits (.acknowledgeTask taskId deviceId)
  | .subscribe => do
    let deviceId ← requiredDevice env request
    let s ← get
    set { s with node := { s.node with feeds := s.node.feeds.addSubscriber deviceId } }
    return .answered (.updates s.node.feeds.opened)

def getGroups : EStateM Stop Server (List Group) := do
  repoQuery env.query
  let db := (← get).db
  return assembleGroups (env.participantOrder.order db.groupParticipant)
    (env.groupOrder.order db.group)

def getDeviceGroups (deviceId : Bytes) : EStateM Stop Server (List Group) := do
  repoQuery env.query
  let db := (← get).db
  return assembleGroups (env.participantOrder.order (participantsWith db deviceId))
    (env.groupOrder.order (groupsWith db deviceId))

def perform : Call → Handler Reply
  | .register device => do
    caught (fun _ => ⟨.failedPrecondition, "Request failed: device was not added"⟩)
      (onState (addDevice env.toEnv device))
    let secret ← jwtSecret env
    return .registration device.id device.certificate (generateJwt env secret device.id).toOption
  | .sign groupId name data => do
    return .task (← called (PushModel.addSignTask env.toEnv groupId name data))
  | .decrypt groupId name data dataType creatorDeviceId => do
    return .task (← called
      (PushModel.addDecryptTask env.toEnv groupId name data dataType creatorDeviceId))
  | .getTask taskId deviceId => do
    return .task (← called (onState (getFormattedTask env.toEnv taskId deviceId)))
  | .updateTask taskId deviceId messages attempt => do
    called (PushModel.updateTask env.toEnv taskId deviceId messages attempt)
    return .resp "OK"
  | .getTasks (some deviceId) => do
    return .tasks (← called
      (onState (getFormattedActiveDeviceTasks env.toEnv env.query deviceId)))
  | .getTasks none => do
    return .tasks (← called (onState (getFormattedTasks env.toEnv env.query)))
  | .getGroups (some deviceId) => do
    return .groups ((← called (onState (getDeviceGroups env deviceId))).map ProtoGroup.fromModel)
  | .getGroups none => do
    return .groups ((← called (onState (getGroups env))).map ProtoGroup.fromModel)
  | .group name deviceIds threshold protocol keyType => do
    return .task (← caught (fun _ => ⟨.failedPrecondition, "Request failed"⟩)
      (PushModel.addGroupTask env.toEnv name deviceIds threshold protocol keyType none))
  | .decideTask taskId deviceId accept => do
    logged (PushModel.decideTask env.toEnv taskId deviceId accept)
    return .resp "OK"
  | .acknowledgeTask taskId deviceId => do
    logged (onState (acknowledgeTask env.toEnv taskId deviceId))
    return .resp "OK"

end Handlers

inductive Event where
  | arrive (env : ServiceEnv) (request : Request)
  | perform (env : ServiceEnv) (index : ℕ)
  | checkTasks (env : Env)
  | checkSubscribers (now : ℕ) (order : List Bytes)
  /-- A client reads from its stream. -/
  | read (channel : ℕ)
  /-- A client drops its stream. -/
  | hangUp (channel : ℕ)
  | restart

variable [External] [Wire]

def arrive (env : ServiceEnv) (request : Request) (s : Service) : Service :=
  match outcome (receive env request) s with
  | (.ok (.awaits call), s) => { s with pending := s.pending ++ [call] }
  | (.error .crashed, s) => s.restore
  | (_, s) => s

def performed (env : ServiceEnv) (index : ℕ) (s : Service) :
    Option (Except Refusal Reply × Service) :=
  s.pending[index]?.map fun call =>
    outcome (perform env call) { s with pending := s.pending.eraseIdx index }

/-- The timer unwraps the result of a sweep, and a panic of the timer ends the process. -/
def checkTasks (env : Env) (s : Service) : Service :=
  match outcome (PushModel.restartStaleTasks env) s.node with
  | (.ok (), node) => { s with node }
  | (.error _, node) => { s with node }.restore

def next (s : Service) : Event → Service
  | .arrive env request => arrive env request s
  | .perform env index =>
    match performed env index s with
    | some (.error .crashed, s) => s.restore
    | some (_, s) => s
    | none => s
  | .checkTasks env => checkTasks env s
  | .checkSubscribers now order => { s with node := PushModel.checkSubscribers now order s.node }
  | .read channel => { s with node := PushModel.next s.node (.receive channel) }
  | .hangUp channel => { s with node := PushModel.next s.node (.close channel) }
  | .restart => s.restore

def initial : Service := ⟨PushModel.initial, none, none, []⟩

def run (s : Service) (events : List Event) : Service := events.foldl next s

def plainToken (claims : JwtClaims) : String :=
  String.ofList (List.replicate claims.iat '1' ++ '0' :: claims.sub.toList)

def readPlainToken (token : String) : JwtClaims :=
  ⟨String.ofList ((token.toList.dropWhile (· = '1')).drop 1),
    (token.toList.takeWhile (· = '1')).length⟩

omit [External] [Wire] in
theorem readPlainToken_plainToken (claims : JwtClaims) :
    readPlainToken (plainToken claims) = claims := by
  simp [readPlainToken, plainToken]

/-- Certificates are their own digests, and tokens are not signed. -/
@[reducible] def plainWire : Wire where
  version := none
  sha256 cert := cert
  encodeToken _ claims := .ok (plainToken claims)
  decodeToken _ token := some (readPlainToken token)
  decodeClientMessage _ := none
  decode_encode _ claims _ h :=
    Except.ok.inj h ▸ congrArg some (readPlainToken_plainToken claims)

def plainEnv (now newUuid : ℕ) : ServiceEnv where
  toEnv := servingEnv now newUuid
  query := .served
  groupOrder := ⟨id, fun _ => .rfl⟩
  participantOrder := ⟨id, fun _ => .rfl⟩
  deviceOrder := []
  issueCertificate _ csr := .certificate csr
  newSecret := []
  secretReadable := true
  secretWritable := true

def anonymous (message : Message) : Event := .arrive (plainEnv 0 0) ⟨none, none, message⟩

def performFirst : Event := .perform (plainEnv 0 0) 0

end ServiceModel

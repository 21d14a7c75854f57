import MeesignServer.FiniteMap

/-!
# Data of the coordination server

The enumerations, records and errors that the other modules share. The two
enumerations `persistence::ProtocolType` and `proto::ProtocolType` are converted
into each other variant by variant and are one type here, and so are the two
`KeyType` and the two `TaskType` enumerations.
-/
namespace DataModel

open FiniteMap

abbrev Bytes := List (Fin 256)

instance neZero_byte : NeZero 256 := ⟨by decide⟩

/-- Task identifiers. Only equality and the order of the primary key are used. -/
abbrev Uuid := ℕ

inductive ProtocolType where
  | gg18
  | elgamal
  | frost
  | musig2
  deriving DecidableEq, Repr

inductive KeyType where
  | signPdf
  | signChallenge
  | decrypt
  deriving DecidableEq, Repr

inductive TaskType where
  | group
  | signPdf
  | signChallenge
  | decrypt
  deriving DecidableEq, Repr

inductive DeviceKind where
  | user
  | bot
  deriving DecidableEq, Repr

def ProtocolType.indexOffset : ProtocolType → ℕ
  | .gg18 | .elgamal | .musig2 => 0
  | .frost => 1

def ProtocolType.checkThreshold (p : ProtocolType) (threshold groupSize : ℕ) : Bool :=
  match p with
  | .gg18 | .elgamal | .frost => 2 ≤ threshold && threshold ≤ groupSize
  | .musig2 => 2 ≤ threshold && threshold == groupSize

theorem ProtocolType.checkThreshold_bounds {p : ProtocolType} {threshold groupSize : ℕ}
    (h : p.checkThreshold threshold groupSize) : 2 ≤ threshold ∧ threshold ≤ groupSize := by
  cases p <;> simp only [checkThreshold, Bool.and_eq_true, decide_eq_true_eq, beq_iff_eq] at h <;>
    omega

structure Device where
  id : Bytes
  name : String
  kind : DeviceKind
  certificate : Bytes
  deriving DecidableEq

structure Participant where
  device : Device
  shares : ℕ
  deriving DecidableEq

structure Group where
  id : Bytes
  name : String
  threshold : ℤ
  protocol : ProtocolType
  keyType : KeyType
  certificate : Option Bytes
  note : Option String
  participantIdsShares : List (Bytes × ℕ)
  deriving DecidableEq

structure TaskInfo where
  id : Uuid
  name : String
  taskType : TaskType
  protocolType : ProtocolType
  keyType : KeyType
  participants : List Participant
  observers : List Bytes
  attempts : ℕ
  request : Bytes

/-- A `u32` sum in the source. It does not wrap: the shares of a task are counted from one
request, whose length is bounded (`GroupDevices` in the server model). -/
def totalShares (participants : List Participant) : ℕ :=
  (participants.map Participant.shares).sum

def TaskInfo.totalShares (info : TaskInfo) : ℕ := DataModel.totalShares info.participants

def asI8 (n : ℤ) : ℤ := n.bmod 256

def asI32 (n : ℕ) : ℤ := (n : ℤ).bmod 4294967296

def asU32 (n : ℤ) : ℕ := (n % 4294967296).toNat

def maxI32 : ℕ := 2147483647

theorem asU32_natCast {n : ℕ} (h : n ≤ maxI32) : asU32 n = n := by
  unfold asU32 maxI32 at *
  omega

theorem asI32_of_le {n : ℕ} (h : n ≤ maxI32) : asI32 n = n := by
  unfold asI32 maxI32 at *
  rw [Int.bmod_eq_of_le] <;> omega

theorem asU32_asI32 {n : ℕ} (h : n ≤ maxI32) : asU32 (asI32 n) = n := by
  rw [asI32_of_le h, asU32_natCast h]

theorem asI32_le (n : ℕ) : asI32 n ≤ maxI32 := by
  unfold asI32 maxI32
  rw [Int.bmod_def]
  omega

/-- The sign check of a column tells exactly the `u32` values that survive `as i32`. -/
theorem asI32_pos_iff {n : ℕ} (h : n < 2 ^ 32) : 0 < asI32 n ↔ 0 < n ∧ n ≤ maxI32 := by
  unfold asI32 maxI32
  rw [Int.bmod_def]
  omega

def maxNameLength : ℕ := 256

/-- `char::is_control`: the code points of the general category `Cc`. -/
def isControl (c : Char) : Bool := c.toNat < 0x20 || (0x7f ≤ c.toNat && c.toNat < 0xa0)

def isNameValid (name : String) : Bool :=
  name.toList.length ≤ maxNameLength && !name.toList.any isControl && !name.toList.isEmpty

/-- `str::len` counts bytes of the UTF-8 encoding. -/
def byteLength (name : String) : ℕ := (name.toList.map Char.utf8Size).sum

def intoBytes (s : String) : Bytes := s.toUTF8.toList.map UInt8.toFin

structure ClientMessage where
  protocolType : ℤ
  unicasts : Map ℕ Bytes
  broadcast : Option Bytes

structure ServerMessage where
  protocolType : ProtocolType
  unicasts : Map ℕ Bytes
  broadcasts : Map ℕ Bytes

structure ProtocolGroupInit where
  protocolType : ProtocolType
  index : ℕ
  parties : ℕ
  threshold : ℕ

structure ProtocolInit where
  protocolType : ProtocolType
  indices : List ℕ
  index : ℕ
  data : Bytes

structure GroupRequest where
  name : String
  deviceIds : List Bytes
  threshold : ℕ
  protocol : ProtocolType
  keyType : KeyType
  note : Option String

structure SignRequest where
  name : String
  groupId : Bytes
  data : Bytes

structure DecryptRequest where
  name : String
  groupId : Bytes
  data : Bytes
  dataType : String

/-- What the server takes from other packages: the check of signed broadcasts and the round
constants of `meesign-crypto`, and the encoders that `prost` generates. -/
class External where
  verifyBroadcast : Bytes → Bytes → Option Bytes
  keygenRounds : ProtocolType → ℕ
  thresholdRounds : ProtocolType → ℕ
  keygen_pos : ∀ p, 1 ≤ keygenRounds p
  keygen_lt : ∀ p, keygenRounds p < 2 ^ 16 - 1
  threshold_pos : ∀ p, 1 ≤ thresholdRounds p
  threshold_lt : ∀ p, thresholdRounds p < 2 ^ 16 - 1
  encodeServerMessage : ServerMessage → Bytes
  encodeProtocolGroupInit : ProtocolGroupInit → Bytes
  encodeProtocolInit : ProtocolInit → Bytes
  encodeGroupRequest : GroupRequest → Bytes
  encodeSignRequest : SignRequest → Bytes
  encodeDecryptRequest : DecryptRequest → Bytes

inductive PersistenceError where
  | invalidArgument (message : String)
  | execution
  | tryFromInt
  | dataInconsistency (message : String)
  deriving DecidableEq

inductive Error where
  | persistence (e : PersistenceError)
  | generalProtocol (message : String)
  | io
  deriving DecidableEq

/-- The assertions, unwraps and unreachable arms of the modelled code. -/
inductive Panic where
  | activeSharesTooFew
  | thresholdAboveActiveShares
  | clientMessageShape
  | finalMessageWithoutBroadcast
  | finalMessagesDiffer
  | unknownShareIndex
  | advanceOutOfRange
  | finalizeBeforeLastRound
  | certificatesNotSent
  | publicKeyLength
  | taskWithoutParticipants
  | groupWithoutCertificate
  | pdfHelperMissing
  | pdfHelperFailed
  | pdfHelpersPoisoned
  | unreachable
  deriving DecidableEq

/-- How a call ends before its normal return: an `Err`, a panic of the request's own task,
or the whole process stopping at a repository call. -/
inductive Stop where
  | err (e : Error)
  | panic (p : Panic)
  | crash
  deriving DecidableEq

end DataModel

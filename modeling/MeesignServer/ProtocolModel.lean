import MeesignServer.CommunicatorModel
import MeesignServer.FallibleProgram

/-!
# Protocol drivers

The eight `Protocol` implementations count rounds in the same way. They differ in
the message of the first round and in the constant that bounds the rounds.
-/
namespace ProtocolModel

open FallibleProgram FiniteMap DataModel CommunicatorModel

/-- The state of an implementation of the `Protocol` trait. Key generation also stores the
group's size and threshold. -/
inductive Variant where
  | keygen (parties threshold : ℕ)
  | threshold
  deriving DecidableEq

structure Protocol where
  protocolType : ProtocolType
  variant : Variant
  round : ℕ
  deriving DecidableEq

def GG18Group.fromModel (parties threshold round : ℕ) : Protocol :=
  ⟨.gg18, .keygen parties threshold, round⟩

def ElgamalGroup.fromModel (parties threshold round : ℕ) : Protocol :=
  ⟨.elgamal, .keygen parties threshold, round⟩

def FROSTGroup.fromModel (parties threshold round : ℕ) : Protocol :=
  ⟨.frost, .keygen parties threshold, round⟩

/-- `MuSig2Group` stores no threshold and announces the number of parties in its place. -/
def MuSig2Group.fromModel (parties round : ℕ) : Protocol :=
  ⟨.musig2, .keygen parties parties, round⟩

def GG18Sign.fromModel (round : ℕ) : Protocol := ⟨.gg18, .threshold, round⟩

def ElgamalDecrypt.fromModel (round : ℕ) : Protocol := ⟨.elgamal, .threshold, round⟩

def FROSTSign.fromModel (round : ℕ) : Protocol := ⟨.frost, .threshold, round⟩

def MuSig2Sign.fromModel (round : ℕ) : Protocol := ⟨.musig2, .threshold, round⟩

def createKeygenProtocol (protocolType : ProtocolType) (keyType : KeyType)
    (totalShares threshold round : ℕ) : Except String Protocol :=
  match protocolType, keyType with
  | .gg18, .signPdf => .ok (GG18Group.fromModel totalShares threshold round)
  | .gg18, .signChallenge => .ok (GG18Group.fromModel totalShares threshold round)
  | .frost, .signChallenge => .ok (FROSTGroup.fromModel totalShares threshold round)
  | .musig2, .signChallenge => .ok (MuSig2Group.fromModel totalShares round)
  | .elgamal, .decrypt => .ok (ElgamalGroup.fromModel totalShares threshold round)
  | _, _ => .error "Unsupported protocol type and key type combination"

def createThresholdProtocol (protocolType : ProtocolType) (keyType : KeyType) (round : ℕ) :
    Except String Protocol :=
  match protocolType, keyType with
  | .gg18, .signPdf => .ok (GG18Sign.fromModel round)
  | .gg18, .signChallenge => .ok (GG18Sign.fromModel round)
  | .frost, .signChallenge => .ok (FROSTSign.fromModel round)
  | .musig2, .signChallenge => .ok (MuSig2Sign.fromModel round)
  | .elgamal, .decrypt => .ok (ElgamalDecrypt.fromModel round)
  | _, _ => .error "Unsupported protocol type and key type combination"

def Supported (protocolType : ProtocolType) (keyType : KeyType) : Bool :=
  match protocolType, keyType with
  | .gg18, .signPdf | .gg18, .signChallenge | .frost, .signChallenge
  | .musig2, .signChallenge | .elgamal, .decrypt => true
  | _, _ => false

theorem createKeygenProtocol_ok {p : ProtocolType} {k : KeyType} (h : Supported p k)
    (n t r : ℕ) : ∃ t', createKeygenProtocol p k n t r = .ok ⟨p, .keygen n t', r⟩ := by
  cases p <;> cases k <;> first | exact ⟨_, rfl⟩ | exact absurd h (by decide)

theorem createKeygenProtocol_error {p : ProtocolType} {k : KeyType} (h : ¬ Supported p k)
    (n t r : ℕ) : createKeygenProtocol p k n t r =
      .error "Unsupported protocol type and key type combination" := by
  cases p <;> cases k <;> first | rfl | exact absurd rfl h

theorem createThresholdProtocol_ok {p : ProtocolType} {k : KeyType} (h : Supported p k)
    (r : ℕ) : createThresholdProtocol p k r = .ok ⟨p, .threshold, r⟩ := by
  cases p <;> cases k <;> first | rfl | exact absurd h (by decide)

theorem createThresholdProtocol_error {p : ProtocolType} {k : KeyType} (h : ¬ Supported p k)
    (r : ℕ) : createThresholdProtocol p k r =
      .error "Unsupported protocol type and key type combination" := by
  cases p <;> cases k <;> first | rfl | exact absurd rfl h

def Protocol.getType (p : Protocol) : ProtocolType := p.protocolType

def Protocol.lastRound [External] (p : Protocol) : ℕ :=
  match p.variant with
  | .keygen _ _ => External.keygenRounds p.protocolType
  | .threshold => External.thresholdRounds p.protocolType

theorem Protocol.lastRound_pos [External] (p : Protocol) : 1 ≤ p.lastRound := by
  unfold Protocol.lastRound
  cases p.variant with
  | keygen _ _ => exact External.keygen_pos _
  | threshold => exact External.threshold_pos _

/-- A protocol together with the communicator that its methods are handed. -/
structure Session where
  communicator : Communicator
  protocol : Protocol

namespace Session

variable [External]

def initMessage (s : Session) (data : Bytes) (idx : ℕ) : Bytes :=
  match s.protocol.variant with
  | .keygen parties threshold =>
    External.encodeProtocolGroupInit ⟨s.protocol.protocolType, idx, parties, threshold⟩
  | .threshold =>
    External.encodeProtocolInit
      ⟨s.protocol.protocolType, s.communicator.getProtocolIndices, idx, data⟩

def initializeProtocol (s : Session) (data : Bytes) : Session where
  communicator := s.communicator.sendAll (s.initMessage data)
  protocol := { s.protocol with round := 1 }

def incrementRound (s : Session) : Session :=
  { s with protocol := { s.protocol with round := s.protocol.round + 1 } }

def advance : EStateM Stop Session Unit := do
  let s ← get
  if s.protocol.round < s.protocol.lastRound then
    set { s with communicator := s.communicator.relay : Session }.incrementRound
  else throw (.panic .advanceOutOfRange)

/-- The round is counted before the received messages are looked at. -/
def finalize : EStateM Stop Session (Option Bytes) := do
  let s ← get
  if s.protocol.lastRound = s.protocol.round then do
    set s.incrementRound
    fromExcept s.communicator.getFinalMessage
  else throw (.panic .finalizeBeforeLastRound)

def receive (deviceId : Bytes) (messages : List ClientMessage) :
    EStateM Stop Session Unit := do
  let s ← get
  let (_, communicator) ← fromExcept (s.communicator.receiveMessages deviceId messages)
  set { s with communicator }

/-- Every active share has sent its message and the protocol still has a round to run. -/
def roundComplete (s : Session) : Bool :=
  s.communicator.roundReceived && s.protocol.round ≤ s.protocol.lastRound

end Session

end ProtocolModel

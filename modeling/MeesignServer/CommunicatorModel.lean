import MeesignServer.DataModel

/-!
# The communicator

Message buffers of one running task, keyed by protocol indices. The two
assertions of `Communicator::new` are fields, since neither the threshold nor
the active shares change afterwards.
-/
namespace CommunicatorModel

open FiniteMap DataModel

structure Communicator where
  threshold : ℕ
  activeShares : Map ℕ Device
  input : Map ℕ ClientMessage
  output : Map ℕ Bytes
  protocolType : ProtocolType
  two_shares : 1 < len activeShares
  enough_shares : threshold ≤ len activeShares

namespace Communicator

def new (threshold : ℕ) (protocolType : ProtocolType) (activeShares : Map ℕ Device) :
    Except Stop Communicator :=
  if h : 1 < len activeShares then
    if h' : threshold ≤ len activeShares then
      .ok ⟨threshold, activeShares, ∅, ∅, protocolType, h, h'⟩
    else .error (.panic .thresholdAboveActiveShares)
  else .error (.panic .activeSharesTooFew)

theorem new_ok {threshold : ℕ} {protocolType : ProtocolType} {activeShares : Map ℕ Device}
    {c : Communicator} (h : new threshold protocolType activeShares = .ok c) :
    c.threshold = threshold ∧ c.protocolType = protocolType ∧ c.activeShares = activeShares ∧
      c.input = ∅ := by
  unfold new at h
  split_ifs at h
  cases h
  exact ⟨rfl, rfl, rfl, rfl⟩

def clearInput (c : Communicator) : Communicator := { c with input := ∅ }

def getProtocolIndices (c : Communicator) : List ℕ :=
  (c.activeShares.entries.map (fun e => e.1 + c.protocolType.indexOffset)).insertionSort (· ≤ ·)

def identifierToIndices (c : Communicator) (deviceId : Bytes) : List ℕ :=
  ((c.activeShares.entries.filter (fun e => e.2.id = deviceId)).map
    (fun e => e.1 + c.protocolType.indexOffset)).insertionSort (· ≤ ·)

/-- Receive a message from each of the sender device's shares. A wrong number of messages
is answered with `false` and dropped. -/
def receiveMessages (c : Communicator) (senderId : Bytes) (messages : List ClientMessage) :
    Except Stop (Bool × Communicator) :=
  let senderIndices := c.identifierToIndices senderId
  if messages.isEmpty || senderIndices.length ≠ messages.length then .ok (false, c)
  else if messages.all (fun msg => msg.broadcast.isSome || len msg.unicasts == c.threshold - 1) then
    .ok (true, { c with input := extend c.input (senderIndices.zip messages) })
  else .error (.panic .clientMessageShape)

def waitingFor (c : Communicator) (deviceId : Bytes) : Bool :=
  (c.identifierToIndices deviceId).any (fun idx => idx ∉ c.input)

/-- The message relayed to index `idx` out of the incoming buffers -/
def relayed (c : Communicator) (idx : ℕ) : ServerMessage where
  protocolType := c.protocolType
  unicasts := collect (c.input.entries.filterMap fun e =>
    if e.1 = idx then none else (e.2.unicasts.lookup idx).map (fun unicast => (e.1, unicast)))
  broadcasts := collect (c.input.entries.filterMap fun e =>
    if e.1 = idx then none else e.2.broadcast.map (fun broadcast => (e.1, broadcast)))

def sendAll (c : Communicator) (f : ℕ → Bytes) : Communicator :=
  { c with
    output := collect (c.getProtocolIndices.map fun idx => (idx, f idx))
    input := ∅ }

def relay [External] (c : Communicator) : Communicator :=
  c.sendAll fun idx => External.encodeServerMessage (c.relayed idx)

def roundReceived (c : Communicator) : Bool := len c.input == len c.activeShares

def getMessages (c : Communicator) (deviceId : Bytes) : List Bytes :=
  (c.identifierToIndices deviceId).map fun idx => (c.output.lookup idx).getD []

/-- The loop of `get_final_message` over the received messages, with the last verified one. -/
def finalMessageLoop [External] (c : Communicator) :
    List (Sigma fun _ : ℕ => ClientMessage) → Option Bytes → Except Stop (Option Bytes)
  | [], finalMessage => .ok finalMessage
  | ⟨sender, msg⟩ :: rest, finalMessage =>
    if sender < c.protocolType.indexOffset then .error (.panic .unknownShareIndex)
    else match c.activeShares.lookup (sender - c.protocolType.indexOffset) with
    | none => .error (.panic .unknownShareIndex)
    | some device =>
      match msg.broadcast with
      | none => .error (.panic .finalMessageWithoutBroadcast)
      | some broadcast =>
        match External.verifyBroadcast broadcast device.certificate with
        | none => .ok none
        | some verified =>
          if finalMessage.all (· = verified) then finalMessageLoop c rest (some verified)
          else .error (.panic .finalMessagesDiffer)

def getFinalMessage [External] (c : Communicator) : Except Stop (Option Bytes) :=
  finalMessageLoop c c.input.entries none

end Communicator

end CommunicatorModel

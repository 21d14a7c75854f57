import MeesignServer.MessageBuffers

/-!
# The invariant of a communicator

The calls on a communicator keep its incoming buffers whole: only active shares are in
them, and each device has either all of its shares in them or none. The comparison of
sizes in `round_received` means what it says because of this. Indices are natural
numbers: shares are counted per task, and the offset never takes an index out of `u32`.
-/
namespace BufferInvariant

open FiniteMap DataModel CommunicatorModel ServerModel MessageBuffers
open IndexStability (getProtocolIndices_nodup)

def Active (c : Communicator) (d : Bytes) : Prop :=
  ∃ share device, c.activeShares.lookup share = some device ∧ device.id = d

structure Whole (c : Communicator) : Prop where
  inside : ∀ i ∈ c.input, i ∈ c.getProtocolIndices
  all_or_none : ∀ d, (∀ i ∈ c.identifierToIndices d, i ∈ c.input) ∨
    ∀ i ∈ c.identifierToIndices d, i ∉ c.input

section Shares

variable {c c' : Communicator} {d : Bytes} {i : ℕ}

theorem active_iff : Active c d ↔ ∃ i, i ∈ c.identifierToIndices d := by
  constructor
  · rintro ⟨share, device, hlookup, hd⟩
    exact ⟨_, mem_identifierToIndices.mpr ⟨share, device, hlookup, hd, rfl⟩⟩
  · rintro ⟨i, hi⟩
    obtain ⟨share, device, hlookup, hd, -⟩ := mem_identifierToIndices.mp hi
    exact ⟨share, device, hlookup, hd⟩

theorem active_congr (hs : c'.activeShares = c.activeShares) : Active c' d ↔ Active c d := by
  unfold Active
  rw [hs]

theorem owner_of_index (h : i ∈ c.getProtocolIndices) :
    ∃ d, Active c d ∧ i ∈ c.identifierToIndices d := by
  obtain ⟨share, device, hlookup, hi⟩ := mem_getProtocolIndices.mp h
  refine ⟨device.id, ⟨share, device, hlookup, rfl⟩, ?_⟩
  exact mem_identifierToIndices.mpr ⟨share, device, hlookup, rfl, hi⟩

theorem getProtocolIndices_congr (hs : c'.activeShares = c.activeShares)
    (hp : c'.protocolType = c.protocolType) : c'.getProtocolIndices = c.getProtocolIndices := by
  unfold Communicator.getProtocolIndices
  rw [hs, hp]

theorem waitingFor_eq_false : c.waitingFor d = false ↔
    ∀ i ∈ c.identifierToIndices d, i ∈ c.input := by
  rw [Communicator.waitingFor, List.any_eq_false]
  simp only [decide_eq_true_eq, not_not]

end Shares

section Whole

variable {c c' : Communicator}

theorem whole_empty (h : c.input = ∅) : Whole c := by
  constructor
  · intro i hi
    rw [h] at hi
    exact absurd hi (AList.notMem_empty i)
  · intro d
    right
    intro i _
    rw [h]
    exact AList.notMem_empty i

theorem Whole.receive {d : Bytes} {messages : List ClientMessage} {taken : Bool} (h : Whole c)
    (hr : c.receiveMessages d messages = .ok (taken, c')) : Whole c' := by
  obtain ⟨hs, hp, -, -, htaken⟩ := receiveMessages_ok hr
  cases taken with
  | false =>
    rw [show c' = c from htaken]
    exact h
  | true =>
    obtain ⟨hlen, hinput⟩ := htaken
    have hkeys : (callOf c d messages).messages.map Prod.fst = c.identifierToIndices d :=
      List.map_fst_zip hlen.le
    have hmem : ∀ i, i ∈ c'.input ↔ i ∈ c.input ∨ i ∈ c.identifierToIndices d := by
      intro i
      rw [hinput, mem_extend, hkeys]
    constructor
    · intro i hi
      rw [getProtocolIndices_congr hs hp]
      rcases (hmem i).mp hi with hold | hnew
      · exact h.inside i hold
      · exact identifierToIndices_subset hnew
    · intro d'
      rw [identifierToIndices_congr hs hp]
      by_cases hd : d' = d
      · left
        subst hd
        intro i hi
        exact (hmem i).mpr (.inr hi)
      · rcases h.all_or_none d' with hall | hnone
        · left
          intro i hi
          exact (hmem i).mpr (.inl (hall i hi))
        · right
          intro i hi hin
          rcases (hmem i).mp hin with hold | hnew
          · exact hnone i hi hold
          · exact hd (identifierToIndices_unique hi hnew)

/-- A round is received when nobody is waited for. -/
theorem Whole.roundReceived_iff (h : Whole c) :
    c.roundReceived ↔ ∀ d, Active c d → c.waitingFor d = false := by
  have hsub : c.input.keys ⊆ c.getProtocolIndices := fun i hi => h.inside i hi
  have hsubperm := c.input.keys_nodup.subperm hsub
  have hlen : c.input.keys.length = len c.input := List.length_map _
  constructor
  · intro hr d _
    have hsize : c.getProtocolIndices.length ≤ c.input.keys.length := by
      rw [length_getProtocolIndices, hlen]
      exact (beq_iff_eq.mp hr).ge
    have hperm := hsubperm.perm_of_length_le hsize
    apply waitingFor_eq_false.mpr
    intro i hi
    exact hperm.mem_iff.mpr (identifierToIndices_subset hi)
  · intro hall
    have hsup : c.getProtocolIndices ⊆ c.input.keys := by
      intro i hi
      obtain ⟨d, hactive, hd⟩ := owner_of_index hi
      exact waitingFor_eq_false.mp (hall d hactive) i hd
    have hperm := hsubperm.antisymm ((getProtocolIndices_nodup c).subperm hsup)
    apply beq_iff_eq.mpr
    rw [← hlen, hperm.length_eq, length_getProtocolIndices]

theorem Whole.share (h : Whole c) {i : ℕ} (hi : i ∈ c.input) :
    c.protocolType.indexOffset ≤ i ∧
      (c.activeShares.lookup (i - c.protocolType.indexOffset)).isSome := by
  obtain ⟨share, device, hlookup, rfl⟩ := mem_getProtocolIndices.mp (h.inside i hi)
  refine ⟨Nat.le_add_left _ _, ?_⟩
  rw [Nat.add_sub_cancel, hlookup]
  rfl

end Whole

section Runs

variable [External] {c c' : Communicator}

theorem finalMessageLoop_share {l : List (Sigma fun _ : ℕ => ClientMessage)} {last : Option Bytes}
    (h : ∀ e ∈ l, c.protocolType.indexOffset ≤ e.1 ∧
      (c.activeShares.lookup (e.1 - c.protocolType.indexOffset)).isSome) :
    c.finalMessageLoop l last ≠ .error (.panic .unknownShareIndex) := by
  induction l generalizing last with
  | nil =>
    intro heq
    cases heq
  | cons e l ih =>
    obtain ⟨hoffset, hsome⟩ := h e List.mem_cons_self
    obtain ⟨device, hdevice⟩ := Option.isSome_iff_exists.mp hsome
    rw [Communicator.finalMessageLoop, if_neg (not_lt.mpr hoffset), hdevice]
    dsimp only
    split
    · intro heq
      cases heq
    · split
      · intro heq
        cases heq
      · split_ifs
        · apply ih
          intro e' he'
          exact h e' (List.mem_cons_of_mem e he')
        · intro heq
          cases heq

/-- One call on a communicator. A call of `receive_messages` that fails its assertion does not
return. -/
inductive CommunicatorCall (c : Communicator) : Communicator → Prop where
  | receive {c' : Communicator} {sender : Bytes} {messages : List ClientMessage} {taken : Bool}
      (h : c.receiveMessages sender messages = .ok (taken, c')) : CommunicatorCall c c'
  | relay : CommunicatorCall c c.relay
  | sendAll (f : ℕ → Bytes) : CommunicatorCall c (c.sendAll f)
  | clearInput : CommunicatorCall c c.clearInput

abbrev Execution (c c' : Communicator) : Prop := Relation.ReflTransGen CommunicatorCall c c'

def Built (c : Communicator) : Prop :=
  ∃ threshold protocolType activeShares c₀,
    Communicator.new threshold protocolType activeShares = .ok c₀ ∧ Execution c₀ c

theorem Built.step (h : Built c) (hs : CommunicatorCall c c') : Built c' := by
  obtain ⟨threshold, protocolType, activeShares, c₀, hnew, hrun⟩ := h
  exact ⟨threshold, protocolType, activeShares, c₀, hnew, hrun.tail hs⟩

theorem step_whole (h : Whole c) (hs : CommunicatorCall c c') : Whole c' := by
  cases hs with
  | receive hr => exact h.receive hr
  | relay => exact whole_empty rfl
  | sendAll f => exact whole_empty rfl
  | clearInput => exact whole_empty rfl

theorem execution_whole (h : Whole c) (hrun : Execution c c') : Whole c' := by
  induction hrun with
  | refl => exact h
  | tail _ hs ih => exact step_whole ih hs

theorem built_whole (h : Built c) : Whole c := by
  obtain ⟨threshold, protocolType, activeShares, c₀, hnew, hrun⟩ := h
  obtain ⟨-, -, -, hinput⟩ := Communicator.new_ok hnew
  exact execution_whole (whole_empty hinput) hrun

/-- After any calls, the buffers hold only active shares and all or none of the shares of each
device, so that a round is received exactly when no active device is waited for. No lookup of
a sender in `get_final_message` fails. -/
theorem buffers_stay_whole (hc : Built c) :
    (∀ i ∈ c.input, i ∈ c.getProtocolIndices) ∧
    (∀ d, Active c d → (∀ i ∈ c.identifierToIndices d, i ∈ c.input) ∨
      ∀ i ∈ c.identifierToIndices d, i ∉ c.input) ∧
    (c.roundReceived ↔ ∀ d, Active c d → c.waitingFor d = false) ∧
    (∀ i ∈ c.input, c.protocolType.indexOffset ≤ i ∧
      (c.activeShares.lookup (i - c.protocolType.indexOffset)).isSome) ∧
    c.getFinalMessage ≠ .error (.panic .unknownShareIndex) := by
  have h := built_whole hc
  refine ⟨h.inside, fun d _ => h.all_or_none d, h.roundReceived_iff, fun i hi => h.share hi, ?_⟩
  apply finalMessageLoop_share
  intro e he
  exact h.share (mem_of_lookup (mem_entries_iff.mp he))

/-- Alice holds the shares 0 and 6, and Bob holds share 5. -/
def threeShares : Communicator :=
  ⟨2, collect [(0, alice), (5, bob), (6, alice)], ∅, ∅, .frost, by decide, by decide⟩

def bobSent : Communicator :=
  { threeShares with input := extend ∅ [(6, ⟨0, ∅, some [7]⟩)] }

omit [External] in
theorem buffers_stay_whole_bob : bobSent.input.keys = [6] ∧
    (∀ i ∈ bobSent.input, i ∈ bobSent.getProtocolIndices) ∧
    (bobSent.roundReceived ↔ ∀ d, Active bobSent d → bobSent.waitingFor d = false) := by
  have hnew : Communicator.new 2 .frost (collect [(0, alice), (5, bob), (6, alice)]) =
      .ok threeShares := rfl
  have hreceive : threeShares.receiveMessages bob.id [⟨0, ∅, some [7]⟩] = .ok (true, bobSent) := rfl
  have h := @buffers_stay_whole plainExternal bobSent
    ⟨_, _, _, threeShares, hnew,
      .single (@CommunicatorCall.receive plainExternal _ _ _ _ _ hreceive)⟩
  exact ⟨by decide, h.1, h.2.2.1⟩

end Runs

end BufferInvariant

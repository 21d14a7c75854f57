import MeesignServer.IndexStability

/-!
# The buffers of a round

The incoming buffers of a running task are filled by calls, each of which brings one
message for every active share of its device. They are exactly the calls taken in the
current round, so a complete round has one message of each active share.
-/
namespace MessageBuffers

open FiniteMap DataModel CommunicatorModel ProtocolModel RunningTaskModel TaskOutcomes
open IndexStability

section Indices

variable {c : Communicator} {d d' : Bytes} {i : ℕ}

theorem mem_identifierToIndices : i ∈ c.identifierToIndices d ↔
    ∃ share device, c.activeShares.lookup share = some device ∧ device.id = d ∧
      i = share + c.protocolType.indexOffset := by
  rw [Communicator.identifierToIndices, (List.perm_insertionSort _ _).mem_iff]
  constructor
  · intro h
    obtain ⟨⟨share, device⟩, he, rfl⟩ := List.mem_map.mp h
    obtain ⟨he, hd⟩ := List.mem_filter.mp he
    exact ⟨share, device, mem_entries_iff.mp he, of_decide_eq_true hd, rfl⟩
  · rintro ⟨share, device, hlookup, hd, rfl⟩
    apply List.mem_map.mpr
    refine ⟨⟨share, device⟩, List.mem_filter.mpr ⟨mem_entries_iff.mpr hlookup, ?_⟩, rfl⟩
    exact decide_eq_true hd

theorem mem_getProtocolIndices : i ∈ c.getProtocolIndices ↔
    ∃ share device, c.activeShares.lookup share = some device ∧
      i = share + c.protocolType.indexOffset := by
  rw [Communicator.getProtocolIndices, (List.perm_insertionSort _ _).mem_iff]
  constructor
  · intro h
    obtain ⟨⟨share, device⟩, he, rfl⟩ := List.mem_map.mp h
    exact ⟨share, device, mem_entries_iff.mp he, rfl⟩
  · rintro ⟨share, device, hlookup, rfl⟩
    apply List.mem_map.mpr
    exact ⟨⟨share, device⟩, mem_entries_iff.mpr hlookup, rfl⟩

theorem length_getProtocolIndices (c : Communicator) :
    c.getProtocolIndices.length = len c.activeShares := by
  rw [Communicator.getProtocolIndices, List.length_insertionSort, List.length_map]
  rfl

theorem identifierToIndices_subset (h : i ∈ c.identifierToIndices d) :
    i ∈ c.getProtocolIndices := by
  obtain ⟨share, device, hlookup, -, hi⟩ := mem_identifierToIndices.mp h
  exact mem_getProtocolIndices.mpr ⟨share, device, hlookup, hi⟩

theorem identifierToIndices_nodup (c : Communicator) (d : Bytes) :
    (c.identifierToIndices d).Nodup := by
  rw [Communicator.identifierToIndices, (List.perm_insertionSort _ _).nodup_iff]
  have hkeys : ((c.activeShares.entries.filter (fun e => e.2.id = d)).map Sigma.fst).Nodup :=
    c.activeShares.keys_nodup.sublist (List.filter_sublist.map _)
  have hshift := hkeys.map (add_left_injective c.protocolType.indexOffset)
  rwa [List.map_map] at hshift

theorem identifierToIndices_unique (h : i ∈ c.identifierToIndices d)
    (h' : i ∈ c.identifierToIndices d') : d = d' := by
  obtain ⟨share, device, hlookup, hd, hi⟩ := mem_identifierToIndices.mp h
  obtain ⟨share', device', hlookup', hd', hi'⟩ := mem_identifierToIndices.mp h'
  have hshare : share = share' := by omega
  subst hshare
  rw [hlookup] at hlookup'
  cases hlookup'
  exact hd.symm.trans hd'

theorem identifierToIndices_congr {c' : Communicator} (hs : c'.activeShares = c.activeShares)
    (hp : c'.protocolType = c.protocolType) (d : Bytes) :
    c'.identifierToIndices d = c.identifierToIndices d := by
  unfold Communicator.identifierToIndices
  rw [hs, hp]

end Indices

structure Call where
  device : Bytes
  messages : List (ℕ × ClientMessage)

structure Buffered (c : Communicator) (calls : List Call) : Prop where
  input : c.input = collect (calls.flatMap Call.messages)
  shares : ∀ call ∈ calls, call.messages.map Prod.fst = c.identifierToIndices call.device
  devices : (calls.map Call.device).Nodup

section Buffered

variable {c c' : Communicator} {calls : List Call} {d : Bytes} {messages : List ClientMessage}

theorem buffered_empty (h : c.input = ∅) : Buffered c [] :=
  ⟨h, fun _ hcall => absurd hcall (List.not_mem_nil), List.nodup_nil⟩

theorem Buffered.nodup (h : Buffered c calls) :
    ((calls.flatMap Call.messages).map Prod.fst).Nodup := by
  rw [List.map_flatMap, List.nodup_flatMap]
  constructor
  · intro call hcall
    rw [h.shares call hcall]
    exact identifierToIndices_nodup c call.device
  · have hdevices := List.pairwise_map.mp (List.nodup_iff_pairwise_ne.mp h.devices)
    refine hdevices.imp_of_mem fun {a b} ha hb hab => ?_
    intro i hi hi'
    change i ∈ a.messages.map Prod.fst at hi
    change i ∈ b.messages.map Prod.fst at hi'
    rw [h.shares a ha] at hi
    rw [h.shares b hb] at hi'
    exact hab (identifierToIndices_unique hi hi')

theorem Buffered.lookup (h : Buffered c calls) {i : ℕ} {msg : ClientMessage}
    (hmem : (i, msg) ∈ calls.flatMap Call.messages) : c.input.lookup i = some msg := by
  rw [h.input]
  exact lookup_extend_of_mem h.nodup hmem

theorem Buffered.mem (h : Buffered c calls) {i : ℕ} :
    i ∈ c.input ↔ ∃ call ∈ calls, i ∈ c.identifierToIndices call.device := by
  rw [h.input, collect, mem_extend, List.map_flatMap, List.mem_flatMap]
  constructor
  · rintro (hi | ⟨call, hcall, hi⟩)
    · exact absurd hi (AList.notMem_empty i)
    · rw [h.shares call hcall] at hi
      exact ⟨call, hcall, hi⟩
  · rintro ⟨call, hcall, hi⟩
    right
    refine ⟨call, hcall, ?_⟩
    rw [h.shares call hcall]
    exact hi

theorem Buffered.waiting (h : Buffered c calls) (hw : c.waitingFor d) :
    d ∉ calls.map Call.device := by
  intro hd
  obtain ⟨call, hcall, rfl⟩ := List.mem_map.mp hd
  obtain ⟨i, hi, hnot⟩ := List.any_eq_true.mp hw
  exact of_decide_eq_true hnot (h.mem.mpr ⟨call, hcall, hi⟩)

def callOf (c : Communicator) (d : Bytes) (messages : List ClientMessage) : Call :=
  ⟨d, (c.identifierToIndices d).zip messages⟩

theorem receiveMessages_ok {taken : Bool} (h : c.receiveMessages d messages = .ok (taken, c')) :
    c'.activeShares = c.activeShares ∧ c'.protocolType = c.protocolType ∧
      c'.threshold = c.threshold ∧ c'.output = c.output ∧
      if taken then (c.identifierToIndices d).length = messages.length ∧
        c'.input = extend c.input (callOf c d messages).messages
      else c' = c := by
  unfold Communicator.receiveMessages at h
  simp only at h
  split_ifs at h with hlen hall
  · cases h
    exact ⟨rfl, rfl, rfl, rfl, rfl⟩
  · cases h
    simp only [Bool.or_eq_true, decide_eq_true_eq, not_or, not_not] at hlen
    exact ⟨rfl, rfl, rfl, rfl, hlen.2, rfl⟩

theorem Buffered.receive (h : Buffered c calls) (hw : c.waitingFor d)
    (hr : c.receiveMessages d messages = .ok (true, c')) :
    Buffered c' (calls ++ [callOf c d messages]) := by
  obtain ⟨hs, hp, -, -, hlen, hinput⟩ := receiveMessages_ok hr
  refine ⟨?_, fun call hcall => ?_, ?_⟩
  · rw [hinput, h.input, List.flatMap_append, collect, collect]
    unfold extend
    rw [List.foldl_append, List.flatMap_singleton]
  · rw [identifierToIndices_congr hs hp]
    rcases List.mem_append.mp hcall with hold | hnew
    · exact h.shares call hold
    · rw [List.mem_singleton] at hnew
      subst hnew
      exact List.map_fst_zip (Nat.le_of_eq hlen)
  · rw [List.map_append, List.nodup_append]
    refine ⟨h.devices, List.nodup_singleton _, fun a ha b hb hab => ?_⟩
    have hb' : b = d := List.mem_singleton.mp hb
    subst hb'
    subst hab
    exact h.waiting hw ha

/-- In a complete round every active share has sent a message. -/
theorem Buffered.complete (h : Buffered c calls) (hr : c.roundReceived) {i : ℕ}
    (hi : i ∈ c.getProtocolIndices) : ∃ msg, (i, msg) ∈ calls.flatMap Call.messages := by
  have hsub : (calls.flatMap Call.messages).map Prod.fst ⊆ c.getProtocolIndices := by
    intro j hj
    have hmem : j ∈ c.input := by
      rw [h.input, collect, mem_extend]
      exact .inr hj
    obtain ⟨call, -, hj⟩ := h.mem.mp hmem
    exact identifierToIndices_subset hj
  have hlen : ((calls.flatMap Call.messages).map Prod.fst).length =
      c.getProtocolIndices.length := by
    rw [length_getProtocolIndices, List.length_map, ← len_collect h.nodup, ← h.input]
    exact beq_iff_eq.mp hr
  have hperm := (h.nodup.subperm hsub).perm_of_length_le hlen.ge
  obtain ⟨⟨j, msg⟩, hmsg, rfl⟩ := List.mem_map.mp (hperm.mem_iff.mpr hi)
  exact ⟨msg, hmsg⟩

theorem Buffered.once (h : Buffered c calls) {i : ℕ} {msg : ClientMessage}
    (hmem : (i, msg) ∈ calls.flatMap Call.messages) :
    ((calls.flatMap Call.messages).filter (·.1 = i)).map Prod.snd = [msg] := by
  have hnodup := h.nodup
  generalize calls.flatMap Call.messages = l at hmem hnodup ⊢
  induction l with
  | nil => cases hmem
  | cons p l ih =>
    rw [List.map_cons, List.nodup_cons] at hnodup
    rcases List.mem_cons.mp hmem with rfl | hmem
    · have hnone : l.filter (·.1 = i) = [] := by
        rw [List.filter_eq_nil_iff]
        intro q hq hqi
        apply hnodup.1
        exact List.mem_map.mpr ⟨q, hq, of_decide_eq_true hqi⟩
      rw [List.filter_cons_of_pos (by simp), hnone]
      rfl
    · have hne : ¬ p.1 = i := by
        intro hp
        apply hnodup.1
        exact List.mem_map.mpr ⟨(i, msg), hmem, hp.symm⟩
      rw [List.filter_cons_of_neg (by simpa using hne)]
      exact ih hmem hnodup.2

end Buffered

section Final

variable [External] {c : Communicator}

/-- The broadcast of a message verifies to these bytes under the certificate of the owner of the
share. -/
def Verifies (c : Communicator) (i : ℕ) (msg : ClientMessage) (final : Bytes) : Prop :=
  ∃ share device broadcast, i = share + c.protocolType.indexOffset ∧
    c.activeShares.lookup share = some device ∧ msg.broadcast = some broadcast ∧
    External.verifyBroadcast broadcast device.certificate = some final

theorem finalMessageLoop_ok {l : List (Sigma fun _ : ℕ => ClientMessage)} {last : Option Bytes}
    {final : Bytes} (h : c.finalMessageLoop l last = .ok (some final)) :
    (∀ x, last = some x → x = final) ∧ ∀ e ∈ l, Verifies c e.1 e.2 final := by
  induction l generalizing last with
  | nil =>
    cases h
    exact ⟨fun x hx => (Option.some.inj hx).symm, fun e he => absurd he List.not_mem_nil⟩
  | cons e l ih =>
    rw [Communicator.finalMessageLoop] at h
    split_ifs at h with hoffset
    rw [not_lt] at hoffset
    split at h
    · cases h
    rename_i device hdevice
    split at h
    · cases h
    rename_i broadcast hbroadcast
    split at h
    · cases h
    rename_i verified hverified
    split_ifs at h with hlast
    obtain ⟨hfirst, hrest⟩ := ih h
    have hfinal : verified = final := hfirst verified rfl
    subst hfinal
    constructor
    · intro x hx
      rw [hx] at hlast
      exact of_decide_eq_true hlast
    · intro e' he'
      rcases List.mem_cons.mp he' with rfl | he'
      · exact ⟨_, device, broadcast, (Nat.sub_add_cancel hoffset).symm, hdevice, hbroadcast,
          hverified⟩
      · exact hrest e' he'

theorem getFinalMessage_ok {calls : List Call} {final : Bytes} (h : Buffered c calls)
    (hf : c.getFinalMessage = .ok (some final)) {i : ℕ} {msg : ClientMessage}
    (hmem : (i, msg) ∈ calls.flatMap Call.messages) : Verifies c i msg final :=
  (finalMessageLoop_ok hf).2 ⟨i, msg⟩ (mem_entries_iff.mpr (h.lookup hmem))

end Final

end MessageBuffers

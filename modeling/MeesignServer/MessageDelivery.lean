import MeesignServer.BufferInvariant

/-!
# The messages of a round

Every active device sends the messages of its shares once, in any order, while other
devices may send anything. The last of these calls completes the round, and the relayed
messages hold for every active share exactly what the other shares sent, whatever the
order of arrival was.
-/
namespace MessageDelivery

open FiniteMap DataModel CommunicatorModel ServerModel MessageBuffers BufferInvariant
open IndexStability (getProtocolIndices_nodup)

section Maps

variable {K V W : Type} [DecidableEq K]

theorem lookup_collect_iff {l : List (K × V)} (hn : (l.map Prod.fst).Nodup) {k : K} {v : V} :
    (collect l).lookup k = some v ↔ (k, v) ∈ l := by
  constructor
  · intro h
    have hmem := (collect_entries_perm hn).mem_iff.mp (mem_entries_iff.mpr h)
    simpa using hmem
  · exact fun h => lookup_extend_of_mem hn h

theorem lookup_collect_filterMap (m : Map K V) (f : K → V → Option W) {k : K} {w : W} :
    (collect (m.entries.filterMap fun e => (f e.1 e.2).map fun w => (e.1, w))).lookup k = some w ↔
      ∃ v, m.lookup k = some v ∧ f k v = some w := by
  have hkeys : ∀ l : List (Sigma fun _ : K => V),
      ((l.filterMap fun e => (f e.1 e.2).map fun w => (e.1, w)).map Prod.fst).Sublist
        (l.map Sigma.fst) := by
    intro l
    induction l with
    | nil => exact List.Sublist.refl _
    | cons e l ih =>
      cases hf : f e.1 e.2 with
      | none =>
        rw [List.filterMap_cons_none (by rw [hf]; rfl)]
        exact ih.trans (List.sublist_cons_self _ _)
      | some w =>
        rw [List.filterMap_cons_some (by rw [hf]; rfl)]
        exact ih.cons_cons _
  have hn : ((m.entries.filterMap fun e => (f e.1 e.2).map fun w => (e.1, w)).map
      Prod.fst).Nodup := m.keys_nodup.sublist (hkeys m.entries)
  rw [lookup_collect_iff hn, List.mem_filterMap]
  constructor
  · rintro ⟨⟨k', v⟩, he, hw⟩
    obtain ⟨w', hw', hpair⟩ := Option.map_eq_some_iff.mp hw
    obtain ⟨rfl, rfl⟩ := Prod.mk.inj hpair
    exact ⟨v, mem_entries_iff.mp he, hw'⟩
  · rintro ⟨v, hv, hw⟩
    refine ⟨⟨k, v⟩, mem_entries_iff.mpr hv, ?_⟩
    dsimp only
    rw [hw]
    rfl

end Maps

def deliver : Communicator → List (Bytes × List ClientMessage) → Except Stop Communicator
  | c, [] => .ok c
  | c, (d, messages) :: l =>
    match c.receiveMessages d messages with
    | .error stop => .error stop
    | .ok (_, c') => deliver c' l

def Accepts (c : Communicator) (d : Bytes) (messages : List ClientMessage) : Prop :=
  ∃ c', c.receiveMessages d messages = .ok (true, c')

/-- The arrivals of a round: each active device sends acceptable messages once. -/
structure Arrivals (c : Communicator) (l : List (Bytes × List ClientMessage)) : Prop where
  once : ∀ d, Active c d → (l.map Prod.fst).count d = 1
  accepted : ∀ d messages, (d, messages) ∈ l → Active c d → Accepts c d messages

/-- The message of a share: the j-th message of a device is that of its j-th smallest index. -/
def Sent (c : Communicator) (l : List (Bytes × List ClientMessage)) (s : ℕ)
    (msg : ClientMessage) : Prop :=
  ∃ (d : Bytes) (messages : List ClientMessage) (j : ℕ), (d, messages) ∈ l ∧
    (c.identifierToIndices d)[j]? = some s ∧ messages[j]? = some msg

section Arrivals

variable {c c' : Communicator} {d : Bytes} {messages : List ClientMessage}
  {l : List (Bytes × List ClientMessage)} {calls : List Call}

/-- The parts of a communicator that no arrival changes. -/
structure SameShares (c c' : Communicator) : Prop where
  activeShares : c'.activeShares = c.activeShares
  protocolType : c'.protocolType = c.protocolType
  threshold : c'.threshold = c.threshold

theorem SameShares.indices (h : SameShares c c') (d : Bytes) :
    c'.identifierToIndices d = c.identifierToIndices d :=
  identifierToIndices_congr h.activeShares h.protocolType d

theorem SameShares.active (h : SameShares c c') : Active c' d ↔ Active c d :=
  active_congr h.activeShares

theorem SameShares.trans {c'' : Communicator} (h : SameShares c c') (h' : SameShares c' c'') :
    SameShares c c'' :=
  ⟨h'.activeShares.trans h.activeShares, h'.protocolType.trans h.protocolType,
    h'.threshold.trans h.threshold⟩

theorem SameShares.callOf (h : SameShares c c') (d : Bytes) (messages : List ClientMessage) :
    callOf c' d messages = callOf c d messages := by
  unfold MessageBuffers.callOf
  rw [h.indices]

theorem accepts_iff : Accepts c d messages ↔ messages ≠ [] ∧
    (c.identifierToIndices d).length = messages.length ∧
    messages.all (fun msg => msg.broadcast.isSome || len msg.unicasts == c.threshold - 1) := by
  unfold Accepts Communicator.receiveMessages
  dsimp only
  split_ifs with hdrop hshape
  · constructor
    · rintro ⟨c', h⟩
      cases h
    · rintro ⟨hne, hlen, -⟩
      rw [Bool.or_eq_true, List.isEmpty_iff, decide_eq_true_eq] at hdrop
      rcases hdrop with hempty | hlen'
      · exact absurd hempty hne
      · exact absurd hlen hlen'
  · rw [Bool.or_eq_true, not_or, List.isEmpty_iff, decide_eq_true_eq, not_not] at hdrop
    constructor
    · intro _
      exact ⟨hdrop.1, hdrop.2, hshape⟩
    · intro _
      exact ⟨_, rfl⟩
  · constructor
    · rintro ⟨c', h⟩
      cases h
    · rintro ⟨-, -, hall⟩
      exact absurd hall hshape

theorem SameShares.accepts (h : SameShares c c') :
    Accepts c' d messages ↔ Accepts c d messages := by
  rw [accepts_iff, accepts_iff, h.indices, h.threshold]

theorem receive_sameShares {taken : Bool} (h : c.receiveMessages d messages = .ok (taken, c')) :
    SameShares c c' := by
  obtain ⟨hs, hp, ht, -⟩ := receiveMessages_ok h
  exact ⟨hs, hp, ht⟩

theorem receive_inactive (h : ¬ Active c d) (messages : List ClientMessage) :
    c.receiveMessages d messages = .ok (false, c) := by
  have hnil : c.identifierToIndices d = [] := by
    rw [List.eq_nil_iff_forall_not_mem]
    intro i hi
    exact h (active_iff.mpr ⟨i, hi⟩)
  unfold Communicator.receiveMessages
  rw [hnil]
  cases messages with
  | nil => rfl
  | cons msg messages => rfl

theorem waiting_of_missing (hb : Buffered c calls) (ha : Active c d)
    (hd : d ∉ calls.map Call.device) : c.waitingFor d := by
  obtain ⟨i, hi⟩ := active_iff.mp ha
  apply List.any_eq_true.mpr
  refine ⟨i, hi, decide_eq_true ?_⟩
  intro hin
  obtain ⟨call, hcall, hi'⟩ := hb.mem.mp hin
  apply hd
  rw [identifierToIndices_unique hi hi']
  exact List.mem_map.mpr ⟨call, hcall, rfl⟩

instance (c : Communicator) (d : Bytes) : Decidable (Active c d) :=
  decidable_of_iff (c.identifierToIndices d ≠ []) (by
    rw [active_iff, List.ne_nil_iff_exists_cons]
    constructor
    · rintro ⟨i, l, h⟩
      exact ⟨i, h ▸ List.mem_cons_self⟩
    · rintro ⟨i, hi⟩
      cases hl : c.identifierToIndices d with
      | nil => rw [hl] at hi; cases hi
      | cons j l => exact ⟨j, l, rfl⟩)

def callsOf (c : Communicator) (l : List (Bytes × List ClientMessage)) : List Call :=
  (l.filter fun p => Active c p.1).map fun p => callOf c p.1 p.2

theorem mem_callsOf {call : Call} : call ∈ callsOf c l ↔
    ∃ d messages, (d, messages) ∈ l ∧ Active c d ∧ call = callOf c d messages := by
  unfold callsOf
  rw [List.mem_map]
  constructor
  · rintro ⟨⟨d, messages⟩, hp, rfl⟩
    obtain ⟨hmem, hactive⟩ := List.mem_filter.mp hp
    exact ⟨d, messages, hmem, of_decide_eq_true hactive, rfl⟩
  · rintro ⟨d, messages, hmem, hactive, rfl⟩
    exact ⟨(d, messages), List.mem_filter.mpr ⟨hmem, decide_eq_true hactive⟩, rfl⟩

theorem mem_callsOf_device : d ∈ (callsOf c l).map Call.device ↔
    Active c d ∧ d ∈ l.map Prod.fst := by
  rw [List.mem_map]
  constructor
  · rintro ⟨call, hcall, rfl⟩
    obtain ⟨d, messages, hmem, hactive, rfl⟩ := mem_callsOf.mp hcall
    exact ⟨hactive, List.mem_map.mpr ⟨_, hmem, rfl⟩⟩
  · rintro ⟨hactive, hd⟩
    obtain ⟨⟨d, messages⟩, hmem, rfl⟩ := List.mem_map.mp hd
    exact ⟨_, mem_callsOf.mpr ⟨d, messages, hmem, hactive, rfl⟩, rfl⟩

theorem SameShares.callsOf (h : SameShares c c') : callsOf c' l = callsOf c l := by
  unfold MessageDelivery.callsOf
  simp only [h.active, h.callOf]

/-- The buffers after some arrivals are the calls of the active devices among them. -/
theorem deliver_ok (hb : Buffered c calls)
    (hfresh : ∀ d, Active c d → (calls.map Call.device).count d + (l.map Prod.fst).count d ≤ 1)
    (haccepted : ∀ d messages, (d, messages) ∈ l → Active c d → Accepts c d messages) :
    ∃ c', deliver c l = .ok c' ∧ SameShares c c' ∧ Buffered c' (calls ++ callsOf c l) := by
  induction l generalizing c calls with
  | nil =>
    refine ⟨c, rfl, ⟨rfl, rfl, rfl⟩, ?_⟩
    rw [callsOf, List.filter_nil, List.map_nil, List.append_nil]
    exact hb
  | cons p l ih =>
    obtain ⟨d, messages⟩ := p
    by_cases hactive : Active c d
    · obtain ⟨c₁, hreceive⟩ := haccepted d messages List.mem_cons_self hactive
      have hsame := receive_sameShares hreceive
      have hmissing : d ∉ calls.map Call.device := by
        intro hd
        have hcount := hfresh d hactive
        rw [List.map_cons, List.count_cons_self] at hcount
        have hpos := List.count_pos_iff.mpr hd
        omega
      have hb₁ := hb.receive (waiting_of_missing hb hactive hmissing) hreceive
      obtain ⟨c', hdeliver, hsame', hb'⟩ := ih hb₁ (by
        intro d' hd'
        have hcount := hfresh d' (hsame.active.mp hd')
        rw [List.map_cons, List.count_cons, ← add_assoc] at hcount
        rw [List.map_append, List.count_append, List.map_singleton, List.count_singleton]
        change _ + (if d == d' then 1 else 0) ≤ 1 at hcount
        change _ + (if d == d' then 1 else 0) + _ ≤ 1
        omega) (by
        intro d' messages' hmem hd'
        exact hsame.accepts.mpr
          (haccepted d' messages' (List.mem_cons_of_mem _ hmem) (hsame.active.mp hd')))
      refine ⟨c', ?_, hsame.trans hsame', ?_⟩
      · rw [deliver, hreceive]
        exact hdeliver
      · rw [hsame.callsOf, List.append_assoc] at hb'
        rw [callsOf, List.filter_cons_of_pos (by exact decide_eq_true hactive), List.map_cons]
        exact hb'
    · obtain ⟨c', hdeliver, hsame', hb'⟩ := ih hb (by
        intro d' hd'
        have hcount := hfresh d' hd'
        rw [List.map_cons, List.count_cons] at hcount
        omega) (by
        intro d' messages' hmem hd'
        exact haccepted d' messages' (List.mem_cons_of_mem _ hmem) hd')
      refine ⟨c', ?_, hsame', ?_⟩
      · rw [deliver, receive_inactive hactive]
        exact hdeliver
      · rw [callsOf, List.filter_cons_of_neg (by simpa using hactive)]
        exact hb'

theorem lookup_sent (hb : Buffered c' (callsOf c l)) {s : ℕ}
    {msg : ClientMessage} : c'.input.lookup s = some msg ↔ Sent c l s msg := by
  rw [hb.input, lookup_collect_iff hb.nodup, List.mem_flatMap]
  constructor
  · rintro ⟨call, hcall, hmsg⟩
    obtain ⟨d, messages, hmem, hactive, rfl⟩ := mem_callsOf.mp hcall
    obtain ⟨j, hj⟩ := List.mem_iff_getElem?.mp hmsg
    obtain ⟨hs, hm⟩ := List.getElem?_zip_eq_some.mp hj
    exact ⟨d, messages, j, hmem, hs, hm⟩
  · rintro ⟨d, messages, j, hmem, hs, hm⟩
    have hactive : Active c d := active_iff.mpr ⟨s, List.mem_iff_getElem?.mpr ⟨j, hs⟩⟩
    refine ⟨callOf c d messages, mem_callsOf.mpr ⟨d, messages, hmem, hactive, rfl⟩, ?_⟩
    exact List.mem_iff_getElem?.mpr ⟨j, List.getElem?_zip_eq_some.mpr ⟨hs, hm⟩⟩

theorem received_iff (hsame : SameShares c c') (hw : Whole c')
    (hb : Buffered c' (callsOf c l)) :
    c'.roundReceived ↔ ∀ d, Active c d → d ∈ l.map Prod.fst := by
  rw [hw.roundReceived_iff]
  constructor
  · intro h d hd
    have hmem : d ∈ (callsOf c l).map Call.device := by
      by_contra hmissing
      have hwaiting := waiting_of_missing hb (hsame.active.mpr hd) hmissing
      rw [h d (hsame.active.mpr hd)] at hwaiting
      cases hwaiting
    exact (mem_callsOf_device.mp hmem).2
  · intro h d hd
    rw [hsame.active] at hd
    have hmem := mem_callsOf_device.mpr ⟨hd, h d hd⟩
    obtain ⟨call, hcall, rfl⟩ := List.mem_map.mp hmem
    apply waitingFor_eq_false.mpr
    intro i hi
    exact hb.mem.mpr ⟨call, hcall, hi⟩

theorem Arrivals.deliver_prefix (h : Arrivals c l) {l₁ l₂ : List (Bytes × List ClientMessage)}
    (hl : l = l₁ ++ l₂) : ∃ c', deliver c.clearInput l₁ = .ok c' ∧ SameShares c c' ∧
      Buffered c' (callsOf c l₁) := by
  subst hl
  have hclear : SameShares c c.clearInput := ⟨rfl, rfl, rfl⟩
  obtain ⟨c', hdeliver, hsame, hb⟩ := deliver_ok (l := l₁)
    (buffered_empty (c := c.clearInput) rfl) (by
      intro d hd
      have hcount := h.once d (hclear.active.mp hd)
      rw [List.map_append, List.count_append] at hcount
      rw [List.map_nil, List.count_nil]
      omega) (by
      intro d messages hmem hd
      exact hclear.accepts.mpr
        (h.accepted d messages (List.mem_append_left l₂ hmem) (hclear.active.mp hd)))
  refine ⟨c', hdeliver, hclear.trans hsame, ?_⟩
  rwa [List.nil_append, hclear.callsOf] at hb

theorem deliver_whole (h : Whole c) (hd : deliver c l = .ok c') : Whole c' := by
  induction l generalizing c with
  | nil =>
    cases hd
    exact h
  | cons p l ih =>
    obtain ⟨d, messages⟩ := p
    rw [deliver] at hd
    split at hd
    · cases hd
    · rename_i taken c₁ hreceive
      exact ih (h.receive hreceive) hd

end Arrivals

section Relayed

variable [External] {c c' : Communicator} {d : Bytes} {messages : List ClientMessage}
  {l l' : List (Bytes × List ClientMessage)}

/-- The message that share `i` is due: what the other shares have sent. -/
structure Relayed (c : Communicator) (l : List (Bytes × List ClientMessage)) (i : ℕ)
    (m : ServerMessage) : Prop where
  protocolType : m.protocolType = c.protocolType
  broadcasts : ∀ s broadcast, m.broadcasts.lookup s = some broadcast ↔
    s ≠ i ∧ ∃ msg, Sent c l s msg ∧ msg.broadcast = some broadcast
  unicasts : ∀ s unicast, m.unicasts.lookup s = some unicast ↔
    s ≠ i ∧ ∃ msg, Sent c l s msg ∧ msg.unicasts.lookup i = some unicast

structure SameMessage (m m' : ServerMessage) : Prop where
  protocolType : m.protocolType = m'.protocolType
  broadcasts : ∀ s, m.broadcasts.lookup s = m'.broadcasts.lookup s
  unicasts : ∀ s, m.unicasts.lookup s = m'.unicasts.lookup s

def Undoes (decode : Bytes → Option ServerMessage) : Prop :=
  ∀ m, ∃ m', decode (External.encodeServerMessage m) = some m' ∧ SameMessage m' m

omit [External] in
theorem SameMessage.symm {m m' : ServerMessage} (h : SameMessage m m') : SameMessage m' m :=
  ⟨h.protocolType.symm, fun s => (h.broadcasts s).symm, fun s => (h.unicasts s).symm⟩

omit [External] in
theorem SameMessage.trans {m m' m'' : ServerMessage} (h : SameMessage m m')
    (h' : SameMessage m' m'') : SameMessage m m'' :=
  ⟨h.protocolType.trans h'.protocolType, fun s => (h.broadcasts s).trans (h'.broadcasts s),
    fun s => (h.unicasts s).trans (h'.unicasts s)⟩

omit [External] in
theorem lookup_relayed_broadcasts (c : Communicator) (i s : ℕ) (broadcast : Bytes) :
    (c.relayed i).broadcasts.lookup s = some broadcast ↔
      s ≠ i ∧ ∃ msg, c.input.lookup s = some msg ∧ msg.broadcast = some broadcast := by
  have h := lookup_collect_filterMap c.input
    (fun k msg => if k = i then none else msg.broadcast) (k := s) (w := broadcast)
  have hentries : (fun e : Sigma fun _ : ℕ => ClientMessage =>
      (if e.1 = i then none else e.2.broadcast).map fun b => (e.1, b)) =
      fun e => if e.1 = i then none else e.2.broadcast.map fun b => (e.1, b) := by
    funext e
    split_ifs <;> rfl
  rw [hentries] at h
  refine h.trans ?_
  by_cases hs : s = i
  · simp [hs]
  · simp [hs]

omit [External] in
theorem lookup_relayed_unicasts (c : Communicator) (i s : ℕ) (unicast : Bytes) :
    (c.relayed i).unicasts.lookup s = some unicast ↔
      s ≠ i ∧ ∃ msg, c.input.lookup s = some msg ∧ msg.unicasts.lookup i = some unicast := by
  have h := lookup_collect_filterMap c.input
    (fun k msg => if k = i then none else msg.unicasts.lookup i) (k := s) (w := unicast)
  have hentries : (fun e : Sigma fun _ : ℕ => ClientMessage =>
      (if e.1 = i then none else e.2.unicasts.lookup i).map fun u => (e.1, u)) =
      fun e => if e.1 = i then none else (e.2.unicasts.lookup i).map fun u => (e.1, u) := by
    funext e
    split_ifs <;> rfl
  rw [hentries] at h
  refine h.trans ?_
  by_cases hs : s = i
  · simp [hs]
  · simp [hs]

omit [External] in
theorem relayed_spec (hsame : SameShares c c') (hb : Buffered c' (callsOf c l)) (i : ℕ) :
    Relayed c l i (c'.relayed i) := by
  constructor
  · exact hsame.protocolType
  · intro s broadcast
    rw [lookup_relayed_broadcasts]
    simp only [lookup_sent hb]
  · intro s unicast
    rw [lookup_relayed_unicasts]
    simp only [lookup_sent hb]

omit [External] in
/-- What a share is due does not depend on the order of arrival. -/
theorem Relayed.same {i : ℕ} {m m' : ServerMessage} (h : Relayed c l i m)
    (h' : Relayed c l' i m') (hsent : ∀ s msg, Sent c l s msg ↔ Sent c l' s msg) :
    SameMessage m m' := by
  constructor
  · exact h.protocolType.trans h'.protocolType.symm
  · intro s
    apply Option.ext
    intro broadcast
    rw [h.broadcasts, h'.broadcasts]
    simp only [hsent]
  · intro s
    apply Option.ext
    intro unicast
    rw [h.unicasts, h'.unicasts]
    simp only [hsent]

omit [External] in
theorem lookup_sendAll {f : ℕ → Bytes} {i : ℕ} (hi : i ∈ c.getProtocolIndices) :
    (c.sendAll f).output.lookup i = some (f i) := by
  have hkeys : (c.getProtocolIndices.map fun idx => (idx, f idx)).map Prod.fst =
      c.getProtocolIndices := by
    rw [List.map_map]
    exact List.map_id _
  apply lookup_extend_of_mem
  · rw [hkeys]
    exact getProtocolIndices_nodup c
  · exact List.mem_map.mpr ⟨i, hi, rfl⟩

omit [External] in
theorem identifierToIndices_sorted (c : Communicator) (d : Bytes) :
    (c.identifierToIndices d).Pairwise (· < ·) := by
  have hle : (c.identifierToIndices d).Pairwise (· ≤ ·) := List.pairwise_insertionSort _ _
  have hne := List.nodup_iff_pairwise_ne.mp (identifierToIndices_nodup c d)
  exact (hle.and hne).imp fun h => lt_of_le_of_ne h.1 h.2

omit [External] in
theorem getMessages_sendAll {f : ℕ → Bytes} (d : Bytes) :
    (c.sendAll f).getMessages d = (c.identifierToIndices d).map f := by
  unfold Communicator.getMessages
  rw [show (c.sendAll f).identifierToIndices d = c.identifierToIndices d from
    identifierToIndices_congr rfl rfl d]
  apply List.map_congr_left
  intro i hi
  rw [lookup_sendAll (identifierToIndices_subset hi)]
  rfl

omit [External] in
theorem sent_congr (h : ∀ d messages, Active c d → ((d, messages) ∈ l ↔ (d, messages) ∈ l'))
    (s : ℕ) (msg : ClientMessage) : Sent c l s msg ↔ Sent c l' s msg := by
  have hactive : ∀ {d : Bytes} {j : ℕ}, (c.identifierToIndices d)[j]? = some s → Active c d :=
    fun {d j} hs => active_iff.mpr ⟨s, List.mem_iff_getElem?.mpr ⟨j, hs⟩⟩
  constructor
  · rintro ⟨d, messages, j, hmem, hs, hm⟩
    exact ⟨d, messages, j, (h d messages (hactive hs)).mp hmem, hs, hm⟩
  · rintro ⟨d, messages, j, hmem, hs, hm⟩
    exact ⟨d, messages, j, (h d messages (hactive hs)).mpr hmem, hs, hm⟩

/-- The arrivals of a round are all taken. The round is received when the last active device has
been heard; then every active share is relayed what the other shares sent, its device reads it
in the order of its indices, and the buffers are empty. Another order of arrival leads to the
same messages. -/
theorem messages_delivered (c : Communicator) (h : Arrivals c l) (h' : Arrivals c l')
    (hsame : ∀ d messages, Active c d → ((d, messages) ∈ l ↔ (d, messages) ∈ l'))
    {decode : Bytes → Option ServerMessage} (hdecode : Undoes decode) :
    ∃ r r', deliver c.clearInput l = .ok r ∧ deliver c.clearInput l' = .ok r' ∧
      (∀ l₁ l₂, l = l₁ ++ l₂ → ∃ r₁, deliver c.clearInput l₁ = .ok r₁ ∧
        (r₁.roundReceived ↔ ∀ d, Active c d → d ∈ l₁.map Prod.fst)) ∧
      (∀ d messages, ¬ Active c d → c.receiveMessages d messages = .ok (false, c)) ∧
      (∀ i ∈ c.getProtocolIndices, ∃ m, Relayed c l i m ∧
        r.relay.output.lookup i = some (External.encodeServerMessage m)) ∧
      (∀ d, (c.identifierToIndices d).Pairwise (· < ·) ∧
        (r.relay.getMessages d).map some = (c.identifierToIndices d).map r.relay.output.lookup) ∧
      r.relay.input = ∅ ∧
      ∀ i ∈ c.getProtocolIndices, ∃ b b' m m', r.relay.output.lookup i = some b ∧
        r'.relay.output.lookup i = some b' ∧ decode b = some m ∧ decode b' = some m' ∧
        SameMessage m m' := by
  obtain ⟨r, hr, hshares, hb⟩ := h.deliver_prefix (List.append_nil l).symm
  obtain ⟨r', hr', hshares', hb'⟩ := h'.deliver_prefix (List.append_nil l').symm
  have hindices : ∀ {r}, SameShares c r → r.getProtocolIndices = c.getProtocolIndices :=
    fun h => getProtocolIndices_congr h.activeShares h.protocolType
  have hlookup : ∀ {r}, SameShares c r → ∀ i ∈ c.getProtocolIndices,
      r.relay.output.lookup i = some (External.encodeServerMessage (r.relayed i)) := by
    intro r hshares i hi
    rw [← hindices hshares] at hi
    exact lookup_sendAll hi
  refine ⟨r, r', hr, hr', ?_, ?_, ?_, ?_, rfl, ?_⟩
  · intro l₁ l₂ hl
    obtain ⟨r₁, hr₁, hshares₁, hb₁⟩ := h.deliver_prefix hl
    exact ⟨r₁, hr₁, received_iff hshares₁ (deliver_whole (whole_empty rfl) hr₁) hb₁⟩
  · intro d messages hd
    exact receive_inactive hd messages
  · intro i hi
    exact ⟨r.relayed i, relayed_spec hshares hb i, hlookup hshares i hi⟩
  · intro d
    refine ⟨identifierToIndices_sorted c d, ?_⟩
    rw [Communicator.relay, getMessages_sendAll, hshares.indices, List.map_map]
    apply List.map_congr_left
    intro i hi
    exact (hlookup hshares i (identifierToIndices_subset hi)).symm
  · intro i hi
    obtain ⟨m, hm, hsame₁⟩ := hdecode (r.relayed i)
    obtain ⟨m', hm', hsame₂⟩ := hdecode (r'.relayed i)
    have hrelayed := (relayed_spec hshares hb i).same (relayed_spec hshares' hb' i)
      (sent_congr hsame)
    exact ⟨_, _, m, m', hlookup hshares i hi, hlookup hshares' i hi, hm, hm',
      (hsame₁.trans hrelayed).trans hsame₂.symm⟩

end Relayed

def protocolCode : ProtocolType → ℕ
  | .gg18 => 0
  | .elgamal => 1
  | .frost => 2
  | .musig2 => 3

def protocolOfCode : ℕ → ProtocolType
  | 0 => .gg18
  | 1 => .elgamal
  | 2 => .frost
  | _ => .musig2

def encodeNumber (m : ServerMessage) : Bytes :=
  List.replicate (Encodable.encode (protocolCode m.protocolType,
    m.unicasts.entries.map fun e => (e.1, e.2), m.broadcasts.entries.map fun e => (e.1, e.2))) 0

def decodeNumber (b : Bytes) : Option ServerMessage :=
  (Encodable.decode (α := ℕ × List (ℕ × Bytes) × List (ℕ × Bytes)) b.length).map fun x =>
    ⟨protocolOfCode x.1, collect x.2.1, collect x.2.2⟩

@[reducible] def numberExternal : External :=
  { plainExternal with encodeServerMessage := encodeNumber }

theorem decodeNumber_undoes : @Undoes numberExternal decodeNumber := by
  intro m
  refine ⟨⟨m.protocolType, collect (m.unicasts.entries.map fun e => (e.1, e.2)),
    collect (m.broadcasts.entries.map fun e => (e.1, e.2))⟩, ?_, rfl, fun s => ?_, fun s => ?_⟩
  · change decodeNumber (encodeNumber m) = _
    unfold decodeNumber encodeNumber
    rw [List.length_replicate, Encodable.encodek, Option.map_some]
    cases m.protocolType <;> rfl
  · exact (lookup_mapValues id m.broadcasts s).trans Option.map_id'
  · exact (lookup_mapValues id m.unicasts s).trans Option.map_id'

theorem active_threeShares {d : Bytes} (h : Active threeShares d) : d = alice.id ∨ d = bob.id := by
  obtain ⟨share, device, hlookup, rfl⟩ := h
  have hmem := (lookup_collect_iff (by decide)).mp hlookup
  simp only [List.mem_cons, Prod.mk.injEq, List.not_mem_nil, or_false] at hmem
  rcases hmem with ⟨-, rfl⟩ | ⟨-, rfl⟩ | ⟨-, rfl⟩
  · exact .inl rfl
  · exact .inr rfl
  · exact .inl rfl

def bobFirst : List (Bytes × List ClientMessage) :=
  [(bob.id, answer [7]), ([3], answer [5]), (alice.id, answer [8] ++ answer [9])]

def aliceFirst : List (Bytes × List ClientMessage) :=
  [(alice.id, answer [8] ++ answer [9]), (bob.id, answer [7])]

theorem bobFirst_arrivals : Arrivals threeShares bobFirst := by
  constructor
  · intro d hd
    rcases active_threeShares hd with rfl | rfl
    · decide
    · decide
  · intro d messages hmem hd
    simp only [bobFirst, List.mem_cons, Prod.mk.injEq, List.not_mem_nil, or_false] at hmem
    rcases hmem with ⟨rfl, rfl⟩ | ⟨rfl, rfl⟩ | ⟨rfl, rfl⟩
    · exact ⟨_, rfl⟩
    · exact absurd hd (by decide)
    · exact ⟨_, rfl⟩

theorem aliceFirst_arrivals : Arrivals threeShares aliceFirst := by
  constructor
  · intro d hd
    rcases active_threeShares hd with rfl | rfl
    · decide
    · decide
  · intro d messages hmem _
    simp only [aliceFirst, List.mem_cons, Prod.mk.injEq, List.not_mem_nil, or_false] at hmem
    rcases hmem with ⟨rfl, rfl⟩ | ⟨rfl, rfl⟩
    · exact ⟨_, rfl⟩
    · exact ⟨_, rfl⟩

/-- Alice and Bob are heard in either order, and a stranger in between. -/
theorem messages_delivered_two : ∃ r r', deliver threeShares.clearInput bobFirst = .ok r ∧
    deliver threeShares.clearInput aliceFirst = .ok r' ∧
    ∀ i ∈ threeShares.getProtocolIndices, ∃ b b' m m',
      (@Communicator.relay numberExternal r).output.lookup i = some b ∧
      (@Communicator.relay numberExternal r').output.lookup i = some b' ∧
      decodeNumber b = some m ∧ decodeNumber b' = some m' ∧ SameMessage m m' := by
  have hsame : ∀ d messages, Active threeShares d →
      ((d, messages) ∈ bobFirst ↔ (d, messages) ∈ aliceFirst) := by
    intro d messages hd
    have hne : d ≠ [3] := by
      rcases active_threeShares hd with rfl | rfl
      · decide
      · decide
    simp only [bobFirst, aliceFirst, List.mem_cons, Prod.mk.injEq, List.not_mem_nil, or_false, hne,
      false_and, false_or]
    tauto
  obtain ⟨r, r', hr, hr', -, -, -, -, -, hdecoded⟩ := @messages_delivered numberExternal _ _
    threeShares bobFirst_arrivals aliceFirst_arrivals hsame _ decodeNumber_undoes
  exact ⟨r, r', hr, hr', hdecoded⟩

end MessageDelivery

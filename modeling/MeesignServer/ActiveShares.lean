import MeesignServer.ServerModel

/-!
# Active shares and their indices

Both the choice of active shares and their hydration give a device the first
indices of its block. The blocks depend only on who participates with how many
shares.
-/
namespace ActiveShares

open FiniteMap IndexBlocks DataModel CommunicatorModel HydrationModel ServerModel

variable {ps qs : List Participant} {k : Bytes → ℕ} {m : Map ℕ Device}

def ids (ps : List Participant) : List Bytes := ps.map fun p => p.device.id

def blockStart (ps : List Participant) (d : Bytes) : ℕ :=
  start (ps.map fun p => (p.device.id, p.shares)) d

/-- Every participant holds the first `k` indices of its block, and nobody else holds any. -/
structure Blocks (ps : List Participant) (k : Bytes → ℕ) (m : Map ℕ Device) : Prop where
  bound : ∀ p ∈ ps, k p.device.id ≤ p.shares
  lookup : ∀ i device, m.lookup i = some device ↔ ∃ p ∈ ps, p.device = device ∧
    blockStart ps device.id ≤ i ∧ i < blockStart ps device.id + k device.id
  size : len m = (ps.map fun p => k p.device.id).sum

theorem blockStart_perm (h : ps.Perm qs) (d : Bytes) : blockStart ps d = blockStart qs d :=
  start_perm (h.map _) d

theorem Blocks.perm (h : Blocks ps k m) (hp : ps.Perm qs) : Blocks qs k m where
  bound p hq := h.bound p (hp.mem_iff.mpr hq)
  lookup i device := by
    rw [h.lookup, blockStart_perm hp]
    simp only [hp.mem_iff]
  size := h.size.trans (hp.map _).sum_eq

theorem Blocks.lt_total (h : Blocks ps k m) {i : ℕ} {device : Device}
    (hi : m.lookup i = some device) : i < totalShares ps := by
  obtain ⟨p, hp, rfl, -, hlt⟩ := (h.lookup i device).mp hi
  have hmem : (p.device.id, p.shares) ∈ ps.map fun p => (p.device.id, p.shares) :=
    List.mem_map_of_mem hp
  have hend : blockStart ps p.device.id + p.shares ≤ totalShares ps := by
    have hle := start_add_le_total hmem
    rw [List.map_map] at hle
    exact hle
  have hbound := h.bound p hp
  omega

theorem Blocks.congr {k' : Bytes → ℕ} (h : Blocks ps k m)
    (hk : ∀ p ∈ ps, k p.device.id = k' p.device.id) : Blocks ps k' m where
  bound p hp := hk p hp ▸ h.bound p hp
  lookup i device := by
    rw [h.lookup]
    constructor
    · rintro ⟨p, hp, rfl, hi⟩
      rw [hk p hp] at hi
      exact ⟨p, hp, rfl, hi⟩
    · rintro ⟨p, hp, rfl, hi⟩
      rw [← hk p hp] at hi
      exact ⟨p, hp, rfl, hi⟩
  size := h.size.trans (congrArg List.sum (List.map_congr_left hk))

theorem Blocks.full (h : Blocks ps k m) (hm : totalShares ps ≤ len m) {p : Participant}
    (hp : p ∈ ps) : k p.device.id = p.shares := by
  by_contra hne
  have hlt := List.sum_lt_sum (fun q : Participant => k q.device.id) Participant.shares h.bound
    ⟨p, hp, lt_of_le_of_ne (h.bound p hp) hne⟩
  have := h.size
  unfold totalShares at hm
  omega

theorem eq_of_id_eq (hn : (ids ps).Nodup) {p q : Participant} (hp : p ∈ ps) (hq : q ∈ ps)
    (h : p.device.id = q.device.id) : p = q :=
  List.inj_on_of_nodup_map hn hp hq h

theorem block_disjoint {p q : Participant} (hp : p ∈ ps) (hq : q ∈ ps) {i : ℕ}
    (hpi : blockStart ps p.device.id ≤ i ∧ i < blockStart ps p.device.id + p.shares)
    (hqi : blockStart ps q.device.id ≤ i ∧ i < blockStart ps q.device.id + q.shares) :
    p.device.id = q.device.id := by
  have hmem : ∀ r ∈ ps, (r.device.id, r.shares) ∈ ps.map fun p => (p.device.id, p.shares) :=
    fun r hr => List.mem_map.mpr ⟨r, hr, rfl⟩
  rcases lt_trichotomy p.device.id q.device.id with h | h | h
  · have := start_add_le (hmem p hp) h
    unfold blockStart at hpi hqi
    omega
  · exact h
  · have := start_add_le (hmem q hq) h
    unfold blockStart at hpi hqi
    omega

theorem sortById_perm (ps : List Participant) : (sortById ps).Perm ps :=
  List.perm_insertionSort _ _

instance : Std.Total (fun a b : Participant => a.device.id ≤ b.device.id) :=
  ⟨fun a b => le_total a.device.id b.device.id⟩

instance : IsTrans Participant (fun a b => a.device.id ≤ b.device.id) :=
  ⟨fun _ _ _ => le_trans⟩

theorem sortById_pairwise (hn : (ids ps).Nodup) :
    ((sortById ps).map fun p => (p.device.id, p.shares)).Pairwise (fun p q => p.1 < q.1) := by
  rw [List.pairwise_map]
  have hle := List.pairwise_insertionSort (fun a b : Participant => a.device.id ≤ b.device.id) ps
  have hne : (sortById ps).Pairwise (fun a b => a.device.id ≠ b.device.id) :=
    List.pairwise_map.mp (((sortById_perm ps).map _).nodup_iff.mpr hn)
  exact (hle.and hne).imp (fun h => lt_of_le_of_ne h.1 h.2)

theorem lookup_firstShareIndices (hn : (ids ps).Nodup) {p : Participant} (hp : p ∈ ps) :
    (firstShareIndices ps).lookup p.device.id = some (blockStart ps p.device.id) := by
  rw [firstShareIndices, lookup_scanStarts (sortById_pairwise hn), blockStart]
  · rw [start_perm ((sortById_perm ps).map _)]
  · simp only [List.map_map, List.mem_map, Function.comp_apply]
    exact ⟨p, (sortById_perm ps).mem_iff.mpr hp, rfl⟩

structure Choice (ps : List Participant) (chosen : List Device) : Prop where
  mem : ∀ device ∈ chosen, ∃ p ∈ ps, p.device = device
  count : ∀ p ∈ ps, chosen.countP (fun device => device.id = p.device.id) ≤ p.shares

/-- Whatever order the active shares come in, each device gets the front of its block. -/
theorem assignShareIndices_spec (hn : (ids ps).Nodup) {devices : List Device}
    (h : Choice ps devices) : ∃ m, assignShareIndices ps devices = .ok m ∧ len m = devices.length ∧
      Blocks ps (fun d => devices.countP (fun device => device.id = d)) m := by
  obtain ⟨hd, hc⟩ := h
  obtain ⟨r, hr, hsnd, hrange⟩ := assign_spec Device.id (firstShareIndices ps) devices
    (blockStart ps) (by
      intro device hdevice
      obtain ⟨p, hp, rfl⟩ := hd device hdevice
      exact lookup_firstShareIndices hn hp)
  have hmem : ∀ {i : ℕ} {device : Device}, (i, device) ∈ r → device ∈ devices ∧
      blockStart ps device.id ≤ i ∧
      i < blockStart ps device.id + devices.countP (fun d => d.id = device.id) := by
    intro i device h
    have hi : i ∈ (r.filter (fun p => p.2.id = device.id)).map Prod.fst :=
      List.mem_map.mpr ⟨(i, device), List.mem_filter.mpr ⟨h, by simp⟩, rfl⟩
    rw [hrange, List.mem_range'_1] at hi
    exact ⟨hsnd ▸ List.mem_map.mpr ⟨_, h, rfl⟩, hi⟩
  have hnodup : (r.map Prod.fst).Nodup := by
    refine nodup_of_blocks Device.id (fun d => ?_) ?_
    · rw [hrange]
      exact List.nodup_range'
    · rintro ⟨i, a⟩ ha ⟨j, b⟩ hb hne heq
      obtain ⟨had, hai⟩ := hmem ha
      obtain ⟨hbd, hbi⟩ := hmem hb
      obtain ⟨p, hp, rfl⟩ := hd a had
      obtain ⟨q, hq, rfl⟩ := hd b hbd
      simp only at heq
      subst heq
      have hpc := hc p hp
      have hqc := hc q hq
      exact hne (block_disjoint hp hq (i := i) ⟨hai.1, by omega⟩ ⟨hbi.1, by omega⟩)
  have hlen : len (collect r) = devices.length := by
    rw [len_collect hnodup, ← hsnd, List.length_map]
  refine ⟨collect r, by simp [assignShareIndices, hr], hlen, hc, ?_,
    ?_⟩
  · intro i device
    constructor
    · intro h
      have hir : (i, device) ∈ r := by
        have := (collect_entries_perm hnodup).mem_iff.mp (mem_entries_iff.mpr h)
        simpa using this
      obtain ⟨hdevice, hi⟩ := hmem hir
      obtain ⟨p, hp, rfl⟩ := hd device hdevice
      exact ⟨p, hp, rfl, hi⟩
    · rintro ⟨p, hp, rfl, hi⟩
      have hi' : i ∈ (r.filter (fun q => q.2.id = p.device.id)).map Prod.fst := by
        rw [hrange, List.mem_range'_1]
        exact hi
      obtain ⟨⟨j, b⟩, hb, rfl⟩ := List.mem_map.mp hi'
      rw [List.mem_filter, decide_eq_true_eq] at hb
      obtain ⟨q, hq, rfl⟩ := hd b (hmem hb.1).1
      rw [eq_of_id_eq hn hp hq hb.2.symm]
      exact lookup_extend_of_mem hnodup hb.1
  · rw [hlen, length_eq_sum_countP Device.id hn, ids, List.map_map]
    · rfl
    · intro device hdevice
      obtain ⟨p, hp, rfl⟩ := hd device hdevice
      exact List.mem_map.mpr ⟨p, hp, rfl⟩

def shareList (f : Participant → ℕ) (ps : List Participant) : List Device :=
  ps.flatMap fun p => List.replicate (f p) p.device

theorem mem_shareList {f : Participant → ℕ} {device : Device} (h : device ∈ shareList f ps) :
    ∃ p ∈ ps, p.device = device := by
  obtain ⟨p, hp, hd⟩ := List.mem_flatMap.mp h
  exact ⟨p, hp, (List.eq_of_mem_replicate hd).symm⟩

theorem length_shareList (f : Participant → ℕ) (ps : List Participant) :
    (shareList f ps).length = (ps.map f).sum := by
  simp [shareList, List.length_flatMap]

theorem countP_shareList_of_notMem (f : Participant → ℕ) {d : Bytes} (hd : d ∉ ids ps) :
    (shareList f ps).countP (fun device => device.id = d) = 0 := by
  rw [List.countP_eq_zero]
  intro device hdevice hid
  obtain ⟨p, hp, rfl⟩ := mem_shareList hdevice
  exact hd (List.mem_map.mpr ⟨p, hp, of_decide_eq_true hid⟩)

theorem countP_shareList (f : Participant → ℕ) (hn : (ids ps).Nodup) {p : Participant}
    (hp : p ∈ ps) : (shareList f ps).countP (fun device => device.id = p.device.id) = f p := by
  induction ps with
  | nil => simp at hp
  | cons q ps ih =>
    rw [ids, List.map_cons, List.nodup_cons] at hn
    have hsplit : shareList f (q :: ps) = List.replicate (f q) q.device ++ shareList f ps := rfl
    rw [hsplit, List.countP_append, List.countP_replicate]
    rcases List.mem_cons.mp hp with rfl | hp
    · rw [countP_shareList_of_notMem f hn.1]
      simp
    · have hne : q.device.id ≠ p.device.id := fun h =>
        hn.1 (h ▸ List.mem_map.mpr ⟨p, hp, rfl⟩)
      rw [ih hn.2 hp]
      simp [hne]

theorem choice_of_subperm (hn : (ids ps).Nodup) (hs : qs.Sublist ps) {devices : List Device}
    (h : devices.Subperm (shareList Participant.shares qs)) : Choice ps devices where
  mem device hd := by
    obtain ⟨p, hp, hpd⟩ := mem_shareList (h.subset hd)
    exact ⟨p, hs.subset hp, hpd⟩
  count p hp := by
    refine (h.countP_le _).trans ?_
    rw [← countP_shareList Participant.shares hn hp]
    exact List.Sublist.countP_le (hs.flatMap _)

/-- The protocol indices of a participant are the front of its block, in ascending order. -/
theorem identifierToIndices_eq {c : Communicator} (h : Blocks ps k c.activeShares)
    {p : Participant} (hp : p ∈ ps) : c.identifierToIndices p.device.id =
      List.range' (blockStart ps p.device.id + c.protocolType.indexOffset) (k p.device.id) := by
  have hnodup : ((c.activeShares.entries.filter (fun e => e.2.id = p.device.id)).map
      (fun e => e.1 + c.protocolType.indexOffset)).Nodup := by
    have hkeys : ((c.activeShares.entries.filter (fun e => e.2.id = p.device.id)).map
        Sigma.fst).Nodup := c.activeShares.keys_nodup.sublist (List.filter_sublist.map _)
    have := hkeys.map (add_left_injective c.protocolType.indexOffset)
    rwa [List.map_map] at this
  refine List.Perm.eq_of_pairwise (fun a b _ _ => le_antisymm)
    (List.pairwise_insertionSort (· ≤ ·) _) List.pairwise_le_range' ?_
  refine (List.perm_insertionSort _ _).trans ?_
  rw [List.perm_ext_iff_of_nodup hnodup List.nodup_range']
  intro i
  simp only [List.mem_map, List.mem_filter, decide_eq_true_eq, List.mem_range'_1]
  constructor
  · rintro ⟨⟨j, device⟩, ⟨he, hid⟩, rfl⟩
    obtain ⟨q, hq, rfl, hj⟩ := (h.lookup j device).mp (mem_entries_iff.mp he)
    simp only at hid
    rw [hid] at hj
    simp only
    omega
  · intro hi
    refine ⟨⟨i - c.protocolType.indexOffset, p.device⟩, ⟨?_, rfl⟩, by simp only; omega⟩
    exact mem_entries_iff.mpr ((h.lookup _ _).mpr ⟨p, hp, rfl, by omega, by omega⟩)

theorem identifierToIndices_of_notMem {c : Communicator} (h : Blocks ps k c.activeShares)
    {d : Bytes} (hd : d ∉ ids ps) : c.identifierToIndices d = [] := by
  have hnil : c.activeShares.entries.filter (fun e => e.2.id = d) = [] := by
    rw [List.filter_eq_nil_iff]
    rintro ⟨i, device⟩ he hid
    obtain ⟨q, hq, rfl, -⟩ := (h.lookup i device).mp (mem_entries_iff.mp he)
    exact hd (List.mem_map.mpr ⟨q, hq, of_decide_eq_true hid⟩)
  rw [Communicator.identifierToIndices, hnil]
  rfl

end ActiveShares

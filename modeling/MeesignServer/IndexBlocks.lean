import MeesignServer.FiniteMap

/-!
# Contiguous index blocks

Keys of a linear order receive consecutive blocks of indices in ascending order
of the keys. The block of a key starts at the sum of the sizes of the smaller
keys, so it depends on the sizes only and not on the order they are listed in.
-/
namespace IndexBlocks

open FiniteMap

section Keys

variable {K α : Type} [DecidableEq K]

def scanStarts : ℕ → List (K × ℕ) → List (K × ℕ)
  | _, [] => []
  | next, p :: l => (p.1, next) :: scanStarts (next + p.2) l

/-- Hand out the next index of its key to every element of a list, if its key has one. -/
def assign (key : α → K) : Map K ℕ → List α → Option (List (ℕ × α))
  | _, [] => some []
  | next, a :: l =>
    match next.lookup (key a) with
    | none => none
    | some i => (assign key (next.insert (key a) (i + 1)) l).map ((i, a) :: ·)

/-- Every key hands out its indices in order, however the elements of the keys are mixed. -/
theorem assign_spec (key : α → K) (next : Map K ℕ) (l : List α) (f : K → ℕ)
    (h : ∀ a ∈ l, next.lookup (key a) = some (f (key a))) :
    ∃ r, assign key next l = some r ∧ r.map Prod.snd = l ∧
      ∀ k, (r.filter (fun p => key p.2 = k)).map Prod.fst =
        List.range' (f k) (l.countP (fun a => key a = k)) := by
  induction l generalizing next f with
  | nil => exact ⟨[], rfl, rfl, fun k => rfl⟩
  | cons a l ih =>
    obtain ⟨r, hr, hsnd, hrange⟩ := ih (next.insert (key a) (f (key a) + 1))
      (Function.update f (key a) (f (key a) + 1)) (by
        intro b hb
        by_cases he : key b = key a
        · rw [he, AList.lookup_insert, Function.update_self]
        · rw [AList.lookup_insert_ne he, Function.update_of_ne he, h b (by simp [hb])])
    refine ⟨(f (key a), a) :: r, ?_, by simp [hsnd], ?_⟩
    · simp [assign, h a, hr]
    · intro k
      have hk := hrange k
      by_cases he : key a = k
      · subst he
        rw [Function.update_self] at hk
        simp [hk, List.range'_succ]
      · rw [Function.update_of_ne (Ne.symm he)] at hk
        simp [he, hk]

theorem nodup_of_blocks (key : α → K) {r : List (ℕ × α)}
    (hin : ∀ k, ((r.filter (fun p => key p.2 = k)).map Prod.fst).Nodup)
    (hout : ∀ p ∈ r, ∀ q ∈ r, key p.2 ≠ key q.2 → p.1 ≠ q.1) : (r.map Prod.fst).Nodup := by
  induction r with
  | nil => exact List.nodup_nil
  | cons p r ih =>
    rw [List.map_cons, List.nodup_cons]
    constructor
    · intro hp
      obtain ⟨q, hq, hqp⟩ := List.mem_map.mp hp
      by_cases he : key p.2 = key q.2
      · have hn := hin (key p.2)
        simp only [List.filter_cons, decide_true, ↓reduceIte, List.map_cons, List.nodup_cons] at hn
        exact hn.1 (List.mem_map.mpr ⟨q, List.mem_filter.mpr ⟨hq, by simp [he]⟩, hqp⟩)
      · exact hout p (by simp) q (by simp [hq]) he hqp.symm
    · refine ih (fun k => ?_) (fun p hp q hq => hout p (by simp [hp]) q (by simp [hq]))
      exact (hin k).sublist (((List.sublist_cons_self _ _).filter _).map _)

theorem length_eq_sum_countP (key : α → K) {ks : List K} (hn : ks.Nodup) {l : List α}
    (h : ∀ a ∈ l, key a ∈ ks) :
    l.length = (ks.map fun k => l.countP (fun a => key a = k)).sum := by
  have hcount : ∀ (k : K) (ks : List K),
      (ks.map fun k' => if k = k' then 1 else 0).sum = ks.count k := by
    intro k ks
    induction ks with
    | nil => rfl
    | cons k' ks ih =>
      rw [List.map_cons, List.sum_cons, ih, List.count_cons, add_comm]
      by_cases hk : k = k'
      · simp [hk]
      · simp [hk, Ne.symm hk]
  induction l with
  | nil => simp
  | cons a l ih =>
    simp only [List.length_cons, List.countP_cons, decide_eq_true_eq, List.sum_map_add, hcount,
      List.count_eq_one_of_mem hn (h a (by simp)), ← ih fun b hb => h b (by simp [hb])]

end Keys

section Order

variable {K : Type} [LinearOrder K]

def start (l : List (K × ℕ)) (k : K) : ℕ :=
  ((l.filter (fun p => p.1 < k)).map Prod.snd).sum

theorem start_cons (p : K × ℕ) (l : List (K × ℕ)) (k : K) :
    start (p :: l) k = (if p.1 < k then p.2 else 0) + start l k := by
  by_cases h : p.1 < k <;> simp [start, h]

theorem start_perm {l l' : List (K × ℕ)} (h : l.Perm l') (k : K) : start l k = start l' k :=
  ((h.filter _).map _).sum_eq

theorem start_mono (l : List (K × ℕ)) {k k' : K} (h : k ≤ k') : start l k ≤ start l k' := by
  induction l with
  | nil => exact le_rfl
  | cons p l ih =>
    rw [start_cons, start_cons]
    have : (if p.1 < k then p.2 else 0) ≤ if p.1 < k' then p.2 else 0 := by
      by_cases hp : p.1 < k
      · simp [hp, hp.trans_le h]
      · simp [hp]
    omega

theorem start_add_le {l : List (K × ℕ)} {k k' : K} {n : ℕ} (hm : (k, n) ∈ l) (hk : k < k') :
    start l k + n ≤ start l k' := by
  induction l with
  | nil => simp at hm
  | cons p l ih =>
    rw [start_cons, start_cons]
    rcases List.mem_cons.mp hm with rfl | hm
    · have := start_mono l hk.le
      simp only [lt_self_iff_false, ↓reduceIte, hk]
      omega
    · have := ih hm
      by_cases hp : p.1 < k
      · simp only [hp, hp.trans hk, ↓reduceIte]
        omega
      · simp only [hp, ↓reduceIte]
        omega

theorem start_add_le_total {l : List (K × ℕ)} {k : K} {n : ℕ} (hm : (k, n) ∈ l) :
    start l k + n ≤ (l.map Prod.snd).sum := by
  have hle : start (l.erase (k, n)) k ≤ ((l.erase (k, n)).map Prod.snd).sum :=
    List.Sublist.sum_le_sum (List.filter_sublist.map _) (fun _ _ => Nat.zero_le _)
  have hs := start_perm (List.perm_cons_erase hm) k
  have ht := ((List.perm_cons_erase hm).map Prod.snd).sum_eq
  rw [start_cons] at hs
  simp only [lt_self_iff_false, ↓reduceIte, List.map_cons, List.sum_cons] at hs ht
  omega

/-- On a list in ascending order of the keys the running sums are the block starts. -/
theorem mem_scanStarts {l : List (K × ℕ)} (hl : l.Pairwise (fun p q => p.1 < q.1)) (next : ℕ)
    (k : K) (i : ℕ) :
    (k, i) ∈ scanStarts next l ↔ k ∈ l.map Prod.fst ∧ i = next + start l k := by
  induction l generalizing next with
  | nil => simp [scanStarts]
  | cons p l ih =>
    rw [List.pairwise_cons] at hl
    have hfront : start l p.1 = 0 := by
      rw [start, List.filter_eq_nil_iff.mpr]
      · rfl
      · intro q hq
        simpa using (hl.1 q hq).le
    rw [scanStarts, List.mem_cons, ih hl.2, start_cons, List.map_cons, List.mem_cons]
    constructor
    · rintro (h | ⟨hk, rfl⟩)
      · obtain ⟨rfl, rfl⟩ := Prod.mk.inj h
        simp [hfront]
      · obtain ⟨q, hq, rfl⟩ := List.mem_map.mp hk
        simp only [hl.1 q hq, ↓reduceIte]
        exact ⟨Or.inr hk, by omega⟩
    · rintro ⟨rfl | hk, rfl⟩
      · simp [hfront]
      · obtain ⟨q, hq, rfl⟩ := List.mem_map.mp hk
        simp only [hl.1 q hq, ↓reduceIte]
        exact Or.inr ⟨hk, by omega⟩

omit [LinearOrder K] in
theorem scanStarts_keys (next : ℕ) (l : List (K × ℕ)) :
    (scanStarts next l).map Prod.fst = l.map Prod.fst := by
  induction l generalizing next with
  | nil => rfl
  | cons p l ih => simp [scanStarts, ih]

theorem lookup_scanStarts [DecidableEq K] {l : List (K × ℕ)}
    (hl : l.Pairwise (fun p q => p.1 < q.1)) {k : K}
    (hk : k ∈ l.map Prod.fst) : (collect (scanStarts 0 l)).lookup k = some (start l k) := by
  refine lookup_extend_of_mem ?_ ?_
  · rw [scanStarts_keys]
    exact (List.pairwise_map.mpr hl).imp (fun h => h.ne)
  · exact (mem_scanStarts hl 0 k _).mpr ⟨hk, by simp⟩

end Order

end IndexBlocks

import Mathlib

/-!
# Finite maps with insertion of pairs

`AList` stands for a hash map. Only `entries` sees an order, and the lemmas here
reduce what is computed from the entries to lookups.
-/
namespace FiniteMap

abbrev Map (K V : Type) := AList fun _ : K => V

variable {K V : Type} [DecidableEq K]

/-- Insert pairs one after the other: a later pair replaces an earlier one with its key. -/
def extend (m : Map K V) (l : List (K × V)) : Map K V :=
  l.foldl (fun m p => m.insert p.1 p.2) m

def collect (l : List (K × V)) : Map K V := extend ∅ l

def mapValues {W : Type} (f : V → W) (m : Map K V) : Map K W :=
  collect (m.entries.map fun e => (e.1, f e.2))

def values (m : Map K V) : List V := m.entries.map Sigma.snd

def len (m : Map K V) : ℕ := m.entries.length

def counts (l : List K) : Map K ℕ :=
  l.foldl (fun m k => m.insert k ((m.lookup k).getD 0 + 1)) ∅

@[simp] theorem extend_nil (m : Map K V) : extend m [] = m := rfl

@[simp] theorem extend_cons (m : Map K V) (p : K × V) (l : List (K × V)) :
    extend m (p :: l) = extend (m.insert p.1 p.2) l := rfl

theorem mem_extend {m : Map K V} {l : List (K × V)} {k : K} :
    k ∈ extend m l ↔ k ∈ m ∨ k ∈ l.map Prod.fst := by
  induction l generalizing m with
  | nil => simp
  | cons p l ih =>
    rw [extend_cons, ih, AList.mem_insert]
    simp only [List.map_cons, List.mem_cons]
    tauto

theorem lookup_extend_of_notMem {m : Map K V} {l : List (K × V)} {k : K}
    (h : k ∉ l.map Prod.fst) : (extend m l).lookup k = m.lookup k := by
  induction l generalizing m with
  | nil => rfl
  | cons p l ih =>
    simp only [List.map_cons, List.mem_cons, not_or] at h
    rw [extend_cons, ih h.2, AList.lookup_insert_ne h.1]

theorem lookup_extend_of_mem {m : Map K V} {l : List (K × V)} {k : K} {v : V}
    (hn : (l.map Prod.fst).Nodup) (h : (k, v) ∈ l) : (extend m l).lookup k = some v := by
  induction l generalizing m with
  | nil => simp at h
  | cons p l ih =>
    rw [List.map_cons, List.nodup_cons] at hn
    rcases List.mem_cons.mp h with rfl | h
    · rw [extend_cons, lookup_extend_of_notMem hn.1, AList.lookup_insert]
    · exact ih hn.2 h

theorem mem_or_lookup_of_extend {m : Map K V} {l : List (K × V)} {k : K} {v : V}
    (h : (extend m l).lookup k = some v) : (k, v) ∈ l ∨ m.lookup k = some v := by
  induction l generalizing m with
  | nil => exact .inr h
  | cons p l ih =>
    rw [extend_cons] at h
    rcases ih h with hmem | hlookup
    · exact .inl (List.mem_cons_of_mem _ hmem)
    · by_cases hk : k = p.1
      · subst hk
        rw [AList.lookup_insert] at hlookup
        cases hlookup
        exact .inl List.mem_cons_self
      · rw [AList.lookup_insert_ne hk] at hlookup
        exact .inr hlookup

/-- Inserting fresh distinct keys appends their pairs, up to order. -/
theorem extend_entries_perm {m : Map K V} {l : List (K × V)} (hn : (l.map Prod.fst).Nodup)
    (hm : ∀ k ∈ l.map Prod.fst, k ∉ m) :
    (extend m l).entries.Perm (l.map (fun p => ⟨p.1, p.2⟩) ++ m.entries) := by
  induction l generalizing m with
  | nil => simp
  | cons p l ih =>
    rw [List.map_cons, List.nodup_cons] at hn
    have hp : p.1 ∉ m := hm p.1 (by simp)
    have hrest : ∀ k ∈ l.map Prod.fst, k ∉ m.insert p.1 p.2 := by
      intro k hk
      rw [AList.mem_insert, not_or]
      exact ⟨fun h => hn.1 (h ▸ hk), hm k (by simp [hk])⟩
    rw [extend_cons]
    refine (ih hn.2 hrest).trans ?_
    rw [AList.entries_insert_of_notMem hp]
    exact List.perm_middle

theorem collect_entries_perm {l : List (K × V)} (hn : (l.map Prod.fst).Nodup) :
    (collect l).entries.Perm (l.map (fun p => ⟨p.1, p.2⟩)) := by
  simpa [collect] using extend_entries_perm (m := (∅ : Map K V)) hn (by simp)

theorem len_collect {l : List (K × V)} (hn : (l.map Prod.fst).Nodup) :
    len (collect l) = l.length := by
  simpa [len] using (collect_entries_perm hn).length_eq

theorem mem_entries_iff {m : Map K V} {k : K} {v : V} :
    (⟨k, v⟩ : Sigma fun _ : K => V) ∈ m.entries ↔ m.lookup k = some v :=
  AList.mem_lookup_iff.symm

theorem mem_of_lookup {m : Map K V} {k : K} {v : V} (h : m.lookup k = some v) : k ∈ m :=
  AList.lookup_isSome.mp (by simp [h])

omit [DecidableEq K] in
theorem exists_mem {m : Map K V} (h : m ≠ ∅) : ∃ k, k ∈ m := by
  by_contra hnone
  push Not at hnone
  refine h (AList.ext (List.eq_nil_iff_forall_not_mem.mpr fun x hx => hnone x.1 ?_))
  exact AList.mem_keys.mpr (List.mem_map_of_mem hx)

omit [DecidableEq K] in
theorem keys_nodup_map {W : Type} (f : V → W) (m : Map K V) :
    ((m.entries.map fun e => (e.1, f e.2)).map Prod.fst).Nodup := by
  rw [List.map_map]
  exact m.keys_nodup

@[simp] theorem lookup_mapValues {W : Type} (f : V → W) (m : Map K V) (k : K) :
    (mapValues f m).lookup k = (m.lookup k).map f := by
  cases h : m.lookup k with
  | none =>
    have hk : k ∉ (m.entries.map fun e => (e.1, f e.2)).map Prod.fst := by
      simp only [List.map_map, Function.comp_def, List.mem_map, not_exists, not_and]
      intro e he hek
      have := mem_entries_iff.mp (show (⟨k, e.2⟩ : Sigma fun _ : K => V) ∈ m.entries by
        subst hek; exact he)
      rw [h] at this
      cases this
    rw [mapValues, collect, lookup_extend_of_notMem hk]
    rfl
  | some v =>
    refine lookup_extend_of_mem (keys_nodup_map f m) ?_
    exact List.mem_map.mpr ⟨⟨k, v⟩, mem_entries_iff.mpr h, rfl⟩

theorem lookup_counts (l : List K) (k : K) :
    (counts l).lookup k = if k ∈ l then some (l.countP (· = k)) else none := by
  have hfold : ∀ (l : List K) (m : Map K ℕ),
      (l.foldl (fun m k => m.insert k ((m.lookup k).getD 0 + 1)) m).lookup k =
        if k ∈ l then some ((m.lookup k).getD 0 + l.countP (· = k)) else m.lookup k := by
    intro l
    induction l with
    | nil => simp
    | cons a l ih =>
      intro m
      rw [List.foldl_cons, ih]
      by_cases ha : k = a
      · subst ha
        by_cases hl : k ∈ l
        · simp only [hl, List.mem_cons, or_true, ↓reduceIte, AList.lookup_insert, Option.getD_some,
            List.countP_cons, decide_true]
          congr 1
          omega
        · have : l.countP (· = k) = 0 := by
            rw [List.countP_eq_zero]
            intro b hb
            simp only [decide_eq_true_eq]
            rintro rfl
            exact hl hb
          simp [hl, this]
      · simp [ha, AList.lookup_insert_ne ha, Ne.symm ha]
  rw [counts, hfold]
  simp

/-- A sum over the entries is a sum of lookups over any list of keys that covers the map. -/
theorem sum_entries_eq {M : Type} [AddCommMonoid M] (m : Map K V) (f : K → V → M)
    {ks : List K} (hn : ks.Nodup) (hm : ∀ k ∈ m, k ∈ ks) :
    (m.entries.map (fun e => f e.1 e.2)).sum =
      (ks.map (fun k => (m.lookup k).elim 0 (f k))).sum := by
  induction m using AList.insertRec generalizing ks with
  | H0 => simp
  | IH k v m hk ih =>
    have hmem : k ∈ ks := hm k (by simp)
    have hcover : ∀ k' ∈ m, k' ∈ ks.erase k := by
      intro k' hk'
      have hne : k' ≠ k := fun h => hk (h ▸ hk')
      exact (List.mem_erase_of_ne hne).mpr (hm k' (by simp [hk']))
    rw [AList.entries_insert_of_notMem hk, List.map_cons, List.sum_cons, ih (hn.erase k) hcover,
      ((List.perm_cons_erase hmem).map _).sum_eq, List.map_cons, List.sum_cons]
    congr 1
    · simp
    · refine congrArg List.sum (List.map_congr_left fun k' hk' => ?_)
      have hne : k' ≠ k := fun h => hn.not_mem_erase (h ▸ hk')
      rw [AList.lookup_insert_ne hne]

end FiniteMap

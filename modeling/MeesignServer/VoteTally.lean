import MeesignServer.ActiveShares

/-!
# Votes and their tally

A vote never weighs more than the shares of its device, and it weighs exactly
that much in favour only if the device accepted with at most 127 shares. The
tally of a map of votes is a sum over the participants.
-/
namespace VoteTally

open FiniteMap DataModel VotingModel DatabaseModel ActiveShares

theorem voteOf_natAbs_le (n : ℕ) (accept : Bool) : (voteOf n accept).natAbs ≤ n := by
  cases accept <;> simp only [voteOf, asI8, Int.bmod_def, ↓reduceIte, Bool.false_eq_true] <;> omega

theorem voteOf_eq_shares {n : ℕ} (hn : 0 < n) {accept : Bool} (h : voteOf n accept = n) :
    accept = true ∧ n ≤ 127 := by
  cases accept <;> simp only [voteOf, asI8, Int.bmod_def, ↓reduceIte, Bool.false_eq_true] at h
  · omega
  · exact ⟨rfl, by omega⟩

theorem voteOf_true {n : ℕ} (h : n ≤ 127) : voteOf n true = n := by
  simp only [voteOf, asI8, Int.bmod_def, ↓reduceIte]
  omega

theorem voteOf_false {n : ℕ} (h : n ≤ 127) : voteOf n false = -n := by
  simp only [voteOf, asI8, Int.bmod_def, Bool.false_eq_true, ↓reduceIte]
  omega

/-- Truncating before or after the negation gives the same vote. -/
theorem row_vote_eq (row : TaskParticipantRow) :
    row.vote = (row.decision.map (voteOf row.shares)).getD 0 := by
  unfold TaskParticipantRow.vote
  cases row.decision with
  | none => rfl
  | some accept =>
    cases accept with
    | true => rfl
    | false =>
      simp only [voteOf, asI8, Int.bmod_def, ↓reduceIte, Bool.false_eq_true, Option.map_some,
        Option.getD_some]
      omega

def voteIn (m : Map Bytes ℤ) (d : Bytes) : ℤ := (m.lookup d).getD 0

/-- Every entry is the vote of a participant, or none yet. -/
def Ballots (ps : List Participant) (m : Map Bytes ℤ) : Prop :=
  ∀ d x, m.lookup d = some x → ∃ p ∈ ps, p.device.id = d ∧ (x = 0 ∨ ∃ a, x = voteOf p.shares a)

def accepts (ps : List Participant) (m : Map Bytes ℤ) : ℕ :=
  (ps.map fun p => (voteIn m p.device.id).toNat).sum

def rejects (ps : List Participant) (m : Map Bytes ℤ) : ℕ :=
  (ps.map fun p => (-voteIn m p.device.id).toNat).sum

variable {ps : List Participant} {m m' : Map Bytes ℤ}

theorem foldl_tally (l : List ℤ) (t : ℕ × ℕ) :
    l.foldl (fun (t : ℕ × ℕ) (vote : ℤ) =>
      (if 0 < vote then t.1 + vote.natAbs else t.1,
        if vote < 0 then t.2 + vote.natAbs else t.2)) t =
      (t.1 + (l.map Int.toNat).sum, t.2 + (l.map fun v => (-v).toNat).sum) := by
  induction l generalizing t with
  | nil => rfl
  | cons v l ih =>
    rw [List.foldl_cons, ih, List.map_cons, List.map_cons, List.sum_cons, List.sum_cons]
    refine Prod.ext ?_ ?_
    · show (if 0 < v then t.1 + v.natAbs else t.1) + _ = _
      split_ifs <;> omega
    · show (if v < 0 then t.2 + v.natAbs else t.2) + _ = _
      split_ifs <;> omega

/-- The tally counts every participant once, whatever the order of the map. -/
theorem acceptsRejects_eq (hn : (ids ps).Nodup) (hm : ∀ d ∈ m, d ∈ ids ps) :
    acceptsRejects m = (accepts ps m, rejects ps m) := by
  have hsum : ∀ f : ℤ → ℕ, f 0 = 0 →
      ((values m).map f).sum = (ps.map fun p => f (voteIn m p.device.id)).sum := by
    intro f hf
    have := sum_entries_eq m (fun _ v => f v) hn hm
    rw [values, List.map_map, Function.comp_def, this, ids, List.map_map]
    refine congrArg List.sum (List.map_congr_left fun p _ => ?_)
    simp only [Function.comp_apply, voteIn]
    cases m.lookup p.device.id <;> simp [hf]
  rw [acceptsRejects, foldl_tally, hsum _ rfl, hsum _ rfl, zero_add, zero_add]
  rfl

theorem Ballots.mem (h : Ballots ps m) {d : Bytes} (hd : d ∈ m) : d ∈ ids ps := by
  obtain ⟨x, hx⟩ := Option.isSome_iff_exists.mp (AList.lookup_isSome.mpr hd)
  obtain ⟨p, hp, hpd, -⟩ := h d x hx
  exact List.mem_map.mpr ⟨p, hp, hpd⟩

theorem Ballots.perm {qs : List Participant} (h : Ballots ps m) (hp : ps.Perm qs) :
    Ballots qs m := by
  intro d x hx
  obtain ⟨p, hpm, hr⟩ := h d x hx
  exact ⟨p, hp.mem_iff.mp hpm, hr⟩

theorem Ballots.vote (h : Ballots ps m) (hn : (ids ps).Nodup) {p : Participant} (hp : p ∈ ps) :
    voteIn m p.device.id = 0 ∨ ∃ a, voteIn m p.device.id = voteOf p.shares a := by
  unfold voteIn
  cases hx : m.lookup p.device.id with
  | none => exact .inl rfl
  | some x =>
    obtain ⟨q, hq, hid, hv⟩ := h _ x hx
    rw [eq_of_id_eq hn hp hq hid.symm]
    exact hv

theorem Ballots.natAbs_le (h : Ballots ps m) (hn : (ids ps).Nodup) {p : Participant}
    (hp : p ∈ ps) : (voteIn m p.device.id).natAbs ≤ p.shares := by
  rcases h.vote hn hp with hv | ⟨a, hv⟩
  · simp [hv]
  · rw [hv]
    exact voteOf_natAbs_le _ _

theorem Ballots.insert (h : Ballots ps m) {p : Participant} (hp : p ∈ ps) (a : Bool) :
    Ballots ps (m.insert p.device.id (voteOf p.shares a)) := by
  intro d x hx
  by_cases hd : d = p.device.id
  · subst hd
    rw [AList.lookup_insert] at hx
    exact ⟨p, hp, rfl, .inr ⟨a, (Option.some.inj hx).symm⟩⟩
  · rw [AList.lookup_insert_ne hd] at hx
    exact h d x hx

theorem ballots_empty (ps : List Participant) : Ballots ps ∅ := by
  intro d x hx
  simp at hx

theorem accepts_le (h : Ballots ps m) (hn : (ids ps).Nodup) :
    accepts ps m ≤ totalShares (ps.filter fun p => 0 < voteIn m p.device.id) := by
  have hle : ∀ qs : List Participant, qs ⊆ ps →
      accepts qs m ≤ totalShares (qs.filter fun p => 0 < voteIn m p.device.id) := by
    intro qs
    induction qs with
    | nil => simp [accepts, totalShares]
    | cons q qs ih =>
      intro hsub
      rw [List.cons_subset] at hsub
      have hq := h.natAbs_le hn hsub.1
      have := ih hsub.2
      simp only [accepts, totalShares, List.map_cons, List.sum_cons, List.filter_cons] at this ⊢
      split_ifs with hv
      · simp only [List.map_cons, List.sum_cons]
        omega
      · simp only [decide_eq_true_eq] at hv
        omega
  exact hle ps (List.Subset.refl ps)

theorem accepts_add_rejects_le (h : Ballots ps m) (hn : (ids ps).Nodup) :
    accepts ps m + rejects ps m ≤ totalShares ps := by
  rw [accepts, rejects, totalShares, ← List.sum_map_add]
  refine List.sum_le_sum fun p hp => ?_
  have := h.natAbs_le hn hp
  omega

theorem unanimous (h : Ballots ps m) (hn : (ids ps).Nodup) (ha : totalShares ps ≤ accepts ps m)
    {p : Participant} (hp : p ∈ ps) : (voteIn m p.device.id) = p.shares := by
  have hle : ∀ q ∈ ps, (voteIn m q.device.id).toNat ≤ q.shares := by
    intro q hq
    have := h.natAbs_le hn hq
    omega
  have hv : (voteIn m p.device.id).toNat = p.shares := by
    by_contra hne
    have hlt := List.sum_lt_sum (fun q : Participant => (voteIn m q.device.id).toNat)
      Participant.shares hle ⟨p, hp, lt_of_le_of_ne (hle p hp) hne⟩
    unfold totalShares accepts at ha
    omega
  have := h.natAbs_le hn hp
  rcases h.vote hn hp with h0 | ⟨a, h0⟩ <;> omega

/-- So it is unanimous indeed, and nobody's vote was truncated. -/
theorem unanimous_accept (h : Ballots ps m) (hn : (ids ps).Nodup)
    (ha : totalShares ps ≤ accepts ps m) {p : Participant} (hp : p ∈ ps) (hpos : 0 < p.shares) :
    p.shares ≤ 127 ∧ voteIn m p.device.id = voteOf p.shares true := by
  have hv := unanimous h hn ha hp
  rcases h.vote hn hp with h0 | ⟨a, h0⟩
  · omega
  · obtain ⟨rfl, hle⟩ := voteOf_eq_shares hpos (h0.symm.trans hv)
    exact ⟨hle, h0⟩

end VoteTally

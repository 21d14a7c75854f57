import Mathlib

/-!
# A lazily filled cache of one locked object

Processes work on an object that lives in a store. A process that does not find the
object in the cache reads it from the store, in several queries, and puts its copy into
the cache if the slot is still vacant. It then takes the object of the slot, waits for
its lock, works on it in pieces and unlocks it. Processes that only read wait until
nobody writes. One more process may create the object: it commits it to the store and
then puts it into the cache, whether or not the slot is vacant.
-/
namespace LazyCache

variable {D E R : Type}

/-- The work of a process under the lock: what it does as a whole, and the pieces in which
the others see it done. -/
structure Job (D E R : Type) where
  run : E × D → R × (E × D)
  pieces : E × D → List (E × D → E × D)
  composes : ∀ x, (pieces x).foldl (fun y f => f y) x = (run x).2
  isRead : Bool
  read_only : isRead → ∀ x, (run x).2 = x

structure Setting (D E R : Type) where
  /-- how many queries read the object -/
  reads : ℕ
  /-- the object out of the stores that the queries have seen -/
  hydrate : List D → Option E
  commit : D → Option D
  fresh : E
  job : ℕ → Job D E R

inductive Phase (D E R : Type) where
  | start
  | reading (seen : List D)
  | cached
  | waiting (i : ℕ)
  | locked (i : ℕ) (rest : List (E × D → E × D)) (result : R)
  | done (i : ℕ) (result : R)
  | failed

def Phase.refersTo : Phase D E R → Option ℕ
  | .waiting i => some i
  | .locked i _ _ => some i
  | _ => none

def Phase.isDone : Phase D E R → Bool
  | .done _ _ => true
  | _ => false

inductive Creation where
  | pending
  | committed
  | placed
  | panicked
  deriving DecidableEq

structure Machine (D E R : Type) where
  store : D
  instances : ℕ → E
  made : ℕ
  slot : Option ℕ
  refs : ℕ → Finset ℕ
  writer : ℕ → Option ℕ
  phase : ℕ → Phase D E R
  creation : Creation

inductive Event where
  | lookup (p : ℕ)
  | read (p : ℕ)
  | fail (p : ℕ)
  | insert (p : ℕ)
  | fetch (p : ℕ)
  | lock (p : ℕ)
  | piece (p : ℕ)
  | unlock (p : ℕ)
  | peek (p : ℕ)
  | commit
  | place
  deriving DecidableEq

namespace Machine

def setPhase (m : Machine D E R) (p : ℕ) (ph : Phase D E R) : Machine D E R :=
  { m with phase := Function.update m.phase p ph }

def cache (m : Machine D E R) (e : E) : Machine D E R :=
  { m with
    instances := Function.update m.instances m.made e
    made := m.made + 1
    slot := some m.made }

@[simp] theorem setPhase_self (m : Machine D E R) (p : ℕ) (ph : Phase D E R) :
    (m.setPhase p ph).phase p = ph := Function.update_self ..

theorem setPhase_of_ne {m : Machine D E R} {p q : ℕ} {ph : Phase D E R} (h : q ≠ p) :
    (m.setPhase p ph).phase q = m.phase q := Function.update_of_ne h ..

def insert (c : Setting D E R) (m : Machine D E R) (p : ℕ) (seen : List D) : Machine D E R :=
  match c.hydrate seen with
  | none => m.setPhase p .failed
  | some e =>
    match m.slot with
    | some _ => m.setPhase p .cached
    | none => (m.cache e).setPhase p .cached

def fetch (m : Machine D E R) (p : ℕ) : Machine D E R :=
  match m.slot with
  | none => m.setPhase p .failed
  | some i =>
    { m.setPhase p (.waiting i) with refs := Function.update m.refs i (Insert.insert p (m.refs i)) }

def lock (c : Setting D E R) (m : Machine D E R) (p i : ℕ) : Machine D E R :=
  let x := (m.instances i, m.store)
  { m.setPhase p (.locked i ((c.job p).pieces x) ((c.job p).run x).1) with
    writer := Function.update m.writer i (some p) }

def piece (m : Machine D E R) (p i : ℕ) (f : E × D → E × D) (rest : List (E × D → E × D))
    (r : R) : Machine D E R :=
  let x := f (m.instances i, m.store)
  { m.setPhase p (.locked i rest r) with
    instances := Function.update m.instances i x.1
    store := x.2 }

def release (m : Machine D E R) (p i : ℕ) (r : R) : Machine D E R :=
  { m.setPhase p (.done i r) with refs := Function.update m.refs i ((m.refs i).erase p) }

/-- The creator replaces what is in the slot. Nobody may refer to the replaced instance. -/
def place (c : Setting D E R) (m : Machine D E R) : Machine D E R :=
  { m.cache c.fresh with
    creation := match m.slot with
      | none => .placed
      | some i => if m.refs i = ∅ then .placed else .panicked }

/-- An event whose process is elsewhere changes nothing. -/
def step (c : Setting D E R) (m : Machine D E R) : Event → Machine D E R
  | .lookup p =>
    match m.phase p with
    | .start => m.setPhase p (if m.slot.isSome then .cached else .reading [])
    | _ => m
  | .read p =>
    match m.phase p with
    | .reading seen =>
      if seen.length < c.reads then m.setPhase p (.reading (seen ++ [m.store])) else m
    | _ => m
  | .fail p =>
    match m.phase p with
    | .reading _ | .cached => m.setPhase p .failed
    | _ => m
  | .insert p =>
    match m.phase p with
    | .reading seen => if seen.length = c.reads then m.insert c p seen else m
    | _ => m
  | .fetch p =>
    match m.phase p with
    | .cached => m.fetch p
    | _ => m
  | .lock p =>
    match m.phase p with
    | .waiting i => if m.writer i = none ∧ (c.job p).isRead = false then m.lock c p i else m
    | _ => m
  | .piece p =>
    match m.phase p with
    | .locked i (f :: rest) r => m.piece p i f rest r
    | _ => m
  | .unlock p =>
    match m.phase p with
    | .locked i [] r => { m.release p i r with writer := Function.update m.writer i none }
    | _ => m
  | .peek p =>
    match m.phase p with
    | .waiting i =>
      if m.writer i = none ∧ (c.job p).isRead = true then
        m.release p i ((c.job p).run (m.instances i, m.store)).1
      else m
    | _ => m
  | .commit =>
    match m.creation, c.commit m.store with
    | .pending, some d => { m with store := d, creation := .committed }
    | _, _ => m
  | .place =>
    match m.creation with
    | .committed => m.place c
    | _ => m

def run (c : Setting D E R) (m : Machine D E R) (evs : List Event) : Machine D E R :=
  evs.foldl (step c) m

end Machine

def start (d : D) (e : E) (creation : Creation) : Machine D E R where
  store := d
  instances := fun _ => e
  made := 0
  slot := none
  refs := fun _ => ∅
  writer := fun _ => none
  phase := fun _ => .start
  creation := creation

/-- The jobs one after the other, with their results. -/
inductive Serial (c : Setting D E R) (x : E × D) : List (ℕ × R) → E × D → Prop where
  | nil : Serial c x [] x
  | snoc {log : List (ℕ × R)} {y z : E × D} {p : ℕ} {r : R} (h : Serial c x log y)
      (run : (c.job p).run y = (r, z)) : Serial c x (log ++ [(p, r)]) z

theorem Serial.split {c : Setting D E R} {x z : E × D} {p : ℕ} {r : R}
    {before after : List (ℕ × R)} (h : Serial c x (before ++ (p, r) :: after) z) :
    ∃ y y', Serial c x before y ∧ (c.job p).run y = (r, y') ∧ Serial c y' after z := by
  induction after using List.reverseRecOn generalizing z with
  | nil =>
    generalize hlog : before ++ [(p, r)] = log at h
    cases h with
    | nil => simp at hlog
    | @snoc log y z q r' h run =>
      obtain ⟨rfl, hlast⟩ := List.append_inj' hlog rfl
      cases hlast
      exact ⟨y, z, h, run, .nil⟩
  | append_singleton after last ih =>
    generalize hlog : before ++ (p, r) :: (after ++ [last]) = log at h
    cases h with
    | nil => simp at hlog
    | @snoc log y z q r' h run =>
      rw [← List.cons_append, ← List.append_assoc] at hlog
      obtain ⟨rfl, hlast⟩ := List.append_inj' hlog rfl
      cases hlast
      obtain ⟨y₁, y₂, hbefore, hrun, hafter⟩ := ih h
      exact ⟨y₁, y₂, hbefore, hrun, .snoc hafter run⟩

/-- Nobody has put the object into the cache. What a process has read is the store, or it will
not make an object of it. -/
structure Detached (c : Setting D E R) (d : D) (m : Machine D E R) : Prop where
  slot : m.slot = none
  store : m.store = d
  refs : ∀ i, m.refs i = ∅
  writer : ∀ i, m.writer i = none
  idle : ∀ p, m.phase p = .start ∨ m.phase p = .failed ∨ ∃ seen, m.phase p = .reading seen ∧
    (seen = List.replicate seen.length d ∨ ∀ rest, c.hydrate (seen ++ rest) = none)

/-- The object is instance `i`. The processes in the log have worked on it one after the
other from `x`, and at most one is at work. Those in `old` were done with an earlier instance. -/
structure Attached (c : Setting D E R) (x : E × D) (old : Set (ℕ × R)) (log : List (ℕ × R))
    (i : ℕ) (m : Machine D E R) : Prop where
  slot : m.slot = some i
  made : i < m.made
  refs : ∀ p j, p ∈ m.refs j ↔ (m.phase p).refersTo = some j
  here : ∀ p j, (m.phase p).refersTo = some j → j = i
  writer : ∀ p j, m.writer j = some p ↔ ∃ rest r, m.phase p = .locked j rest r
  done : ∀ p j r, m.phase p = .done j r → (p, r) ∈ old ∨ (j = i ∧ (p, r) ∈ log)
  logged : ∀ p r, (p, r) ∈ log → m.phase p = .done i r
  nodup : (log.map Prod.fst).Nodup
  state : ∃ y, Serial c x log y ∧ (m.writer i = none ∧ (m.instances i, m.store) = y ∨
    ∃ p rest r, m.phase p = .locked i rest r ∧
      (c.job p).run y = (r, rest.foldl (fun z f => f z) (m.instances i, m.store)))

section Steps

variable {c : Setting D E R} {m : Machine D E R} {d : D} {x : E × D} {old : Set (ℕ × R)}
  {log : List (ℕ × R)} {i p : ℕ} {ph : Phase D E R}

theorem Detached.setPhase (h : Detached c d m)
    (hph : ph = .start ∨ ph = .failed ∨ ∃ seen, ph = .reading seen ∧
      (seen = List.replicate seen.length d ∨ ∀ rest, c.hydrate (seen ++ rest) = none)) :
    Detached c d (m.setPhase p ph) := by
  refine ⟨h.slot, h.store, h.refs, h.writer, fun q => ?_⟩
  by_cases hq : q = p
  · subst hq
    rw [Machine.setPhase_self]
    exact hph
  · rw [Machine.setPhase_of_ne hq]
    exact h.idle q

theorem detached_start (c : Setting D E R) (d : D) (e : E) (creation : Creation) :
    Detached c d (start d e creation) :=
  ⟨rfl, rfl, fun _ => rfl, fun _ => rfl, fun _ => .inl rfl⟩

/-- The first copy that is cached is made of the store as it is. -/
theorem Detached.cached {e : E} {seen : List D} (h : Detached c d m)
    (hp : m.phase p = .reading seen) (hlen : seen.length = c.reads) (he : c.hydrate seen = some e) :
    c.hydrate (List.replicate c.reads d) = some e ∧
      Attached c (e, d) ∅ [] m.made ((m.cache e).setPhase p .cached) := by
  have hseen : seen = List.replicate c.reads d := by
    rcases h.idle p with hs | hf | ⟨seen', hr, hcopy | hdoomed⟩
    · rw [hp] at hs
      cases hs
    · rw [hp] at hf
      cases hf
    · rw [hp] at hr
      cases hr
      rw [← hlen]
      exact hcopy
    · rw [hp] at hr
      cases hr
      have hnone := hdoomed []
      rw [List.append_nil, he] at hnone
      cases hnone
  have hnot : ∀ q j, (((m.cache e).setPhase p .cached).phase q).refersTo ≠ some j ∧
      ∀ r, ((m.cache e).setPhase p .cached).phase q ≠ .done j r := by
    intro q j
    by_cases hq : q = p
    · subst hq
      rw [Machine.setPhase_self]
      exact ⟨nofun, nofun⟩
    · rw [Machine.setPhase_of_ne hq, show (m.cache e).phase q = m.phase q from rfl]
      rcases h.idle q with hs | hf | ⟨_, hr, -⟩
      · rw [hs]
        exact ⟨nofun, nofun⟩
      · rw [hf]
        exact ⟨nofun, nofun⟩
      · rw [hr]
        exact ⟨nofun, nofun⟩
  refine ⟨hseen ▸ he, rfl, Nat.lt_succ_self _, fun q j => ?_, fun q j hq => ?_, fun q j => ?_,
    fun q j r hq => ?_, fun q r hq => ?_, List.nodup_nil, (e, d), .nil, ?_⟩
  · rw [show ((m.cache e).setPhase p .cached).refs j = ∅ from h.refs j]
    exact ⟨fun hq => absurd hq (Finset.notMem_empty _), fun hq => absurd hq (hnot q j).1⟩
  · exact absurd hq (hnot q j).1
  · rw [show ((m.cache e).setPhase p .cached).writer j = none from h.writer j]
    refine ⟨nofun, ?_⟩
    rintro ⟨rest, r, hq⟩
    have href := (hnot q j).1
    rw [hq] at href
    exact absurd rfl href
  · exact absurd hq ((hnot q j).2 r)
  · cases hq
  · refine .inl ⟨h.writer _, ?_⟩
    change (Function.update m.instances m.made e m.made, m.store) = (e, d)
    rw [Function.update_self, h.store]

theorem Detached.not_refers (h : Detached c d m) (p : ℕ) :
    m.phase p ≠ .cached ∧ (m.phase p).refersTo = none ∧ (m.phase p).isDone = false := by
  rcases h.idle p with hs | hf | ⟨_, hr, -⟩
  · rw [hs]
    exact ⟨nofun, rfl, rfl⟩
  · rw [hf]
    exact ⟨nofun, rfl, rfl⟩
  · rw [hr]
    exact ⟨nofun, rfl, rfl⟩

theorem Detached.step (h : Detached c d m) {ev : Event}
    (hcommit : ev = .commit → m.creation ≠ .pending)
    (hplace : ev = .place → m.creation ≠ .committed) :
    Detached c d (m.step c ev) ∨ ∃ e i, c.hydrate (List.replicate c.reads d) = some e ∧
      Attached c (e, d) ∅ [] i (m.step c ev) := by
  cases ev with
  | lookup p =>
    left
    cases hp : m.phase p with
    | start =>
      simp only [Machine.step, hp, h.slot, Option.isSome_none, Bool.false_eq_true, ↓reduceIte]
      exact h.setPhase (.inr (.inr ⟨[], rfl, .inl rfl⟩))
    | _ =>
      simp only [Machine.step, hp]
      exact h
  | read p =>
    left
    cases hp : m.phase p with
    | reading seen =>
      simp only [Machine.step, hp]
      split_ifs
      · refine h.setPhase (.inr (.inr ⟨_, rfl, ?_⟩))
        rcases h.idle p with hs | hf | ⟨seen', hr, hcopy | hdoomed⟩
        · rw [hp] at hs
          cases hs
        · rw [hp] at hf
          cases hf
        · rw [hp] at hr
          cases hr
          left
          rw [List.length_append, List.length_singleton, List.replicate_succ', h.store, ← hcopy]
        · rw [hp] at hr
          cases hr
          right
          intro rest
          rw [List.append_assoc]
          exact hdoomed _
      · exact h
    | _ =>
      simp only [Machine.step, hp]
      exact h
  | fail p =>
    left
    cases hp : m.phase p with
    | reading seen =>
      simp only [Machine.step, hp]
      exact h.setPhase (.inr (.inl rfl))
    | cached => exact absurd hp (h.not_refers p).1
    | _ =>
      simp only [Machine.step, hp]
      exact h
  | insert p =>
    cases hp : m.phase p with
    | reading seen =>
      simp only [Machine.step, hp, Machine.insert]
      split_ifs with hlen
      · cases he : c.hydrate seen with
        | none => exact .inl (h.setPhase (.inr (.inl rfl)))
        | some e =>
          rw [h.slot]
          obtain ⟨hstore, hattached⟩ := h.cached hp hlen he
          exact .inr ⟨e, _, hstore, hattached⟩
      · exact .inl h
    | _ =>
      simp only [Machine.step, hp]
      exact .inl h
  | fetch p =>
    left
    cases hp : m.phase p with
    | cached => exact absurd hp (h.not_refers p).1
    | _ =>
      simp only [Machine.step, hp]
      exact h
  | lock p | peek p =>
    left
    have hnone := (h.not_refers p).2.1
    cases hp : m.phase p with
    | waiting i =>
      rw [hp] at hnone
      cases hnone
    | _ =>
      simp only [Machine.step, hp]
      exact h
  | piece p | unlock p =>
    left
    have hnone := (h.not_refers p).2.1
    cases hp : m.phase p with
    | locked i rest r =>
      rw [hp] at hnone
      cases hnone
    | _ =>
      simp only [Machine.step, hp]
      exact h
  | commit =>
    left
    simp only [Machine.step]
    split
    · rename_i hpending _
      exact absurd hpending (hcommit rfl)
    · exact h
  | place =>
    left
    simp only [Machine.step]
    split
    · rename_i hcommitted
      exact absurd hcommitted (hplace rfl)
    · exact h

theorem Attached.move {m' : Machine D E R} {log' : List (ℕ × R)} (h : Attached c x old log i m)
    (hslot : m'.slot = m.slot) (hmade : m'.made = m.made)
    (hphase : m'.phase = Function.update m.phase p ph) (hbusy : (m.phase p).isDone = false)
    (hrefs : ∀ q j, q ∈ m'.refs j ↔ if q = p then ph.refersTo = some j else q ∈ m.refs j)
    (hhere : ∀ j, ph.refersTo = some j → j = i)
    (hwriter : ∀ q j, m'.writer j = some q ↔
      if q = p then ∃ rest r, ph = .locked j rest r else m.writer j = some q)
    (hlog : (log' = log ∧ ph.isDone = false) ∨ ∃ r, ph = .done i r ∧ log' = log ++ [(p, r)])
    (hstate : ∃ y, Serial c x log' y ∧ (m'.writer i = none ∧ (m'.instances i, m'.store) = y ∨
      ∃ p rest r, m'.phase p = .locked i rest r ∧
        (c.job p).run y = (r, rest.foldl (fun z f => f z) (m'.instances i, m'.store)))) :
    Attached c x old log' i m' := by
  have hself : m'.phase p = ph := by rw [hphase, Function.update_self]
  have hother : ∀ q, q ≠ p → m'.phase q = m.phase q := by
    intro q hq
    rw [hphase, Function.update_of_ne hq]
  have hfresh : ∀ r, (p, r) ∉ log := by
    intro r hr
    rw [h.logged p r hr] at hbusy
    cases hbusy
  have hmem : ∀ q r, (q, r) ∈ log → (q, r) ∈ log' := by
    intro q r hq
    rcases hlog with ⟨rfl, -⟩ | ⟨_, -, rfl⟩
    · exact hq
    · exact List.mem_append_left _ hq
  refine ⟨hslot.trans h.slot, hmade ▸ h.made, fun q j => ?_, fun q j hq => ?_, fun q j => ?_,
    fun q j r hq => ?_, fun q r hq => ?_, ?_, hstate⟩
  · rw [hrefs]
    by_cases hqp : q = p
    · subst hqp
      rw [if_pos rfl, hself]
    · rw [if_neg hqp, hother q hqp]
      exact h.refs q j
  · by_cases hqp : q = p
    · subst hqp
      rw [hself] at hq
      exact hhere j hq
    · rw [hother q hqp] at hq
      exact h.here q j hq
  · rw [hwriter]
    by_cases hqp : q = p
    · subst hqp
      rw [if_pos rfl, hself]
    · rw [if_neg hqp, hother q hqp]
      exact h.writer q j
  · by_cases hqp : q = p
    · subst hqp
      rw [hself] at hq
      subst hq
      rcases hlog with ⟨-, hnot⟩ | ⟨r', hdone, rfl⟩
      · cases hnot
      · cases hdone
        exact .inr ⟨rfl, List.mem_append_right _ (List.mem_singleton_self _)⟩
    · rw [hother q hqp] at hq
      rcases h.done q j r hq with hold | ⟨hj, hnew⟩
      · exact .inl hold
      · exact .inr ⟨hj, hmem q r hnew⟩
  · rcases hlog with ⟨rfl, -⟩ | ⟨r', hdone, rfl⟩
    · have hqp : q ≠ p := by
        rintro rfl
        exact hfresh r hq
      exact (hother q hqp).trans (h.logged q r hq)
    · rcases List.mem_append.mp hq with hlogged | hlast
      · have hqp : q ≠ p := by
          rintro rfl
          exact hfresh r hlogged
        exact (hother q hqp).trans (h.logged q r hlogged)
      · rw [List.mem_singleton] at hlast
        cases hlast
        exact hself.trans hdone
  · rcases hlog with ⟨rfl, -⟩ | ⟨r', -, rfl⟩
    · exact h.nodup
    · rw [List.map_append, List.nodup_append]
      refine ⟨h.nodup, List.nodup_singleton _, fun a ha b hb hab => ?_⟩
      obtain ⟨⟨q, r⟩, hq, rfl⟩ := List.mem_map.mp ha
      have hb' : b = p := List.mem_singleton.mp hb
      subst hb'
      exact hfresh r (hab ▸ hq)

theorem Attached.state_of {m' : Machine D E R} (h : Attached c x old log i m)
    (hp : ∀ rest r, m.phase p ≠ .locked i rest r) (hphase : m'.phase = Function.update m.phase p ph)
    (hwriter : m'.writer i = m.writer i) (hinstance : m'.instances i = m.instances i)
    (hstore : m'.store = m.store) :
    ∃ y, Serial c x log y ∧ (m'.writer i = none ∧ (m'.instances i, m'.store) = y ∨
      ∃ p rest r, m'.phase p = .locked i rest r ∧
        (c.job p).run y = (r, rest.foldl (fun z f => f z) (m'.instances i, m'.store))) := by
  obtain ⟨y, hserial, hfree | ⟨q, rest, r, hq, hrun⟩⟩ := h.state
  · refine ⟨y, hserial, .inl ?_⟩
    rw [hwriter, hinstance, hstore]
    exact hfree
  · have hqp : q ≠ p := by
      rintro rfl
      exact hp rest r hq
    refine ⟨y, hserial, .inr ⟨q, rest, r, ?_, ?_⟩⟩
    · rw [hphase, Function.update_of_ne hqp]
      exact hq
    · rw [hinstance, hstore]
      exact hrun

theorem Attached.not_locked (h : Attached c x old log i m) (hw : m.writer i = none) (p : ℕ)
    (rest : List (E × D → E × D)) (r : R) : m.phase p ≠ .locked i rest r := by
  intro hp
  have hwriter := (h.writer p i).mpr ⟨rest, r, hp⟩
  rw [hw] at hwriter
  cases hwriter

theorem Attached.setPhase (h : Attached c x old log i m) (hp : (m.phase p).refersTo = none)
    (hd : (m.phase p).isDone = false) (hph : ph.refersTo = none) (hph' : ph.isDone = false) :
    Attached c x old log i (m.setPhase p ph) := by
  have hlocked : ∀ j rest r, m.phase p ≠ .locked j rest r := by
    intro j rest r hlock
    rw [hlock] at hp
    cases hp
  refine h.move rfl rfl rfl hd (fun q j => ?_) (fun j hj => ?_) (fun q j => ?_)
    (.inl ⟨rfl, hph'⟩) (h.state_of (hlocked i) rfl rfl rfl rfl)
  · split_ifs with hq
    · subst hq
      rw [hph, ← hp]
      exact h.refs q j
    · exact Iff.rfl
  · rw [hph] at hj
    cases hj
  · split_ifs with hq
    · subst hq
      refine iff_of_false (fun hw => ?_) ?_
      · obtain ⟨rest, r, hlock⟩ := (h.writer q j).mp hw
        exact hlocked j rest r hlock
      · rintro ⟨rest, r, rfl⟩
        cases hph
    · exact Iff.rfl

theorem Attached.fetch (h : Attached c x old log i m) (hp : m.phase p = .cached) :
    Attached c x old log i (m.fetch p) := by
  have hlocked : ∀ j rest r, m.phase p ≠ .locked j rest r := by
    intro j rest r hlock
    rw [hp] at hlock
    cases hlock
  simp only [Machine.fetch, h.slot]
  refine h.move rfl rfl rfl (by rw [hp]; rfl) (fun q j => ?_) (fun j hj => ?_) (fun q j => ?_)
    (.inl ⟨rfl, rfl⟩) (h.state_of (hlocked i) rfl rfl rfl rfl)
  · change q ∈ Function.update m.refs i (Insert.insert p (m.refs i)) j ↔ _
    by_cases hj : j = i
    · subst hj
      rw [Function.update_self, Finset.mem_insert]
      split_ifs with hq
      · exact iff_of_true (.inl hq) rfl
      · exact or_iff_right hq
    · rw [Function.update_of_ne hj]
      split_ifs with hq
      · subst hq
        rw [h.refs, hp]
        refine iff_of_false nofun fun hi => hj ?_
        exact (Option.some.inj hi).symm
      · exact Iff.rfl
  · exact (Option.some.inj hj).symm
  · split_ifs with hq
    · subst hq
      refine iff_of_false (fun hw => ?_) (by rintro ⟨_, _, ⟨⟩⟩)
      obtain ⟨rest, r, hlock⟩ := (h.writer q j).mp hw
      exact hlocked j rest r hlock
    · exact Iff.rfl

theorem Attached.lock (h : Attached c x old log i m) (hp : m.phase p = .waiting i)
    (hw : m.writer i = none) : Attached c x old log i (m.lock c p i) := by
  obtain ⟨y, hserial, ⟨-, hy⟩ | ⟨q, rest, r, hq, -⟩⟩ := h.state
  · refine h.move rfl rfl rfl (by rw [hp]; rfl) (fun q j => ?_) (fun j hj => ?_) (fun q j => ?_)
      (.inl ⟨rfl, rfl⟩) ⟨y, hserial, .inr ⟨p, _, _, Machine.setPhase_self .., ?_⟩⟩
    · split_ifs with hq
      · subst hq
        refine (h.refs q j).trans ?_
        rw [hp]
        rfl
      · exact Iff.rfl
    · exact (Option.some.inj hj).symm
    · change Function.update m.writer i (some p) j = some q ↔ _
      by_cases hj : j = i
      · subst hj
        rw [Function.update_self]
        split_ifs with hq
        · subst hq
          exact iff_of_true rfl ⟨_, _, rfl⟩
        · rw [hw]
          exact iff_of_false (fun hpq => hq (Option.some.inj hpq).symm) nofun
      · rw [Function.update_of_ne hj]
        split_ifs with hq
        · subst hq
          rw [h.writer, hp]
          refine iff_of_false (by rintro ⟨_, _, ⟨⟩⟩) ?_
          rintro ⟨rest, r, heq⟩
          cases heq
          exact hj rfl
        · exact Iff.rfl
    · change _ = (_, ((c.job p).pieces (m.instances i, m.store)).foldl (fun z f => f z)
        (m.instances i, m.store))
      rw [(c.job p).composes, hy]
  · exact absurd hq (h.not_locked hw q rest r)

theorem Attached.piece {f : E × D → E × D} {rest : List (E × D → E × D)} {r : R}
    (h : Attached c x old log i m) (hp : m.phase p = .locked i (f :: rest) r) :
    Attached c x old log i (m.piece p i f rest r) := by
  have hwriter := (h.writer p i).mpr ⟨_, _, hp⟩
  obtain ⟨y, hserial, ⟨hnone, -⟩ | ⟨q, rest', r', hq, hrun⟩⟩ := h.state
  · rw [hwriter] at hnone
    cases hnone
  · have hqp := (h.writer q i).mpr ⟨_, _, hq⟩
    rw [hwriter] at hqp
    cases hqp
    rw [hp] at hq
    cases hq
    refine h.move rfl rfl rfl (by rw [hp]; rfl) (fun q j => ?_) (fun j hj => ?_) (fun q j => ?_)
      (.inl ⟨rfl, rfl⟩) ⟨y, hserial, .inr ⟨p, rest, r, Machine.setPhase_self .., ?_⟩⟩
    · split_ifs with hq
      · subst hq
        refine (h.refs q j).trans ?_
        rw [hp]
        rfl
      · exact Iff.rfl
    · exact (Option.some.inj hj).symm
    · split_ifs with hq
      · subst hq
        refine (h.writer q j).trans ?_
        rw [hp]
        constructor
        · rintro ⟨_, _, ⟨⟩⟩
          exact ⟨_, _, rfl⟩
        · rintro ⟨_, _, ⟨⟩⟩
          exact ⟨_, _, rfl⟩
      · exact Iff.rfl
    · rw [hrun]
      change _ = (r, rest.foldl (fun z f => f z) (Function.update m.instances i _ i, _))
      rw [Function.update_self]
      rfl

theorem Attached.release {m' : Machine D E R} {r : R} {y z : E × D}
    (h : Attached c x old log i m) (hp : (m.phase p).refersTo = some i)
    (hbusy : (m.phase p).isDone = false) (hslot : m'.slot = m.slot) (hmade : m'.made = m.made)
    (hphase : m'.phase = Function.update m.phase p (.done i r))
    (hrefs : m'.refs = Function.update m.refs i ((m.refs i).erase p))
    (hwriter : ∀ q j, m'.writer j = some q ↔ q ≠ p ∧ m.writer j = some q)
    (hfree : m'.writer i = none) (hserial : Serial c x log y) (hrun : (c.job p).run y = (r, z))
    (hz : (m'.instances i, m'.store) = z) : Attached c x old (log ++ [(p, r)]) i m' := by
  refine h.move hslot hmade hphase hbusy (fun q j => ?_) nofun (fun q j => ?_)
    (.inr ⟨r, rfl, rfl⟩) ⟨z, .snoc hserial hrun, .inl ⟨hfree, hz⟩⟩
  · rw [hrefs]
    by_cases hj : j = i
    · subst hj
      rw [Function.update_self, Finset.mem_erase]
      split_ifs with hq
      · exact iff_of_false (fun hmem => hmem.1 hq) nofun
      · exact and_iff_right hq
    · rw [Function.update_of_ne hj]
      split_ifs with hq
      · subst hq
        rw [h.refs, hp]
        refine iff_of_false (fun hi => hj ?_) nofun
        exact (Option.some.inj hi).symm
      · exact Iff.rfl
  · rw [hwriter]
    split_ifs with hq
    · exact iff_of_false (fun hmem => hmem.1 hq) (by rintro ⟨_, _, ⟨⟩⟩)
    · exact and_iff_right hq

theorem Attached.unlock {r : R} (h : Attached c x old log i m)
    (hp : m.phase p = .locked i [] r) : Attached c x old (log ++ [(p, r)]) i
      { m.release p i r with writer := Function.update m.writer i none } := by
  have hwriter := (h.writer p i).mpr ⟨_, _, hp⟩
  obtain ⟨y, hserial, ⟨hnone, -⟩ | ⟨q, rest, r', hq, hrun⟩⟩ := h.state
  · rw [hwriter] at hnone
    cases hnone
  · have hqp := (h.writer q i).mpr ⟨_, _, hq⟩
    rw [hwriter] at hqp
    cases hqp
    rw [hp] at hq
    cases hq
    refine h.release (by rw [hp]; rfl) (by rw [hp]; rfl) rfl rfl rfl rfl (fun q j => ?_)
      (Function.update_self ..) hserial hrun rfl
    change Function.update m.writer i none j = some q ↔ _
    by_cases hj : j = i
    · subst hj
      rw [Function.update_self, hwriter]
      exact iff_of_false nofun fun hq => hq.1 (Option.some.inj hq.2).symm
    · rw [Function.update_of_ne hj]
      refine ⟨fun hq => ⟨?_, hq⟩, And.right⟩
      rintro rfl
      obtain ⟨rest, r', hlock⟩ := (h.writer q j).mp hq
      rw [hp] at hlock
      cases hlock
      exact hj rfl

theorem Attached.peek (h : Attached c x old log i m) (hp : m.phase p = .waiting i)
    (hw : m.writer i = none) (hread : (c.job p).isRead) :
    Attached c x old (log ++ [(p, ((c.job p).run (m.instances i, m.store)).1)]) i
      (m.release p i ((c.job p).run (m.instances i, m.store)).1) := by
  obtain ⟨y, hserial, ⟨-, rfl⟩ | ⟨q, rest, r, hq, -⟩⟩ := h.state
  · have hrun : (c.job p).run (m.instances i, m.store) =
        (((c.job p).run (m.instances i, m.store)).1, (m.instances i, m.store)) :=
      Prod.ext rfl ((c.job p).read_only hread _)
    refine h.release (by rw [hp]; rfl) (by rw [hp]; rfl) rfl rfl rfl rfl (fun q j => ?_) hw
      hserial hrun rfl
    refine ⟨fun hq => ⟨?_, hq⟩, And.right⟩
    rintro rfl
    obtain ⟨rest, r, hlock⟩ := (h.writer q j).mp hq
    rw [hp] at hlock
    cases hlock
  · exact absurd hq (h.not_locked hw q rest r)

theorem Attached.step (h : Attached c x old log i m) {ev : Event}
    (hcommit : ev = .commit → m.creation ≠ .pending)
    (hplace : ev = .place → m.creation ≠ .committed) :
    ∃ log', log <+: log' ∧ Attached c x old log' i (m.step c ev) := by
  cases ev with
  | lookup p =>
    refine ⟨log, List.prefix_rfl, ?_⟩
    cases hp : m.phase p with
    | start =>
      simp only [Machine.step, hp, h.slot, Option.isSome_some, ↓reduceIte]
      exact h.setPhase (by rw [hp]; rfl) (by rw [hp]; rfl) rfl rfl
    | _ =>
      simp only [Machine.step, hp]
      exact h
  | read p =>
    refine ⟨log, List.prefix_rfl, ?_⟩
    cases hp : m.phase p with
    | reading seen =>
      simp only [Machine.step, hp]
      split_ifs
      · exact h.setPhase (by rw [hp]; rfl) (by rw [hp]; rfl) rfl rfl
      · exact h
    | _ =>
      simp only [Machine.step, hp]
      exact h
  | fail p =>
    refine ⟨log, List.prefix_rfl, ?_⟩
    cases hp : m.phase p with
    | reading _ | cached =>
      simp only [Machine.step, hp]
      exact h.setPhase (by rw [hp]; rfl) (by rw [hp]; rfl) rfl rfl
    | _ =>
      simp only [Machine.step, hp]
      exact h
  | insert p =>
    refine ⟨log, List.prefix_rfl, ?_⟩
    cases hp : m.phase p with
    | reading seen =>
      simp only [Machine.step, hp, Machine.insert, h.slot]
      split_ifs
      · -- the slot is taken, so the copy is dropped
        cases c.hydrate seen with
        | none => exact h.setPhase (by rw [hp]; rfl) (by rw [hp]; rfl) rfl rfl
        | some e => exact h.setPhase (by rw [hp]; rfl) (by rw [hp]; rfl) rfl rfl
      · exact h
    | _ =>
      simp only [Machine.step, hp]
      exact h
  | fetch p =>
    refine ⟨log, List.prefix_rfl, ?_⟩
    cases hp : m.phase p with
    | cached =>
      simp only [Machine.step, hp]
      exact h.fetch hp
    | _ =>
      simp only [Machine.step, hp]
      exact h
  | lock p =>
    refine ⟨log, List.prefix_rfl, ?_⟩
    cases hp : m.phase p with
    | waiting j =>
      have hj := h.here p j (by rw [hp]; rfl)
      subst hj
      simp only [Machine.step, hp]
      split_ifs with hw
      · exact h.lock hp hw.1
      · exact h
    | _ =>
      simp only [Machine.step, hp]
      exact h
  | piece p =>
    refine ⟨log, List.prefix_rfl, ?_⟩
    cases hp : m.phase p with
    | locked j rest r =>
      have hj := h.here p j (by rw [hp]; rfl)
      subst hj
      cases rest with
      | nil =>
        simp only [Machine.step, hp]
        exact h
      | cons f rest =>
        simp only [Machine.step, hp]
        exact h.piece hp
    | _ =>
      simp only [Machine.step, hp]
      exact h
  | unlock p =>
    cases hp : m.phase p with
    | locked j rest r =>
      have hj := h.here p j (by rw [hp]; rfl)
      subst hj
      cases rest with
      | nil =>
        refine ⟨log ++ [(p, r)], List.prefix_append .., ?_⟩
        simp only [Machine.step, hp]
        exact h.unlock hp
      | cons f rest =>
        refine ⟨log, List.prefix_rfl, ?_⟩
        simp only [Machine.step, hp]
        exact h
    | _ =>
      refine ⟨log, List.prefix_rfl, ?_⟩
      simp only [Machine.step, hp]
      exact h
  | peek p =>
    cases hp : m.phase p with
    | waiting j =>
      have hj := h.here p j (by rw [hp]; rfl)
      subst hj
      by_cases hw : m.writer j = none ∧ (c.job p).isRead = true
      · refine ⟨log ++ [(p, ((c.job p).run (m.instances j, m.store)).1)],
          List.prefix_append .., ?_⟩
        simp only [Machine.step, hp]
        rw [if_pos hw]
        exact h.peek hp hw.1 hw.2
      · refine ⟨log, List.prefix_rfl, ?_⟩
        simp only [Machine.step, hp]
        rw [if_neg hw]
        exact h
    | _ =>
      refine ⟨log, List.prefix_rfl, ?_⟩
      simp only [Machine.step, hp]
      exact h
  | commit =>
    refine ⟨log, List.prefix_rfl, ?_⟩
    simp only [Machine.step]
    split
    · rename_i hpending _
      exact absurd hpending (hcommit rfl)
    · exact h
  | place =>
    refine ⟨log, List.prefix_rfl, ?_⟩
    simp only [Machine.step]
    split
    · rename_i hcommitted
      exact absurd hcommitted (hplace rfl)
    · exact h

theorem step_creation (c : Setting D E R) (m : Machine D E R) {ev : Event} (hc : ev ≠ .commit)
    (hp : ev ≠ .place) : (m.step c ev).creation = m.creation := by
  cases ev with
  | commit => exact absurd rfl hc
  | place => exact absurd rfl hp
  | insert p =>
    simp only [Machine.step, Machine.insert]
    split
    · split_ifs
      · split
        · rfl
        · split <;> rfl
      · rfl
    · rfl
  | fetch p =>
    simp only [Machine.step, Machine.fetch]
    split
    · split <;> rfl
    · rfl
  | read p | lock p | peek p =>
    simp only [Machine.step]
    split
    · split_ifs <;> rfl
    · rfl
  | lookup p | fail p | piece p | unlock p =>
    simp only [Machine.step]
    split <;> rfl

theorem step_placed (hc : m.creation = .placed) (ev : Event) :
    (m.step c ev).creation = .placed := by
  by_cases hcommit : ev = .commit
  · subst hcommit
    simp only [Machine.step, hc]
  by_cases hplace : ev = .place
  · subst hplace
    simp only [Machine.step, hc]
  exact (step_creation c m hcommit hplace).trans hc

theorem Attached.run (h : Attached c x old log i m) (hc : m.creation = .placed)
    (evs : List Event) : ∃ log', log <+: log' ∧ Attached c x old log' i (m.run c evs) := by
  induction evs generalizing m log with
  | nil => exact ⟨log, List.prefix_rfl, h⟩
  | cons ev evs ih =>
    have hne : m.creation ≠ .pending ∧ m.creation ≠ .committed := by
      rw [hc]
      exact ⟨nofun, nofun⟩
    obtain ⟨log', hlog, h'⟩ := h.step (fun _ : ev = .commit => hne.1) (fun _ => hne.2)
    obtain ⟨log'', hlog', h''⟩ := ih h' (step_placed hc ev)
    exact ⟨log'', hlog.trans hlog', h''⟩

theorem Detached.run (h : Detached c d m) (hc : m.creation = .placed) (evs : List Event) :
    Detached c d (m.run c evs) ∨ ∃ e i log, c.hydrate (List.replicate c.reads d) = some e ∧
      Attached c (e, d) ∅ log i (m.run c evs) := by
  induction evs generalizing m with
  | nil => exact .inl h
  | cons ev evs ih =>
    have hne : m.creation ≠ .pending ∧ m.creation ≠ .committed := by
      rw [hc]
      exact ⟨nofun, nofun⟩
    rcases h.step (fun _ : ev = .commit => hne.1) (fun _ => hne.2) with h' | ⟨e, i, he, h'⟩
    · exact ih h' (step_placed hc ev)
    · obtain ⟨log, -, h''⟩ := h'.run (step_placed hc ev) evs
      exact .inr ⟨e, i, log, he, h''⟩

theorem step_instances (hi : i < m.made) {ev : Event}
    (hchanged : (m.step c ev).instances i ≠ m.instances i) :
    ∃ p rest r, ev = .piece p ∧ m.phase p = .locked i rest r := by
  have hcache : ∀ e, (m.cache e).instances i = m.instances i :=
    fun e => Function.update_of_ne (Nat.ne_of_lt hi) ..
  cases ev with
  | piece p =>
    cases hp : m.phase p with
    | locked j rest r =>
      cases rest with
      | nil =>
        simp only [Machine.step, hp] at hchanged
        exact absurd rfl hchanged
      | cons f rest =>
        refine ⟨p, f :: rest, r, rfl, ?_⟩
        by_cases hj : i = j
        · rw [hp, hj]
        · simp only [Machine.step, hp] at hchanged
          exact absurd (Function.update_of_ne hj ..) hchanged
    | _ =>
      simp only [Machine.step, hp] at hchanged
      exact absurd rfl hchanged
  | insert p =>
    refine absurd ?_ hchanged
    simp only [Machine.step, Machine.insert]
    split
    · split_ifs
      · split
        · rfl
        · split
          · rfl
          · exact hcache _
      · rfl
    · rfl
  | place =>
    refine absurd ?_ hchanged
    simp only [Machine.step]
    split
    · exact hcache _
    · rfl
  | commit =>
    refine absurd ?_ hchanged
    simp only [Machine.step]
    split <;> rfl
  | fetch p =>
    refine absurd ?_ hchanged
    simp only [Machine.step, Machine.fetch]
    split
    · split <;> rfl
    · rfl
  | read p | lock p | peek p =>
    refine absurd ?_ hchanged
    simp only [Machine.step]
    split
    · split_ifs <;> rfl
    · rfl
  | lookup p | fail p | unlock p =>
    refine absurd ?_ hchanged
    simp only [Machine.step]
    split <;> rfl

/-- When the creator fills the slot, nobody refers to an instance, and what has been done so far
need not be kept. -/
structure Careful (keep : ℕ → R → Prop) (m : Machine D E R) : Prop where
  unreferenced : ∀ p, (m.phase p).refersTo = none
  nothing : ∀ p j r, m.phase p = .done j r → ¬ keep p r

def CarefulRun (c : Setting D E R) (keep : ℕ → R → Prop) : Machine D E R → List Event → Prop
  | _, [] => True
  | m, ev :: evs => (ev = .place → m.creation = .committed → Careful keep m) ∧
    CarefulRun c keep (m.step c ev) evs

theorem carefulRun_of_not_mem {keep : ℕ → R → Prop} {evs : List Event} (h : .place ∉ evs) :
    CarefulRun c keep m evs := by
  induction evs generalizing m with
  | nil => trivial
  | cons ev evs ih =>
    rw [List.mem_cons, not_or] at h
    exact ⟨fun hev => absurd hev.symm h.1, ih h.2⟩

theorem carefulRun_commit_place {keep : ℕ → R → Prop} {evs : List Event}
    (h : ∀ p, m.phase p = .start) (hevs : .place ∉ evs) :
    CarefulRun c keep m (.commit :: .place :: evs) := by
  have hphase : (m.step c .commit).phase = m.phase := by
    simp only [Machine.step]
    split <;> rfl
  refine ⟨nofun, fun _ _ => ⟨fun p => ?_, fun p j r hp => ?_⟩, carefulRun_of_not_mem hevs⟩
  · rw [hphase, h]
    rfl
  · rw [hphase, h] at hp
    cases hp

/-- Where the creation stands. `d` and `d'` are the stores before and after the commit. -/
inductive Creating (c : Setting D E R) (keep : ℕ → R → Prop) (d d' : D) (m : Machine D E R) :
    Prop where
  | pending (hc : m.creation = .pending) (h : Detached c d m)
  | committed (hc : m.creation = .committed) (h : Detached c d' m)
  | overtaken {e : E} {i : ℕ} {log : List (ℕ × R)} (hc : m.creation = .committed)
      (h : Attached c (e, d') ∅ log i m)
  | placed {d'' : D} {old : Set (ℕ × R)} {i : ℕ} {log : List (ℕ × R)}
      (hc : m.creation = .placed) (hold : ∀ p r, (p, r) ∈ old → ¬ keep p r)
      (h : Attached c (c.fresh, d'') old log i m)

theorem Detached.commit {d' : D} (h : Detached c d m)
    (hd : ∀ rest, c.hydrate (d :: rest) = none) :
    Detached c d' { m with store := d', creation := .committed } := by
  refine ⟨h.slot, rfl, h.refs, h.writer, fun p => ?_⟩
  rcases h.idle p with hs | hf | ⟨seen, hr, hcopy | hdoomed⟩
  · exact .inl hs
  · exact .inr (.inl hf)
  · refine .inr (.inr ⟨seen, hr, ?_⟩)
    cases seen with
    | nil => exact .inl rfl
    | cons d₀ seen =>
      right
      intro rest
      rw [List.length_cons, List.replicate_succ] at hcopy
      rw [(List.cons.inj hcopy).1]
      exact hd _
  · exact .inr (.inr ⟨seen, hr, .inr hdoomed⟩)

theorem place_attached (hslot : ∀ i, m.slot = some i → m.refs i = ∅)
    (hrefs : ∀ i, m.refs i = ∅) (hwriter : ∀ i, m.writer i = none)
    (hphase : ∀ p, (m.phase p).refersTo = none) :
    (m.place c).creation = .placed ∧ Attached c (c.fresh, m.store)
      {q | ∃ j, m.phase q.1 = .done j q.2} [] m.made (m.place c) := by
  refine ⟨?_, rfl, Nat.lt_succ_self _, fun p j => ?_, fun p j hp => ?_, fun p j => ?_,
    fun p j r hp => .inl ⟨j, hp⟩, nofun, List.nodup_nil, _, .nil, .inl ⟨hwriter _, ?_⟩⟩
  · cases hs : m.slot with
    | none => simp only [Machine.place, hs]
    | some i => simp only [Machine.place, hs, hslot i hs, ↓reduceIte]
  · change p ∈ m.refs j ↔ (m.phase p).refersTo = some j
    rw [hrefs, hphase]
    exact iff_of_false (Finset.notMem_empty p) nofun
  · have hnone := hphase p
    change (m.phase p).refersTo = some j at hp
    rw [hnone] at hp
    cases hp
  · change m.writer j = some p ↔ ∃ rest r, m.phase p = .locked j rest r
    rw [hwriter]
    refine ⟨nofun, ?_⟩
    rintro ⟨rest, r, hp⟩
    have hnone := hphase p
    rw [hp] at hnone
    cases hnone
  · exact congrArg (·, m.store) (Function.update_self ..)

variable {keep : ℕ → R → Prop} {d' : D}

theorem Creating.place (h : Creating c keep d d' m) (hc : m.creation = .committed)
    (hcareful : Careful keep m) : Creating c keep d d' (m.place c) := by
  have hold : ∀ p r, (p, r) ∈ {q : ℕ × R | ∃ j, m.phase q.1 = .done j q.2} → ¬ keep p r := by
    rintro p r ⟨j, hp⟩
    exact hcareful.nothing p j r hp
  cases h with
  | pending hp | placed hp =>
    rw [hc] at hp
    cases hp
  | committed _ h =>
    obtain ⟨hplaced, h'⟩ := place_attached (c := c) (fun i _ => h.refs i) h.refs h.writer
      hcareful.unreferenced
    exact .placed hplaced hold h'
  | overtaken _ h =>
    have hrefs : ∀ i, m.refs i = ∅ := by
      intro i
      rw [Finset.eq_empty_iff_forall_notMem]
      intro p hp
      rw [h.refs, hcareful.unreferenced] at hp
      cases hp
    have hwriter : ∀ i, m.writer i = none := by
      intro i
      rw [Option.eq_none_iff_forall_ne_some]
      intro p hp
      obtain ⟨rest, r, hlock⟩ := (h.writer p i).mp hp
      have hnone := hcareful.unreferenced p
      rw [hlock] at hnone
      cases hnone
    obtain ⟨hplaced, h'⟩ := place_attached (c := c) (fun i _ => hrefs i) hrefs hwriter
      hcareful.unreferenced
    exact .placed hplaced hold h'

theorem Creating.step (h : Creating c keep d d' m) (hreads : 0 < c.reads)
    (hcommit : ∀ d'', c.commit d = some d'' → d'' = d')
    (hd : ∀ rest, c.hydrate (d :: rest) = none) {ev : Event}
    (hcareful : ev = .place → m.creation = .committed → Careful keep m) :
    Creating c keep d d' (m.step c ev) := by
  by_cases hplace : ev = .place ∧ m.creation = .committed
  · obtain ⟨rfl, hc⟩ := hplace
    simp only [Machine.step, hc]
    exact h.place hc (hcareful rfl hc)
  by_cases hpending : ev = .commit ∧ m.creation = .pending
  · obtain ⟨rfl, hc⟩ := hpending
    cases h with
    | committed hc' | overtaken hc' | placed hc' =>
      rw [hc] at hc'
      cases hc'
    | pending _ h =>
      simp only [Machine.step, hc, h.store]
      cases hcd : c.commit d with
      | none => exact .pending hc h
      | some d'' =>
        cases hcommit d'' hcd
        exact .committed rfl (h.commit hd)
  -- any other event leaves the creation where it is
  have hev : ev = .commit → m.creation ≠ .pending := fun he hc => hpending ⟨he, hc⟩
  have hev' : ev = .place → m.creation ≠ .committed := fun he hc => hplace ⟨he, hc⟩
  have hsame : (m.step c ev).creation = m.creation := by
    by_cases he : ev = .commit
    · subst he
      simp only [Machine.step]
      split
      · rename_i hc _
        exact absurd hc (hev rfl)
      · rfl
    by_cases he' : ev = .place
    · subst he'
      simp only [Machine.step]
      split
      · rename_i hc
        exact absurd hc (hev' rfl)
      · rfl
    exact step_creation c m he he'
  cases h with
  | pending hc h =>
    rcases h.step hev hev' with h' | ⟨e, i, he, -⟩
    · exact .pending (hsame.trans hc) h'
    · obtain ⟨n, hn⟩ := Nat.exists_eq_succ_of_ne_zero (Nat.ne_of_gt hreads)
      rw [hn, List.replicate_succ, hd] at he
      cases he
  | committed hc h =>
    rcases h.step hev hev' with h' | ⟨e, i, -, h'⟩
    · exact .committed (hsame.trans hc) h'
    · exact .overtaken (hsame.trans hc) h'
  | overtaken hc h =>
    obtain ⟨log', -, h'⟩ := h.step hev hev'
    exact .overtaken (hsame.trans hc) h'
  | placed hc hold h =>
    obtain ⟨log', -, h'⟩ := h.step hev hev'
    exact .placed (hsame.trans hc) hold h'

theorem Creating.run (h : Creating c keep d d' m) (hreads : 0 < c.reads)
    (hcommit : ∀ d'', c.commit d = some d'' → d'' = d')
    (hd : ∀ rest, c.hydrate (d :: rest) = none) {evs : List Event}
    (hcareful : CarefulRun c keep m evs) :
    Creating c keep d d' (m.run c evs) := by
  induction evs generalizing m with
  | nil => exact h
  | cons ev evs ih => exact ih (h.step hreads hcommit hd hcareful.1) hcareful.2

end Steps

end LazyCache

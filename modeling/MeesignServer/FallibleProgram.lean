import Mathlib

/-!
# Programs that keep their state when they stop

A function that works on borrowed state and leaves early keeps what it already
changed. `EStateM` runs have this shape: an error carries the state at the point
of failure. `post` says what holds of a run, for normal and early exits alike.
-/
namespace FallibleProgram

variable {ε σ τ α β : Type}

def outcome (m : EStateM ε σ α) (s : σ) : Except ε α × σ :=
  match m s with
  | .ok a t => (.ok a, t)
  | .error e t => (.error e, t)

/-- `Q` holds of the result and of the state in which the run of `m` from `s` ends. -/
def post (m : EStateM ε σ α) (s : σ) (Q : Except ε α → σ → Prop) : Prop :=
  Q (outcome m s).1 (outcome m s).2

def fromExcept (x : Except ε α) : EStateM ε σ α := fun s =>
  match x with
  | .ok a => .ok a s
  | .error e => .error e s

/-- Run `m` on a part of the state. The part is written back on every exit. -/
def zoom (get : σ → τ) (put : σ → τ → σ) (m : EStateM ε τ α) : EStateM ε σ α := fun s =>
  match m (get s) with
  | .ok a t => .ok a (put s t)
  | .error e t => .error e (put s t)

variable {s : σ} {Q R : Except ε α → σ → Prop}

theorem post_outcome (m : EStateM ε σ α) (s : σ) :
    post m s (fun r t => outcome m s = (r, t)) := rfl

theorem post_mono {m : EStateM ε σ α} (h : post m s Q) (hQ : ∀ r t, Q r t → R r t) :
    post m s R := hQ _ _ h

theorem post_and {m : EStateM ε σ α} (h : post m s Q) (h' : post m s R) :
    post m s (fun r t => Q r t ∧ R r t) := ⟨h, h'⟩

@[simp] theorem post_pure (a : α) :
    post (pure a : EStateM ε σ α) s Q ↔ Q (.ok a) s := Iff.rfl

@[simp] theorem post_throw (e : ε) :
    post (throw e : EStateM ε σ α) s Q ↔ Q (.error e) s := Iff.rfl

@[simp] theorem post_get {Q : Except ε σ → σ → Prop} :
    post (get : EStateM ε σ σ) s Q ↔ Q (.ok s) s := Iff.rfl

@[simp] theorem post_set (t : σ) {Q : Except ε PUnit → σ → Prop} :
    post (set t : EStateM ε σ PUnit) s Q ↔ Q (.ok ⟨⟩) t := Iff.rfl

@[simp] theorem post_modify (f : σ → σ) {Q : Except ε PUnit → σ → Prop} :
    post (modify f : EStateM ε σ PUnit) s Q ↔ Q (.ok ⟨⟩) (f s) := Iff.rfl

@[simp] theorem post_bind (m : EStateM ε σ α) (f : α → EStateM ε σ β)
    {Q : Except ε β → σ → Prop} :
    post (m >>= f) s Q ↔ post m s (fun r t =>
      match r with
      | .ok a => post (f a) t Q
      | .error e => Q (.error e) t) := by
  simp only [post, outcome, bind, EStateM.bind]
  cases m s <;> rfl

/-- The sequence rule: what is known of the first program is handed to both exits. -/
theorem post_seq {m : EStateM ε σ α} {f : α → EStateM ε σ β} {Q' : Except ε β → σ → Prop}
    (h : post m s Q) (hok : ∀ a t, Q (.ok a) t → post (f a) t Q')
    (herr : ∀ e t, Q (.error e) t → Q' (.error e) t) : post (m >>= f) s Q' := by
  rw [post_bind]
  refine post_mono h fun r t hr => ?_
  cases r with
  | ok a => exact hok a t hr
  | error e => exact herr e t hr

@[simp] theorem post_map (m : EStateM ε σ α) (f : α → β) {Q : Except ε β → σ → Prop} :
    post (f <$> m) s Q ↔ post m s (fun r t =>
      match r with
      | .ok a => Q (.ok (f a)) t
      | .error e => Q (.error e) t) := by
  simp only [post, outcome, Functor.map, EStateM.map]
  cases m s <;> rfl

@[simp] theorem post_fromExcept (x : Except ε α) :
    post (fromExcept x : EStateM ε σ α) s Q ↔ Q x s := by
  cases x <;> exact Iff.rfl

@[simp] theorem post_zoom (get : σ → τ) (put : σ → τ → σ) (m : EStateM ε τ α) :
    post (zoom get put m) s Q ↔ post m (get s) (fun r t => Q r (put s t)) := by
  simp only [post, outcome, zoom]
  cases m (get s) <;> rfl

section Avoids

variable {e : ε}

def Avoids (e : ε) (m : EStateM ε σ α) : Prop := ∀ s, post m s fun r _ => r ≠ .error e

theorem avoids_pure (a : α) : Avoids e (pure a : EStateM ε σ α) := nofun

theorem avoids_throw {e' : ε} (h : e' ≠ e) : Avoids e (throw e' : EStateM ε σ α) := by
  intro s hs
  exact h (Except.error.inj hs)

theorem avoids_get : Avoids e (get : EStateM ε σ σ) := nofun

theorem avoids_set (s : σ) : Avoids e (set s : EStateM ε σ PUnit) := nofun

theorem avoids_modify (f : σ → σ) : Avoids e (modify f : EStateM ε σ PUnit) := nofun

theorem avoids_fromExcept {x : Except ε α} (h : x ≠ .error e) :
    Avoids e (fromExcept x : EStateM ε σ α) := by
  intro s
  rw [post_fromExcept]
  exact h

theorem Avoids.bind {m : EStateM ε σ α} {f : α → EStateM ε σ β} (hm : Avoids e m)
    (hf : ∀ a, Avoids e (f a)) : Avoids e (m >>= f) := by
  intro s
  refine post_seq (hm s) (fun a t _ => hf a t) fun e' t h h' => ?_
  exact h (congrArg Except.error (Except.error.inj h'))

theorem Avoids.map {m : EStateM ε σ α} (hm : Avoids e m) (f : α → β) : Avoids e (f <$> m) := by
  intro s
  rw [post_map]
  refine post_mono (hm s) fun r t h => ?_
  cases r with
  | ok a => exact nofun
  | error e' => exact fun h' => h (congrArg Except.error (Except.error.inj h'))

theorem Avoids.zoom {m : EStateM ε τ α} (hm : Avoids e m) (get : σ → τ) (put : σ → τ → σ) :
    Avoids e (zoom get put m) := by
  intro s
  rw [post_zoom]
  exact hm (get s)

theorem bind_ne_error {x : Except ε α} {f : α → Except ε β} (hx : x ≠ .error e)
    (hf : ∀ a, f a ≠ .error e) : (x >>= f) ≠ .error e := by
  cases x with
  | ok a => exact hf a
  | error e' => exact fun h => hx (congrArg Except.error (Except.error.inj h))

theorem map_ne_error {x : Except ε α} (f : α → β) (hx : x ≠ .error e) :
    x.map f ≠ .error e := by
  cases x with
  | ok a => exact nofun
  | error e' => exact fun h => hx (congrArg Except.error (Except.error.inj h))

end Avoids

end FallibleProgram

import Mathlib.Tactic.Common

universe u v

/-! Weakest preconditions for programs with a state that survives an exception. -/

namespace Exec

variable {ε σ : Type u} {α β : Type u}

/-- `wp x Q E s`: run from `s`, `x` returns in `Q` or throws in `E`. -/
def wp (x : EStateM ε σ α) (Q : α → σ → Prop) (E : ε → σ → Prop) (s : σ) : Prop :=
  match x s with
  | .ok a t => Q a t
  | .error e t => E e t

def lift (r : Except ε α) : EStateM ε σ α := fun s =>
  match r with
  | .ok a => .ok a s
  | .error e => .error e s

variable {Q : α → σ → Prop} {E : ε → σ → Prop} {s : σ}

@[simp] theorem wp_pure (a : α) : wp (pure a) Q E s ↔ Q a s := Iff.rfl

@[simp] theorem wp_bind (x : EStateM ε σ β) (f : β → EStateM ε σ α) :
    wp (x >>= f) Q E s ↔ wp x (fun b t => wp (f b) Q E t) E s := by
  show wp (EStateM.bind x f) Q E s ↔ _
  simp only [wp, EStateM.bind]
  cases x s <;> rfl

@[simp] theorem wp_map (x : EStateM ε σ β) (f : β → α) :
    wp (f <$> x) Q E s ↔ wp x (fun b t => Q (f b) t) E s := by
  show wp (EStateM.map f x) Q E s ↔ _
  simp only [wp, EStateM.map]
  cases x s <;> rfl

@[simp] theorem wp_get {Q : σ → σ → Prop} :
    wp (get : EStateM ε σ σ) Q E s ↔ Q s s := Iff.rfl

@[simp] theorem wp_set (t : σ) {Q : PUnit → σ → Prop} :
    wp (set t : EStateM ε σ PUnit) Q E s ↔ Q ⟨⟩ t := Iff.rfl

@[simp] theorem wp_modify (f : σ → σ) {Q : PUnit → σ → Prop} :
    wp (modify f : EStateM ε σ PUnit) Q E s ↔ Q ⟨⟩ (f s) := Iff.rfl

@[simp] theorem wp_lift (r : Except ε α) :
    wp (lift r) Q E s ↔ (∀ a, r = .ok a → Q a s) ∧ (∀ e, r = .error e → E e s) := by
  cases r with
  | ok a => simp [wp, lift]
  | error e => simp [wp, lift]

@[simp] theorem wp_ite (c : Prop) [Decidable c] (x y : EStateM ε σ α) :
    wp (if c then x else y) Q E s ↔ (c → wp x Q E s) ∧ (¬c → wp y Q E s) := by
  split <;> simp [*]

theorem wp_mono {x : EStateM ε σ α} {Q' : α → σ → Prop} {E' : ε → σ → Prop}
    (h : wp x Q E s) (hQ : ∀ a t, Q a t → Q' a t) (hE : ∀ e t, E e t → E' e t) :
    wp x Q' E' s := by
  revert h
  simp only [wp]
  cases x s with
  | ok a t => exact hQ a t
  | error e t => exact hE e t

theorem wp_and {x : EStateM ε σ α} {Q' : α → σ → Prop} {E' : ε → σ → Prop}
    (h : wp x Q E s) (h' : wp x Q' E' s) :
    wp x (fun a t => Q a t ∧ Q' a t) (fun e t => E e t ∧ E' e t) s := by
  revert h h'
  simp only [wp]
  cases x s with
  | ok a t => exact And.intro
  | error e t => exact And.intro

theorem wp_self (x : EStateM ε σ α) (s : σ) :
    wp x (fun a t => x s = .ok a t) (fun e t => x s = .error e t) s := by
  simp only [wp]
  split <;> assumption

theorem wp_iff_of_ok {x : EStateM ε σ α} {a : α} {t : σ} (hx : x s = .ok a t) :
    wp x Q E s ↔ Q a t := by
  simp only [wp, hx]

theorem wp_of_ok {x : EStateM ε σ α} {a : α} {t : σ} (h : wp x Q E s) (hx : x s = .ok a t) :
    Q a t := (wp_iff_of_ok hx).mp h

theorem wp_iff_of_error {x : EStateM ε σ α} {e : ε} {t : σ} (hx : x s = .error e t) :
    wp x Q E s ↔ E e t := by
  simp only [wp, hx]

theorem wp_of_error {x : EStateM ε σ α} {e : ε} {t : σ} (h : wp x Q E s)
    (hx : x s = .error e t) : E e t := (wp_iff_of_error hx).mp h

theorem eq_ok_of_wp {x : EStateM ε σ α} {a : α} {t : σ}
    (h : wp x (fun b u => b = a ∧ u = t) (fun _ _ => False) s) : x s = .ok a t := by
  revert h
  simp only [wp]
  cases x s with
  | ok b u =>
    rintro ⟨rfl, rfl⟩
    rfl
  | error e u => exact False.elim

theorem eq_error_of_wp {x : EStateM ε σ α} {e : ε} {t : σ}
    (h : wp x (fun _ _ => False) (fun e' u => e' = e ∧ u = t) s) : x s = .error e t := by
  revert h
  simp only [wp]
  cases x s with
  | ok b u => exact False.elim
  | error e' u =>
    rintro ⟨rfl, rfl⟩
    rfl

/-- `x` moves the state along `R`, whether it returns or throws. -/
def Frame (R : σ → σ → Prop) (x : EStateM ε σ α) : Prop :=
  ∀ s, wp x (fun _ t => R s t) (fun _ t => R s t) s

section Frame

variable {R : σ → σ → Prop} [IsPreorder σ R]

theorem Frame.pure (a : α) : Frame R (pure a : EStateM ε σ α) := fun s => refl s

theorem Frame.lift (r : Except ε α) : Frame R (lift r : EStateM ε σ α) := by
  intro s
  cases r with
  | ok a => exact refl (r := R) s
  | error e => exact refl (r := R) s

theorem Frame.bind {x : EStateM ε σ β} {f : β → EStateM ε σ α} (hx : Frame R x)
    (hf : ∀ b, Frame R (f b)) : Frame R (x >>= f) := by
  intro s
  rw [wp_bind]
  apply wp_mono (hx s)
  · intro b t hst
    apply wp_mono (hf b t)
    · exact fun _ u htu => IsTrans.trans _ _ _ hst htu
    · exact fun _ u htu => IsTrans.trans _ _ _ hst htu
  · exact fun _ _ h => h

end Frame

@[simp] theorem ite_error_eq_ok {c : Prop} [Decidable c] {e : ε} {x : Except ε α} {a : α} :
    (if c then .error e else x) = .ok a ↔ ¬c ∧ x = .ok a := by
  split <;> simp [*]

theorem except_bind_eq_ok {x : Except ε α} {f : α → Except ε β} {b : β} :
    (x >>= f) = .ok b ↔ ∃ a, x = .ok a ∧ f a = .ok b := by
  cases x with
  | error e => simp [bind, Except.bind]
  | ok a => simp [bind, Except.bind]

end Exec

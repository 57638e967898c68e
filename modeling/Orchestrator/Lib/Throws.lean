import Orchestrator.Lib.Exec

universe u

/-! Which errors a program can end with. -/

namespace Exec

def Fails {ε α : Type u} (P : ε → Prop) (r : Except ε α) : Prop := ∀ e, r = .error e → P e

section Fails

variable {ε α β : Type u} {P Q : ε → Prop} {r r' : Except ε α}

@[simp] theorem fails_ok (a : α) : Fails P (.ok a) := fun _ h => nomatch h

@[simp] theorem fails_pure (a : α) : Fails P (pure a : Except ε α) := fails_ok a

@[simp] theorem fails_error {e : ε} : Fails P (.error e : Except ε α) ↔ P e := by
  constructor
  · exact fun h => h e rfl
  · rintro h _ ⟨⟩
    exact h

@[simp] theorem fails_map {f : α → β} : Fails P (r.map f) ↔ Fails P r := by
  cases r with
  | ok a => exact iff_of_true (fails_ok _) (fails_ok _)
  | error e => exact fails_error.trans fails_error.symm

@[simp] theorem fails_fmap {f : α → β} : Fails P (f <$> r) ↔ Fails P r := fails_map

@[simp] theorem fails_bind {f : α → Except ε β} :
    Fails P (r >>= f) ↔ Fails P r ∧ ∀ a, r = .ok a → Fails P (f a) := by
  cases r with
  | ok a => simp [bind, Except.bind]
  | error e => simp [bind, Except.bind]

@[simp] theorem fails_ite {c : Prop} [Decidable c] :
    Fails P (if c then r else r') ↔ (c → Fails P r) ∧ (¬c → Fails P r') := by
  split <;> simp [*]

theorem Fails.bind {f : α → Except ε β} (h : Fails P r) (hf : ∀ a, Fails P (f a)) :
    Fails P (r >>= f) := fails_bind.mpr ⟨h, fun a _ => hf a⟩

end Fails

/-- A program that throws only in `P`, whatever state it starts from. -/
def Throws {ε σ α : Type u} (P : ε → Prop) (x : EStateM ε σ α) : Prop :=
  ∀ s, wp x (fun _ _ => True) (fun e _ => P e) s

section Throws

variable {ε σ α β : Type u} {P : ε → Prop} {x y : EStateM ε σ α}

theorem Throws.pure (a : α) : Throws P (pure a : EStateM ε σ α) := fun _ => trivial

theorem Throws.get : Throws P (get : EStateM ε σ σ) := fun _ => trivial

theorem Throws.modify (f : σ → σ) : Throws P (modify f : EStateM ε σ PUnit) := fun _ => trivial

theorem Throws.lift {r : Except ε α} (h : Fails P r) :
    Throws P (Exec.lift r : EStateM ε σ α) := by
  intro s
  rw [wp_lift]
  exact ⟨fun _ _ => trivial, h⟩

theorem Throws.bind {f : α → EStateM ε σ β} (h : Throws P x) (hf : ∀ a, Throws P (f a)) :
    Throws P (x >>= f) := by
  intro s
  rw [wp_bind]
  exact wp_mono (h s) (fun a t _ => hf a t) fun _ _ he => he

theorem Throws.map (h : Throws P x) (f : α → β) : Throws P (f <$> x) := by
  intro s
  rw [wp_map]
  exact wp_mono (h s) (fun _ _ _ => trivial) fun _ _ he => he

theorem Throws.ite {c : Prop} [Decidable c] (hx : Throws P x) (hy : Throws P y) :
    Throws P (if c then x else y) := by
  split
  · exact hx
  · exact hy

end Throws

theorem except_map_eq_ok {ε α β : Type u} {r : Except ε α} {f : α → β} {b : β} :
    r.map f = .ok b ↔ ∃ a, r = .ok a ∧ f a = b := by
  cases r <;> simp [Except.map]

end Exec

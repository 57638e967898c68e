import Orchestrator.Lib.Exec

universe u

/-! Two programs side by side. -/

namespace Exec

variable {ε σ : Type u} {α β γ δ : Type u}

/-- From `s` and `t`, `x` and `y` both return in `Q`, or both throw the same in `E`. -/
def rwp (x : EStateM ε σ α) (y : EStateM ε σ β) (Q : α → β → σ → σ → Prop)
    (E : ε → σ → σ → Prop) (s t : σ) : Prop :=
  match x s, y t with
  | .ok a s', .ok b t' => Q a b s' t'
  | .error e s', .error e' t' => e = e' ∧ E e s' t'
  | _, _ => False

section Rules

variable {x : EStateM ε σ α} {y : EStateM ε σ β} {f : α → EStateM ε σ γ}
  {g : β → EStateM ε σ δ} {Q : γ → δ → σ → σ → Prop} {E : ε → σ → σ → Prop} {s t : σ}

theorem rwp_bind (h : rwp x y (fun a b s' t' => rwp (f a) (g b) Q E s' t') E s t) :
    rwp (x >>= f) (y >>= g) Q E s t := by
  show rwp (EStateM.bind x f) (EStateM.bind y g) Q E s t
  simp only [rwp, EStateM.bind] at h ⊢
  cases hx : x s with
  | ok a s' =>
    cases hy : y t with
    | ok b t' =>
      simp only [hx, hy] at h
      exact h
    | error e t' => simp [hx, hy] at h
  | error e s' =>
    cases hy : y t with
    | ok b t' => simp [hx, hy] at h
    | error e' t' =>
      simp only [hx, hy] at h
      exact h

theorem rwp_map {p : α → γ} {q : β → δ} (h : rwp x y (fun a b s' t' => Q (p a) (q b) s' t') E s t) :
    rwp (p <$> x) (q <$> y) Q E s t := by
  show rwp (EStateM.map p x) (EStateM.map q y) Q E s t
  simp only [rwp, EStateM.map] at h ⊢
  cases hx : x s with
  | ok a s' =>
    cases hy : y t with
    | ok b t' =>
      simp only [hx, hy] at h
      exact h
    | error e t' => simp [hx, hy] at h
  | error e s' =>
    cases hy : y t with
    | ok b t' => simp [hx, hy] at h
    | error e' t' =>
      simp only [hx, hy] at h
      exact h

theorem rwp_bind_same {g : α → EStateM ε σ δ}
    (hok : ∀ a u, x s = .ok a u → rwp (f a) (g a) Q E u u)
    (herror : ∀ e u, x s = .error e u → E e u u) : rwp (x >>= f) (x >>= g) Q E s s := by
  apply rwp_bind
  simp only [rwp]
  cases hx : x s with
  | ok a u => exact hok a u hx
  | error e u => exact ⟨rfl, herror e u hx⟩

theorem rwp_mono {Q₀ : α → β → σ → σ → Prop} {E₀ : ε → σ → σ → Prop}
    {Q : α → β → σ → σ → Prop} (h : rwp x y Q₀ E₀ s t)
    (hQ : ∀ a b s' t', Q₀ a b s' t' → Q a b s' t')
    (hE : ∀ e s' t', E₀ e s' t' → E e s' t') : rwp x y Q E s t := by
  revert h
  simp only [rwp]
  cases x s with
  | ok a s' =>
    cases y t with
    | ok b t' => exact hQ a b s' t'
    | error e t' => exact id
  | error e s' =>
    cases y t with
    | ok b t' => exact id
    | error e' t' => exact fun h => ⟨h.1, hE e s' t' h.2⟩

theorem rwp_wp {Q₀ : α → β → σ → σ → Prop} {P : α → σ → Prop} {E' : ε → σ → Prop}
    (h : rwp x y Q₀ E s t) (hx : wp x P E' s) :
    rwp x y (fun a b s' t' => Q₀ a b s' t' ∧ P a s') E s t := by
  revert h hx
  simp only [rwp, wp]
  cases x s with
  | ok a s' =>
    cases y t with
    | ok b t' => exact fun h hx => ⟨h, hx⟩
    | error e t' => exact fun h _ => h
  | error e s' =>
    cases y t with
    | ok b t' => exact fun h _ => h
    | error e' t' => exact fun h _ => h

end Rules

/-- From states in `R`, `x` and `y` both return, with values in `V`, or both throw the same, and
the states that they leave are again in `R`. -/
def Related (R : σ → σ → Prop) (V : α → β → Prop) (x : EStateM ε σ α) (y : EStateM ε σ β) :
    Prop :=
  ∀ s t, R s t → rwp x y (fun a b s' t' => V a b ∧ R s' t') (fun _ s' t' => R s' t') s t

section Related

variable {R : σ → σ → Prop} {V : α → β → Prop} {W : γ → δ → Prop}

theorem Related.pure {a : α} {b : β} (h : V a b) :
    Related R V (pure a : EStateM ε σ α) (pure b) :=
  fun _ _ hst => ⟨h, hst⟩

theorem Related.bind {x : EStateM ε σ α} {y : EStateM ε σ β} {f : α → EStateM ε σ γ}
    {g : β → EStateM ε σ δ} (hxy : Related R V x y)
    (hfg : ∀ a b, V a b → Related R W (f a) (g b)) : Related R W (x >>= f) (y >>= g) := by
  intro s t hst
  apply rwp_bind
  apply rwp_mono (hxy s t hst)
  · exact fun a b s' t' h => hfg a b h.1 s' t' h.2
  · exact fun _ _ _ h => h

theorem Related.seq {x y : EStateM ε σ α} {f : α → EStateM ε σ γ} {g : α → EStateM ε σ δ}
    (hxy : Related R Eq x y) (hfg : ∀ a, Related R W (f a) (g a)) :
    Related R W (x >>= f) (y >>= g) := by
  apply Related.bind hxy
  rintro a _ rfl
  exact hfg a

theorem Related.map {x : EStateM ε σ α} {y : EStateM ε σ β} {f : α → γ} {g : β → δ}
    (hxy : Related R V x y) (hfg : ∀ a b, V a b → W (f a) (g b)) :
    Related R W (f <$> x) (g <$> y) := by
  intro s t hst
  apply rwp_map
  apply rwp_mono (hxy s t hst)
  · exact fun a b s' t' h => ⟨hfg a b h.1, h.2⟩
  · exact fun _ _ _ h => h

theorem Related.lift (r : Except ε α) : Related R Eq (lift r) (lift r) := by
  intro s t hst
  cases r with
  | ok a => exact ⟨rfl, hst⟩
  | error e => exact ⟨rfl, hst⟩

theorem Related.modify {f g : σ → σ} (h : ∀ s t, R s t → R (f s) (g t)) :
    Related R Eq (modify f : EStateM ε σ PUnit) (modify g) :=
  fun s t hst => ⟨rfl, h s t hst⟩

theorem Related.ite {c : Prop} [Decidable c] {x x' : EStateM ε σ α} {y y' : EStateM ε σ β}
    (h : c → Related R V x y) (h' : ¬c → Related R V x' y') :
    Related R V (if c then x else x') (if c then y else y') := by
  split
  · exact h ‹_›
  · exact h' ‹_›

end Related

end Exec

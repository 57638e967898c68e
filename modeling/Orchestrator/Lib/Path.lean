import Orchestrator.Lib.Trace

universe u v w

/-! Paths of a labelled transition system: what a potential pays for along them, and when the
runs of a machine are seen as such paths. -/

namespace Trace

variable {α : Type u} {κ : Type v}

inductive Path (init : α → Prop) (step : α → κ → α → Prop) : List κ → α → Prop
  | start {a} : init a → Path init step [] a
  | extend {ls a l b} : Path init step ls a → step a l b → Path init step (l :: ls) b

variable {init : α → Prop} {step : α → κ → α → Prop} {ls : List κ} {a b : α} {l : κ}

theorem Path.invariant {P : List κ → α → Prop} (hp : Path init step ls a)
    (h0 : ∀ a, init a → P [] a)
    (hstep : ∀ ls a l b, Path init step ls a → P ls a → step a l b → P (l :: ls) b) : P ls a := by
  induction hp with
  | start ha => exact h0 _ ha
  | extend hp hs ih => exact hstep _ _ _ _ hp ih hs

def tally (p : κ → Bool) (l : κ) : Nat := if p l then 1 else 0

theorem countP_tally (p : κ → Bool) (l : κ) (ls : List κ) :
    (l :: ls).countP p = ls.countP p + tally p l := List.countP_cons

theorem tally_of_true {p : κ → Bool} (h : p l = true) : tally p l = 1 := by simp [tally, h]

theorem tally_of_false {p : κ → Bool} (h : p l = false) : tally p l = 0 := by simp [tally, h]

section Charge

variable {p q : κ → Bool} {Φ : α → Nat} {k B : Nat}

/-- Every `p` is paid for by the potential, which only a `q` raises, and by `k` at most. -/
theorem Path.charged (hp : Path init step ls a) (h0 : ∀ a, init a → Φ a ≤ B)
    (hstep : ∀ ls a l b, Path init step ls a → step a l b →
      tally p l + Φ b ≤ Φ a + k * tally q l) :
    ls.countP p + Φ a ≤ B + k * ls.countP q := by
  induction hp with
  | start ha => simpa using h0 _ ha
  | @extend ls a l b hp hs ih =>
    have hpay := hstep _ _ _ _ hp hs
    rw [countP_tally, countP_tally, Nat.mul_add]
    omega

end Charge

section Simulate

variable {β : Type w} {μ : Type w} {init' : β → Prop} {step' : β → μ → β → Prop}

/-- A step that shows a label is one of the system; one that shows nothing stays where it is. -/
def Exhibits (step' : β → μ → β → Prop) (a : β) (seen : Option μ) (b : β) : Prop :=
  match seen with
  | some m => step' a m b
  | none => b = a

theorem Path.simulate {abs : α → β} {see : κ → Option μ} (hp : Path init step ls a)
    (h0 : ∀ a, init a → init' (abs a))
    (hstep : ∀ ls a l b, Path init step ls a → step a l b →
      Exhibits step' (abs a) (see l) (abs b)) :
    Path init' step' (ls.filterMap see) (abs a) := by
  induction hp with
  | start ha => exact .start (h0 _ ha)
  | @extend ls a l b hp hs ih =>
    have hsim := hstep _ _ _ _ hp hs
    cases hl : see l with
    | none =>
      rw [hl] at hsim
      rw [List.filterMap_cons_none hl, hsim]
      exact ih
    | some m =>
      rw [hl] at hsim
      rw [List.filterMap_cons_some hl]
      exact .extend ih hsim

end Simulate

section Run

variable {σ : Type u} {ι : Type v} {first : σ → Prop} {next : σ → ι → σ} {h : History σ ι} {s : σ}

def Took (next : σ → ι → σ) (s : σ) (e : Step σ ι) (t : σ) : Prop :=
  ∃ i, e = ⟨s, i, next s i⟩ ∧ t = next s i

theorem run_iff_path : Run first next h s ↔ Path first (Took next) h s := by
  constructor
  · intro hr
    induction hr with
    | start hs => exact .start hs
    | tick i _ ih => exact .extend ih ⟨i, rfl, rfl⟩
  · intro hp
    induction hp with
    | start hs => exact .start hs
    | extend _ hs ih =>
      obtain ⟨i, rfl, rfl⟩ := hs
      exact .tick i ih

theorem Run.charged {p q : Step σ ι → Bool} {Φ : σ → Nat} {k B : Nat} (hr : Run first next h s)
    (h0 : ∀ s, first s → Φ s ≤ B)
    (hstep : ∀ h s i, Run first next h s →
      tally p ⟨s, i, next s i⟩ + Φ (next s i) ≤ Φ s + k * tally q ⟨s, i, next s i⟩) :
    h.countP p + Φ s ≤ B + k * h.countP q := by
  apply (run_iff_path.mp hr).charged h0
  rintro ls s _ _ hp ⟨i, rfl, rfl⟩
  exact hstep ls s i (run_iff_path.mpr hp)

/-- The forward simulation rule for runs: what a step shows may depend on the run before it. -/
theorem Run.simulate {β : Type w} {μ : Type w} {init' : β → Prop} {step' : β → μ → β → Prop}
    {abs : σ → β} {see : Step σ ι → Option μ} (hr : Run first next h s)
    (h0 : ∀ s, first s → init' (abs s))
    (hstep : ∀ h s i, Run first next h s →
      Exhibits step' (abs s) (see ⟨s, i, next s i⟩) (abs (next s i))) :
    Path init' step' (h.filterMap see) (abs s) := by
  apply (run_iff_path.mp hr).simulate h0
  rintro ls s _ _ hp ⟨i, rfl, rfl⟩
  exact hstep ls s i (run_iff_path.mpr hp)

end Run

end Trace

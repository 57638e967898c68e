import Mathlib.Tactic.Common
import Mathlib.Data.List.Basic

universe u v

/-! Runs of an input-driven machine together with their histories. -/

namespace Trace

structure Step (σ : Type u) (ι : Type v) where
  pre : σ
  input : ι
  post : σ

/-- The steps of a run, the newest first. -/
abbrev History (σ : Type u) (ι : Type v) := List (Step σ ι)

variable {σ : Type u} {ι : Type v}

inductive Run (init : σ → Prop) (next : σ → ι → σ) : History σ ι → σ → Prop
  | start {s} : init s → Run init next [] s
  | tick {h s} (i : ι) : Run init next h s → Run init next (⟨s, i, next s i⟩ :: h) (next s i)

variable {init : σ → Prop} {next : σ → ι → σ} {h h' : History σ ι} {s : σ} {e : Step σ ι}

/-- The invariant rule: a property of histories and their last states holds of every run
if it holds at the start and every step of a run keeps it. -/
theorem Run.invariant {P : History σ ι → σ → Prop} (hr : Run init next h s)
    (h0 : ∀ s, init s → P [] s)
    (hstep : ∀ h s i, Run init next h s → P h s → P (⟨s, i, next s i⟩ :: h) (next s i)) :
    P h s := by
  induction hr with
  | start hs => exact h0 _ hs
  | tick i hr ih => exact hstep _ _ i hr ih

theorem Run.of_append (hr : Run init next (h' ++ e :: h) s) :
    Run init next h e.pre ∧ e.post = next e.pre e.input := by
  induction h' generalizing s with
  | nil => cases hr with | tick i hr => exact ⟨hr, rfl⟩
  | cons d ds ih => cases hr with | tick i hr => exact ih hr

theorem Run.of_mem (hr : Run init next h s) (he : e ∈ h) :
    ∃ older, Run init next older e.pre ∧ e.post = next e.pre e.input := by
  obtain ⟨newer, older, rfl⟩ := List.append_of_mem he
  exact ⟨older, hr.of_append⟩

/-- Two runs in lockstep from one state; `I` pairs their inputs, as the first run stands. -/
inductive Twin (init : σ → Prop) (next : σ → ι → σ) (I : σ → ι → ι → Prop) :
    History σ ι → σ → History σ ι → σ → Prop
  | start {s : σ} : init s → Twin init next I [] s [] s
  | tick {h h' : History σ ι} {s t : σ} {i j : ι} : Twin init next I h s h' t → I s i j →
      Twin init next I (⟨s, i, next s i⟩ :: h) (next s i) (⟨t, j, next t j⟩ :: h') (next t j)

section Twin

variable {I : σ → ι → ι → Prop} {R : σ → σ → Prop} {t : σ}

theorem Twin.left (ht : Twin init next I h s h' t) : Run init next h s := by
  induction ht with
  | start hs => exact .start hs
  | tick _ _ ih => exact .tick _ ih

theorem Twin.right (ht : Twin init next I h s h' t) : Run init next h' t := by
  induction ht with
  | start hs => exact .start hs
  | tick _ _ ih => exact .tick _ ih

theorem Twin.refl (hI : ∀ s i, I s i i) (hr : Run init next h s) : Twin init next I h s h s := by
  induction hr with
  | start hs => exact .start hs
  | tick i hr ih => exact .tick ih (hI _ i)

theorem Twin.related (ht : Twin init next I h s h' t) (h0 : ∀ s, init s → R s s)
    (hstep : ∀ s t i j, R s t → I s i j → R (next s i) (next t j)) :
    R s t ∧ List.Forall₂ (fun e d => R e.pre d.pre ∧ R e.post d.post) h h' := by
  induction ht with
  | start hs => exact ⟨h0 _ hs, .nil⟩
  | tick _ hi ih =>
    have hnext := hstep _ _ _ _ ih.1 hi
    exact ⟨hnext, .cons ⟨ih.1, hnext⟩ ih.2⟩

end Twin

/-- `Past P h`: every step of `h` stands in `P` to the steps before it. -/
def Past (P : Step σ ι → History σ ι → Prop) : History σ ι → Prop
  | [] => True
  | e :: h => P e h ∧ Past P h

@[simp] theorem past_nil {P : Step σ ι → History σ ι → Prop} : Past P [] := trivial

@[simp] theorem past_cons {P : Step σ ι → History σ ι → Prop} :
    Past P (e :: h) ↔ P e h ∧ Past P h := Iff.rfl

theorem Past.older {P : Step σ ι → History σ ι → Prop} (hp : Past P (h' ++ h)) : Past P h := by
  induction h' with
  | nil => exact hp
  | cons d ds ih => exact ih hp.2

theorem Past.of_append {P : Step σ ι → History σ ι → Prop} (hp : Past P (h' ++ e :: h)) :
    P e h := hp.older.1

theorem past_iff {P : Step σ ι → History σ ι → Prop} :
    Past P h ↔ ∀ newer e older, h = newer ++ e :: older → P e older := by
  constructor
  · intro hp newer e older heq
    subst heq
    exact hp.of_append
  · intro hall
    induction h with
    | nil => trivial
    | cons e h ih =>
      refine ⟨hall [] e h rfl, ih ?_⟩
      intro newer d older heq
      exact hall (e :: newer) d older (by rw [heq]; rfl)

def since (reset : Step σ ι → Bool) (h : History σ ι) : History σ ι :=
  h.takeWhile (fun e => !reset e)

def countSince (reset p : Step σ ι → Bool) (h : History σ ι) : Nat :=
  (since reset h).countP p

section Count

variable {reset p : Step σ ι → Bool}

@[simp] theorem countSince_nil : countSince reset p ([] : History σ ι) = 0 := rfl

theorem countSince_reset (hr : reset e = true) : countSince reset p (e :: h) = 0 := by
  simp [countSince, since, List.takeWhile, hr]

theorem countSince_cons (hr : reset e = false) :
    countSince reset p (e :: h) = countSince reset p h + if p e then 1 else 0 := by
  simp [countSince, since, List.takeWhile, hr, List.countP_cons]

end Count

theorem since_cons {reset : Step σ ι → Bool} (hr : reset e = false) :
    since reset (e :: h) = e :: since reset h := by
  simp [since, List.takeWhile, hr]

/-- Steps of `h` meet `ps` in this order, the newest first. -/
def InOrder : List (Step σ ι → Prop) → History σ ι → Prop
  | [], _ => True
  | p :: ps, h => ∃ newer e older, h = newer ++ e :: older ∧ p e ∧ InOrder ps older

section InOrder

variable {p : Step σ ι → Prop} {ps : List (Step σ ι → Prop)}

theorem InOrder.cons (hp : InOrder ps h) : InOrder ps (e :: h) := by
  cases ps with
  | nil => trivial
  | cons p ps =>
    obtain ⟨newer, d, older, rfl, hd, hps⟩ := hp
    exact ⟨e :: newer, d, older, rfl, hd, hps⟩

theorem InOrder.push (hp : InOrder ps h) (he : p e) : InOrder (p :: ps) (e :: h) :=
  ⟨[], e, h, rfl, he, hp⟩

end InOrder

def exec (next : σ → ι → σ) : List ι → History σ ι → σ → History σ ι × σ
  | [], h, s => (h, s)
  | i :: is, h, s => exec next is (⟨s, i, next s i⟩ :: h) (next s i)

theorem Run.exec (hr : Run init next h s) (is : List ι) :
    Run init next (exec next is h s).1 (exec next is h s).2 := by
  induction is generalizing h s with
  | nil => exact hr
  | cons i is ih => exact ih (.tick i hr)

theorem exec_snoc (is : List ι) (i : ι) :
    Trace.exec next (is ++ [i]) h s = (⟨(Trace.exec next is h s).2, i,
      next (Trace.exec next is h s).2 i⟩ :: (Trace.exec next is h s).1,
        next (Trace.exec next is h s).2 i) := by
  induction is generalizing h s with
  | nil => rfl
  | cons j is ih => simp [Trace.exec, ih]

theorem exec_history (is : List ι) : Trace.exec next is h s =
    ((Trace.exec next is [] s).1 ++ h, (Trace.exec next is [] s).2) := by
  induction is generalizing h s with
  | nil => rfl
  | cons i is ih =>
    simp only [Trace.exec]
    rw [ih, ih (h := [_])]
    simp

theorem exec_inputs (is : List ι) :
    (Trace.exec next is h s).1.map Step.input = is.reverse ++ h.map Step.input := by
  induction is generalizing h s with
  | nil => rfl
  | cons i is ih => simp [Trace.exec, ih]

end Trace

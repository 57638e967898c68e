import Mathlib.Logic.Function.Basic
import Orchestrator.Lib.Trace

universe u v w x

/-! Machines that run side by side, come and go, and share what they hold. -/

namespace Trace

variable {κ : Type w} {σ : Type u} {ι : Type v}

abbrev Pool (κ : Type w) (σ : Type u) := κ → Option σ

variable [DecidableEq κ]

/-- A member enters, takes a turn that is allowed as the pool stands, or is gone. -/
inductive Pool.Move (init : σ → Prop) (next : σ → ι → σ) (allowed : Pool κ σ → κ → ι → Prop)
    (p : Pool κ σ) : Pool κ σ → Prop
  | enter {k s} : p k = none → init s →
      Move init next allowed p (Function.update p k (some s))
  | turn {k s i} : p k = some s → allowed p k i →
      Move init next allowed p (Function.update p k (some (next s i)))
  | leave {k} : Move init next allowed p (Function.update p k none)

inductive Pool.Reached (init : σ → Prop) (next : σ → ι → σ) (allowed : Pool κ σ → κ → ι → Prop) :
    Pool κ σ → Prop
  | empty : Reached init next allowed fun _ => none
  | move {p q} : Reached init next allowed p → Pool.Move init next allowed p q →
      Reached init next allowed q

def Pool.Exclusive {ρ : Type x} (holds : σ → ρ → Prop) (p : Pool κ σ) : Prop :=
  ∀ j k s t r, p j = some s → p k = some t → holds s r → holds t r → j = k

section Reached

variable {init : σ → Prop} {next : σ → ι → σ} {allowed : Pool κ σ → κ → ι → Prop}
  {p : Pool κ σ} {j k : κ} {s t : σ}

theorem Pool.Reached.member {ok : κ → ι → Prop} (hok : ∀ p k i, allowed p k i → ok k i)
    (hp : Pool.Reached init next allowed p) (hk : p k = some s) :
    ∃ h, Run init next h s ∧ ∀ e ∈ h, ok k e.input := by
  induction hp generalizing s with
  | empty => cases hk
  | @move p q hp hmove ih =>
    cases hmove with
    | @enter j t _ ht =>
      by_cases hkj : k = j
      · subst hkj
        rw [Function.update_self, Option.some.injEq] at hk
        subst hk
        exact ⟨[], .start ht, by simp⟩
      · rw [Function.update_of_ne hkj] at hk
        exact ih hk
    | @turn j t i hj hi =>
      by_cases hkj : k = j
      · subst hkj
        rw [Function.update_self, Option.some.injEq] at hk
        subst hk
        obtain ⟨h, hr, hall⟩ := ih hj
        refine ⟨_, .tick i hr, ?_⟩
        intro e he
        obtain rfl | he := List.mem_cons.mp he
        · exact hok p k i hi
        · exact hall e he
      · rw [Function.update_of_ne hkj] at hk
        exact ih hk
    | @leave j =>
      by_cases hkj : k = j
      · subst hkj
        rw [Function.update_self] at hk
        cases hk
      · rw [Function.update_of_ne hkj] at hk
        exact ih hk

theorem Pool.Reached.run {h : History σ ι} (hp : Pool.Reached init next allowed p)
    (hfree : p k = none) (hr : Run init next h s)
    (hall : ∀ e ∈ h, allowed (Function.update p k (some e.pre)) k e.input) :
    Pool.Reached init next allowed (Function.update p k (some s)) := by
  induction hr with
  | start hs => exact .move hp (.enter hfree hs)
  | @tick h s i hr ih =>
    obtain ⟨hi, hall⟩ := List.forall_mem_cons.mp hall
    have hturn : Pool.Move init next allowed (Function.update p k (some s)) _ :=
      .turn (Function.update_self k (some s) p) hi
    rw [Function.update_idem] at hturn
    exact .move (ih hall) hturn

/-- The exclusion rule: two members never hold one resource when a member takes it only while
nobody else holds it. -/
theorem Pool.Reached.exclusive {ρ : Type x} {holds : σ → ρ → Prop}
    (hp : Pool.Reached init next allowed p) (h0 : ∀ s r, init s → ¬holds s r)
    (hturn : ∀ p k s i r, Pool.Reached init next allowed p → p k = some s → allowed p k i →
      holds (next s i) r → holds s r ∨ ∀ j t, j ≠ k → p j = some t → ¬holds t r) :
    p.Exclusive holds := by
  induction hp with
  | empty => exact fun _ _ _ _ _ hj => nomatch hj
  | @move p q hp hmove ih =>
    -- A member that did not move can hold only what the one that did move does not.
    have hother (k : κ) (s : σ) (hq : q = Function.update p k (some s))
        (hs : ∀ r j t, j ≠ k → p j = some t → holds s r → ¬holds t r) : q.Exclusive holds := by
      subst hq
      intro i j a b r hi hj ha hb
      by_cases hik : i = k
      · by_cases hjk : j = k
        · rw [hik, hjk]
        · subst hik
          rw [Function.update_self, Option.some.injEq] at hi
          rw [Function.update_of_ne hjk] at hj
          subst hi
          exact absurd hb (hs r j b hjk hj ha)
      · rw [Function.update_of_ne hik] at hi
        by_cases hjk : j = k
        · subst hjk
          rw [Function.update_self, Option.some.injEq] at hj
          subst hj
          exact absurd ha (hs r i a hik hi hb)
        · rw [Function.update_of_ne hjk] at hj
          exact ih i j a b r hi hj ha hb
    cases hmove with
    | @enter k s _ hs => exact hother k s rfl fun r _ _ _ _ hh => absurd hh (h0 s r hs)
    | @turn k s i hk hi =>
      apply hother k (next s i) rfl
      intro r j t hjk hj hh ht
      obtain hold | hfree := hturn p k s i r hp hk hi hh
      · exact hjk (ih j k t s r hj hk ht hold)
      · exact hfree j t hjk hj ht
    | @leave k =>
      intro i j a b r hi hj ha hb
      have hne (i : κ) (a : σ) (hi : Function.update p k none i = some a) : p i = some a := by
        by_cases hik : i = k
        · subst hik
          rw [Function.update_self] at hi
          cases hi
        · rwa [Function.update_of_ne hik] at hi
      exact ih i j a b r (hne i a hi) (hne j b hj) ha hb

end Reached

end Trace

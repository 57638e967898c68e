import Mathlib.Tactic.Common

universe u

/-! A loop whose body says, pass by pass, whether it goes on. -/

namespace Exec

inductive Flow
  | again | done
  deriving DecidableEq

variable {ε σ : Type} {body : Nat → EStateM ε σ Flow} {s t u : σ} {n k : Nat}

/-- The first `n` passes, or fewer where one of them is the last. -/
def loop (body : Nat → EStateM ε σ Flow) (s : σ) : Nat → EStateM.Result ε σ Flow
  | 0 => .ok .again s
  | n + 1 =>
    match loop body s n with
    | .ok .again t => body n t
    | r => r

theorem loop_succ (h : loop body s n = .ok .again t) : loop body s (n + 1) = body n t := by
  simp [loop, h]

theorem loop_of_le {r : EStateM.Result ε σ Flow} (hr : loop body s n = r)
    (hended : ∀ t, r ≠ .ok .again t) (hk : n ≤ k) : loop body s k = r := by
  induction hk with
  | refl => exact hr
  | step _ ih =>
    rw [loop, ih]
    cases r with
    | error e t => rfl
    | ok flow t =>
      cases flow with
      | again => exact absurd rfl (hended t)
      | done => rfl

theorem loop_unique {r r' : EStateM.Result ε σ Flow} (hr : loop body s n = r)
    (hr' : loop body s k = r') (hended : ∀ t, r ≠ .ok .again t)
    (hended' : ∀ t, r' ≠ .ok .again t) : r = r' := by
  cases Nat.le_total n k with
  | inl h => rw [← hr', loop_of_le hr hended h]
  | inr h => rw [← hr, loop_of_le hr' hended' h]

theorem again_of_le (h : loop body s k = .ok .again t) (hn : n ≤ k) :
    ∃ u, loop body s n = .ok .again u := by
  apply Classical.byContradiction
  intro hended
  have hstuck := loop_of_le rfl (fun u hu => hended ⟨u, hu⟩) hn
  rw [h] at hstuck
  exact hended ⟨t, hstuck.symm⟩

theorem last_of_done (h : loop body s n = .ok .done u) :
    ∃ k t, loop body s k = .ok .again t ∧ body k t = .ok .done u := by
  induction n with
  | zero => cases h
  | succ n ih =>
    cases hn : loop body s n with
    | error e t =>
      rw [loop, hn] at h
      cases h
    | ok flow t =>
      cases flow with
      | again => exact ⟨n, t, hn, (loop_succ hn).symm.trans h⟩
      | done =>
        rw [loop, hn] at h
        exact ih (hn.trans h)

theorem loop_invariant {P : Nat → σ → Prop} (h0 : P 0 s)
    (hstep : ∀ n u v, loop body s n = .ok .again u → P n u → body n u = .ok .again v →
      P (n + 1) v) (h : loop body s n = .ok .again t) : P n t := by
  induction n generalizing t with
  | zero =>
    cases h
    exact h0
  | succ n ih =>
    obtain ⟨u, hu⟩ := again_of_le h (Nat.le_succ n)
    rw [loop_succ hu] at h
    exact hstep n u t hu (ih hu) h

end Exec

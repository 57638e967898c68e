import Orchestrator.Cancel
import Orchestrator.Conversation

namespace Orchestrator

open Exec Trace

def completes (e : Turn) : Bool := takesStep e && decide (e.post.pc ≠ .monitor)

def watches (e : Turn) : Bool := takesStep e && decide (e.post.pc = .monitor)

theorem countP_takesStep (h : History Machine Input) :
    h.countP takesStep = h.countP completes + h.countP watches := by
  induction h with
  | nil => rfl
  | cons e h ih =>
    simp only [List.countP_cons, ih, completes, watches, Bool.and_eq_true, decide_eq_true_eq]
    by_cases hs : takesStep e = true
    · by_cases hpc : e.post.pc = .monitor <;> simp [hs, hpc] <;> omega
    · simp [hs]

def stepsOfRound : Nat := 4 * consecutiveFailureLimit + 5

/-- A failed attempt of the reviewer takes four steps, the most between two failures. -/
def slack (failures : Nat) : Nat := 4 * (consecutiveFailureLimit - 1 - failures)

def rank (ctx : OrchestratorCtx) : Nat :=
  let left := slack ctx.consecutiveFailureCount
  match ctx.runState with
  | .runInit | .contextPrep => stepsOfRound + 1
  | .sessionBind => stepsOfRound
  | .roundFeedbackPrep => 9 + left
  | .executorDispatch => 8 + left
  | .executorMonitor => 7 + left
  | .executorOutputCollect => 6 + left
  | .orchVerify => 5 + left
  | .reviewerDispatch => 4 + left
  | .reviewerMonitor => 3 + left
  | .reviewerOutputCollect => 2 + left
  | .qualityGate => 1 + left
  | .roundRetryDecide =>
    if consecutiveFailureLimit ≤ ctx.consecutiveFailureCount then 1
    else
      match ctx.currentRole.getD .executor with
      | .executor => 9 + left
      | .reviewer => 5 + left
  | _ => 0

def Machine.rank (m : Machine) : Nat := if m.pc = .panicked then 0 else Orchestrator.rank m.ctx

theorem rank_terminal {ctx : OrchestratorCtx} (h : ctx.runState.isTerminal = true) :
    rank ctx = 0 := by
  revert h
  simp only [rank]
  cases ctx.runState <;> simp [RunState.isTerminal]

theorem rank_inactive {m : Machine} (h : ¬m.Active) : m.rank = 0 := by
  rw [Machine.rank]
  split
  · rfl
  · rename_i hpc
    apply rank_terminal
    by_contra ht
    exact h ⟨hpc, by simpa using ht⟩

theorem rank_pos {m : Machine} (h : m.Active) : 0 < m.rank := by
  obtain ⟨hpc, ht⟩ := h
  revert ht
  simp only [Machine.rank, if_neg hpc, rank]
  cases m.ctx.runState
  case roundRetryDecide =>
    intro _
    simp only
    split
    · omega
    · cases m.ctx.currentRole.getD .executor <;> simp only <;> omega
  all_goals
    intro ht
    first
    | exact absurd ht (by decide)
    | simp only [stepsOfRound]
      omega

theorem rank_same {c d : OrchestratorCtx} (hstate : d.runState = c.runState)
    (hcount : d.consecutiveFailureCount = c.consecutiveFailureCount)
    (hrole : d.currentRole = c.currentRole) : rank d = rank c := by
  simp [rank, hstate, hcount, hrole]

theorem slack_succ {n : Nat} (h : n + 1 < consecutiveFailureLimit) :
    slack (n + 1) + 4 = slack n := by
  simp only [slack]
  omega

theorem rank_failed {c d : OrchestratorCtx} {role : AgentRole}
    (hcount : d.consecutiveFailureCount = c.consecutiveFailureCount + 1)
    (hd : d.runState = .roundRetryDecide) (hrole : d.currentRole = some role) :
    rank d ≤ (match role with | .executor => 5 | .reviewer => 1) +
      slack c.consecutiveFailureCount := by
  simp only [rank, hd, hcount, hrole, Option.getD_some]
  split
  · cases role <;> simp only <;> omega
  · have hslack := slack_succ (n := c.consecutiveFailureCount) (by omega)
    cases role <;> simp only <;> omega

theorem rank_retried {ctx : OrchestratorCtx} (hr : ctx.runState = .roundRetryDecide) :
    rank (doRoundRetryDecide ctx) + 1 ≤ rank ctx := by
  have htarget := doRoundRetryDecide_target ctx
  have hcount := doRoundRetryDecide_count ctx
  by_cases hlimit : consecutiveFailureLimit ≤ ctx.consecutiveFailureCount
  · rw [if_pos hlimit] at htarget
    rw [rank_terminal (by simp [htarget, RunState.isTerminal])]
    simp [rank, hr, hlimit]
  · rw [if_neg hlimit] at htarget
    cases hrole : ctx.currentRole.getD .executor <;> rw [hrole] at htarget <;>
      simp only [rank, hr, htarget, hcount, hrole, hlimit, RunState.dispatch, if_false] <;> omega

theorem rank_gated {ctx : OrchestratorCtx} (hr : ctx.runState = .qualityGate)
    (hv : ctx.reviewResult.isSome) :
    rank (doQualityGate ctx) + 1 ≤ rank ctx +
      if (doQualityGate ctx).runState = .roundFeedbackPrep then stepsOfRound else 0 := by
  obtain ⟨v, hv⟩ := Option.isSome_iff_exists.mp hv
  simp only [doQualityGate, hv]
  cases v.decision with
  | revise =>
    simp only [rank, hr, slack, stepsOfRound, consecutiveFailureLimit, if_true]
    omega
  | accept | blocked | irreconcilableDisagreement | poisonedSession => simp [rank, hr]

/-- What every turn keeps: steps are paid for by the rank, which a new round raises. -/
def Paid (e : Turn) : Prop :=
  tally completes e + e.post.rank ≤ e.pre.rank + stepsOfRound * tally revises e

theorem paid_of_not_step {m m' : Machine} {i : Input} (hs : takesStep ⟨m, i, m'⟩ = false)
    (hle : m'.rank ≤ m.rank) : Paid ⟨m, i, m'⟩ := by
  rw [Paid, tally_of_false (by simp [completes, hs])]
  simp only
  omega

theorem paid_of_ended {m m' : Machine} {i : Input} (hm : m.Active) (hm' : ¬m'.Active) :
    Paid ⟨m, i, m'⟩ := by
  have htally : tally completes ⟨m, i, m'⟩ ≤ 1 := by
    simp only [tally]
    split <;> omega
  have hpos := rank_pos hm
  have hzero := rank_inactive hm'
  simp only [Paid]
  omega

section Steps

variable [Crates] {h : History Machine Input} {m m' : Machine} {c : Bool} {o : StepObs}
  {s t : Orch} {flow : Flow} {i : Input}

theorem Outcome.rank_lt {role : AgentRole} {o : ProbeObs} (h : Outcome role o s .done t)
    (hr : s.ctx.runState = .monitor role) (hrole : s.ctx.currentRole = some role) :
    rank t.ctx + 1 ≤ rank s.ctx := by
  have hcur : t.ctx.currentRole = some role := h.sameRound.currentRole.trans hrole
  obtain ⟨hcount, ⟨hf, -⟩ | ⟨-, ht | ht⟩⟩ | ⟨hcount, -, ht⟩ := h.target
  · exact absurd hf (by simp)
  · cases role <;>
      simp only [rank, ht, hr, hcount, RunState.outputCollect, RunState.monitor] <;> omega
  · rw [rank_terminal ht]
    cases role <;> simp only [rank, hr, RunState.monitor] <;> omega
  · have hfailed := rank_failed hcount ht hcur
    cases role <;> simp only [rank, hr, RunState.monitor] at hfailed ⊢ <;> omega

theorem Collected.rank_lt {o : CollectObs} (h : Collected o s t)
    (hr : s.ctx.runState = .reviewerOutputCollect) (hrole : s.ctx.currentRole = some .reviewer) :
    rank t.ctx + 1 ≤ rank s.ctx := by
  obtain ⟨hcur, ⟨hcount, ht⟩ | ⟨hcount, ht, -⟩⟩ := h.target
  · have hfailed := rank_failed hcount ht (hcur.trans hrole)
    simp only [rank, hr] at hfailed ⊢
    omega
  · simp only [rank, hr, ht, hcount]
    omega

theorem Stepped.rank_lt (hcount : Counted h m) (hopen : Unfailed m.ctx)
    (hinit : m.ctx.runState ≠ .runInit) (hactive : m.Active)
    (hst : Stepped o m.toOrch .done t) :
    rank t.ctx + 1 ≤ rank m.ctx + if m.ctx.runState = .qualityGate ∧
      t.ctx.runState = .roundFeedbackPrep then stepsOfRound else 0 := by
  have hbudget := hcount.budget hactive
  cases hst with
  | prepared hr hc _ => simp [rank, hr, hc]
  | bound hr _ =>
    have hzero : m.ctx.consecutiveFailureCount = 0 := hopen (by simp [stageOf, hr])
    simp [rank, hr, hzero, slack, stepsOfRound, consecutiveFailureLimit]
  | @dispatched role _ hr hd =>
    cases hd with
    | launched _ _ hp _ _ =>
      obtain ⟨baseline, inbox, hc⟩ := hp.ctx
      cases role <;>
        simp only [rank, hr, withState, launch, hc, Orch.withLock, OrchestratorCtx.setLock,
          Orch.mapCtx_ctx, RunState.dispatch, RunState.monitor] <;> omega
  | @probed role _ _ hr hp =>
    exact (hp.outcome.rank_lt hr (hbudget.role role (.inl hr))).trans (Nat.le_add_right _ _)
  | retried hr => exact (rank_retried hr).trans (Nat.le_add_right _ _)
  | surveyed hr hs =>
    obtain ⟨_, _, _, _, rfl⟩ := hs
    simp only [rank, hr, withState, Orch.mapCtx_ctx]
    omega
  | verified hr =>
    simp only [rank, hr, doOrchVerify, Orch.mapCtx_ctx]
    omega
  | collected hr hc =>
    exact (hc.rank_lt hr (hbudget.role .reviewer (.inr hr))).trans (Nat.le_add_right _ _)
  | gated hr => simpa [hr] using rank_gated hr (hbudget.verdict hr)
  | fedBack hr =>
    simp only [rank, hr, doRoundFeedbackPrep, Orch.mapCtx_ctx]
    omega
  | skipped hr =>
    obtain hr | hr := hr
    · exact absurd hr hinit
    · exact absurd hr (by simp [hactive.2])

theorem Stepped.rank_again (hst : Stepped o m.toOrch .again t) : rank t.ctx = rank m.ctx := by
  cases hst with
  | @probed role _ _ hr hp =>
    obtain ⟨hcount, ⟨-, ht⟩ | ⟨hf, -⟩⟩ | ⟨-, hf, -⟩ := hp.outcome.target
    · exact rank_same ht hcount hp.outcome.sameRound.currentRole
    · exact absurd hf (by simp)
    · exact absurd hf (by simp)

theorem Move.paid (hr : Run h m) (hmove : Move m i m') : Paid ⟨m, i, m'⟩ := by
  have hm := Run.placed hr
  cases hmove with
  | exit => exact paid_of_not_step rfl (by simp [Machine.rank])
  | idle hidle =>
    apply paid_of_not_step _ le_rfl
    obtain ⟨hpc, ht⟩ | hpc := hidle
    · simp [takesStep, Machine.Steps, hpc, ht]
    · simp [takesStep, Machine.Steps, hpc]
  | admitted hpc hs =>
    obtain ⟨root, rfl⟩ := hs
    apply paid_of_not_step
    · simp [takesStep, Machine.Steps, hpc]
    · simp [Machine.rank, hpc, rank, withState, hm.start hpc]
  | rejected hpc _ =>
    apply paid_of_not_step
    · simp [takesStep, Machine.Steps, hpc]
    · rw [rank_inactive fun ha => absurd ha.2 (by simp [RunState.isTerminal])]
      exact Nat.zero_le _
  | cancelled hpc _ =>
    apply paid_of_not_step
    · simp [takesStep, Machine.Steps, hpc]
    · rw [rank_inactive fun ha => absurd ha.2 (by simp [withState, RunState.isTerminal])]
      exact Nat.zero_le _
  | @stepped c o flow s hs hst =>
    have hactive := hs.active hm
    cases flow with
    | again =>
      rw [Paid, tally_of_false (by simp [completes])]
      simp [Machine.rank, hactive.1, hst.rank_again]
    | done =>
      have hinit : m.ctx.runState ≠ .runInit := by
        apply Run.started hr hactive
        obtain h | ⟨h, -, -⟩ := hs <;> simp [h]
      have hlt := hst.rank_lt (Run.counted hr) (Run.unfailed hr hactive) hinit hactive
      have hrevises : tally revises ⟨m, .tick c o, ⟨s, .head⟩⟩ =
          if m.ctx.runState = .qualityGate ∧ s.ctx.runState = .roundFeedbackPrep then 1 else 0 := by
        simp [tally, revises, gates_of_steps hs]
      have hcompletes : tally completes ⟨m, .tick c o, ⟨s, .head⟩⟩ = 1 := by
        simp [tally, completes, takesStep, hs]
      simp only [Paid, Machine.rank, hactive.1, reduceCtorEq, if_false]
      rw [hcompletes, hrevises]
      split at hlt <;> simp [*] <;> omega
  | failed hs _ =>
    apply paid_of_ended (hs.active hm)
    exact fun ha => absurd ha.2 (by simp [Machine.fail_terminal])
  | panicked hp =>
    obtain ⟨hpc, -⟩ | ⟨hs, -⟩ := hp
    · have hinit := hm.start hpc
      apply paid_of_ended ⟨by simp [hpc], by simp [hinit, RunState.isTerminal]⟩
      exact fun ha => absurd rfl ha.1
    · exact paid_of_ended (hs.active hm) fun ha => absurd rfl ha.1

theorem Run.paid (hr : Run h m) :
    h.countP completes + m.rank ≤ (stepsOfRound + 1) + stepsOfRound * h.countP revises := by
  apply Trace.Run.charged hr
  · rintro _ ⟨args, rfl⟩
    simp [Machine.rank, Machine.init, rank, OrchestratorCtx.new]
  · exact fun h m i hr => Move.paid hr (next_move m i)

def turns (e : Turn) : Bool := isTick e.input

theorem Run.turns_le (hr : Run h m) : m.Active →
    h.countP turns ≤ h.countP takesStep + if m.pc = .start then 0 else 1 := by
  apply Trace.Run.invariant (P := fun h m => m.Active →
    h.countP turns ≤ h.countP takesStep + if m.pc = .start then 0 else 1) hr
  · rintro _ ⟨args, rfl⟩ _
    simp
  · intro h m i hr hinv hactive
    have hm := Run.placed hr
    have hmove := next_move m i
    generalize m.next i = m' at hmove hactive
    cases hmove.active hactive with
    | exit hactive => simpa [turns, isTick, takesStep] using hinv hactive
    | @admitted c o s hpc _ =>
      have hle := hinv ⟨by simp [hpc], by simp [hm.start hpc, RunState.isTerminal]⟩
      have hstep (m' : Machine) : takesStep ⟨m, .tick c o, m'⟩ = false := by
        simp [takesStep, Machine.Steps, hpc]
      rw [if_pos hpc] at hle
      simp only [List.countP_cons, hstep, turns, isTick, if_true, reduceCtorEq, if_false]
      omega
    | @stepped c o flow s hs hst =>
      have hle := hinv (hs.active hm)
      have hstart : m.pc ≠ .start := by
        obtain h | ⟨h, -, -⟩ := hs <;> simp [h]
      have hpc : (if flow = .again then Pc.monitor else .head) ≠ .start := by
        cases flow <;> simp
      have hstep (m' : Machine) : takesStep ⟨m, .tick c o, m'⟩ = true := by
        simp [takesStep, hs]
      rw [if_neg hstart] at hle
      simp only [List.countP_cons, hstep, turns, isTick, if_true, if_neg hpc]
      omega

/-- A run ends: each verdict that opens another round is good for `stepsOfRound` steps, and all
the turns beyond these watch an attempt that goes on. -/
theorem run_bounded (hr : Run h m) :
    h.countP completes ≤ stepsOfRound * (h.countP revises + 1) + 1 ∧
      (m.Active → h.countP turns ≤
        stepsOfRound * (h.countP revises + 1) + 1 + h.countP watches) := by
  have hpaid := Run.paid hr
  rw [Nat.mul_add, Nat.mul_one]
  refine ⟨by omega, fun hactive => ?_⟩
  have hturns := Run.turns_le hr hactive
  have hpos := rank_pos hactive
  rw [countP_takesStep] at hturns
  split at hturns <;> omega

end Steps

open Sample in
theorem run_bounded_silentOnce :
    (run silentOnce).2.ctx.runState = .executorMonitor ∧
      (run silentOnce).1.countP completes ≤
        stepsOfRound * ((run silentOnce).1.countP revises + 1) + 1 ∧
      (run silentOnce).1.countP turns ≤
        stepsOfRound * ((run silentOnce).1.countP revises + 1) + 1 +
          (run silentOnce).1.countP watches := by
  have hstate : (run silentOnce).2.ctx.runState = .executorMonitor := by decide +kernel
  have hpc : (run silentOnce).2.pc ≠ .panicked := by decide +kernel
  have hbound := run_bounded (run_run silentOnce)
  exact ⟨hstate, hbound.1, hbound.2 ⟨hpc, by rw [hstate]; rfl⟩⟩

end Orchestrator

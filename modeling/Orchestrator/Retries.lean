import Orchestrator.Run

namespace Orchestrator

open Exec Trace

abbrev Turn := Step Machine Input

def takesStep (e : Turn) : Bool :=
  match e.input with
  | .tick c _ => e.pre.Steps c
  | .exit _ => false

def gates (e : Turn) : Bool := takesStep e && decide (e.pre.ctx.runState = .qualityGate)

/-- An attempt that the monitor or the reviewer's collection routes to `roundRetryDecide`. -/
def routesToRetry (e : Turn) : Bool :=
  takesStep e && decide (e.post.ctx.runState = .roundRetryDecide)

def dispatches (e : Turn) : Bool :=
  takesStep e && decide (e.pre.ctx.runState = .executorDispatch ∨
    e.pre.ctx.runState = .reviewerDispatch)

/-- The dispatches that no failure of this round accounts for. -/
def progress (ctx : OrchestratorCtx) : Nat :=
  match ctx.runState with
  | .executorMonitor | .executorOutputCollect | .orchVerify | .reviewerDispatch => 1
  | .reviewerMonitor | .reviewerOutputCollect | .qualityGate => 2
  | .roundRetryDecide => if ctx.currentRole = some .reviewer then 1 else 0
  | _ => 0

structure Budget (ctx : OrchestratorCtx) (d : Nat) : Prop where
  spent : d ≤ ctx.consecutiveFailureCount + progress ctx
  below : ctx.runState ≠ .roundRetryDecide → ctx.consecutiveFailureCount < consecutiveFailureLimit
  role : ∀ r, ctx.runState = .monitor r ∨ ctx.runState = .outputCollect r →
    ctx.currentRole = some r
  verdict : ctx.runState = .qualityGate → ctx.reviewResult.isSome

theorem Budget.move {ctx ctx' : OrchestratorCtx} {d k : Nat} (hb : Budget ctx d)
    (hretry : ctx.runState ≠ .roundRetryDecide)
    (hcount : ctx'.consecutiveFailureCount = ctx.consecutiveFailureCount)
    (hprogress : progress ctx + k ≤ progress ctx')
    (hrole : ∀ r, ctx'.runState = .monitor r ∨ ctx'.runState = .outputCollect r →
      ctx'.currentRole = some r)
    (hverdict : ctx'.runState = .qualityGate → ctx'.reviewResult.isSome) : Budget ctx' (d + k) := by
  refine ⟨?_, fun _ => ?_, hrole, hverdict⟩
  · have := hb.spent
    omega
  · rw [hcount]
    exact hb.below hretry

theorem Budget.retry {ctx ctx' : OrchestratorCtx} {d : Nat} {role : AgentRole}
    (hb : Budget ctx d) (hstate : ctx.runState = .monitor role ∨ ctx.runState = .outputCollect role)
    (hcount : ctx'.consecutiveFailureCount = ctx.consecutiveFailureCount + 1)
    (ht : ctx'.runState = .roundRetryDecide) (hrole : ctx'.currentRole = ctx.currentRole) :
    Budget ctx' d := by
  refine ⟨?_, fun h => absurd ht h, ?_, ?_⟩
  · have hspent := hb.spent
    have hcurrent : ctx'.currentRole = some role := by rw [hrole]; exact hb.role role hstate
    have hprogress : progress ctx ≤ 1 + progress ctx' := by
      cases role <;> obtain h | h := hstate <;>
        simp [progress, h, ht, hcurrent, RunState.monitor, RunState.outputCollect]
    omega
  · intro r
    cases r <;> simp [ht, RunState.monitor, RunState.outputCollect]
  · simp [ht]

structure Counted (h : History Machine Input) (m : Machine) : Prop where
  count_eq : m.ctx.consecutiveFailureCount = countSince gates routesToRetry h
  count_le : m.ctx.consecutiveFailureCount ≤ consecutiveFailureLimit
  dispatched_le : countSince gates dispatches h ≤ consecutiveFailureLimit + 1
  budget : m.Active → Budget m.ctx (countSince gates dispatches h)

section Counts

variable {m m' : Machine} {h : History Machine Input} {c : Bool} {o : StepObs}

theorem gates_of_steps (hs : m.Steps c) :
    gates ⟨m, .tick c o, m'⟩ = decide (m.ctx.runState = .qualityGate) := by
  simp [gates, takesStep, hs]

theorem routesToRetry_of_steps (hs : m.Steps c) :
    routesToRetry ⟨m, .tick c o, m'⟩ = decide (m'.ctx.runState = .roundRetryDecide) := by
  simp [routesToRetry, takesStep, hs]

theorem dispatches_of_steps (hs : m.Steps c) :
    dispatches ⟨m, .tick c o, m'⟩ = decide (m.ctx.runState = .executorDispatch ∨
      m.ctx.runState = .reviewerDispatch) := by
  simp [dispatches, takesStep, hs]

theorem countSince_of_not_step {i : Input} (p : Turn → Bool)
    (hp : ∀ e, p e = true → takesStep e = true) (hs : takesStep ⟨m, i, m'⟩ = false) :
    countSince gates p (⟨m, i, m'⟩ :: h) = countSince gates p h := by
  have hg : gates ⟨m, i, m'⟩ = false := by simp [gates, hs]
  have hp : p ⟨m, i, m'⟩ = false := by
    cases hpe : p ⟨m, i, m'⟩ with
    | false => rfl
    | true => rw [hp _ hpe] at hs; exact absurd hs (by simp)
  rw [countSince_cons hg, hp]
  simp

theorem routesToRetry_takesStep (e : Turn) (he : routesToRetry e = true) :
    takesStep e = true := by
  simp only [routesToRetry, Bool.and_eq_true] at he
  exact he.1

theorem dispatches_takesStep (e : Turn) (he : dispatches e = true) : takesStep e = true := by
  simp only [dispatches, Bool.and_eq_true] at he
  exact he.1

end Counts

theorem Counted.ordinary {h : History Machine Input} {m m' : Machine} {c : Bool} {o : StepObs}
    (hinv : Counted h m) (hs : m.Steps c) (hactive : m.Active)
    (hgate : m.ctx.runState ≠ .qualityGate)
    (hcount : m'.ctx.consecutiveFailureCount = m.ctx.consecutiveFailureCount +
      if m'.ctx.runState = .roundRetryDecide then 1 else 0)
    (hretry : m'.ctx.runState = .roundRetryDecide → m.ctx.runState ≠ .roundRetryDecide)
    (hbudget : ∀ d, Budget m.ctx d → m'.Active → Budget m'.ctx (d +
      if m.ctx.runState = .executorDispatch ∨ m.ctx.runState = .reviewerDispatch then 1 else 0)) :
    Counted (⟨m, .tick c o, m'⟩ :: h) m' := by
  have hb := hinv.budget hactive
  have hg : gates ⟨m, .tick c o, m'⟩ = false := by simp [gates_of_steps hs, hgate]
  have hd : countSince gates dispatches (⟨m, .tick c o, m'⟩ :: h) =
      countSince gates dispatches h +
        if m.ctx.runState = .executorDispatch ∨ m.ctx.runState = .reviewerDispatch
        then 1 else 0 := by
    rw [countSince_cons hg, dispatches_of_steps hs]
    simp
  refine ⟨?_, ?_, ?_, ?_⟩
  · rw [countSince_cons hg, routesToRetry_of_steps hs, hcount, hinv.count_eq]
    simp
  · rw [hcount]
    split
    · have := hb.below (hretry ‹_›)
      omega
    · have := hinv.count_le
      omega
  · rw [hd]
    split
    · rename_i hdispatch
      have hspent := hb.spent
      have hbelow : m.ctx.consecutiveFailureCount < consecutiveFailureLimit := by
        apply hb.below
        obtain he | he := hdispatch <;> simp [he]
      have hprogress : progress m.ctx ≤ 1 := by
        obtain he | he := hdispatch <;> simp [progress, he]
      omega
    · exact hinv.dispatched_le
  · intro ha
    rw [hd]
    exact hbudget _ hb ha

theorem Counted.unstepped {h : History Machine Input} {m m' : Machine} {i : Input}
    (hinv : Counted h m) (hs : takesStep ⟨m, i, m'⟩ = false)
    (hcount : m'.ctx.consecutiveFailureCount = m.ctx.consecutiveFailureCount)
    (hbudget : ∀ d, (m.Active → Budget m.ctx d) → m'.Active → Budget m'.ctx d) :
    Counted (⟨m, i, m'⟩ :: h) m' := by
  have hr := countSince_of_not_step (h := h) routesToRetry routesToRetry_takesStep hs
  have hd := countSince_of_not_step (h := h) dispatches dispatches_takesStep hs
  refine ⟨?_, ?_, ?_, ?_⟩
  · rw [hr, hcount, hinv.count_eq]
  · rw [hcount]
    exact hinv.count_le
  · rw [hd]
    exact hinv.dispatched_le
  · rw [hd]
    exact hbudget _ hinv.budget

section Step

variable {h : History Machine Input} {m : Machine} {c : Bool} {o : StepObs}

theorem Counted.gate (hinv : Counted h m) (hs : m.Steps c) (hm : m.Placed)
    (hr : m.ctx.runState = .qualityGate) (pc : Pc) :
    Counted (⟨m, .tick c o, ⟨m.toOrch.mapCtx doQualityGate, pc⟩⟩ :: h)
      ⟨m.toOrch.mapCtx doQualityGate, pc⟩ := by
  have hb := hinv.budget (hs.active hm)
  obtain ⟨v, hv⟩ := Option.isSome_iff_exists.mp (hb.verdict hr)
  have hg : gates ⟨m, .tick c o, ⟨m.toOrch.mapCtx doQualityGate, pc⟩⟩ = true := by
    simp [gates_of_steps hs, hr]
  have hzero : (doQualityGate m.ctx).consecutiveFailureCount = 0 := by
    simp only [doQualityGate, hv]
    cases v.decision <;> rfl
  refine ⟨?_, ?_, ?_, ?_⟩
  · rw [countSince_reset hg]
    exact hzero
  · simp [hzero]
  · simp [countSince_reset hg]
  · rintro ⟨-, ha⟩
    rw [countSince_reset hg]
    revert ha hzero
    simp only [doQualityGate, hv, Orch.mapCtx_ctx]
    cases v.decision with
    | revise =>
      intro _ _
      refine ⟨by simp, by simp [consecutiveFailureLimit], ?_, by simp⟩
      intro r
      cases r <;> simp [RunState.monitor, RunState.outputCollect]
    | accept | blocked | irreconcilableDisagreement | poisonedSession =>
      simp [RunState.isTerminal]

theorem Counted.retried (hinv : Counted h m) (hs : m.Steps c) (hm : m.Placed)
    (hr : m.ctx.runState = .roundRetryDecide) (pc : Pc) :
    Counted (⟨m, .tick c o, ⟨m.toOrch.mapCtx doRoundRetryDecide, pc⟩⟩ :: h)
      ⟨m.toOrch.mapCtx doRoundRetryDecide, pc⟩ := by
  by_cases hlimit : consecutiveFailureLimit ≤ m.ctx.consecutiveFailureCount
  · apply hinv.ordinary hs (hs.active hm) (by simp [hr])
    · simp [doRoundRetryDecide, hlimit]
    · simp [doRoundRetryDecide, hlimit]
    · intro d _ ha
      exact absurd ha.2 (by simp [doRoundRetryDecide, hlimit, RunState.isTerminal])
  · have hstate : (doRoundRetryDecide m.ctx).runState =
        .dispatch (m.ctx.currentRole.getD .executor) := by
      simp only [doRoundRetryDecide, if_neg hlimit]
      cases m.ctx.currentRole.getD .executor <;> rfl
    have hcount : (doRoundRetryDecide m.ctx).consecutiveFailureCount =
        m.ctx.consecutiveFailureCount := by
      simp [doRoundRetryDecide, hlimit]
    have hne : (doRoundRetryDecide m.ctx).runState ≠ .roundRetryDecide := by
      rw [hstate]
      cases m.ctx.currentRole.getD .executor <;> simp [RunState.dispatch]
    apply hinv.ordinary hs (hs.active hm) (by simp [hr]) (by simp [hcount, hne])
    · exact fun h => absurd h hne
    · rintro d ⟨hspent, -, -, -⟩ _
      refine ⟨?_, fun _ => ?_, ?_, ?_⟩
      · simp only [Orch.mapCtx_ctx, progress, hstate, hcount]
        simp only [progress, hr] at hspent
        simp only [hr]
        cases hcur : m.ctx.currentRole with
        | none => simpa [hcur, RunState.dispatch] using hspent
        | some r => cases r <;> simpa [hcur, RunState.dispatch] using hspent
      · simp only [Orch.mapCtx_ctx, hcount]
        omega
      · intro r
        simp only [Orch.mapCtx_ctx, hstate]
        cases r <;> cases m.ctx.currentRole.getD .executor <;>
          simp [RunState.dispatch, RunState.monitor, RunState.outputCollect]
      · simp only [Orch.mapCtx_ctx, hstate]
        cases m.ctx.currentRole.getD .executor <;> simp [RunState.dispatch]

inductive PlainEdge : RunState → RunState → Prop
  | prepared : PlainEdge .contextPrep .sessionBind
  | bound : PlainEdge .sessionBind .executorDispatch
  | surveyed : PlainEdge .executorOutputCollect .orchVerify
  | verified : PlainEdge .orchVerify .reviewerDispatch
  | fedBack : PlainEdge .roundFeedbackPrep .executorDispatch
  | skipped : PlainEdge .runInit .runInit

theorem Counted.plain (hinv : Counted h m) (hs : m.Steps c) (hm : m.Placed) {s : Orch}
    (hedge : PlainEdge m.ctx.runState s.ctx.runState)
    (hcount : s.ctx.consecutiveFailureCount = m.ctx.consecutiveFailureCount) (pc : Pc) :
    Counted (⟨m, .tick c o, ⟨s, pc⟩⟩ :: h) ⟨s, pc⟩ := by
  generalize hr : m.ctx.runState = r at hedge
  generalize hr' : s.ctx.runState = r' at hedge
  apply hinv.ordinary hs (hs.active hm)
  · cases hedge <;> simp [hr]
  · cases hedge <;> simp [hcount, hr']
  · cases hedge <;> simp [hr']
  · intro d hd _
    apply hd.move _ hcount
    · cases hedge <;> simp [progress, hr, hr']
    · intro role
      cases hedge <;> cases role <;> simp [hr', RunState.monitor, RunState.outputCollect]
    · cases hedge <;> simp [hr']
    · cases hedge <;> simp [hr]

variable [Crates]

theorem Counted.dispatched (hinv : Counted h m) (hs : m.Steps c) (hm : m.Placed)
    {role : AgentRole} {t : Orch} (hr : m.ctx.runState = .dispatch role)
    (ht : Dispatched role o.dispatch m.toOrch t) (pc : Pc) :
    Counted (⟨m, .tick c o, ⟨t.mapCtx (withState (.monitor role)), pc⟩⟩ :: h)
      ⟨t.mapCtx (withState (.monitor role)), pc⟩ := by
  obtain ⟨hid, hlock, hp, hb, hpid⟩ := ht
  obtain ⟨baseline, inbox, hc⟩ := hp.ctx
  apply hinv.ordinary hs (hs.active hm)
  · cases role <;> simp [hr, RunState.dispatch]
  · cases role <;> simp [withState, launch, hc, Orch.withLock, OrchestratorCtx.setLock,
      RunState.monitor]
  · cases role <;> simp [hr, RunState.dispatch]
  · intro d hd _
    apply hd.move
    · cases role <;> simp [hr, RunState.dispatch]
    · simp [withState, launch, hc, Orch.withLock, OrchestratorCtx.setLock]
    · cases role <;> simp [progress, hr, withState, RunState.monitor, RunState.dispatch]
    · intro r
      cases r <;> cases role <;> simp [withState, launch, RunState.monitor, RunState.outputCollect]
    · cases role <;> simp [withState, RunState.monitor]

theorem Counted.probed (hinv : Counted h m) (hs : m.Steps c) (hm : m.Placed)
    {role : AgentRole} {flow : Flow} {t : Orch} (hr : m.ctx.runState = .monitor role)
    (ht : Outcome role o.probe m.toOrch flow t) (pc : Pc) :
    Counted (⟨m, .tick c o, ⟨t, pc⟩⟩ :: h) ⟨t, pc⟩ := by
  have hrole := ht.sameRound.currentRole
  have hretry : m.ctx.runState ≠ .roundRetryDecide := by
    cases role <;> simp [hr, RunState.monitor]
  have hnd : ¬(m.ctx.runState = .executorDispatch ∨ m.ctx.runState = .reviewerDispatch) := by
    cases role <;> simp [hr, RunState.monitor]
  apply hinv.ordinary hs (hs.active hm)
  · cases role <;> simp [hr, RunState.monitor]
  · obtain ⟨hcount, ⟨-, ht⟩ | ⟨-, ht | ht⟩⟩ | ⟨hcount, -, ht⟩ := ht.target
    · simp [hcount, ht, hretry]
    · cases role <;> simp [hcount, ht, RunState.outputCollect]
    · simp [hcount, RunState.ne_retry_of_terminal ht]
    · simp [hcount, ht]
  · exact fun _ => hretry
  · intro d hd ha
    rw [if_neg hnd]
    have hcurrent : t.ctx.currentRole = some role := by rw [hrole]; exact hd.role role (.inl hr)
    obtain ⟨hcount, ⟨-, ht⟩ | ⟨-, ht | ht⟩⟩ | ⟨hcount, -, ht⟩ := ht.target
    · apply hd.move hretry hcount
      · simp [progress, ht, hrole]
      · rw [ht, hrole]
        exact hd.role
      · rw [ht, hr]
        cases role <;> simp [RunState.monitor]
    · apply hd.move hretry hcount
      · cases role <;> simp [progress, hr, ht, RunState.monitor, RunState.outputCollect]
      · intro r
        cases r <;> cases role <;> simp [ht, hcurrent, RunState.monitor, RunState.outputCollect]
      · cases role <;> simp [ht, RunState.outputCollect]
    · exact absurd ha.2 (by simp [ht])
    · exact hd.retry (.inl hr) hcount ht hrole

theorem Collected.target {o : CollectObs} {s t : Orch} (h : Collected o s t) :
    t.ctx.currentRole = s.ctx.currentRole ∧
      (t.ctx.consecutiveFailureCount = s.ctx.consecutiveFailureCount + 1 ∧
          t.ctx.runState = .roundRetryDecide ∨
        t.ctx.consecutiveFailureCount = s.ctx.consecutiveFailureCount ∧
          t.ctx.runState = .qualityGate ∧ t.ctx.reviewResult.isSome) := by
  cases h with
  | unchanged _ | unreadable _ _ _ | rejected _ _ _ _ => exact ⟨rfl, .inl ⟨rfl, rfl⟩⟩
  | dirty _ hv _ _ => cases hv <;> exact ⟨rfl, .inl ⟨rfl, rfl⟩⟩
  | clean _ hv _ _ =>
    cases hv with
    | saved hv => exact ⟨rfl, .inr ⟨rfl, rfl, Option.isSome_of_eq_some hv⟩⟩
    | fresh _ _ _ _ => exact ⟨rfl, .inr ⟨rfl, rfl, rfl⟩⟩

theorem Counted.collected (hinv : Counted h m) (hs : m.Steps c) (hm : m.Placed) {t : Orch}
    (hr : m.ctx.runState = .reviewerOutputCollect)
    (ht : Collected o.reviewerOutput m.toOrch t) (pc : Pc) :
    Counted (⟨m, .tick c o, ⟨t, pc⟩⟩ :: h) ⟨t, pc⟩ := by
  have hcollect : m.ctx.runState = .outputCollect .reviewer := hr
  obtain ⟨hrole, ⟨hcount, ht⟩ | ⟨hcount, ht, hv⟩⟩ := ht.target
  · apply hinv.ordinary hs (hs.active hm) (by simp [hr]) (by simp [hcount, ht]) (by simp [hr])
    intro d hd _
    simpa [hr] using hd.retry (.inr hcollect) hcount ht hrole
  · apply hinv.ordinary hs (hs.active hm) (by simp [hr]) (by simp [hcount, ht]) (by simp [hr])
    intro d hd _
    apply hd.move (by simp [hr]) hcount
    · simp [progress, hr, ht]
    · intro r
      cases r <;> simp [ht, RunState.monitor, RunState.outputCollect]
    · exact fun _ => hv

theorem Counted.stepped (hinv : Counted h m) (hs : m.Steps c) (hm : m.Placed) {flow : Flow}
    {s : Orch} (hst : Stepped o m.toOrch flow s) (pc : Pc) :
    Counted (⟨m, .tick c o, ⟨s, pc⟩⟩ :: h) ⟨s, pc⟩ := by
  cases hst with
  | dispatched hr ht => exact hinv.dispatched hs hm hr ht pc
  | probed hr ht => exact hinv.probed hs hm hr ht.outcome pc
  | collected hr ht => exact hinv.collected hs hm hr ht pc
  | retried hr => exact hinv.retried hs hm hr pc
  | gated hr => exact hinv.gate hs hm hr pc
  | prepared hr hc _ =>
    apply hinv.plain hs hm _ (by rw [hc])
    rw [hr, hc]
    exact .prepared
  | bound hr _ =>
    apply hinv.plain hs hm
    · rw [hr]
      exact .bound
    · rfl
  | surveyed hr hsurvey =>
    obtain ⟨_, _, _, _, rfl⟩ := hsurvey
    apply hinv.plain hs hm
    · rw [hr]
      exact .surveyed
    · rfl
  | verified hr =>
    apply hinv.plain hs hm
    · rw [hr]
      exact .verified
    · rfl
  | fedBack hr =>
    apply hinv.plain hs hm
    · rw [hr]
      exact .fedBack
    · rfl
  | skipped hr =>
    apply hinv.plain hs hm
    · obtain hr | hr := hr
      · rw [hr]
        exact .skipped
      · exact absurd hr (by simp [(hs.active hm).2])
    · rfl

theorem Counted.interrupted (hinv : Counted h m) (hs : m.Steps c) (hm : m.Placed) {s : Orch}
    (hi : Interrupted o m.toOrch s) {m' : Machine}
    (hcount : m'.ctx.consecutiveFailureCount = s.ctx.consecutiveFailureCount)
    (hretry : m'.ctx.runState ≠ .roundRetryDecide) (hdone : ¬m'.Active) :
    Counted (⟨m, .tick c o, m'⟩ :: h) m' := by
  apply hinv.ordinary hs (hs.active hm) hi.source.2
  · simp [hcount, hi.kept.count, hretry]
  · exact fun h => absurd h hretry
  · exact fun d _ ha => absurd ha hdone

theorem Counted.move (hinv : Counted h m) (hm : m.Placed) {i : Input} {m' : Machine}
    (hmove : Move m i m') : Counted (⟨m, i, m'⟩ :: h) m' := by
  cases hmove with
  | exit => exact hinv.unstepped rfl rfl fun d hb ha => hb ha
  | @idle c o hidle =>
    apply hinv.unstepped _ rfl fun d hb ha => hb ha
    obtain ⟨hpc, ht⟩ | hpc := hidle
    · simp [takesStep, Machine.Steps, hpc, ht]
    · simp [takesStep, Machine.Steps, hpc]
  | admitted hpc hs =>
    obtain ⟨root, rfl⟩ := hs
    apply hinv.unstepped
    · simp [takesStep, Machine.Steps, hpc]
    · rfl
    · intro d hb _
      have hr := hm.start hpc
      obtain ⟨hspent, hbelow, -, -⟩ := hb ⟨by simp [hpc], by simp [hr, RunState.isTerminal]⟩
      refine ⟨?_, fun _ => hbelow (by simp [hr]), ?_, by simp [withState]⟩
      · simpa [progress, hr, withState] using hspent
      · intro role
        cases role <;> simp [withState, RunState.monitor, RunState.outputCollect]
  | rejected hpc hs =>
    obtain ⟨root, rfl⟩ := hs
    apply hinv.unstepped
    · simp [takesStep, Machine.Steps, hpc]
    · rfl
    · exact fun d _ ha => absurd ha.2 (by simp [RunState.isTerminal])
  | cancelled hpc ht =>
    apply hinv.unstepped
    · simp [takesStep, Machine.Steps, hpc]
    · rfl
    · exact fun d _ ha => absurd ha.2 (by simp [withState, RunState.isTerminal])
  | stepped hs hst => exact hinv.stepped hs hm hst _
  | @failed c o s e hs hi =>
    have ht := Machine.fail_terminal e s.ctx
    apply hinv.interrupted hs hm hi
    · rfl
    · exact RunState.ne_retry_of_terminal ht
    · exact fun ha => absurd ha.2 (by simp [ht])
  | panicked hp =>
    obtain ⟨hpc, root, rfl⟩ | ⟨hs, hi⟩ := hp
    · apply hinv.unstepped
      · simp [takesStep, Machine.Steps, hpc]
      · rfl
      · exact fun d _ ha => absurd rfl ha.1
    · apply hinv.interrupted hs hm hi
      · rfl
      · rw [hi.kept.runState]
        exact hi.source.1
      · exact fun ha => absurd rfl ha.1

theorem Run.counted (hr : Run h m) : Counted h m := by
  apply Trace.Run.invariant (P := Counted) hr
  · rintro _ ⟨args, rfl⟩
    refine ⟨rfl, by simp [Machine.init, OrchestratorCtx.new], by simp, fun _ => ?_⟩
    refine ⟨by simp, fun _ => Nat.zero_lt_succ 4, ?_, by simp [Machine.init, OrchestratorCtx.new]⟩
    intro r
    cases r <;> simp [Machine.init, OrchestratorCtx.new, RunState.monitor, RunState.outputCollect]
  · exact fun h m i hr hinv => hinv.move (Run.placed hr) (next_move m i)

end Step

theorem next_retryDecide [Crates] {m : Machine} {c : Bool} (o : StepObs) (hs : m.Steps c)
    (hr : m.ctx.runState = .roundRetryDecide) :
    (m.next (.tick c o)).ctx = doRoundRetryDecide m.ctx := by
  have hstep : step o m.toOrch = .ok .done (m.toOrch.mapCtx doRoundRetryDecide) := by
    simp only [step, bind, EStateM.bind, OrchM.ctx, hr]
    rfl
  rw [next_of_steps hs, hstep]
  rfl

/-- The failure count never passes its limit and counts exactly the attempts of the round that
failed; it alone decides on a retry; and no round dispatches more than one attempt beyond the
limit. -/
theorem failureCount_bounds [Crates] {h : History Machine Input} {m : Machine} (hr : Run h m) :
    m.ctx.consecutiveFailureCount ≤ consecutiveFailureLimit ∧
      m.ctx.consecutiveFailureCount = countSince gates routesToRetry h ∧
      countSince gates dispatches h ≤ consecutiveFailureLimit + 1 ∧
      ∀ c o, m.Steps c → m.ctx.runState = .roundRetryDecide →
        let after := (m.next (.tick c o)).ctx
        (after.runState = .runFailedConsecutiveFailureLimit ↔
          m.ctx.consecutiveFailureCount = consecutiveFailureLimit) ∧
        (m.ctx.consecutiveFailureCount ≠ consecutiveFailureLimit →
          after.runState = .dispatch (m.ctx.currentRole.getD .executor)) := by
  have hinv := Run.counted hr
  refine ⟨hinv.count_le, hinv.count_eq, hinv.dispatched_le, ?_⟩
  intro c o hs hretry
  simp only [next_retryDecide o hs hretry]
  have hle := hinv.count_le
  by_cases hlimit : consecutiveFailureLimit ≤ m.ctx.consecutiveFailureCount
  · have heq := Nat.le_antisymm hle hlimit
    simp [doRoundRetryDecide, heq]
  · have hne : m.ctx.consecutiveFailureCount ≠ consecutiveFailureLimit := by omega
    have hstate : (doRoundRetryDecide m.ctx).runState =
        .dispatch (m.ctx.currentRole.getD .executor) := by
      simp only [doRoundRetryDecide, if_neg hlimit]
      cases m.ctx.currentRole.getD .executor <;> rfl
    simp only [hstate, hne, iff_false, ne_eq, not_false_iff, implies_true, and_true]
    cases m.ctx.currentRole.getD .executor <;> simp [RunState.dispatch]

def Sample.silentOnce : List Input :=
  [.tick false (obsAt 0), .tick false (obsAt 0), .tick false (obsAt 0), .tick false (obsAt 0),
    .exit 0,
    .tick false { obsAt 5 with probe := { probeAt 5 with tryWait := some (some 1) } },
    .tick false (obsAt 6), .tick false (obsAt 6)]

open Sample in
theorem failureCount_bounds_silentOnce :
    (run silentOnce).2.ctx.runState = .executorMonitor ∧
      countSince gates dispatches (run silentOnce).1 = 2 ∧
      countSince gates routesToRetry (run silentOnce).1 = 1 ∧
      (run silentOnce).2.ctx.consecutiveFailureCount ≤ consecutiveFailureLimit ∧
      (run silentOnce).2.ctx.consecutiveFailureCount =
        countSince gates routesToRetry (run silentOnce).1 ∧
      countSince gates dispatches (run silentOnce).1 ≤ consecutiveFailureLimit + 1 := by
  have h := failureCount_bounds (run_run silentOnce)
  exact ⟨by decide +kernel, by decide +kernel, by decide +kernel, h.1, h.2.1, h.2.2.1⟩

end Orchestrator

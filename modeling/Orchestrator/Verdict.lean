import Orchestrator.Retries

namespace Orchestrator

open Rust Exec Trace

def executorCollects (e : Turn) : Bool :=
  takesStep e && decide (e.pre.ctx.runState = .executorOutputCollect)

def dispatchesRole (role : AgentRole) (e : Turn) : Bool :=
  takesStep e && decide (e.pre.ctx.runState = .dispatch role)

def Reviews (e : Turn) : Prop := dispatchesRole .executor e = false ∧ executorCollects e = false

structure AttemptOf (d : Turn) (mid : List Turn) (a : AttemptStateData) : Prop where
  dispatch : dispatchesRole .reviewer d = true
  launched : ∃ b, d.post.ctx.attempt = some b ∧ SameAttempt b a
  since : ∀ x ∈ mid, Reviews x ∧ dispatchesRole .reviewer x = false

section Origin

variable [Crates]

/-- A collection that reads the verdict `v` from the outbox of the attempt `a`, the outbox
having changed since the dispatch. -/
structure Saves (policy : NotionPolicy) (e : Turn) (a : AttemptStateData) (v : ReviewerYaml) :
    Prop where
  collects : ∃ c o, e.input = .tick c o ∧ e.pre.Steps c ∧
    e.pre.ctx.runState = .reviewerOutputCollect ∧
    (∃ raw, readToString o.reviewerOutput.outboxText = .ok raw ∧ parseReviewerYaml raw = .ok v) ∧
    ∃ mtime, optionalFileMtime o.reviewerOutput.outboxMtime = .ok mtime ∧
      mtime ≠ a.preReviewerOutboxMtime
  attempt : e.pre.ctx.attempt = some a
  policy : enforceReviewerNotionPolicy policy v = .ok ()

/-- The verdict `v` was read in this round, from an attempt that is itself of this round. -/
def Origin (policy : NotionPolicy) (h : History Machine Input) (v : ReviewerYaml) : Prop :=
  ∃ newer e mid d older a, h = newer ++ e :: (mid ++ d :: older) ∧ Saves policy e a v ∧
    AttemptOf d mid a ∧ ∀ x ∈ newer, Reviews x

variable {h : History Machine Input} {policy : NotionPolicy} {v : ReviewerYaml} {x : Turn}

theorem Origin.cons (ho : Origin policy h v) (hx : Reviews x) : Origin policy (x :: h) v := by
  obtain ⟨newer, e, mid, d, older, a, rfl, hs, ha, hnewer⟩ := ho
  exact ⟨x :: newer, e, mid, d, older, a, rfl, hs, ha, List.forall_mem_cons.mpr ⟨hx, hnewer⟩⟩

end Origin

def InAttempt (h : History Machine Input) (ctx : OrchestratorCtx) : Prop :=
  ∃ mid d older a, h = mid ++ d :: older ∧ ctx.attempt = some a ∧ AttemptOf d mid a

def Reviewing (ctx : OrchestratorCtx) : Prop :=
  match ctx.runState with
  | .reviewerDispatch | .reviewerMonitor | .reviewerOutputCollect | .qualityGate | .runDone => True
  | .roundRetryDecide => ctx.currentRole = some .reviewer
  | _ => False

theorem InAttempt.cons {h : History Machine Input} {c d : OrchestratorCtx} {x : Turn}
    (hi : InAttempt h c) (hx : Reviews x)
    (hd : dispatchesRole .reviewer x = false)
    (hsame : ∀ a, c.attempt = some a → ∃ b, d.attempt = some b ∧ SameAttempt a b) :
    InAttempt (x :: h) d := by
  obtain ⟨mid, e, older, a, rfl, ha, he⟩ := hi
  obtain ⟨b, hb, hab⟩ := hsame a ha
  obtain ⟨l, hl, hla⟩ := he.launched
  refine ⟨x :: mid, e, older, b, rfl, hb, he.dispatch, ⟨l, hl, ?_⟩, ?_⟩
  · exact ⟨hab.role.trans hla.role, hab.dispatchTs.trans hla.dispatchTs,
      hab.preReviewerOutboxMtime.trans hla.preReviewerOutboxMtime⟩
  · exact List.forall_mem_cons.mpr ⟨⟨hx, hd⟩, he.since⟩

theorem reviews_of_reviewing {m m' : Machine} {i : Input} (hr : Reviewing m.ctx) :
    Reviews ⟨m, i, m'⟩ := by
  revert hr
  simp only [Reviewing, Reviews, dispatchesRole, executorCollects]
  cases m.ctx.runState <;> simp [RunState.dispatch]

theorem dispatchesRole_of_steps {m m' : Machine} {c : Bool} {o : StepObs} {role : AgentRole}
    (hs : m.Steps c) :
    dispatchesRole role ⟨m, .tick c o, m'⟩ = decide (m.ctx.runState = .dispatch role) := by
  simp [dispatchesRole, takesStep, hs]

theorem not_reviewing_of_terminal {ctx : OrchestratorCtx} (ht : ctx.runState.isTerminal = true)
    (hd : ctx.runState ≠ .runDone) : ¬Reviewing ctx := by
  revert ht hd
  simp only [Reviewing]
  cases ctx.runState <;> simp [RunState.isTerminal]

theorem reviewing_of_retried {ctx : OrchestratorCtx} (hr : ctx.runState = .roundRetryDecide)
    (h : Reviewing (doRoundRetryDecide ctx)) : Reviewing ctx := by
  revert h
  by_cases hlimit : consecutiveFailureLimit ≤ ctx.consecutiveFailureCount
  · simp [Reviewing, doRoundRetryDecide, hlimit]
  · simp only [Reviewing, doRoundRetryDecide, if_neg hlimit, hr]
    cases ctx.currentRole with
    | none => simp
    | some role => cases role <;> simp

theorem doRoundRetryDecide_kept (ctx : OrchestratorCtx) :
    (doRoundRetryDecide ctx).reviewResult = ctx.reviewResult ∧
      (doRoundRetryDecide ctx).args = ctx.args ∧
      (doRoundRetryDecide ctx).preReviewerGitStatus = ctx.preReviewerGitStatus ∧
      (∀ r, (doRoundRetryDecide ctx).runState ≠ .monitor r) ∧
      (∀ r, (doRoundRetryDecide ctx).runState ≠ .outputCollect r) ∧
      (doRoundRetryDecide ctx).runState ≠ .runDone := by
  by_cases hlimit : consecutiveFailureLimit ≤ ctx.consecutiveFailureCount
  · simp only [doRoundRetryDecide, if_pos hlimit]
    refine ⟨trivial, trivial, trivial, fun r => ?_, fun r => ?_, by simp⟩
    · cases r <;> simp [RunState.monitor]
    · cases r <;> simp [RunState.outputCollect]
  · simp only [doRoundRetryDecide, if_neg hlimit]
    refine ⟨trivial, trivial, trivial, fun r => ?_, fun r => ?_, ?_⟩
    · cases ctx.currentRole.getD .executor <;> cases r <;> simp [RunState.monitor]
    · cases ctx.currentRole.getD .executor <;> cases r <;> simp [RunState.outputCollect]
    · cases ctx.currentRole.getD .executor <;> simp

section Reviewed

variable [Crates]

structure Reviewed (h : History Machine Input) (m : Machine) : Prop where
  attempt : m.Active → m.ctx.runState = .monitor .reviewer ∨
    m.ctx.runState = .outputCollect .reviewer → InAttempt h m.ctx
  origin : Reviewing m.ctx → ∀ v, m.ctx.reviewResult = some v →
    Origin m.ctx.args.notionPolicy h v
  done : m.ctx.runState = .runDone → ∃ v, m.ctx.reviewResult = some v ∧ v.decision = .accept

variable {h : History Machine Input} {m m' : Machine} {i : Input} {c : Bool} {o : StepObs}
  {s t : Orch} {flow : Flow}

theorem Reviewed.outside (hm : ¬Reviewing m.ctx) : Reviewed h m := by
  refine ⟨fun _ hr => absurd ?_ hm, fun hr => absurd hr hm, fun hr => absurd ?_ hm⟩
  · obtain hr | hr := hr <;> simp [Reviewing, hr, RunState.monitor, RunState.outputCollect]
  · simp [Reviewing, hr]

theorem Reviewed.keep (hinv : Reviewed h m) (hreview : Reviewing m'.ctx → Reviewing m.ctx)
    (hverdict : m'.ctx.reviewResult = m.ctx.reviewResult) (hargs : m'.ctx.args = m.ctx.args)
    (hattempt : m'.Active → m'.ctx.runState = .monitor .reviewer ∨
      m'.ctx.runState = .outputCollect .reviewer → InAttempt (⟨m, i, m'⟩ :: h) m'.ctx)
    (hdone : m'.ctx.runState = .runDone → ∃ v, m'.ctx.reviewResult = some v ∧
      v.decision = .accept) : Reviewed (⟨m, i, m'⟩ :: h) m' := by
  refine ⟨hattempt, fun hr v hv => ?_, hdone⟩
  rw [hverdict] at hv
  rw [hargs]
  exact (hinv.origin (hreview hr) v hv).cons (reviews_of_reviewing (hreview hr))

theorem Reviewed.same (hinv : Reviewed h m) (hs : takesStep ⟨m, i, m'⟩ = false)
    (hctx : m'.ctx = m.ctx) (hactive : m'.Active → m.Active) :
    Reviewed (⟨m, i, m'⟩ :: h) m' := by
  have hdispatch : ∀ role, dispatchesRole role ⟨m, i, m'⟩ = false := by
    intro role
    simp [dispatchesRole, hs]
  apply hinv.keep
  · rw [hctx]
    exact fun h => h
  · rw [hctx]
  · rw [hctx]
  · rw [hctx]
    intro ha hr
    apply (hinv.attempt (hactive ha) hr).cons
    · exact ⟨hdispatch _, by simp [executorCollects, hs]⟩
    · exact hdispatch _
    · exact fun a ha => ⟨a, ha, rfl, rfl, rfl⟩
  · rw [hctx]
    exact hinv.done

theorem Reviewed.dispatched (hinv : Reviewed h m) (hs : m.Steps c) {role : AgentRole}
    (hr : m.ctx.runState = .dispatch role) (hd : Dispatched role o.dispatch m.toOrch t) (pc : Pc) :
    Reviewed (⟨m, .tick c o, ⟨t.mapCtx (withState (.monitor role)), pc⟩⟩ :: h)
      ⟨t.mapCtx (withState (.monitor role)), pc⟩ := by
  cases role with
  | executor =>
    apply Reviewed.outside
    simp [Reviewing, withState, RunState.monitor]
  | reviewer =>
    cases hd with
    | @launched _ _ u p pid _ _ hp _ _ =>
      obtain ⟨baseline, inbox, hc⟩ := hp.ctx
      apply hinv.keep
      · simp [Reviewing, hr, RunState.dispatch]
      · simp [withState, launch, hc, Orch.withLock, OrchestratorCtx.setLock]
      · simp [withState, launch, hc, Orch.withLock, OrchestratorCtx.setLock]
      · intro _ _
        refine ⟨[], _, h, _, rfl, rfl, ?_, ⟨_, rfl, rfl, rfl, rfl⟩, by simp⟩
        simp [dispatchesRole_of_steps hs, hr]
      · simp [withState, RunState.monitor]

theorem Outcome.ne_done {role : AgentRole} {o : ProbeObs} (h : Outcome role o s flow t)
    (hr : s.ctx.runState = .monitor role) : t.ctx.runState ≠ .runDone := by
  have htarget := h.target
  cases h with
  | aborted => simp [Orch.abort]
  | @finished p state v allowed _ _ _ =>
    cases allowed <;> cases role <;> simp [routeResult, RunState.outputCollect]
  | capped _ _ _ | failed _ _ | hung _ | cancelled _ => simp [retryAttempt]
  | watched h | stopped h _ =>
    obtain ⟨-, ⟨-, heq⟩ | ⟨hf, -⟩⟩ | ⟨-, hf, -⟩ := htarget
    · rw [heq, hr]
      cases role <;> simp [RunState.monitor]
    · simp at hf
    · simp at hf

theorem Outcome.not_reviewing {o : ProbeObs} (h : Outcome .executor o s flow t)
    (hr : s.ctx.runState = .monitor .executor) (hrole : s.ctx.currentRole = some .executor) :
    ¬Reviewing t.ctx := by
  have hrole : t.ctx.currentRole = some .executor := by rw [h.sameRound.currentRole, hrole]
  obtain ⟨-, ⟨-, ht⟩ | ⟨-, ht | ht⟩⟩ | ⟨-, -, ht⟩ := h.target
  · simp [Reviewing, ht, hr, RunState.monitor]
  · simp [Reviewing, ht, RunState.outputCollect]
  · exact not_reviewing_of_terminal ht (h.ne_done hr)
  · simp [Reviewing, ht, hrole]

theorem Reviewed.probed (hinv : Reviewed h m) (hs : m.Steps c) (hm : m.Placed)
    (hcount : Counted h m) {role : AgentRole} (hr : m.ctx.runState = .monitor role)
    (hp : Outcome role o.probe m.toOrch flow t) (pc : Pc) :
    Reviewed (⟨m, .tick c o, ⟨t, pc⟩⟩ :: h) ⟨t, pc⟩ := by
  have hactive := hs.active hm
  have hround := hp.sameRound
  have hdone := hp.ne_done hr
  cases role with
  | executor =>
    apply Reviewed.outside
    exact hp.not_reviewing hr ((hcount.budget hactive).role .executor (.inl hr))
  | reviewer =>
    have hreviewing : Reviewing m.ctx := by simp [Reviewing, hr, RunState.monitor]
    apply hinv.keep
    · exact fun _ => hreviewing
    · exact hround.reviewResult
    · exact hround.args
    · intro _ _
      apply (hinv.attempt hactive (.inl hr)).cons
      · exact reviews_of_reviewing hreviewing
      · simp [dispatchesRole_of_steps hs, hr, RunState.dispatch, RunState.monitor]
      · exact fun a ha => hp.sameAttempt ha
    · exact fun h => absurd h hdone

theorem Reviewed.retried (hinv : Reviewed h m) (hr : m.ctx.runState = .roundRetryDecide)
    (pc : Pc) :
    Reviewed (⟨m, i, ⟨m.toOrch.mapCtx doRoundRetryDecide, pc⟩⟩ :: h)
      ⟨m.toOrch.mapCtx doRoundRetryDecide, pc⟩ := by
  obtain ⟨hverdict, hargs, -, hmonitor, hcollect, hdone⟩ := doRoundRetryDecide_kept m.ctx
  apply hinv.keep
  · exact reviewing_of_retried hr
  · exact hverdict
  · exact hargs
  · rintro - (h | h)
    · exact absurd h (hmonitor .reviewer)
    · exact absurd h (hcollect .reviewer)
  · exact fun h => absurd h hdone

/-- The stat and the read of one collection see the same file. -/
def CollectObs.SameFile (o : CollectObs) : Prop :=
  (∃ raw, readToString o.outboxText = .ok raw) → optionalFileMtime o.outboxMtime ≠ .ok none

theorem Reviewed.judged (hinv : Reviewed h m) (hs : m.Steps c) (hm : m.Placed)
    (hr : m.ctx.runState = .reviewerOutputCollect) (hsame : o.reviewerOutput.SameFile)
    (hchanged : OutboxChanged m.toOrch o.reviewerOutput) {u : Orch} {v : ReviewerYaml}
    (hj : Judged o.reviewerOutput m.toOrch v u) (m' : Machine) :
    u.ctx.reviewResult = some v ∧ u.ctx.args = m.ctx.args ∧
      Origin m.ctx.args.notionPolicy (⟨m, .tick c o, m'⟩ :: h) v := by
  have hreviewing : Reviewing m.ctx := by simp [Reviewing, hr]
  cases hj with
  | saved hv =>
    exact ⟨hv, rfl, (hinv.origin hreviewing v hv).cons (reviews_of_reviewing hreviewing)⟩
  | @fresh _ raw hnone hread hparse hpolicy =>
    refine ⟨rfl, rfl, ?_⟩
    obtain ⟨mid, d, older, a, hsplit, ha, he⟩ := hinv.attempt (hs.active hm) (.inr hr)
    refine ⟨[], _, mid, d, older, a, by rw [hsplit]; rfl, ⟨?_, ha, hpolicy⟩, he, by simp⟩
    refine ⟨c, o, rfl, hs, hr, ⟨raw, hread, hparse⟩, ?_⟩
    obtain ⟨mtime, hmtime, hne⟩ := hchanged
    refine ⟨mtime, hmtime, ?_⟩
    rintro rfl
    simp only [ha, Option.bind_some, true_and, Bool.not_eq_true, Option.isSome_eq_false_iff,
      Option.isNone_iff_eq_none] at hne
    rw [hne] at hmtime
    exact hsame ⟨raw, hread⟩ hmtime

theorem Reviewed.collected (hinv : Reviewed h m) (hs : m.Steps c) (hm : m.Placed)
    (hr : m.ctx.runState = .reviewerOutputCollect) (hsame : o.reviewerOutput.SameFile)
    (hc : Collected o.reviewerOutput m.toOrch t) (pc : Pc) :
    Reviewed (⟨m, .tick c o, ⟨t, pc⟩⟩ :: h) ⟨t, pc⟩ := by
  have hreviewing : Reviewing m.ctx := by simp [Reviewing, hr]
  cases hc with
  | unchanged _ | unreadable _ _ _ | rejected _ _ _ _ =>
    apply hinv.keep
    · exact fun _ => hreviewing
    · rfl
    · rfl
    · simp [retryReviewerOutputFailure, RunState.monitor, RunState.outputCollect]
    · simp [retryReviewerOutputFailure]
  | @dirty u v _ _ _ hchanged hj _ _ | @clean u v _ hchanged hj _ _ =>
    obtain ⟨hv, hargs, ho⟩ := hinv.judged hs hm hr hsame hchanged hj ⟨_, pc⟩
    refine ⟨?_, fun _ w hw => ?_, ?_⟩
    · simp [retryReviewerOutputFailure, RunState.monitor, RunState.outputCollect]
    · simp only [retryReviewerOutputFailure, hv, Option.some.injEq] at hw
      simp only [retryReviewerOutputFailure, hargs, ← hw]
      exact ho
    · simp [retryReviewerOutputFailure]

theorem Reviewed.gated (hinv : Reviewed h m) (hr : m.ctx.runState = .qualityGate) (pc : Pc) :
    Reviewed (⟨m, i, ⟨m.toOrch.mapCtx doQualityGate, pc⟩⟩ :: h)
      ⟨m.toOrch.mapCtx doQualityGate, pc⟩ := by
  cases hv : m.ctx.reviewResult with
  | none =>
    apply Reviewed.outside
    simp [Reviewing, doQualityGate, hv]
  | some v =>
    apply hinv.keep
    · simp [Reviewing, hr]
    · simp only [Orch.mapCtx_ctx, doQualityGate, hv]
      cases v.decision <;> simp
    · simp only [Orch.mapCtx_ctx, doQualityGate, hv]
      cases v.decision <;> rfl
    · intro _
      simp only [Orch.mapCtx_ctx, doQualityGate, hv]
      cases v.decision <;> simp [RunState.monitor, RunState.outputCollect]
    · simp only [Orch.mapCtx_ctx, doQualityGate, hv]
      cases hd : v.decision <;> simp [hd]

theorem Reviewed.stepped (hinv : Reviewed h m) (hs : m.Steps c) (hm : m.Placed)
    (hcount : Counted h m) (hsame : o.reviewerOutput.SameFile)
    (hst : Stepped o m.toOrch flow t) (pc : Pc) :
    Reviewed (⟨m, .tick c o, ⟨t, pc⟩⟩ :: h) ⟨t, pc⟩ := by
  cases hst with
  | dispatched hr hd => exact hinv.dispatched hs hr hd pc
  | probed hr hp => exact hinv.probed hs hm hcount hr hp.outcome pc
  | collected hr hc => exact hinv.collected hs hm hr hsame hc pc
  | retried hr => exact hinv.retried hr pc
  | gated hr => exact hinv.gated hr pc
  | prepared _ hc _ =>
    apply Reviewed.outside
    simp [Reviewing, hc]
  | surveyed _ h =>
    apply Reviewed.outside
    simp [Reviewing, withState]
  | bound _ _ | fedBack _ =>
    apply Reviewed.outside
    simp [Reviewing, doRoundFeedbackPrep]
  | verified _ =>
    refine ⟨?_, fun _ v hv => absurd hv ?_, ?_⟩
    · simp [doOrchVerify, RunState.monitor, RunState.outputCollect]
    · simp [doOrchVerify]
    · simp [doOrchVerify]
  | skipped hr =>
    apply Reviewed.outside
    obtain hr | hr := hr
    · simp [Reviewing, hr]
    · simp [(hs.active hm).2] at hr

theorem Reviewed.panicked (hinv : Reviewed h m) (hs : m.Steps c) (hm : m.Placed)
    (hsame : o.reviewerOutput.SameFile) (hi : Interrupted o m.toOrch s) :
    Reviewed (⟨m, .tick c o, ⟨s, .panicked⟩⟩ :: h) ⟨s, .panicked⟩ := by
  have hkept := hi.kept
  have hactive := hs.active hm
  have hdone : m.ctx.runState ≠ .runDone := by
    intro h
    simp [Machine.Active, h, RunState.isTerminal] at hactive
  have hreviewing : Reviewing s.ctx → Reviewing m.ctx := by
    simp only [Reviewing, hkept.runState]
    cases hr : m.ctx.runState <;> simp
    exact absurd hr hi.source.1
  have horigin : ∀ v, s.ctx.reviewResult = some v → Reviewing m.ctx →
      Origin m.ctx.args.notionPolicy (⟨m, .tick c o, ⟨s, .panicked⟩⟩ :: h) v := by
    intro v hv hr
    have hold : m.ctx.reviewResult = some v →
        Origin m.ctx.args.notionPolicy (⟨m, .tick c o, ⟨s, .panicked⟩⟩ :: h) v :=
      fun hv => (hinv.origin hr v hv).cons (reviews_of_reviewing hr)
    cases hi with
    | preparing _ hc _ => exact hold (hc ▸ hv)
    | dispatching _ hd =>
      cases hd with
      | unlocked => exact hold hv
      | locked _ _ hp =>
        obtain ⟨baseline, inbox, hc⟩ := hp.ctx
        rw [hc] at hv
        exact hold hv
    | probing _ hu =>
      obtain ⟨_, _, _, rfl⟩ := hu
      obtain ⟨a, ha⟩ := pollChild_ctx o.probe m.toOrch
      simp only [ha] at hv
      exact hold hv
    | surveying _ hu =>
      obtain ⟨_, _, _, _, rfl⟩ := hu
      exact hold hv
    | collecting hr' hu =>
      cases hu with
      | unread => exact hold hv
      | judged hchanged hj =>
        obtain ⟨hv', -, ho⟩ := hinv.judged hs hm hr' hsame hchanged hj ⟨_, .panicked⟩
        rw [hv', Option.some.injEq] at hv
        exact hv ▸ ho
  refine ⟨fun ha => absurd rfl ha.1, fun hr v hv => ?_, ?_⟩
  · rw [hkept.args]
    exact horigin v hv (hreviewing hr)
  · exact fun h => absurd (hkept.runState.symm.trans h) hdone

theorem Reviewed.move (hinv : Reviewed h m) (hm : m.Placed) (hcount : Counted h m)
    (hsame : ∀ c o, i = .tick c o → o.reviewerOutput.SameFile) (hmove : Move m i m') :
    Reviewed (⟨m, i, m'⟩ :: h) m' := by
  cases hmove with
  | exit => exact hinv.same rfl rfl fun h => h
  | @idle c o hidle =>
    apply hinv.same _ rfl fun h => h
    obtain ⟨hpc, ht⟩ | hpc := hidle
    · simp [takesStep, Machine.Steps, hpc, ht]
    · simp [takesStep, Machine.Steps, hpc]
  | admitted _ _ | cancelled _ _ =>
    apply Reviewed.outside
    simp [Reviewing, withState]
  | rejected _ _ =>
    apply Reviewed.outside
    simp [Reviewing]
  | stepped hs hst => exact hinv.stepped hs hm hcount (hsame _ _ rfl) hst _
  | @failed c o s e hs hi =>
    apply Reviewed.outside
    apply not_reviewing_of_terminal (Machine.fail_terminal e s.ctx)
    have hactive := hs.active hm
    simp only [Machine.fail, hi.kept.runState, hactive.2]
    cases e <;> simp [errorToRunState]
  | @panicked c o s hp =>
    obtain ⟨hpc, root, rfl⟩ | ⟨hs, hi⟩ := hp
    · apply Reviewed.outside
      simp [Reviewing, hm.start hpc]
    · exact hinv.panicked hs hm (hsame _ _ rfl) hi

theorem Run.reviewed (hr : Run h m)
    (hsame : ∀ e ∈ h, ∀ c o, e.input = .tick c o → o.reviewerOutput.SameFile) :
    Reviewed h m := by
  revert hsame
  apply Trace.Run.invariant (P := fun h m =>
    (∀ e ∈ h, ∀ c o, e.input = .tick c o → o.reviewerOutput.SameFile) → Reviewed h m) hr
  · rintro _ ⟨args, rfl⟩ _
    apply Reviewed.outside
    simp [Reviewing, Machine.init, OrchestratorCtx.new]
  · intro h m i hr hinv hsame
    obtain ⟨hhead, htail⟩ := List.forall_mem_cons.mp hsame
    exact (hinv htail).move (Run.placed hr) (Run.counted hr) hhead (next_move m i)

/-- An accepted run ends with an acceptable verdict that was read from a changed outbox of a
reviewer attempt of the last round. -/
theorem done_verdict (hr : Run h m)
    (hsame : ∀ e ∈ h, ∀ c o, e.input = .tick c o → o.reviewerOutput.SameFile)
    (hdone : m.ctx.runState = .runDone) :
    ∃ v, m.ctx.reviewResult = some v ∧ v.Acceptable m.ctx.args.notionPolicy ∧
      Origin m.ctx.args.notionPolicy h v := by
  have hinv := Run.reviewed hr hsame
  obtain ⟨v, hv, hdecision⟩ := hinv.done hdone
  have ho := hinv.origin (by simp [Reviewing, hdone]) v hv
  refine ⟨v, hv, ?_, ho⟩
  obtain ⟨_, _, _, _, _, _, -, hsaves, -, -⟩ := ho
  obtain ⟨c, o, -, -, -, ⟨raw, -, hparse⟩, -⟩ := hsaves.collects
  exact acceptable_of_validate (validateReviewerYaml_of_parse hparse) hsaves.policy hdecision

end Reviewed

namespace Sample

def reviewed (mtime : Int) : CollectObs where
  outboxMtime := .ok mtime
  outboxText := .ok (asBytes acceptText)
  snapshot := ⟨.ok (asBytes acceptText), .ok mtime⟩
  gitStatusAll := git ""

def accepted : List Input :=
  executed ++ [
    .tick false { obsAt 40 with dispatch := { dispatchAt 40 with outboxMtime := .ok (time 20) } },
    .exit 1,
    .tick false { obsAt 60 with probe := exitedAt 60 180 (time 50) },
    .tick false { obsAt 60 with reviewerOutput := reviewed (time 50) },
    .tick false (obsAt 60)]

theorem sameFile_of_absent {o : CollectObs} (h : o.outboxText = absent) : o.SameFile := by
  rintro ⟨raw, hread⟩
  simp [h, absent, readToString] at hread

theorem sameFile_of_mtime {o : CollectObs} {mtime : Int} (h : o.outboxMtime = .ok mtime) :
    o.SameFile := by
  intro _
  simp [h, optionalFileMtime, noneIfMissing, ofIo]

theorem accepted_obs {c : Bool} {o : StepObs} (h : .tick c o ∈ accepted) :
    (o.reviewerOutput.outboxText = absent ∨ ∃ mtime, o.reviewerOutput.outboxMtime = .ok mtime) ∧
      o.dispatch.gitStatusAll = git "" := by
  simp only [accepted, executed, List.cons_append, List.nil_append, List.mem_cons,
    Input.tick.injEq, reduceCtorEq, false_or, List.not_mem_nil, or_false] at h
  obtain ⟨-, rfl⟩ | ⟨-, rfl⟩ | ⟨-, rfl⟩ | ⟨-, rfl⟩ | ⟨-, rfl⟩ | ⟨-, rfl⟩ | ⟨-, rfl⟩ | ⟨-, rfl⟩ |
    ⟨-, rfl⟩ | ⟨-, rfl⟩ | ⟨-, rfl⟩ := h
  all_goals first
    | exact ⟨.inl rfl, rfl⟩
    | exact ⟨.inr ⟨_, rfl⟩, rfl⟩

theorem accepted_sameFile {c : Bool} {o : StepObs} (h : .tick c o ∈ accepted) :
    o.reviewerOutput.SameFile := by
  obtain ⟨htext | ⟨mtime, hmtime⟩, -⟩ := accepted_obs h
  · exact sameFile_of_absent htext
  · exact sameFile_of_mtime hmtime

theorem run_accepted : (run accepted).2.ctx.runState = .runDone ∧
    (run accepted).2.ctx.args.notionPolicy = .optional := by
  simp only [accepted, reviewed, asBytes_eq_toByteArray]
  decide +kernel

end Sample

open Sample in
theorem done_verdict_accepted : ∃ v, (run accepted).2.ctx.reviewResult = some v ∧
    v.Acceptable .optional ∧ Origin .optional (run accepted).1 v := by
  obtain ⟨hdone, hpolicy⟩ := run_accepted
  have h := done_verdict (run_run accepted)
    (fun e he c o hi => accepted_sameFile (hi ▸ run_input he)) hdone
  rw [hpolicy] at h
  exact h

end Orchestrator

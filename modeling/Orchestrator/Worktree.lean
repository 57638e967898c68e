import Orchestrator.Verdict

namespace Orchestrator

open Rust Exec Trace

section Cleanup

variable {o : CollectObs} {s : Orch} {v : ReviewerYaml} {status : String}

theorem reviewerText_saved (hv : s.ctx.reviewResult = some v) :
    reviewerText s.ctx o = .ok (s.ctx.reviewResultYamlRaw.getD "") := by
  simp [reviewerText, hv]

variable [Crates]

def OutboxRead (s : Orch) (o : CollectObs) : Prop :=
  ∃ snapshot, readTransportSnapshot (s.ctx.transportPath outboxFile) .reviewer
    s.ctx.args.reviewerProvider (s.ctx.reviewerSessionId.getD "<unbound>") o.snapshot =
      .ok snapshot

theorem outboxRead_of_gate (hv : s.ctx.reviewResult = some v) :
    wp (doReviewerOutputCollect o)
      (fun _ t => t.ctx.runState = .qualityGate → OutboxChanged s o ∧ OutboxRead s o)
      (fun _ _ => True) s := by
  simp only [doReviewerOutputCollect, wp_bind, OrchM.wp_ctx, OrchM.wp_ofResult, wp_ite,
    OrchM.wp_modifyCtx, reviewerText_saved hv, implies_true, and_true]
  intro mtime hmtime
  constructor
  · simp [retryReviewerOutputFailure]
  · intro hne snapshot hsnapshot
    have hchanged : OutboxChanged s o ∧ OutboxRead s o :=
      ⟨⟨mtime, hmtime, hne⟩, snapshot, hsnapshot⟩
    apply (saveVerdict_saved (v := v) ?_).mpr
    · refine ⟨fun _ => ?_, by simp⟩
      apply wp_mono (wp_self _ _)
      · exact fun _ _ _ _ => hchanged
      · exact fun _ _ _ => trivial
    · exact hv

theorem gate_of_outboxRead (hv : s.ctx.reviewResult = some v)
    (hstatus : fullGitStatus o.gitStatusAll = .ok status)
    (hclean : CleanSince s.ctx.preReviewerGitStatus status) (hchanged : OutboxChanged s o)
    (hread : OutboxRead s o) :
    wp (doReviewerOutputCollect o)
      (fun _ t => t.ctx.runState = .qualityGate ∧ t.ctx.reviewResult = some v ∧
        t.ctx.consecutiveFailureCount = s.ctx.consecutiveFailureCount)
      (fun _ _ => False) s := by
  obtain ⟨mtime, hmtime, hne⟩ := hchanged
  obtain ⟨snapshot, hsnapshot⟩ := hread
  have hdirty : newDirtyLines (lines (s.ctx.preReviewerGitStatus.getD "")) outboxRel
      (lines status) = some [] := newDirtyLines_eq_nil.mpr hclean
  simp only [doReviewerOutputCollect, wp_bind, OrchM.wp_ctx, OrchM.wp_ofResult, wp_ite,
    OrchM.wp_modifyCtx, reviewerText_saved hv, hmtime, hsnapshot]
  refine ⟨fun m hm => ?_, by simp⟩
  rw [Except.ok.injEq] at hm
  subst hm
  refine ⟨fun heq => absurd heq hne, fun _ => ⟨fun snapshot _ => ?_, by simp⟩⟩
  apply (saveVerdict_saved (v := v) ?_).mpr
  · simp [checkReviewerWorkspace, reviewerWorkspaceDirtyReason, reviewerWorkspaceDirtyLines,
      hstatus, hdirty, hv]
  · exact hv

theorem step_collect {o : StepObs} (hr : s.ctx.runState = .reviewerOutputCollect)
    {Q : Orch → Prop} {E : Fault → Orch → Prop} :
    wp (step o) (fun _ t => Q t) E s ↔
      wp (doReviewerOutputCollect o.reviewerOutput) (fun _ t => Q t) E s := by
  rw [step, wp_bind, OrchM.wp_ctx]
  simp only [hr, wp_map]

/-- A cleanup retry that leaves the worktree clean passes the saved verdict on exactly when the
outbox is not the file that the retry was dispatched with, and can be read. -/
theorem cleanup_passes_iff {m : Machine} {c : Bool} {o : StepObs} (hs : m.Steps c)
    (hr : m.ctx.runState = .reviewerOutputCollect) (hv : m.ctx.reviewResult = some v)
    (hstatus : fullGitStatus o.reviewerOutput.gitStatusAll = .ok status)
    (hclean : CleanSince m.ctx.preReviewerGitStatus status) :
    let after := (m.next (.tick c o)).ctx
    (after.runState = .qualityGate ∧ after.reviewResult = some v ∧
        after.consecutiveFailureCount = m.ctx.consecutiveFailureCount) ↔
      OutboxChanged m.toOrch o.reviewerOutput ∧ OutboxRead m.toOrch o.reviewerOutput := by
  constructor
  · rintro ⟨hgate, -, -⟩
    have hread := (step_collect (o := o) hr).mpr (outboxRead_of_gate hv)
    have hstep := wp_and hread (step_spec o m.toOrch)
    obtain ⟨flow, hq, -⟩ | ⟨e, t, -, hnext⟩ | ⟨t, ⟨-, hi⟩, hnext⟩ := next_of_wp hs hstep
    · exact hq hgate
    · have ht := Machine.fail_terminal e t.ctx
      simp only [hnext, Orch.mapCtx_ctx] at hgate
      simp [hgate, RunState.isTerminal] at ht
    · simp [hnext, hi.kept.runState, hr] at hgate
  · rintro ⟨hchanged, hread⟩
    have hgate := gate_of_outboxRead hv hstatus hclean hchanged hread
    have hstep := (step_collect (o := o) hr).mpr hgate
    obtain ⟨flow, hq⟩ | ⟨_, _, hf, -⟩ | ⟨_, hf, -⟩ := next_of_wp hs hstep
    · exact hq
    · exact hf.elim
    · exact hf.elim

end Cleanup

namespace Sample

def leftover : String := "?? notes.txt\n"

def reviewerDispatchAt (n : Nat) (mtime : Int) (status : String) : DispatchObs :=
  { dispatchAt n with
    outboxMtime := .ok mtime
    gitStatus := git status
    gitStatusAll := git status
    factsStatus := git status }

def cleanup : List Input :=
  executed ++ [
    .tick false { obsAt 40 with dispatch := reviewerDispatchAt 40 (time 20) "" },
    .exit 1,
    .tick false { obsAt 60 with
      probe := { exitedAt 60 180 (time 50) with gitStatus := git leftover } },
    .tick false { obsAt 60 with
      reviewerOutput := { reviewed (time 50) with gitStatusAll := git leftover } },
    .tick false (obsAt 60),
    .tick false { obsAt 61 with dispatch := reviewerDispatchAt 61 (time 50) leftover },
    .exit 2,
    .tick false { obsAt 90 with probe := exitedAt 90 180 (time 50) }]

def cleanedUp (mtime : Int) : StepObs := { obsAt 90 with reviewerOutput := reviewed mtime }

theorem cleanup_collects : (run cleanup).2.Steps false ∧
    (run cleanup).2.ctx.runState = .reviewerOutputCollect ∧
    (run cleanup).2.ctx.reviewResult.isSome ∧
    (run cleanup).2.ctx.reviewerWorkspaceRejection.isSome ∧
    (run cleanup).2.ctx.attempt.bind (·.preReviewerOutboxMtime) = some (time 50) ∧
    ((run cleanup).2.next (.tick false (cleanedUp (time 50)))).ctx.runState =
      .roundRetryDecide := by
  simp only [cleanup, cleanedUp, reviewed, asBytes_eq_toByteArray]
  decide +kernel

theorem cleanSince_empty (baseline : Option String) : CleanSince baseline "" := by
  intro line hmem
  simp [lines, linesAux] at hmem

end Sample

open Sample in
theorem cleanup_fails_unchanged :
    Run (run cleanup).1 (run cleanup).2 ∧ (run cleanup).2.Steps false ∧
      (run cleanup).2.ctx.runState = .reviewerOutputCollect ∧
      (run cleanup).2.ctx.reviewResult.isSome ∧
      (run cleanup).2.ctx.reviewerWorkspaceRejection.isSome ∧
      fullGitStatus (cleanedUp (time 50)).reviewerOutput.gitStatusAll = .ok "" ∧
      CleanSince (run cleanup).2.ctx.preReviewerGitStatus "" ∧
      ((run cleanup).2.next (.tick false (cleanedUp (time 50)))).ctx.runState =
        .roundRetryDecide := by
  obtain ⟨hs, hr, hv, hrejection, -, hnext⟩ := cleanup_collects
  exact ⟨run_run cleanup, hs, hr, hv, hrejection, rfl, cleanSince_empty _, hnext⟩

open Sample in
theorem cleanup_passes_iff_touched :
    ((run cleanup).2.next (.tick false (cleanedUp (time 70)))).ctx.runState = .qualityGate := by
  obtain ⟨hs, hr, hv, -, hmtime, -⟩ := cleanup_collects
  obtain ⟨v, hv⟩ := Option.isSome_iff_exists.mp hv
  have hstatus : fullGitStatus (cleanedUp (time 70)).reviewerOutput.gitStatusAll = .ok "" := rfl
  have hiff := cleanup_passes_iff hs hr hv hstatus (cleanSince_empty _)
  apply (hiff.mpr ⟨⟨some (time 70), rfl, ?_⟩, _, rfl⟩).1
  rw [hmtime]
  decide

theorem CleanSince.refl (status : String) : CleanSince (some status) status :=
  fun _ hmem hnew => absurd hmem hnew

theorem CleanSince.trans {first : Option String} {retaken status : String}
    (h : CleanSince first retaken) (h' : CleanSince (some retaken) status) :
    CleanSince first status := by
  intro line hmem hnew
  by_cases hretaken : line ∈ lines retaken
  · exact h line hretaken hnew
  · exact h' line hmem hretaken

def verifies (e : Turn) : Bool := takesStep e && decide (e.pre.ctx.runState = .orchVerify)

def entersGate (e : Turn) : Bool :=
  takesStep e && decide (e.post.ctx.runState = .qualityGate)

def dispatchStatus (e : Turn) : Option String :=
  match e.input with
  | .tick _ o => (fullGitStatus o.dispatch.gitStatusAll).toOption
  | .exit _ => none

def collectStatus (e : Turn) : Option String :=
  match e.input with
  | .tick _ o => (fullGitStatus o.reviewerOutput.gitStatusAll).toOption
  | .exit _ => none

/-- The status just before the first reviewer dispatch of the current round. -/
def roundBaseline : History Machine Input → Option String
  | [] => none
  | e :: h =>
    if verifies e then none
    else (roundBaseline h).or (if dispatchesRole .reviewer e then dispatchStatus e else none)

def retakes (e : Turn) (older : History Machine Input) : Bool :=
  dispatchesRole .reviewer e && e.pre.ctx.reviewerWorkspaceRejection.isNone &&
    (roundBaseline older).isSome

/-- The baselines that retries take anew show nothing beyond the first one of the round. -/
def BaselinesKept : History Machine Input → Prop :=
  Past fun e older => retakes e older = true → ∀ status, dispatchStatus e = some status →
    CleanSince (roundBaseline older) status

/-- Whenever the quality gate is entered, the examined status shows nothing beyond the first
baseline of the round. -/
def GateClean : History Machine Input → Prop :=
  Past fun e older => entersGate e = true → ∀ status, collectStatus e = some status →
    CleanSince (roundBaseline older) status

inductive Baselined (h : History Machine Input) (ctx : OrchestratorCtx) : Prop
  | outside : ¬Reviewing ctx → Baselined h ctx
  | fresh : ctx.runState = .reviewerDispatch → roundBaseline h = none →
      ctx.reviewerWorkspaceRejection = none → Baselined h ctx
  | kept {first current} : roundBaseline h = some first →
      ctx.preReviewerGitStatus = some current → CleanSince (some first) current →
      Baselined h ctx

section Baseline

variable {h : History Machine Input} {m m' : Machine} {i : Input} {c : Bool} {o : StepObs}

theorem roundBaseline_cons {e : Turn} (hv : verifies e = false)
    (hd : dispatchesRole .reviewer e = false) : roundBaseline (e :: h) = roundBaseline h := by
  simp [roundBaseline, hv, hd]

theorem roundBaseline_same (hv : m.ctx.runState ≠ .orchVerify)
    (hd : m.ctx.runState ≠ .reviewerDispatch) :
    roundBaseline (⟨m, i, m'⟩ :: h) = roundBaseline h := by
  apply roundBaseline_cons
  · simp [verifies, hv]
  · simp [dispatchesRole, RunState.dispatch, hd]

theorem Baselined.of_round {h' : History Machine Input} {ctx : OrchestratorCtx}
    (hinv : Baselined h ctx) (hround : roundBaseline h' = roundBaseline h) : Baselined h' ctx := by
  cases hinv with
  | outside hout => exact .outside hout
  | fresh hstate hnone hrejection => exact .fresh hstate (hround.trans hnone) hrejection
  | kept hfirst hcurrent hclean => exact .kept (hround.trans hfirst) hcurrent hclean

theorem Baselined.carry (hinv : Baselined h m.ctx) (hr : Reviewing m'.ctx → Reviewing m.ctx)
    (hd : m.ctx.runState ≠ .reviewerDispatch)
    (hpre : m'.ctx.preReviewerGitStatus = m.ctx.preReviewerGitStatus) :
    Baselined (⟨m, i, m'⟩ :: h) m'.ctx := by
  by_cases hreviewing : Reviewing m'.ctx
  · have hm := hr hreviewing
    have hv : m.ctx.runState ≠ .orchVerify := by
      intro hv
      simp [Reviewing, hv] at hm
    cases hinv with
    | outside hout => exact absurd hm hout
    | fresh hstate _ _ => exact absurd hstate hd
    | kept hfirst hcurrent hclean =>
      apply Baselined.kept _ _ hclean
      · rw [roundBaseline_same hv hd, hfirst]
      · rw [hpre, hcurrent]
  · exact .outside hreviewing

theorem Baselined.dispatched (hinv : Baselined h m.ctx) (hs : m.Steps c)
    (hr : m.ctx.runState = .reviewerDispatch)
    (hkept : retakes ⟨m, .tick c o, m'⟩ h = true → ∀ status,
      dispatchStatus ⟨m, .tick c o, m'⟩ = some status → CleanSince (roundBaseline h) status)
    (hb : BaselineAfter .reviewer m.ctx o.dispatch m'.ctx.preReviewerGitStatus) :
    Baselined (⟨m, .tick c o, m'⟩ :: h) m'.ctx := by
  have hdispatch : dispatchesRole .reviewer ⟨m, .tick c o, m'⟩ = true := by
    simp [dispatchesRole_of_steps hs, hr, RunState.dispatch]
  have hverify : verifies ⟨m, .tick c o, m'⟩ = false := by simp [verifies, hr]
  cases hinv with
  | outside hout => exact absurd (by simp [Reviewing, hr]) hout
  | fresh _ hnone hrejection =>
    simp only [BaselineAfter, hrejection, and_self, if_true] at hb
    obtain ⟨status, hstatus, hbase⟩ := hb
    have hround : roundBaseline (⟨m, .tick c o, m'⟩ :: h) = some status := by
      simp [roundBaseline, hverify, hdispatch, hnone, dispatchStatus, hstatus, Except.toOption]
    exact .kept hround hbase (.refl status)
  | @kept first current hfirst hcurrent hclean =>
    have hround : roundBaseline (⟨m, .tick c o, m'⟩ :: h) = some first := by
      simp [roundBaseline, hverify, hfirst]
    by_cases hrejection : m.ctx.reviewerWorkspaceRejection = none
    · simp only [BaselineAfter, hrejection, and_self, if_true] at hb
      obtain ⟨status, hstatus, hbase⟩ := hb
      apply Baselined.kept hround hbase
      rw [← hfirst]
      apply hkept
      · simp [retakes, hdispatch, hrejection, hfirst]
      · simp [dispatchStatus, hstatus, Except.toOption]
    · simp only [BaselineAfter, hrejection, and_false, if_false] at hb
      exact .kept hround (hb.trans hcurrent) hclean

variable [Crates] {s t : Orch} {flow : Flow}

theorem Collected.baseline {o : CollectObs} (h : Collected o s t) :
    t.ctx.preReviewerGitStatus = s.ctx.preReviewerGitStatus := by
  cases h with
  | unchanged _ | unreadable _ _ _ | rejected _ _ _ _ => rfl
  | dirty _ hv _ _ | clean _ hv _ _ => cases hv <;> rfl

theorem Baselined.stepped (hinv : Baselined h m.ctx) (hs : m.Steps c) (hm : m.Placed)
    (hcount : Counted h m) (hst : Stepped o m.toOrch flow t) (pc : Pc)
    (hkept : retakes ⟨m, .tick c o, ⟨t, pc⟩⟩ h = true → ∀ status,
      dispatchStatus ⟨m, .tick c o, ⟨t, pc⟩⟩ = some status → CleanSince (roundBaseline h) status) :
    Baselined (⟨m, .tick c o, ⟨t, pc⟩⟩ :: h) t.ctx := by
  cases hst with
  | @dispatched role u hr hd =>
    cases role with
    | executor =>
      apply Baselined.outside
      simp [Reviewing, withState, RunState.monitor]
    | reviewer =>
      cases hd with
      | launched _ _ _ hb _ => exact hinv.dispatched hs hr hkept hb
  | @probed role _ _ hr hp =>
    cases role with
    | executor =>
      apply Baselined.outside
      exact hp.outcome.not_reviewing hr ((hcount.budget (hs.active hm)).role .executor (.inl hr))
    | reviewer =>
      apply hinv.carry
      · exact fun _ => by simp [Reviewing, hr, RunState.monitor]
      · simp [hr, RunState.monitor]
      · exact hp.outcome.sameRound.baseline
  | retried hr =>
    apply hinv.carry
    · exact reviewing_of_retried hr
    · simp [hr]
    · exact (doRoundRetryDecide_kept m.ctx).2.2.1
  | verified hr =>
    apply Baselined.fresh
    · rfl
    · simp [roundBaseline, verifies, takesStep, hs, hr]
    · rfl
  | collected hr hc =>
    apply hinv.carry
    · exact fun _ => by simp [Reviewing, hr]
    · simp [hr]
    · exact hc.baseline
  | gated hr =>
    apply hinv.carry
    · exact fun _ => by simp [Reviewing, hr]
    · simp [hr]
    · simp only [Orch.mapCtx_ctx, doQualityGate]
      split
      · rfl
      · split <;> rfl
  | prepared _ hc _ =>
    apply Baselined.outside
    simp [Reviewing, hc]
  | surveyed _ _ =>
    apply Baselined.outside
    simp [Reviewing, withState]
  | bound _ _ | fedBack _ =>
    apply Baselined.outside
    simp [Reviewing, doRoundFeedbackPrep]
  | skipped hr =>
    apply Baselined.outside
    obtain hr | hr := hr
    · simp [Reviewing, hr]
    · simp [(hs.active hm).2] at hr

theorem Baselined.move (hinv : m.Active → Baselined h m.ctx) (hm : m.Placed)
    (hcount : Counted h m) (hkept : retakes ⟨m, i, m'⟩ h = true → ∀ status,
      dispatchStatus ⟨m, i, m'⟩ = some status → CleanSince (roundBaseline h) status)
    (hmove : Move m i m') (ha : m'.Active) : Baselined (⟨m, i, m'⟩ :: h) m'.ctx := by
  cases hmove.active ha with
  | exit hactive =>
    apply (hinv hactive).of_round
    apply roundBaseline_cons
    · simp [verifies, takesStep]
    · simp [dispatchesRole, takesStep]
  | admitted _ _ =>
    apply Baselined.outside
    simp [Reviewing, withState]
  | stepped hs hst => exact (hinv (hs.active hm)).stepped hs hm hcount hst _ hkept

theorem Stepped.collects (hst : Stepped o s flow t) (ht : t.ctx.runState = .qualityGate) :
    s.ctx.runState = .reviewerOutputCollect ∧ Collected o.reviewerOutput s t := by
  cases hst with
  | collected hr hc => exact ⟨hr, hc⟩
  | skipped hr => simp [ht, RunState.isTerminal] at hr
  | @dispatched role _ _ _ => cases role <;> simp [withState, RunState.monitor] at ht
  | @probed role _ _ hr hp =>
    obtain ⟨-, ⟨-, h⟩ | ⟨-, h | h⟩⟩ | ⟨-, -, h⟩ := hp.outcome.target
    · cases role <;> simp [h, hr, RunState.monitor] at ht
    · cases role <;> simp [h, RunState.outputCollect] at ht
    · simp [ht, RunState.isTerminal] at h
    · simp [h] at ht
  | retried _ =>
    revert ht
    simp only [Orch.mapCtx_ctx, doRoundRetryDecide]
    split
    · simp
    · cases s.ctx.currentRole.getD .executor <;> simp
  | gated _ =>
    simp only [Orch.mapCtx_ctx, doQualityGate] at ht
    split at ht
    · simp at ht
    · split at ht <;> simp at ht
  | prepared _ hc _ => simp [hc] at ht
  | surveyed _ _ => simp [withState] at ht
  | bound _ _ | verified _ | fedBack _ => simp [doOrchVerify, doRoundFeedbackPrep] at ht

theorem Collected.clean_of_gate {o : CollectObs} (h : Collected o s t)
    (ht : t.ctx.runState = .qualityGate) : ∃ status, fullGitStatus o.gitStatusAll = .ok status ∧
      CleanSince s.ctx.preReviewerGitStatus status := by
  cases h with
  | unchanged _ | unreadable _ _ _ | rejected _ _ _ _ | dirty _ _ _ _ =>
    simp [retryReviewerOutputFailure] at ht
  | clean _ _ hstatus hclean => exact ⟨_, hstatus, hclean⟩

theorem clean_of_entersGate (hm : m.Placed) (hmove : Move m i m')
    (hgate : entersGate ⟨m, i, m'⟩ = true) :
    m.Active ∧ m.ctx.runState = .reviewerOutputCollect ∧ ∀ status,
      collectStatus ⟨m, i, m'⟩ = some status → CleanSince m.ctx.preReviewerGitStatus status := by
  simp only [entersGate, Bool.and_eq_true, decide_eq_true_eq] at hgate
  obtain ⟨htakes, ht⟩ := hgate
  cases hmove with
  | exit => simp [takesStep] at htakes
  | @idle c o hidle =>
    have hs : m.Steps c := by simpa [takesStep] using htakes
    obtain ⟨-, hterminal⟩ | hpc := hidle
    · simp [(hs.active hm).2] at hterminal
    · exact absurd hpc (hs.active hm).1
  | admitted _ _ | cancelled _ _ => simp [withState] at ht
  | rejected _ _ => simp at ht
  | @stepped c o flow s hs hst =>
    obtain ⟨hr, hc⟩ := hst.collects ht
    refine ⟨hs.active hm, hr, fun status hstatus => ?_⟩
    obtain ⟨status', hstatus', hclean⟩ := hc.clean_of_gate ht
    simp only [collectStatus, hstatus', Except.toOption, Option.some.injEq] at hstatus
    exact hstatus ▸ hclean
  | @failed c o s e _ _ =>
    have hterminal := Machine.fail_terminal e s.ctx
    simp only [Orch.mapCtx_ctx] at ht
    simp [ht, RunState.isTerminal] at hterminal
  | panicked hp =>
    obtain ⟨hpc, root, rfl⟩ | ⟨_, hi⟩ := hp
    · simp [hm.start hpc] at ht
    · rw [hi.kept.runState] at ht
      exact absurd ht hi.source.2

theorem Run.baselined (hr : Run h m) (hkept : BaselinesKept h) :
    m.Active → Baselined h m.ctx := by
  revert hkept
  apply Trace.Run.invariant (P := fun h m => BaselinesKept h → m.Active → Baselined h m.ctx) hr
  · rintro _ ⟨args, rfl⟩ _ _
    apply Baselined.outside
    simp [Reviewing, Machine.init, OrchestratorCtx.new]
  · rintro h m i hr hinv ⟨hhead, htail⟩ ha
    exact Baselined.move (hinv htail) (Run.placed hr) (Run.counted hr) hhead (next_move m i) ha

/-- As long as the baselines that retries take anew show nothing new, the gate is entered only
with a worktree that is clean since the first reviewer dispatch of the round. -/
theorem gateClean_of_baselinesKept (hr : Run h m) (hkept : BaselinesKept h) : GateClean h := by
  rw [GateClean, past_iff]
  rintro newer ⟨pre, i, post⟩ older rfl hgate status hstatus
  obtain ⟨hpre, hpost⟩ := Trace.Run.of_append hr
  simp only at hpre hpost
  subst hpost
  have hold : BaselinesKept older := hkept.older.2
  obtain ⟨hactive, hr, hclean⟩ := clean_of_entersGate (Run.placed hpre) (next_move pre i) hgate
  cases Run.baselined hpre hold hactive with
  | outside hout => exact absurd (by simp [Reviewing, hr]) hout
  | fresh hstate _ _ => simp [hr] at hstate
  | kept hfirst hcurrent hbase =>
    rw [hfirst]
    apply hbase.trans
    rw [← hcurrent]
    exact hclean status hstatus

end Baseline

namespace Sample

def absorbing : List Input :=
  executed ++ [
    .tick false { obsAt 40 with dispatch := reviewerDispatchAt 40 (time 20) "" },
    .exit 1,
    .tick false { obsAt 60 with
      probe := { exitedAt 60 64 (time 20) with gitStatus := git leftover } },
    .tick false { obsAt 60 with
      reviewerOutput := { reviewed (time 20) with
        outboxText := .ok (asBytes "done")
        gitStatusAll := git leftover } },
    .tick false (obsAt 60),
    .tick false { obsAt 61 with dispatch := reviewerDispatchAt 61 (time 20) leftover },
    .exit 2,
    .tick false { obsAt 90 with
      probe := { exitedAt 90 180 (time 80) with gitStatus := git leftover } }]

def absorbed : Input :=
  .tick false { obsAt 90 with
    reviewerOutput := { reviewed (time 80) with gitStatusAll := git leftover } }

theorem not_cleanSince_leftover : ¬CleanSince (some "") leftover := by
  intro h
  have hline : "?? notes.txt" ∈ lines leftover := by decide +kernel
  have hpath := h _ hline (by decide +kernel)
  exact absurd hpath (by decide +kernel)

theorem accepted_dispatchStatus {e : Turn} {status : String} (he : e ∈ (run accepted).1)
    (h : dispatchStatus e = some status) : status = "" := by
  have hinput := run_input he
  obtain ⟨pre, i, post⟩ := e
  cases i with
  | exit => simp [dispatchStatus] at h
  | tick c o =>
    have hgit : fullGitStatus (git "") = .ok "" := rfl
    simpa [dispatchStatus, (accepted_obs hinput).2, hgit, Except.toOption] using h.symm

end Sample

open Sample in
theorem gate_entered_dirty :
    Run (run (absorbing ++ [absorbed])).1 (run (absorbing ++ [absorbed])).2 ∧
      ¬GateClean (run (absorbing ++ [absorbed])).1 := by
  refine ⟨run_run _, ?_⟩
  rw [run_snoc, GateClean, past_cons]
  rintro ⟨hclean, -⟩
  let entry : Turn := ⟨(run absorbing).2, absorbed, (run absorbing).2.next absorbed⟩
  have ⟨hbase, hgate, hstatus⟩ : roundBaseline (run absorbing).1 = some "" ∧
      entersGate entry = true ∧ collectStatus entry = some leftover := by
    simp only [entry, absorbing, absorbed, reviewed, asBytes_eq_toByteArray]
    decide +kernel
  rw [hbase] at hclean
  exact not_cleanSince_leftover (hclean hgate leftover hstatus)

open Sample in
theorem gateClean_of_baselinesKept_accepted :
    (run accepted).2.ctx.runState = .runDone ∧ GateClean (run accepted).1 := by
  refine ⟨run_accepted.1, gateClean_of_baselinesKept (run_run accepted) ?_⟩
  rw [BaselinesKept, past_iff]
  intro newer e older heq _ status hstatus
  rw [accepted_dispatchStatus (by simp [heq]) hstatus]
  exact cleanSince_empty _

end Orchestrator

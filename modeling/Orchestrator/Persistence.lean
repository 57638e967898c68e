import Orchestrator.Lib.Path
import Orchestrator.Locks

namespace Orchestrator

open Rust Exec Trace

structure Appends (c d : OrchestratorCtx) : Prop where
  failures : c.failures <+: d.failures
  warnings : c.warnings <+: d.warnings
  commitHashes : c.commitHashes <+: d.commitHashes
  artifactPaths : c.artifactPaths <+: d.artifactPaths

theorem Appends.of_same {c d : OrchestratorCtx} (hf : d.failures = c.failures)
    (hw : d.warnings = c.warnings) (hh : d.commitHashes = c.commitHashes)
    (hp : d.artifactPaths = c.artifactPaths) : Appends c d := by
  constructor
  · rw [hf]
  · rw [hw]
  · rw [hh]
  · rw [hp]

theorem Appends.refl (c : OrchestratorCtx) : Appends c c := .of_same rfl rfl rfl rfl

theorem Appends.trans {c d e : OrchestratorCtx} (h : Appends c d) (h' : Appends d e) :
    Appends c e :=
  ⟨h.failures.trans h'.failures, h.warnings.trans h'.warnings,
    h.commitHashes.trans h'.commitHashes, h.artifactPaths.trans h'.artifactPaths⟩

theorem Appends.fail {c d : OrchestratorCtx} {e : String} (hf : d.failures = c.failures ++ [e])
    (hw : d.warnings = c.warnings) (hh : d.commitHashes = c.commitHashes)
    (hp : d.artifactPaths = c.artifactPaths) : Appends c d := by
  refine ⟨?_, by rw [hw], by rw [hh], by rw [hp]⟩
  rw [hf]
  exact List.prefix_append _ _

theorem prefix_addWarning (warnings : List String) (w : String) :
    warnings <+: addWarning warnings w := by
  simp only [addWarning]
  split
  · exact List.prefix_refl _
  · exact List.prefix_append _ _

theorem prefix_addCommitHash (lines hashes : List String) :
    hashes <+: lines.foldl addCommitHash hashes := by
  induction lines generalizing hashes with
  | nil => exact List.prefix_refl _
  | cons line lines ih =>
    apply List.IsPrefix.trans _ (ih _)
    simp only [addCommitHash]
    split
    · exact List.prefix_append _ _
    · exact List.prefix_refl _

def Accrues {α : Type} (x : OrchM α) (s : Orch) : Prop :=
  wp x (fun _ t => Appends s.ctx t.ctx) (fun _ t => Appends s.ctx t.ctx) s

theorem accrues_collectArtifacts (artifactLen : String → IoResult Nat) (names : List String)
    (s : Orch) : Accrues (collectArtifacts artifactLen names) s := by
  induction names generalizing s with
  | nil => exact Appends.refl _
  | cons name names ih =>
    simp only [Accrues, collectArtifacts, wp_bind, OrchM.wp_ofResult, OrchM.wp_modifyCtx]
    refine ⟨fun present _ => ?_, fun _ _ => Appends.refl _⟩
    have hstep : Appends s.ctx { s.ctx with
        artifactMap := insertArtifact s.ctx.artifactMap name present
        artifactPaths :=
          if present then s.ctx.artifactPaths ++ [name] else s.ctx.artifactPaths } := by
      refine ⟨List.prefix_refl _, List.prefix_refl _, List.prefix_refl _, ?_⟩
      simp only
      split
      · exact List.prefix_append _ _
      · exact List.prefix_refl _
    exact wp_mono (ih _) (fun _ _ h => hstep.trans h) fun _ _ h => hstep.trans h

theorem appends_route (role : AgentRole) (now : Int) (p : Probe) (state : AttemptState) (s : Orch) :
    Appends s.ctx (route role now p state s).2.ctx := by
  cases state with
  | success => exact .of_same rfl rfl rfl rfl
  | softSuccess =>
    simp only [route, Orch.mapCtx_ctx, routeResult]
    cases softSuccessAllowed s.ctx.args.workflowType s.ctx.artifactMap with
    | false => exact .fail rfl rfl rfl rfl
    | true => exact .of_same rfl rfl rfl rfl
  | failedServiceCap | failedTransport | failedSilent | failedProtocol =>
    exact .of_same rfl rfl rfl rfl
  | failedProviderAccess => exact .fail rfl rfl rfl rfl
  | hangConfirmed | cancelled =>
    simp only [route, Orch.mapCtx_ctx, Orch.terminateActiveChild_ctx]
    exact .of_same rfl rfl rfl rfl
  | finalizing =>
    simp only [route]
    split
    · rw [Orch.mapCtx_ctx, Orch.terminateActiveChild_ctx]
      exact .of_same rfl rfl rfl rfl
    · exact .refl _
  | running | waitingOutput | unknown | dispatching | terminatingStale | retryPending
  | retryExhausted => exact .refl _

theorem appends_pollChild (o : ProbeObs) (s : Orch) : Appends s.ctx (s.pollChild o).ctx := by
  obtain ⟨a, ha⟩ := pollChild_ctx o s
  rw [ha]
  exact .of_same rfl rfl rfl rfl

theorem appends_retryReviewerOutputFailure {c d : OrchestratorCtx} (reason : String)
    (h : Appends c d) : Appends c (retryReviewerOutputFailure reason d) :=
  h.trans (.fail rfl rfl rfl rfl)

theorem Prepares.appends {role : AgentRole} {c : OrchestratorCtx} {s t : Orch}
    (h : Prepares role c s t) : Appends s.ctx t.ctx := by
  obtain ⟨baseline, inbox, hc⟩ := h.ctx
  rw [hc]
  exact .of_same rfl rfl rfl rfl

theorem appends_doRoundRetryDecide (ctx : OrchestratorCtx) :
    Appends ctx (doRoundRetryDecide ctx) := by
  simp only [doRoundRetryDecide]
  split
  · exact .fail rfl rfl rfl rfl
  · exact .of_same rfl rfl rfl rfl

theorem appends_doQualityGate (ctx : OrchestratorCtx) : Appends ctx (doQualityGate ctx) := by
  simp only [doQualityGate]
  split
  · exact .of_same rfl rfl rfl rfl
  · split <;> exact .of_same rfl rfl rfl rfl

section Steps

variable [Crates] {o : StepObs} {s t : Orch}

theorem prefix_detectProviderError {ctx : OrchestratorCtx} {combined : String} {o : ProbeObs}
    {found : List String × Option ProviderErrorMatch}
    (h : detectProviderError ctx combined o = .ok found) : ctx.warnings <+: found.1 := by
  revert h
  simp only [detectProviderError]
  cases classifyProviderErrorWithMatch combined with
  | some m =>
    cases hm : m.errorClass with
    | serviceCap =>
      simp only [hm, Except.ok.injEq]
      rintro rfl
      exact List.prefix_refl _
    | auth | permission | transport =>
      simp only [hm, Except.ok.injEq]
      rintro rfl
      exact prefix_addWarning _ _
  | none =>
    cases ctx.attempt with
    | none =>
      rintro ⟨⟩
      exact List.prefix_refl _
    | some a =>
      simp only
      split
      · cases sessionJsonlServiceCapSince o a.dispatchTs with
        | error e =>
          intro h
          cases h
        | ok signal =>
          rintro ⟨⟩
          exact List.prefix_refl _
      · rintro ⟨⟩
        exact List.prefix_refl _

theorem accrues_observeProbe (role : AgentRole) (o : ProbeObs) (s : Orch) :
    Accrues (observeProbe role o) s := by
  have hsame {a : Option AttemptStateData} {m : String → Option Bool} :
      Appends s.ctx { s.ctx with attempt := a, artifactMap := m } := .of_same rfl rfl rfl rfl
  simp only [Accrues, observeProbe, wp_bind, OrchM.wp_ctx, OrchM.wp_ofResult, OrchM.wp_modifyCtx,
    OrchM.wp_unwrap, wp_pure]
  refine ⟨fun _ _ => ⟨fun signals _ => ⟨fun a _ => ⟨fun _ _ => ⟨fun combined _ =>
    ⟨fun found hfound => ?_, ?_⟩, ?_⟩, ?_⟩, ?_⟩, ?_⟩, ?_⟩
  · have hwarnings := prefix_detectProviderError hfound
    exact ⟨List.prefix_refl _, hwarnings, List.prefix_refl _, List.prefix_refl _⟩
  · exact fun _ _ => hsame
  · exact fun _ _ => hsame
  · exact fun _ _ => hsame
  · exact fun _ => hsame
  · exact fun _ _ => .refl _
  · exact fun _ _ => .refl _

theorem accrues_doMonitorProbe (role : AgentRole) (o : ProbeObs) (s : Orch) :
    Accrues (doMonitorProbe role o) s := by
  simp only [Accrues, doMonitorProbe, wp_ite, wp_bind, wp_modify, wp_pure]
  refine ⟨fun _ => ?_, fun _ => ?_⟩
  · rw [Orch.abort, Orch.terminateActiveChild_ctx]
    exact .of_same rfl rfl rfl rfl
  · have hpoll := appends_pollChild o s
    apply wp_mono (accrues_observeProbe role o (s.pollChild o))
    · intro p u hu
      simp only [OrchM.wp_ctx, OrchM.wp_modifyCtx, wp_get, wp_set]
      refine ((hpoll.trans hu).trans ?_).trans (appends_route role o.now p _ _)
      exact .of_same rfl rfl rfl rfl
    · exact fun _ _ hu => hpoll.trans hu

theorem accrues_surveyExecutor (o : ExecutorCollectObs) (s : Orch) :
    Accrues (surveyExecutor o) s := by
  simp only [Accrues, surveyExecutor, wp_bind, OrchM.wp_ctx, OrchM.wp_ofResult,
    OrchM.wp_modifyCtx]
  refine ⟨fun snapshot _ => ?_, fun _ _ => .refl _⟩
  have hsnapshot : Appends s.ctx { s.ctx with executorOutboxSnapshot := snapshot } :=
    .of_same rfl rfl rfl rfl
  apply wp_mono (accrues_collectArtifacts _ _ _)
  · intro _ t ht
    have ht := hsnapshot.trans ht
    refine ⟨fun log _ => ?_, fun _ _ => ht⟩
    exact ht.trans ⟨List.prefix_refl _, List.prefix_refl _, prefix_addCommitHash _ _,
      List.prefix_refl _⟩
  · exact fun _ _ ht => hsnapshot.trans ht

theorem Judged.appends {o : CollectObs} {v : ReviewerYaml} (h : Judged o s v t) :
    Appends s.ctx t.ctx := by
  cases h <;> exact .of_same rfl rfl rfl rfl

theorem Collected.appends {o : CollectObs} (h : Collected o s t) : Appends s.ctx t.ctx := by
  cases h with
  | unchanged _ | unreadable _ _ _ =>
    exact appends_retryReviewerOutputFailure _ (.refl _)
  | rejected _ _ _ _ =>
    exact appends_retryReviewerOutputFailure _ (.of_same rfl rfl rfl rfl)
  | dirty _ hv _ _ =>
    exact appends_retryReviewerOutputFailure _ (hv.appends.trans (.of_same rfl rfl rfl rfl))
  | clean _ hv _ _ => exact hv.appends.trans (.of_same rfl rfl rfl rfl)

theorem Uncollected.appends {o : CollectObs} (h : Uncollected o s t) : Appends s.ctx t.ctx := by
  cases h with
  | unread => exact .of_same rfl rfl rfl rfl
  | judged _ hv => exact hv.appends

theorem accrues_doDispatch (role : AgentRole) (o : DispatchObs) (s : Orch) :
    Accrues (doDispatch role o) s := by
  have hlock (l : Option SessionLock) : Appends s.ctx (s.withLock role l).ctx :=
    .of_same rfl rfl rfl rfl
  rw [Accrues, doDispatch, wp_bind]
  apply wp_mono (dispatchRole_spec role o s)
  · intro _ t ht
    cases ht with
    | launched _ _ hp _ _ =>
      exact ((hlock _).trans hp.appends).trans (.of_same rfl rfl rfl rfl)
  · intro _ t ht
    cases ht with
    | unlocked => exact .refl _
    | locked _ _ hp => exact (hlock _).trans hp.appends

theorem accrues_step (o : StepObs) (s : Orch) : Accrues (step o) s := by
  rw [Accrues, step, wp_bind, OrchM.wp_ctx]
  cases h : s.ctx.runState
  case contextPrep =>
    rw [wp_map]
    apply wp_mono (doContextPrep_spec o.prep s)
    · rintro _ t ⟨⟨branch, head, key, hc⟩, -⟩
      rw [hc]
      exact .of_same rfl rfl rfl rfl
    · rintro _ t ⟨hc, -⟩
      rw [hc]
      exact .refl _
  case sessionBind =>
    rw [wp_map]
    apply wp_mono (doSessionBind_spec o.bind s)
    · rintro _ t ⟨x, y, -, rfl⟩
      exact .of_same rfl rfl rfl rfl
    · rintro _ t rfl
      exact .refl _
  case executorDispatch =>
    rw [wp_map]
    exact accrues_doDispatch _ _ s
  case reviewerDispatch =>
    rw [wp_map]
    exact accrues_doDispatch _ _ s
  case executorMonitor => exact accrues_doMonitorProbe _ _ s
  case reviewerMonitor => exact accrues_doMonitorProbe _ _ s
  case roundRetryDecide => exact appends_doRoundRetryDecide s.ctx
  case executorOutputCollect =>
    rw [wp_map, doExecutorOutputCollect, wp_bind]
    apply wp_mono (accrues_surveyExecutor o.executorOutput s)
    · exact fun _ t ht => ht.trans (.of_same rfl rfl rfl rfl)
    · exact fun _ t ht => ht
  case orchVerify => exact .of_same rfl rfl rfl rfl
  case reviewerOutputCollect =>
    rw [wp_map]
    apply wp_mono (doReviewerOutputCollect_spec o.reviewerOutput s)
    · exact fun _ t ht => ht.appends
    · exact fun _ t ht => ht.appends
  case qualityGate => exact appends_doQualityGate s.ctx
  case roundFeedbackPrep => exact .of_same rfl rfl rfl rfl
  all_goals exact .refl _

theorem appends_next (m : Machine) (i : Input) : Appends m.ctx (m.next i).ctx := by
  have hsettle (o : StepObs) : Appends m.ctx (Machine.settle (step o m.toOrch)).ctx := by
    have hstep := accrues_step o m.toOrch
    cases hr : step o m.toOrch with
    | ok flow t =>
      have ht := wp_of_ok hstep hr
      cases flow <;> exact ht
    | error e t =>
      have ht := wp_of_error hstep hr
      cases e with
      | error e => exact ht.trans (.fail rfl rfl rfl rfl)
      | panic => exact ht
  cases i with
  | exit child => exact .refl _
  | tick c o =>
    cases hpc : m.pc with
    | start =>
      simp only [Machine.next, hpc]
      have hprologue := prologue_frame o.prologue m.toOrch
      cases hr : prologue o.prologue m.toOrch with
      | ok _ s =>
        obtain ⟨root, rfl⟩ := wp_of_ok hprologue hr
        exact .of_same rfl rfl rfl rfl
      | error e s =>
        obtain ⟨root, rfl⟩ := wp_of_error hprologue hr
        cases e with
        | error e => exact .fail rfl rfl rfl rfl
        | panic => exact .of_same rfl rfl rfl rfl
    | head =>
      simp only [Machine.next, hpc]
      split
      · exact .refl _
      · split
        · exact .of_same rfl rfl rfl rfl
        · exact hsettle o
    | monitor =>
      simp only [Machine.next, hpc]
      exact hsettle o
    | panicked =>
      simp only [Machine.next, hpc]
      exact .refl _

end Steps

/-- How far a run has come: its input is admitted, its repository prepared, its sessions bound. -/
def RunState.stage : RunState → Nat
  | .runInit => 0
  | .contextPrep => 1
  | .sessionBind => 2
  | _ => 3

theorem stage_le (r : RunState) : r.stage ≤ 3 := by
  cases r <;> decide

theorem stage_of_terminal {r : RunState} (h : r.isTerminal = true) : r.stage = 3 := by
  cases r <;> first | rfl | cases h

theorem stage_of_monitor {r : RunState} {role : AgentRole} (h : r = .monitor role) :
    r.stage = 3 := by
  subst h
  cases role <;> rfl

theorem stage_of_dispatch {r : RunState} {role : AgentRole} (h : r = .dispatch role) :
    r.stage = 3 := by
  subst h
  cases role <;> rfl

structure Keeps (c d : OrchestratorCtx) : Prop where
  stage : c.runState.stage ≤ d.runState.stage
  args : 1 ≤ c.runState.stage → d.args = c.args
  branch : 2 ≤ c.runState.stage → d.branch = c.branch
  initialGitHead : 2 ≤ c.runState.stage → d.initialGitHead = c.initialGitHead
  claudeProjectKey : 2 ≤ c.runState.stage → d.claudeProjectKey = c.claudeProjectKey
  sessionId : 3 ≤ c.runState.stage → ∀ r, d.sessionId r = c.sessionId r

theorem Keeps.refl (c : OrchestratorCtx) : Keeps c c :=
  ⟨Nat.le_refl _, fun _ => rfl, fun _ => rfl, fun _ => rfl, fun _ => rfl, fun _ _ => rfl⟩

theorem Keeps.trans {c d e : OrchestratorCtx} (h : Keeps c d) (h' : Keeps d e) : Keeps c e where
  stage := h.stage.trans h'.stage
  args hc := (h'.args (hc.trans h.stage)).trans (h.args hc)
  branch hc := (h'.branch (hc.trans h.stage)).trans (h.branch hc)
  initialGitHead hc := (h'.initialGitHead (hc.trans h.stage)).trans (h.initialGitHead hc)
  claudeProjectKey hc := (h'.claudeProjectKey (hc.trans h.stage)).trans (h.claudeProjectKey hc)
  sessionId hc r := (h'.sessionId (hc.trans h.stage) r).trans (h.sessionId hc r)

structure SameRoots (c d : OrchestratorCtx) : Prop where
  args : d.args = c.args
  branch : d.branch = c.branch
  initialGitHead : d.initialGitHead = c.initialGitHead
  claudeProjectKey : d.claudeProjectKey = c.claudeProjectKey
  executorSessionId : d.executorSessionId = c.executorSessionId
  reviewerSessionId : d.reviewerSessionId = c.reviewerSessionId

theorem SameRoots.trans {c d e : OrchestratorCtx} (h : SameRoots c d) (h' : SameRoots d e) :
    SameRoots c e where
  args := h'.args.trans h.args
  branch := h'.branch.trans h.branch
  initialGitHead := h'.initialGitHead.trans h.initialGitHead
  claudeProjectKey := h'.claudeProjectKey.trans h.claudeProjectKey
  executorSessionId := h'.executorSessionId.trans h.executorSessionId
  reviewerSessionId := h'.reviewerSessionId.trans h.reviewerSessionId

theorem SameRoots.keeps {c d : OrchestratorCtx} (h : SameRoots c d)
    (hstage : c.runState.stage ≤ d.runState.stage) : Keeps c d := by
  refine ⟨hstage, fun _ => h.args, fun _ => h.branch, fun _ => h.initialGitHead,
    fun _ => h.claudeProjectKey, fun _ r => ?_⟩
  cases r with
  | executor => exact h.executorSessionId
  | reviewer => exact h.reviewerSessionId

theorem Prepares.sameRoots {role : AgentRole} {c : OrchestratorCtx} {s t : Orch}
    (h : Prepares role c s t) : SameRoots s.ctx t.ctx := by
  obtain ⟨baseline, inbox, hc⟩ := h.ctx
  rw [hc]
  constructor <;> rfl

theorem keeps_doRoundRetryDecide (ctx : OrchestratorCtx) :
    Keeps ctx (doRoundRetryDecide ctx) := by
  have hle := stage_le ctx.runState
  simp only [doRoundRetryDecide]
  split
  · exact SameRoots.keeps ⟨rfl, rfl, rfl, rfl, rfl, rfl⟩ hle
  · refine SameRoots.keeps ⟨rfl, rfl, rfl, rfl, rfl, rfl⟩ (hle.trans ?_)
    cases ctx.currentRole.getD .executor <;> exact Nat.le_refl 3

theorem keeps_doQualityGate (ctx : OrchestratorCtx) : Keeps ctx (doQualityGate ctx) := by
  have hle := stage_le ctx.runState
  simp only [doQualityGate]
  split
  · exact SameRoots.keeps ⟨rfl, rfl, rfl, rfl, rfl, rfl⟩ hle
  · split <;> exact SameRoots.keeps ⟨rfl, rfl, rfl, rfl, rfl, rfl⟩ hle

/-- The run `n` is the run `m` at a later time: the records have grown, what is bound stays bound,
and a run that is over has changed no more. -/
structure Machine.Later (m n : Machine) : Prop where
  appends : Appends m.ctx n.ctx
  keeps : Keeps m.ctx n.ctx
  ended : ¬m.Active → ¬n.Active ∧ n.ctx = m.ctx

theorem Machine.Later.trans {m n l : Machine} (h : m.Later n) (h' : n.Later l) : m.Later l := by
  refine ⟨h.appends.trans h'.appends, h.keeps.trans h'.keeps, fun hm => ?_⟩
  obtain ⟨hn, hmn⟩ := h.ended hm
  obtain ⟨hl, hnl⟩ := h'.ended hn
  exact ⟨hl, hnl.trans hmn⟩

section Moves

variable [Crates] {o : StepObs} {s t : Orch} {flow : Flow}

theorem Outcome.sameRoots {role : AgentRole} {o : ProbeObs} (h : Outcome role o s flow t) :
    SameRoots s.ctx t.ctx := by
  cases h with
  | aborted => simp only [Orch.abort, Orch.terminateActiveChild_ctx]; constructor <;> rfl
  | @finished p state v allowed h _ _ =>
    obtain ⟨w, hw⟩ := h.ctx
    cases allowed <;> simp only [Orch.mapCtx_ctx, hw] <;> constructor <;> rfl
  | watched h | stopped h _ | capped h _ _ | failed h _ | hung h | cancelled h =>
    obtain ⟨w, hw⟩ := h.ctx
    simp only [Orch.mapCtx_ctx, Orch.terminateActiveChild_ctx, hw]
    constructor <;> rfl

theorem Outcome.stage {role : AgentRole} {o : ProbeObs} (h : Outcome role o s flow t)
    (hr : s.ctx.runState = .monitor role) : t.ctx.runState.stage = 3 := by
  obtain ⟨-, ⟨-, ht⟩ | ⟨-, ht | ht⟩⟩ | ⟨-, -, ht⟩ := h.target
  · exact stage_of_monitor (ht.trans hr)
  · rw [ht]
    cases role <;> rfl
  · exact stage_of_terminal ht
  · rw [ht]
    rfl

theorem Judged.sameRoots {o : CollectObs} {v : ReviewerYaml} (h : Judged o s v t) :
    SameRoots s.ctx t.ctx := by
  cases h <;> constructor <;> rfl

theorem Collected.keeps {o : CollectObs} (h : Collected o s t) : Keeps s.ctx t.ctx := by
  have hle := stage_le s.ctx.runState
  cases h with
  | unchanged _ | unreadable _ _ _ | rejected _ _ _ _ =>
    exact SameRoots.keeps ⟨rfl, rfl, rfl, rfl, rfl, rfl⟩ hle
  | dirty _ hv _ _ | clean _ hv _ _ =>
    apply SameRoots.keeps
    · exact hv.sameRoots.trans ⟨rfl, rfl, rfl, rfl, rfl, rfl⟩
    · exact hle

theorem Stepped.keeps (h : Stepped o s flow t) : Keeps s.ctx t.ctx := by
  have hle := stage_le s.ctx.runState
  cases h with
  | prepared hr hc _ =>
    rw [hc]
    refine ⟨by rw [hr]; exact Nat.le_succ 1, fun _ => rfl, ?_, ?_, ?_, ?_⟩
    all_goals
      rw [hr]
      exact fun h => absurd h (by decide)
  | bound hr _ =>
    refine ⟨hle, fun _ => rfl, fun _ => rfl, fun _ => rfl, fun _ => rfl, ?_⟩
    rw [hr]
    exact fun h => absurd h (by decide)
  | @dispatched role u hr hd =>
    cases hd with
    | launched _ _ hp _ _ =>
      have hlock (l : Option SessionLock) : SameRoots s.ctx (s.withLock role l).ctx :=
        ⟨rfl, rfl, rfl, rfl, rfl, rfl⟩
      apply SameRoots.keeps
      · exact ((hlock _).trans hp.sameRoots).trans ⟨rfl, rfl, rfl, rfl, rfl, rfl⟩
      · rw [stage_of_dispatch hr]
        exact (stage_of_monitor rfl).ge
  | probed hr hp =>
    apply hp.outcome.sameRoots.keeps
    rw [hp.outcome.stage hr]
    exact hle
  | retried _ => exact keeps_doRoundRetryDecide s.ctx
  | gated _ => exact keeps_doQualityGate s.ctx
  | surveyed _ hs =>
    obtain ⟨_, _, _, _, rfl⟩ := hs
    exact SameRoots.keeps ⟨rfl, rfl, rfl, rfl, rfl, rfl⟩ hle
  | verified _ | fedBack _ => exact SameRoots.keeps ⟨rfl, rfl, rfl, rfl, rfl, rfl⟩ hle
  | collected _ hc => exact hc.keeps
  | skipped _ => exact .refl _

theorem Interrupted.sameRoots (h : Interrupted o s t) : SameRoots s.ctx t.ctx := by
  cases h with
  | preparing _ hc _ =>
    rw [hc]
    constructor <;> rfl
  | @dispatching role _ _ h =>
    cases h with
    | unlocked => constructor <;> rfl
    | locked _ _ hp =>
      have hlock (l : Option SessionLock) : SameRoots s.ctx (s.withLock role l).ctx :=
        ⟨rfl, rfl, rfl, rfl, rfl, rfl⟩
      exact (hlock _).trans hp.sameRoots
  | probing _ h =>
    obtain ⟨_, _, _, rfl⟩ := h
    obtain ⟨a, ha⟩ := pollChild_ctx o.probe s
    simp only [ha]
    constructor <;> rfl
  | surveying _ h =>
    obtain ⟨_, _, _, _, rfl⟩ := h
    constructor <;> rfl
  | collecting _ h =>
    cases h with
    | unread => constructor <;> rfl
    | judged _ h => exact h.sameRoots

theorem Move.keeps {m m' : Machine} {i : Input} (h : Move m i m') (hm : m.Placed) :
    Keeps m.ctx m'.ctx := by
  have hle := stage_le m.ctx.runState
  -- Before the input is admitted a context is bound to keep nothing.
  have hfirst (d : OrchestratorCtx) (hpc : m.pc = .start) : Keeps m.ctx d := by
    have hstage : m.ctx.runState.stage = 0 := by rw [hm.start hpc]; rfl
    constructor
    · rw [hstage]
      exact Nat.zero_le _
    all_goals
      intro h
      rw [hstage] at h
      exact absurd h (by decide)
  cases h with
  | exit | idle _ => exact .refl _
  | admitted hpc _ | rejected hpc _ => exact hfirst _ hpc
  | cancelled _ _ => exact SameRoots.keeps ⟨rfl, rfl, rfl, rfl, rfl, rfl⟩ hle
  | stepped _ hst => exact hst.keeps
  | @failed c o s e _ hi =>
    apply SameRoots.keeps
    · exact hi.sameRoots.trans ⟨rfl, rfl, rfl, rfl, rfl, rfl⟩
    · rw [Orch.mapCtx_ctx, stage_of_terminal (Machine.fail_terminal e s.ctx)]
      exact hle
  | panicked hp =>
    obtain ⟨hpc, -⟩ | ⟨-, hi⟩ := hp
    · exact hfirst _ hpc
    · exact hi.sameRoots.keeps (by rw [hi.kept.runState])

theorem Move.ended {m m' : Machine} {i : Input} (h : Move m i m') (hm : m.Placed)
    (hover : ¬m.Active) : ¬m'.Active ∧ m'.ctx = m.ctx := by
  have hstart (hpc : m.pc = .start) : m.Active :=
    ⟨by simp [hpc], by rw [hm.start hpc]; rfl⟩
  cases h with
  | exit | idle _ => exact ⟨hover, rfl⟩
  | admitted hpc _ | rejected hpc _ => exact absurd (hstart hpc) hover
  | cancelled hpc ht => exact absurd ⟨by simp [hpc], ht⟩ hover
  | stepped hs _ | failed hs _ => exact absurd (hs.active hm) hover
  | panicked hp =>
    obtain ⟨hpc, -⟩ | ⟨hs, -⟩ := hp
    · exact absurd (hstart hpc) hover
    · exact absurd (hs.active hm) hover

theorem next_later {m : Machine} (hm : m.Placed) (i : Input) : m.Later (m.next i) where
  appends := appends_next m i
  keeps := (next_move m i).keeps hm
  ended := (next_move m i).ended hm

theorem run_later {h : History Machine Input} {m : Machine} (hr : Run h m) :
    ∀ e ∈ h, e.pre.Later m := by
  apply Trace.Run.invariant (P := fun h m => ∀ e ∈ h, e.pre.Later m) hr
  · exact fun _ _ _ he => nomatch he
  · intro h m i hr ih e he
    have hnext := next_later (Run.placed hr) i
    obtain rfl | he := List.mem_cons.mp he
    · exact hnext
    · exact (ih e he).trans hnext

end Moves

open Sample in
theorem run_later_executed :
    (run executed).2.ctx.runState = .reviewerDispatch ∧ (run executed).2.ctx.branch = "main" ∧
      ∀ e ∈ (run executed).1, e.pre.Later (run executed).2 :=
  ⟨by decide +kernel, by decide +kernel, run_later (run_run executed)⟩

end Orchestrator

import Orchestrator.Worktree

/-! The order of the protocol over a whole run. -/

namespace Orchestrator

open Rust Exec Trace

def Unpanicked {α : Type} (x : OrchM α) (s : Orch) : Prop :=
  wp x (fun _ _ => True) (fun f _ => f ≠ .panic) s

section Unpanicked

variable {α β : Type} {x : OrchM α} {f : α → OrchM β} {s : Orch}

theorem Unpanicked.bind (hx : Unpanicked x s) (hf : ∀ a t, Unpanicked (f a) t) :
    Unpanicked (x >>= f) s := by
  rw [Unpanicked, wp_bind]
  apply wp_mono hx
  · exact fun a t _ => hf a t
  · exact fun _ _ h => h

theorem unpanicked_ofResult (r : OrchestratorResult α) : Unpanicked (OrchM.ofResult r) s := by
  simp [Unpanicked]

theorem unpanicked_modifyCtx (g : OrchestratorCtx → OrchestratorCtx) :
    Unpanicked (OrchM.modifyCtx g) s := by
  simp [Unpanicked]

theorem unpanicked_ensureAgentIoExcluded (repo : String) (o : PrepObs) :
    Unpanicked (ensureAgentIoExcluded repo o) s := by
  simp [Unpanicked, ensureAgentIoExcluded]

theorem unpanicked_doContextPrep (o : PrepObs) : Unpanicked (doContextPrep o) s := by
  simp only [doContextPrep, Unpanicked, wp_bind, OrchM.wp_ctx, OrchM.wp_ofResult, ne_eq,
    reduceCtorEq, not_false_eq_true, implies_true, and_true]
  intro _ _ _ _ _ _ _ _ _ _
  apply wp_mono (unpanicked_ensureAgentIoExcluded s.ctx.args.workspaceRoot o)
  · simp
  · exact fun _ _ h => h

theorem unpanicked_prologue (o : PrologueObs) : Unpanicked (prologue o) s := by
  simp [Unpanicked, prologue, validateInputs]

theorem unpanicked_doSessionBind (o : BindObs) : Unpanicked (doSessionBind o) s := by
  simp [Unpanicked, doSessionBind]

theorem unpanicked_resetTransport (inbox outbox : String) (role : AgentRole) (o : ResetObs) :
    Unpanicked (resetTransport inbox outbox role o) s := by
  cases role with
  | executor => simp [Unpanicked, resetTransport, truncateFile]
  | reviewer => simp [Unpanicked, resetTransport, truncateFile]

theorem unpanicked_captureReviewerBaseline (role : AgentRole) (o : DispatchObs) :
    Unpanicked (captureReviewerBaseline role o) s := by
  cases role with
  | executor => simp [Unpanicked, captureReviewerBaseline]
  | reviewer => simp [Unpanicked, captureReviewerBaseline]

theorem unpanicked_collectArtifacts (artifactLen : String → IoResult Nat) (names : List String) :
    Unpanicked (collectArtifacts artifactLen names) s := by
  induction names generalizing s with
  | nil => trivial
  | cons name names ih =>
    apply Unpanicked.bind (unpanicked_ofResult _)
    intro present t
    exact Unpanicked.bind (unpanicked_modifyCtx _) fun _ _ => ih

variable [Crates]

theorem unpanicked_prepareDispatch (role : AgentRole) (id : String) (o : DispatchObs) :
    Unpanicked (prepareDispatch role id o) s := by
  simp only [prepareDispatch, Unpanicked, wp_bind, OrchM.wp_ctx, OrchM.wp_ofResult, ne_eq,
    reduceCtorEq, not_false_eq_true, implies_true, and_true]
  intro _ _ status _ head _
  apply wp_mono (unpanicked_resetTransport _ _ role o.reset)
  · intro _ t _
    apply wp_mono (unpanicked_captureReviewerBaseline role o)
    · simp [writeRequest]
    · exact fun _ _ h => h
  · exact fun _ _ h => h

theorem unpanicked_doDispatch (role : AgentRole) (o : DispatchObs) :
    Unpanicked (doDispatch role o) s := by
  simp only [doDispatch, dispatchRole, Unpanicked, wp_bind, OrchM.wp_ctx, OrchM.wp_ofResult,
    OrchM.wp_modifyCtx, ne_eq, reduceCtorEq, not_false_eq_true, implies_true, and_true]
  intro id _ lock _
  apply wp_mono (unpanicked_prepareDispatch role id o)
  · simp
  · exact fun _ _ h => h

theorem unpanicked_doExecutorOutputCollect (o : ExecutorCollectObs) :
    Unpanicked (doExecutorOutputCollect o) s := by
  simp only [doExecutorOutputCollect, surveyExecutor, Unpanicked, wp_bind, OrchM.wp_ctx,
    OrchM.wp_ofResult, OrchM.wp_modifyCtx, ne_eq, reduceCtorEq, not_false_eq_true, implies_true,
    and_true]
  intro snapshot _
  apply wp_mono (unpanicked_collectArtifacts o.artifactLen _)
  · simp
  · exact fun _ _ h => h

theorem unpanicked_doMonitorProbe {role : AgentRole} {o : ProbeObs} {a : AttemptStateData}
    (ha : s.ctx.attempt = some a) : Unpanicked (doMonitorProbe role o) s := by
  obtain ⟨b, hb, -⟩ := pollChild_attempt (o := o) ha
  simp [Unpanicked, doMonitorProbe, observeProbe, hb]

end Unpanicked

/-- The lines of `git status --short`: two columns and a space, then the path. -/
def ShortStatus (status : String) : Prop :=
  ∀ line ∈ lines status, ∃ x y path, line.toList = x :: y :: ' ' :: path ∧
    x.utf8Size = 1 ∧ y.utf8Size = 1

def CollectObs.ShortStatus (o : CollectObs) : Prop :=
  ∀ status, fullGitStatus o.gitStatusAll = .ok status → Orchestrator.ShortStatus status

theorem statusLinePath_isSome {line : String} {x y : Char} {path : List Char}
    (h : line.toList = x :: y :: ' ' :: path) (hx : x.utf8Size = 1) (hy : y.utf8Size = 1) :
    (statusLinePath line).isSome := by
  have hblank : Char.utf8Size ' ' = 1 := by decide
  simp only [statusLinePath]
  split
  · simp [h, sliceFrom, hx, hy, hblank]
  · rfl

theorem newDirtyLines_isSome {initial current : List String} {rel : String}
    (h : ∀ line ∈ current, (statusLinePath line).isSome) :
    (newDirtyLines initial rel current).isSome := by
  induction current with
  | nil => rfl
  | cons line current ih =>
    obtain ⟨hline, hcurrent⟩ := List.forall_mem_cons.mp h
    simp only [newDirtyLines]
    split
    · exact ih hcurrent
    · obtain ⟨path, hpath⟩ := Option.isSome_iff_exists.mp hline
      simp [hpath, ih hcurrent]

theorem reviewerWorkspaceDirtyLines_isSome {initial current rel : String}
    (h : ShortStatus current) : (reviewerWorkspaceDirtyLines initial current rel).isSome := by
  simp only [reviewerWorkspaceDirtyLines, Option.isSome_map]
  apply newDirtyLines_isSome
  intro line hline
  obtain ⟨x, y, path, hl, hx, hy⟩ := h line hline
  exact statusLinePath_isSome hl hx hy

section Collect

variable {o : CollectObs} {s : Orch}

theorem unpanicked_checkReviewerWorkspace (h : o.ShortStatus) :
    Unpanicked (checkReviewerWorkspace o) s := by
  simp only [checkReviewerWorkspace, reviewerWorkspaceDirtyReason, Unpanicked, wp_bind,
    OrchM.wp_ctx, OrchM.wp_ofResult, OrchM.wp_unwrap, wp_pure, ne_eq, reduceCtorEq,
    not_false_eq_true, implies_true, and_true]
  intro status hstatus
  refine ⟨fun dirty _ => ?_, ?_⟩
  · cases dirty <;> simp
  · intro hnone
    have hsome : (reviewerWorkspaceDirtyLines (s.ctx.preReviewerGitStatus.getD "") status
        outboxRel).isSome := reviewerWorkspaceDirtyLines_isSome (h status hstatus)
    simp [hnone] at hsome

variable [Crates]

theorem unpanicked_saveVerdict (raw : String) : Unpanicked (saveVerdict raw) s := by
  simp only [saveVerdict, Unpanicked, wp_bind, OrchM.wp_ctx]
  split
  · trivial
  · cases judgeReviewerOutput s.ctx.args.notionPolicy raw with
    | ok v => simp
    | error e => simp

theorem unpanicked_doReviewerOutputCollect (h : o.ShortStatus) :
    Unpanicked (doReviewerOutputCollect o) s := by
  simp only [doReviewerOutputCollect, Unpanicked, wp_bind, OrchM.wp_ctx, OrchM.wp_ofResult,
    wp_ite, OrchM.wp_modifyCtx, ne_eq, reduceCtorEq, not_false_eq_true, implies_true, and_true]
  intro mtime _
  refine ⟨trivial, fun _ => ?_⟩
  cases reviewerText s.ctx o with
  | error e => simp
  | ok raw =>
    simp only [wp_bind, OrchM.wp_ofResult, OrchM.wp_modifyCtx, reduceCtorEq, not_false_eq_true,
      implies_true, and_true]
    intro snapshot _
    apply wp_mono (unpanicked_saveVerdict raw)
    · rintro saved t -
      cases saved with
      | true => exact unpanicked_checkReviewerWorkspace h
      | false => trivial
    · exact fun _ _ h => h

theorem step_unpanicked {o : StepObs} (ha : ∀ r, s.ctx.runState = .monitor r →
    s.ctx.attempt.isSome) (h : o.reviewerOutput.ShortStatus) : Unpanicked (step o) s := by
  rw [Unpanicked, step, wp_bind, OrchM.wp_ctx]
  cases hr : s.ctx.runState
  case contextPrep => rw [wp_map]; exact unpanicked_doContextPrep o.prep
  case sessionBind => rw [wp_map]; exact unpanicked_doSessionBind o.bind
  case executorDispatch => rw [wp_map]; exact unpanicked_doDispatch .executor o.dispatch
  case reviewerDispatch => rw [wp_map]; exact unpanicked_doDispatch .reviewer o.dispatch
  case executorMonitor =>
    obtain ⟨a, ha⟩ := Option.isSome_iff_exists.mp (ha .executor hr)
    exact unpanicked_doMonitorProbe ha
  case reviewerMonitor =>
    obtain ⟨a, ha⟩ := Option.isSome_iff_exists.mp (ha .reviewer hr)
    exact unpanicked_doMonitorProbe ha
  case executorOutputCollect =>
    rw [wp_map]
    exact unpanicked_doExecutorOutputCollect o.executorOutput
  case reviewerOutputCollect => rw [wp_map]; exact unpanicked_doReviewerOutputCollect h
  all_goals trivial

end Collect

theorem doRoundRetryDecide_target (ctx : OrchestratorCtx) :
    (doRoundRetryDecide ctx).runState =
      if consecutiveFailureLimit ≤ ctx.consecutiveFailureCount then
        .runFailedConsecutiveFailureLimit
      else .dispatch (ctx.currentRole.getD .executor) := by
  simp only [doRoundRetryDecide]
  split
  · rfl
  · cases ctx.currentRole.getD .executor <;> rfl

theorem doQualityGate_target (ctx : OrchestratorCtx) :
    (doQualityGate ctx).runState = .roundFeedbackPrep ∨
      (doQualityGate ctx).runState.isTerminal = true := by
  simp only [doQualityGate]
  cases ctx.reviewResult with
  | none => exact .inr rfl
  | some v => cases hd : v.decision <;> simp [hd, RunState.isTerminal]

def lastDispatched : History Machine Input → Option AgentRole
  | [] => none
  | e :: h =>
    if dispatchesRole .executor e then some .executor
    else if dispatchesRole .reviewer e then some .reviewer
    else lastDispatched h

def Attended (ctx : OrchestratorCtx) : Prop :=
  match ctx.runState with
  | .executorMonitor | .reviewerMonitor | .executorOutputCollect | .reviewerOutputCollect
  | .roundRetryDecide => True
  | _ => False

def Staffed (h : History Machine Input) (ctx : OrchestratorCtx) : Prop :=
  ∃ r a, lastDispatched h = some r ∧ ctx.currentRole = some r ∧ ctx.attempt = some a ∧ a.role = r

section Staff

variable {h : History Machine Input} {m m' : Machine} {c : Bool} {o : StepObs} {t : Orch}
  {flow : Flow} {i : Input}

theorem since_of_not_gate (hg : m.ctx.runState ≠ .qualityGate) :
    since gates (⟨m, i, m'⟩ :: h) = ⟨m, i, m'⟩ :: since gates h :=
  since_cons (by simp [gates, hg])

theorem lastDispatched_cons {e : Turn} (he : ∀ r, dispatchesRole r e = false) :
    lastDispatched (e :: h) = lastDispatched h := by
  simp [lastDispatched, he]

theorem lastDispatched_dispatch {e : Turn} {role : AgentRole} (he : dispatchesRole role e = true)
    (hother : ∀ r, r ≠ role → dispatchesRole r e = false) :
    lastDispatched (e :: h) = some role := by
  cases role with
  | executor => simp [lastDispatched, he]
  | reviewer => simp [lastDispatched, he, hother .executor]

theorem not_dispatchesRole (hd : ∀ r, m.ctx.runState ≠ .dispatch r) (r : AgentRole) :
    dispatchesRole r ⟨m, i, m'⟩ = false := by
  simp [dispatchesRole, hd r]

theorem Attended.not_dispatch {ctx : OrchestratorCtx} (h : Attended ctx) (r : AgentRole) :
    ctx.runState ≠ .dispatch r := by
  intro hd
  cases r <;> simp [Attended, hd, RunState.dispatch] at h

theorem attended_monitor {ctx : OrchestratorCtx} {r : AgentRole} (h : ctx.runState = .monitor r) :
    Attended ctx := by
  cases r <;> simp [Attended, h, RunState.monitor]

theorem attended_collecting {ctx : OrchestratorCtx}
    (h : ctx.runState = .reviewerOutputCollect) : Attended ctx := by
  simp [Attended, h]

theorem not_attended_of_terminal {ctx : OrchestratorCtx} (h : ctx.runState.isTerminal = true) :
    ¬Attended ctx := by
  revert h
  simp only [Attended]
  cases ctx.runState <;> simp [RunState.isTerminal]

theorem Staffed.keep {ctx : OrchestratorCtx} (hinv : Staffed h m.ctx) (ha : Attended m.ctx)
    (hrole : ctx.currentRole = m.ctx.currentRole)
    (hattempt : ∀ a, m.ctx.attempt = some a → ∃ b, ctx.attempt = some b ∧ SameAttempt a b) :
    Staffed (⟨m, i, m'⟩ :: h) ctx := by
  obtain ⟨r, a, hlast, hcur, hsome, hr⟩ := hinv
  obtain ⟨b, hb, hab⟩ := hattempt a hsome
  refine ⟨r, b, ?_, hrole.trans hcur, hb, hab.role.trans hr⟩
  rw [lastDispatched_cons fun r => not_dispatchesRole ha.not_dispatch r, hlast]

variable [Crates]

theorem Collected.sameAttempt {o : CollectObs} {s : Orch} (hc : Collected o s t) :
    t.ctx.currentRole = s.ctx.currentRole ∧ t.ctx.attempt = s.ctx.attempt := by
  cases hc with
  | unchanged _ | unreadable _ _ _ | rejected _ _ _ _ => exact ⟨rfl, rfl⟩
  | dirty _ hj _ _ | clean _ hj _ _ => cases hj <;> exact ⟨rfl, rfl⟩

theorem Staffed.stepped (hinv : Attended m.ctx → Staffed h m.ctx) (hs : m.Steps c)
    (hst : Stepped o m.toOrch flow t) {pc : Pc} (ha : Attended t.ctx) :
    Staffed (⟨m, .tick c o, ⟨t, pc⟩⟩ :: h) t.ctx := by
  cases hst with
  | @dispatched role u hr hd =>
    cases hd with
    | @launched _ _ u p pid _ _ hp _ _ =>
      refine ⟨role, _, ?_, rfl, rfl, rfl⟩
      apply lastDispatched_dispatch
      · rw [dispatchesRole_of_steps hs, decide_eq_true hr]
      · intro r hne
        rw [dispatchesRole_of_steps hs, decide_eq_false]
        exact fun h => hne (dispatch_injective (h.symm.trans hr))
  | @probed role _ _ hr hp =>
    have hm : Attended m.ctx := attended_monitor hr
    apply (hinv hm).keep hm
    · exact hp.outcome.sameRound.currentRole
    · exact fun a ha => hp.outcome.sameAttempt ha
  | collected hr hc =>
    have hm : Attended m.ctx := attended_collecting hr
    obtain ⟨hrole, hattempt⟩ := hc.sameAttempt
    apply (hinv hm).keep hm hrole
    exact fun a ha => ⟨a, hattempt.trans ha, rfl, rfl, rfl⟩
  | retried hr =>
    have htarget := doRoundRetryDecide_target m.ctx
    split at htarget
    · simp [Attended, htarget] at ha
    · exact absurd htarget (ha.not_dispatch _)
  | gated hr =>
    obtain ht | ht := doQualityGate_target m.ctx
    · simp [Attended, ht] at ha
    · exact absurd ha (not_attended_of_terminal ht)
  | prepared _ hc _ => simp [Attended, hc] at ha
  | bound _ _ | surveyed _ _ | verified _ | fedBack _ =>
    simp [Attended, withState, doOrchVerify, doRoundFeedbackPrep] at ha
  | skipped hr =>
    have hm : Attended m.ctx := ha
    obtain hr | hr := hr
    · simp [Attended, hr] at hm
    · exact absurd hm (not_attended_of_terminal hr)

theorem Run.staffed (hr : Run h m) : m.Active → Attended m.ctx → Staffed h m.ctx := by
  apply Trace.Run.invariant (P := fun h m => m.Active → Attended m.ctx → Staffed h m.ctx) hr
  · rintro _ ⟨args, rfl⟩ _ ha
    simp [Attended, Machine.init, OrchestratorCtx.new] at ha
  · intro h m i hr hinv hactive ha
    have hmove := next_move m i
    generalize m.next i = m' at hmove hactive ha
    cases hmove.active hactive with
    | exit hactive => exact (hinv hactive ha).keep ha rfl fun a ha => ⟨a, ha, rfl, rfl, rfl⟩
    | admitted _ _ => simp [Attended, withState] at ha
    | stepped hs hst => exact Staffed.stepped (hinv (hs.active (Run.placed hr))) hs hst ha

end Staff

section Trail

variable [Crates] {h : History Machine Input} {m m' : Machine} {c : Bool} {o : StepObs} {t : Orch}
  {flow : Flow} {i : Input}

def Succeeds (e : Turn) : Prop :=
  ∃ c o p state v, e.input = .tick c o ∧ e.pre.Steps c ∧ e.pre.ctx.runState = .executorMonitor ∧
    Classified .executor o.probe e.pre.toOrch p state v ∧
    (state = .success ∨ state = .softSuccess) ∧ e.post.ctx.runState = .executorOutputCollect

def reviewTrail : List (Turn → Prop) :=
  [fun e => verifies e = true, fun e => executorCollects e = true, Succeeds]

/-- The turns since the last gate that a state gives evidence of, the newest first. -/
def trail (ctx : OrchestratorCtx) : List (Turn → Prop) :=
  match ctx.runState with
  | .executorOutputCollect => reviewTrail.drop 2
  | .orchVerify => reviewTrail.drop 1
  | .reviewerDispatch | .reviewerMonitor | .reviewerOutputCollect | .qualityGate => reviewTrail
  | .roundRetryDecide => if ctx.currentRole = some .reviewer then reviewTrail else []
  | _ => []

def Trailed (h : History Machine Input) (ctx : OrchestratorCtx) : Prop :=
  InOrder (trail ctx) (since gates h)

theorem trailed_of_nil {ctx : OrchestratorCtx} (h' : trail ctx = []) : Trailed h ctx := by
  rw [Trailed, h']
  trivial

theorem trail_of_terminal {ctx : OrchestratorCtx} (h : ctx.runState.isTerminal = true) :
    trail ctx = [] := by
  revert h
  simp only [trail]
  cases ctx.runState <;> simp [RunState.isTerminal]

theorem Trailed.keep {ctx : OrchestratorCtx} (hinv : Trailed h m.ctx)
    (hg : m.ctx.runState ≠ .qualityGate) (ht : trail ctx = trail m.ctx) :
    Trailed (⟨m, i, m'⟩ :: h) ctx := by
  rw [Trailed, since_of_not_gate hg, ht]
  exact InOrder.cons hinv

theorem Trailed.push {ctx : OrchestratorCtx} {p : Turn → Prop} (hinv : Trailed h m.ctx)
    (hg : m.ctx.runState ≠ .qualityGate) (ht : trail ctx = p :: trail m.ctx)
    (hp : p ⟨m, i, m'⟩) : Trailed (⟨m, i, m'⟩ :: h) ctx := by
  rw [Trailed, since_of_not_gate hg, ht]
  exact InOrder.push hinv hp

theorem Outcome.success {role : AgentRole} {o : ProbeObs} {s : Orch}
    (h : Outcome role o s flow t) (hr : s.ctx.runState = .monitor role)
    (ht : t.ctx.runState = .outputCollect role) :
    ∃ p state v, Classified role o s p state v ∧ (state = .success ∨ state = .softSuccess) := by
  cases h with
  | @finished p state v allowed h _ hstate =>
    refine ⟨p, state, v, h, ?_⟩
    obtain ⟨hs, -, -⟩ | ⟨hs, -⟩ := hstate
    · exact .inl hs
    · exact .inr hs
  | aborted | capped _ _ _ | failed _ _ | hung _ | cancelled _ =>
    cases role <;> simp [Orch.abort, retryAttempt, RunState.outputCollect] at ht
  | watched h | stopped h _ =>
    obtain ⟨w, hw⟩ := h.ctx
    cases role <;>
      simp [withoutProcess, hw, hr, RunState.monitor, RunState.outputCollect] at ht

theorem Trailed.probed (hinv : Trailed h m.ctx) (hs : m.Steps c) {role : AgentRole}
    (hcurrent : m.ctx.currentRole = some role) (hr : m.ctx.runState = .monitor role)
    (hp : Outcome role o.probe m.toOrch flow t) (pc : Pc) :
    Trailed (⟨m, .tick c o, ⟨t, pc⟩⟩ :: h) t.ctx := by
  have hg : m.ctx.runState ≠ .qualityGate := by
    rw [hr]
    cases role <;> simp [RunState.monitor]
  have hrole : t.ctx.currentRole = some role := hp.sameRound.currentRole.trans hcurrent
  cases role with
  | executor =>
    obtain ⟨-, ⟨-, ht⟩ | ⟨-, ht | ht⟩⟩ | ⟨-, -, ht⟩ := hp.target
    · exact trailed_of_nil (by simp [trail, ht, hr, RunState.monitor])
    · obtain ⟨p, state, v, hclass, hstate⟩ := hp.success hr ht
      apply hinv.push (p := Succeeds) hg
      · simp [trail, ht, hr, RunState.outputCollect, RunState.monitor, reviewTrail]
      · exact ⟨c, o, p, state, v, rfl, hs, hr, hclass, hstate, ht⟩
    · exact trailed_of_nil (trail_of_terminal ht)
    · exact trailed_of_nil (by simp [trail, ht, hrole])
  | reviewer =>
    obtain ⟨-, ⟨-, ht⟩ | ⟨-, ht | ht⟩⟩ | ⟨-, -, ht⟩ := hp.target
    · exact hinv.keep hg (by simp [trail, ht, hr, RunState.monitor])
    · exact hinv.keep hg (by simp [trail, ht, hr, RunState.monitor, RunState.outputCollect])
    · exact trailed_of_nil (trail_of_terminal ht)
    · exact hinv.keep hg (by simp [trail, ht, hr, hrole, RunState.monitor])

theorem Trailed.stepped (hinv : Trailed h m.ctx) (hs : m.Steps c) (hm : m.Placed)
    (hcount : Counted h m) (hst : Stepped o m.toOrch flow t) (pc : Pc) :
    Trailed (⟨m, .tick c o, ⟨t, pc⟩⟩ :: h) t.ctx := by
  have hactive := hs.active hm
  have htakes : takesStep ⟨m, .tick c o, ⟨t, pc⟩⟩ = true := by simp [takesStep, hs]
  cases hst with
  | @dispatched role u hr hd =>
    cases role with
    | executor => exact trailed_of_nil (by simp [trail, withState, RunState.monitor])
    | reviewer =>
      apply hinv.keep
      · simp [hr, RunState.dispatch]
      · simp [trail, hr, withState, RunState.monitor, RunState.dispatch]
  | @probed role _ _ hr hp =>
    have hbudget := hcount.budget hactive
    exact hinv.probed hs (hbudget.role role (.inl hr)) hr hp.outcome pc
  | retried hr =>
    have htarget := doRoundRetryDecide_target m.ctx
    split at htarget
    · exact trailed_of_nil (trail_of_terminal (by simp [htarget, RunState.isTerminal]))
    · cases hcur : m.ctx.currentRole with
      | none =>
        rw [hcur] at htarget
        exact trailed_of_nil (by simp [trail, htarget, RunState.dispatch])
      | some role =>
        rw [hcur] at htarget
        cases role with
        | executor => exact trailed_of_nil (by simp [trail, htarget, RunState.dispatch])
        | reviewer =>
          apply hinv.keep
          · simp [hr]
          · simp [trail, hr, hcur, htarget, RunState.dispatch]
  | surveyed hr _ =>
    apply hinv.push
    · simp [hr]
    · simp only [trail, hr]
      rfl
    · simp [executorCollects, htakes, hr]
  | verified hr =>
    apply hinv.push
    · simp [hr]
    · simp only [trail, hr]
      rfl
    · simp [verifies, htakes, hr]
  | collected hr hc =>
    have hrole := (hcount.budget hactive).role .reviewer (.inr hr)
    have hsame := hc.sameAttempt.1
    apply hinv.keep
    · simp [hr]
    · cases hc with
      | unchanged _ | unreadable _ _ _ | rejected _ _ _ _ =>
        simp [trail, hr, retryReviewerOutputFailure, hrole]
      | dirty _ hj _ _ | clean _ hj _ _ =>
        cases hj <;> simp [trail, hr, retryReviewerOutputFailure, hrole]
  | gated hr =>
    apply trailed_of_nil
    obtain ht | ht := doQualityGate_target m.ctx
    · simp [trail, ht]
    · exact trail_of_terminal ht
  | prepared _ hc _ => exact trailed_of_nil (by simp [trail, hc])
  | bound _ _ | fedBack _ => exact trailed_of_nil (by simp [trail, doRoundFeedbackPrep])
  | skipped hr =>
    apply trailed_of_nil
    obtain hr | hr := hr
    · simp [trail, hr]
    · exact trail_of_terminal hr

theorem Run.trailed (hr : Run h m) : m.Active → Trailed h m.ctx := by
  apply Trace.Run.invariant (P := fun h m => m.Active → Trailed h m.ctx) hr
  · rintro _ ⟨args, rfl⟩ _
    exact trailed_of_nil (by simp [trail, Machine.init, OrchestratorCtx.new])
  · intro h m i hr hinv hactive
    have hmove := next_move m i
    generalize m.next i = m' at hmove hactive
    cases hmove.active hactive with
    | exit hactive =>
      rw [Trailed, since_cons (by simp [gates, takesStep])]
      exact InOrder.cons (hinv hactive)
    | admitted _ _ => exact trailed_of_nil (by simp [trail, withState])
    | stepped hs hst =>
      have hm := Run.placed hr
      exact (hinv (hs.active hm)).stepped hs hm (Run.counted hr) hst _

end Trail

section Advance

variable [Crates] {h : History Machine Input} {m m' : Machine} {c : Bool} {o : StepObs} {t : Orch}
  {flow : Flow}

inductive Advances (o : StepObs) (m m' : Machine) : Prop
  | again {t : Orch} : step o m.toOrch = .ok .again t → m' = ⟨t, .monitor⟩ →
      t.ctx.runState = m.ctx.runState → Advances o m m'
  | done {t : Orch} : step o m.toOrch = .ok .done t → m' = ⟨t, .head⟩ →
      t.ctx.runState ≠ m.ctx.runState → Advances o m m'
  | failed {t : Orch} {e : OrchestratorError} : step o m.toOrch = .error (.error e) t →
      m' = ⟨t.mapCtx (Machine.fail e), .head⟩ → m'.ctx.runState.isTerminal = true →
      Advances o m m'

theorem Stepped.moves (hst : Stepped o m.toOrch .done t) (hinit : m.ctx.runState ≠ .runInit)
    (hterminal : m.ctx.runState.isTerminal = false) :
    t.ctx.runState ≠ m.ctx.runState ∧ t.ctx.runState ≠ .runInit := by
  cases hst with
  | @dispatched role _ hr _ =>
    cases role <;> simp [hr, withState, RunState.monitor, RunState.dispatch]
  | @probed role _ _ hr hp =>
    obtain ⟨-, ⟨hf, -⟩ | ⟨-, ht | ht⟩⟩ | ⟨-, -, ht⟩ := hp.outcome.target
    · simp at hf
    · cases role <;> simp [hr, ht, RunState.monitor, RunState.outputCollect]
    · constructor
      · intro heq
        rw [heq, hterminal] at ht
        simp at ht
      · intro heq
        simp [heq, RunState.isTerminal] at ht
    · cases role <;> simp [hr, ht, RunState.monitor]
  | retried hr =>
    have htarget := doRoundRetryDecide_target m.ctx
    split at htarget
    · simp [hr, htarget]
    · cases hrole : m.ctx.currentRole.getD .executor <;> rw [hrole] at htarget <;>
        simp [hr, htarget, RunState.dispatch]
  | collected hr hc =>
    cases hc with
    | unchanged _ | unreadable _ _ _ | rejected _ _ _ _ => simp [hr, retryReviewerOutputFailure]
    | dirty _ _ _ _ | clean _ _ _ _ => simp [hr, retryReviewerOutputFailure]
  | gated hr =>
    obtain ht | ht := doQualityGate_target m.ctx
    · simp [hr, ht]
    · constructor
      · intro heq
        simp only [Orch.mapCtx_ctx] at heq
        rw [heq, hterminal] at ht
        simp at ht
      · intro heq
        simp only [Orch.mapCtx_ctx] at heq
        simp [heq, RunState.isTerminal] at ht
  | prepared hr hc _ => simp [hr, hc]
  | bound hr _ | surveyed hr _ | verified hr | fedBack hr =>
    simp [hr, withState, doOrchVerify, doRoundFeedbackPrep]
  | skipped hr =>
    obtain hr | hr := hr
    · exact absurd hr hinit
    · simp [hterminal] at hr

theorem Run.started (hr : Run h m) : m.Active → m.pc ≠ .start → m.ctx.runState ≠ .runInit := by
  apply Trace.Run.invariant
    (P := fun _ m => m.Active → m.pc ≠ .start → m.ctx.runState ≠ .runInit) hr
  · rintro _ ⟨args, rfl⟩ _ hpc
    exact absurd rfl hpc
  · intro h m i hr hinv hactive hpc
    have hm := Run.placed hr
    have hmove := next_move m i
    generalize m.next i = m' at hmove hactive hpc
    cases hmove.active hactive with
    | exit hactive => exact hinv hactive hpc
    | admitted _ _ => simp [withState]
    | @stepped c o flow t hs hst =>
      have hstart : m.pc ≠ .start := by
        obtain h | ⟨h, -, -⟩ := hs <;> simp [h]
      cases flow with
      | again =>
        obtain ⟨r, ht⟩ := hst.again
        cases r <;> simp [ht, RunState.monitor]
      | done => exact (hst.moves (hinv (hs.active hm) hstart) (hs.active hm).2).2

theorem settle_not_panicked {s : Orch} (hstep : Unpanicked (step o) s) :
    (Machine.settle (step o s)).pc ≠ .panicked := by
  cases hr : step o s with
  | ok flow t => cases flow <;> simp [Machine.settle]
  | error e t =>
    cases e with
    | error e => simp [Machine.settle]
    | panic => exact absurd rfl (wp_of_error hstep hr)

theorem Run.attempt_isSome (hr : Run h m) (ha : m.Active) (r : AgentRole)
    (hstate : m.ctx.runState = .monitor r) : m.ctx.attempt.isSome := by
  obtain ⟨_, a, -, -, hattempt, -⟩ := Run.staffed hr ha (attended_monitor hstate)
  simp [hattempt]

def ShortStatuses (h : History Machine Input) : Prop :=
  ∀ e ∈ h, ∀ c o, e.input = .tick c o → o.reviewerOutput.ShortStatus

theorem Run.not_panicked (hr : Run h m) : ShortStatuses h → m.pc ≠ .panicked := by
  apply Trace.Run.invariant (P := fun h m => ShortStatuses h → m.pc ≠ .panicked) hr
  · rintro _ ⟨args, rfl⟩ _
    simp [Machine.init]
  · intro h m i hr hinv hgit
    obtain ⟨hhead, htail⟩ := List.forall_mem_cons.mp hgit
    have hpc := hinv htail
    cases i with
    | exit child => exact hpc
    | tick c o =>
      by_cases hs : m.Steps c
      · rw [next_of_steps hs]
        apply settle_not_panicked
        apply step_unpanicked
        · exact Run.attempt_isSome hr (hs.active (Run.placed hr))
        · exact hhead c o rfl
      · cases hm : m.pc with
        | start =>
          have hprologue := unpanicked_prologue (s := m.toOrch) o.prologue
          simp only [Machine.next, hm]
          cases hres : prologue o.prologue m.toOrch with
          | ok _ s => simp
          | error e s =>
            cases e with
            | error e => simp
            | panic => exact absurd rfl (wp_of_error hprologue hres)
        | head =>
          simp only [Machine.next, hm]
          split
          · simp [hm]
          · rename_i ht
            split
            · simp
            · rename_i hc
              exact absurd (.inr ⟨hm, by simpa using ht, by simpa using hc⟩) hs
        | monitor => exact absurd (.inl hm) hs
        | panicked => exact absurd hm hpc

theorem advances_of_steps (hr : Run h m) (hs : m.Steps c) (hgit : o.reviewerOutput.ShortStatus) :
    Advances o m (m.next (.tick c o)) := by
  have hactive := hs.active (Run.placed hr)
  have hinit : m.ctx.runState ≠ .runInit := by
    apply Run.started hr hactive
    obtain h | ⟨h, -, -⟩ := hs <;> simp [h]
  have hstep := step_spec o m.toOrch
  rw [next_of_steps hs]
  cases hres : step o m.toOrch with
  | ok flow t =>
    have hst := wp_of_ok hstep hres
    cases flow with
    | again =>
      apply Advances.again hres rfl
      cases hst with
      | @probed role _ _ hr hp =>
        obtain ⟨-, ⟨-, ht⟩ | ⟨hf, -⟩⟩ | ⟨-, hf, -⟩ := hp.outcome.target
        · exact ht
        · simp at hf
        · simp at hf
    | done => exact .done hres rfl (hst.moves hinit hactive.2).1
  | error e t =>
    cases e with
    | error e => exact .failed hres rfl (Machine.fail_terminal e t.ctx)
    | panic =>
      have hsafe := step_unpanicked (Run.attempt_isSome hr hactive) hgit
      exact absurd rfl (wp_of_error hsafe hres)

def FailedAttempt (h : History Machine Input) (ctx : OrchestratorCtx) : Prop :=
  ∃ e r, h.find? takesStep = some e ∧
    (e.pre.ctx.runState = .monitor r ∨ e.pre.ctx.runState = .outputCollect r) ∧
    ctx.currentRole = some r

theorem failedAttempt_stepped (hcount : Counted h m) (hs : m.Steps c) (hm : m.Placed)
    (hst : Stepped o m.toOrch flow t) (pc : Pc) (hd : t.ctx.runState = .roundRetryDecide) :
    FailedAttempt (⟨m, .tick c o, ⟨t, pc⟩⟩ :: h) t.ctx := by
  have hrole := (hcount.budget (hs.active hm)).role
  have htakes : takesStep ⟨m, .tick c o, ⟨t, pc⟩⟩ = true := by simp [takesStep, hs]
  simp only [FailedAttempt, List.find?_cons, htakes]
  cases hst with
  | @probed role _ _ hr hp =>
    exact ⟨_, role, rfl, .inl hr, hp.outcome.sameRound.currentRole.trans (hrole role (.inl hr))⟩
  | collected hr hc =>
    exact ⟨_, .reviewer, rfl, .inr hr, hc.sameAttempt.1.trans (hrole .reviewer (.inr hr))⟩
  | @dispatched role _ _ _ => cases role <;> simp [withState, RunState.monitor] at hd
  | retried hr =>
    have htarget := doRoundRetryDecide_target m.ctx
    simp only [Orch.mapCtx_ctx] at hd
    rw [hd] at htarget
    split at htarget
    · simp at htarget
    · cases hcur : m.ctx.currentRole.getD .executor <;>
        simp [hcur, RunState.dispatch] at htarget
  | gated hr =>
    obtain ht | ht := doQualityGate_target m.ctx
    · simp only [Orch.mapCtx_ctx] at hd
      simp [ht] at hd
    · exact absurd hd (RunState.ne_retry_of_terminal ht)
  | prepared _ hc _ => simp [hc] at hd
  | bound _ _ | surveyed _ _ | verified _ | fedBack _ =>
    simp [withState, doOrchVerify, doRoundFeedbackPrep] at hd
  | skipped hr =>
    obtain hr | hr := hr
    · exact absurd (hd.symm.trans hr) (by simp)
    · exact absurd hd (RunState.ne_retry_of_terminal hr)

theorem Run.failedAttempt (hr : Run h m) :
    m.Active → m.ctx.runState = .roundRetryDecide → FailedAttempt h m.ctx := by
  apply Trace.Run.invariant
    (P := fun h m => m.Active → m.ctx.runState = .roundRetryDecide → FailedAttempt h m.ctx) hr
  · rintro _ ⟨args, rfl⟩ _ hd
    simp [Machine.init, OrchestratorCtx.new] at hd
  · intro h m i hr hinv hactive hd
    have hm := Run.placed hr
    have hmove := next_move m i
    generalize m.next i = m' at hmove hactive hd
    cases hmove.active hactive with
    | exit hactive =>
      obtain ⟨e, r, hfind, hstate, hrole⟩ := hinv hactive hd
      exact ⟨e, r, by simpa [takesStep] using hfind, hstate, hrole⟩
    | admitted _ _ => simp [withState] at hd
    | stepped hs hst => exact failedAttempt_stepped (Run.counted hr) hs hm hst _ hd

/-- The order of the protocol: every step advances; a review comes after a success of the
executor, its collection and the verification, all since the last gate; the context is about
the attempt dispatched last; a retry dispatches the role whose attempt has failed; and the
gate is entered with a verdict. -/
theorem protocol_order (hr : Run h m) (hgit : ShortStatuses h) :
    (∀ e ∈ h, ∀ c o, e.input = .tick c o → e.pre.Steps c → Advances o e.pre e.post) ∧
      (m.ctx.runState = .reviewerDispatch → InOrder reviewTrail (since gates h)) ∧
      (Attended m.ctx → Staffed h m.ctx) ∧
      (∀ c o, m.Steps c → m.ctx.runState = .roundRetryDecide →
        ∃ e r, h.find? takesStep = some e ∧
          (e.pre.ctx.runState = .monitor r ∨ e.pre.ctx.runState = .outputCollect r) ∧
          lastDispatched h = some r ∧ (m.next (.tick c o)).ctx.runState =
            if consecutiveFailureLimit ≤ m.ctx.consecutiveFailureCount then
              .runFailedConsecutiveFailureLimit
            else .dispatch r) ∧
      (m.ctx.runState = .qualityGate → m.ctx.reviewResult.isSome) := by
  have hpc := Run.not_panicked hr hgit
  have hactive : ∀ {r : RunState}, m.ctx.runState = r → r.isTerminal = false → m.Active := by
    rintro r rfl ht
    exact ⟨hpc, ht⟩
  refine ⟨?_, fun hd => ?_, fun ha => ?_, fun c o hs hd => ?_, fun hg => ?_⟩
  · rintro ⟨pre, i, post⟩ he c o rfl hs
    obtain ⟨older, hpre, hpost⟩ := Trace.Run.of_mem hr he
    simp only at hpre hpost hs
    rw [hpost]
    exact advances_of_steps hpre hs (hgit _ he c o rfl)
  · have htrail := Run.trailed hr (hactive hd rfl)
    simpa [Trailed, trail, hd] using htrail
  · apply Run.staffed hr ⟨hpc, ?_⟩ ha
    apply Bool.eq_false_of_not_eq_true
    exact fun ht => not_attended_of_terminal ht ha
  · have hm := hactive hd rfl
    obtain ⟨e, r, hfind, hstate, hrole⟩ := Run.failedAttempt hr hm hd
    obtain ⟨q, a, hlast, hcur, -, -⟩ := Run.staffed hr hm (by simp [Attended, hd])
    rw [hrole, Option.some.injEq] at hcur
    subst hcur
    refine ⟨e, r, hfind, hstate, hlast, ?_⟩
    have hstep : step o m.toOrch = .ok .done (m.toOrch.mapCtx doRoundRetryDecide) := by
      simp only [step, bind, EStateM.bind, OrchM.ctx, hd]
      rfl
    rw [next_of_steps hs, hstep]
    simp [Machine.settle, doRoundRetryDecide_target, hrole]
  · exact ((Run.counted hr).budget (hactive hg rfl)).verdict hg

end Advance

namespace Sample

theorem cleanup_gitStatusAll {c : Bool} {o : StepObs} (h : .tick c o ∈ cleanup) :
    o.reviewerOutput.gitStatusAll = git "" ∨ o.reviewerOutput.gitStatusAll = git leftover := by
  simp only [cleanup, executed, List.cons_append, List.nil_append, List.mem_cons,
    Input.tick.injEq, reduceCtorEq, false_or, List.not_mem_nil, or_false] at h
  obtain ⟨-, rfl⟩ | ⟨-, rfl⟩ | ⟨-, rfl⟩ | ⟨-, rfl⟩ | ⟨-, rfl⟩ | ⟨-, rfl⟩ | ⟨-, rfl⟩ | ⟨-, rfl⟩ |
    ⟨-, rfl⟩ | ⟨-, rfl⟩ | ⟨-, rfl⟩ | ⟨-, rfl⟩ | ⟨-, rfl⟩ := h
  all_goals first
    | exact .inl rfl
    | exact .inr rfl

theorem cleanup_shortStatuses : ShortStatuses (run cleanup).1 := by
  intro e he c o hi status hstatus
  have hgit := cleanup_gitStatusAll (hi ▸ run_input he)
  intro line hline
  obtain h | h := hgit <;> rw [h] at hstatus
  · have hempty : fullGitStatus (git "") = .ok "" := rfl
    rw [hempty, Except.ok.injEq] at hstatus
    simp [← hstatus, lines, linesAux] at hline
  · have hleftover : fullGitStatus (git leftover) = .ok leftover := by decide +kernel
    rw [hleftover, Except.ok.injEq] at hstatus
    rw [← hstatus] at hline
    have hlines : lines leftover = ["?? notes.txt"] := by decide +kernel
    rw [hlines, List.mem_singleton] at hline
    subst hline
    exact ⟨'?', '?', "notes.txt".toList, by decide +kernel, by decide, by decide⟩

end Sample

open Sample in
theorem protocol_order_cleanup :
    (run cleanup).2.ctx.runState = .reviewerOutputCollect ∧
      (∀ e ∈ (run cleanup).1, ∀ c o, e.input = .tick c o → e.pre.Steps c →
        Advances o e.pre e.post) ∧
      Staffed (run cleanup).1 (run cleanup).2.ctx := by
  have horder := protocol_order (run_run cleanup) cleanup_shortStatuses
  have hr := cleanup_collects.2.1
  have hstaffed {h : History Machine Input} {ctx : OrchestratorCtx}
      (hr : ctx.runState = .reviewerOutputCollect) (hs : Attended ctx → Staffed h ctx) :
      Staffed h ctx := hs (attended_collecting hr)
  exact ⟨hr, horder.1, hstaffed hr horder.2.2.1⟩

end Orchestrator

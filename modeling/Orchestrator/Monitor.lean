import Orchestrator.Lib.Loop
import Orchestrator.Phases.Dispatch

namespace Orchestrator

open Rust Exec

def logChanged : Option Int → Option Int → Bool
  | some curr, some prev => curr ≠ prev
  | some _, none => true
  | none, _ => false

def gitCommitted (a : AttemptStateData) (s : ProbeSignals) : Bool :=
  s.gitHeadHash ≠ a.prevProbeGitHeadHash

/-- Being alive is deliberately not a work signal; live children are. -/
def workSignalsChanged (a : AttemptStateData) (s : ProbeSignals) : Bool :=
  s.gitStatusHash ≠ a.prevProbeGitStatusHash || gitCommitted a s ||
    s.outboxMeta ≠ a.prevProbeOutboxMeta || logChanged s.providerLogMtime a.prevProbeLogMtime ||
    s.hasChildProcesses

def persistBaselines (s : ProbeSignals) (a : AttemptStateData) : AttemptStateData :=
  { a with
    prevProbeGitStatusHash := s.gitStatusHash
    prevProbeGitHeadHash := s.gitHeadHash
    prevProbeOutboxMeta := s.outboxMeta
    prevProbeLogMtime := s.providerLogMtime
    providerLogEverSeen := s.providerLogMtime.isSome || a.providerLogEverSeen }

def hangMaxExceeded (a : AttemptStateData) (now : Int) : Bool :=
  hangMaxWithWorkSignalsSec ≤ secondsSince now a.dispatchTs

/-- A log last written at least `hangConfirmSec` ago; a failing clock counts as fresh. -/
def logOld (mtime : Option Int) (clock : Int) : Bool :=
  ((mtime.bind (elapsed clock)).map fun d => decide (hangConfirmSec ≤ d)).getD false

def providerStale (a : AttemptStateData) (s : ProbeSignals) (clock : Int) : Bool :=
  a.providerLogEverSeen && s.providerLogMtime.isNone ||
    a.pid.isNone && !a.providerLogEverSeen || logOld s.providerLogMtime clock

def applyGraceTransitions (gitDirty gitCommitted outboxPresent : Bool)
    (graceUntilCommit graceUntilOutbox : Option Int) (now : Int) : Option Int × Option Int :=
  if outboxPresent then (none, none)
  else if gitCommitted then
    (none, if graceUntilOutbox.isNone then some (now + seconds outboxGraceSec)
      else graceUntilOutbox)
  else if gitDirty && graceUntilCommit.isNone && graceUntilOutbox.isNone then
    (some (now + seconds commitGraceSec), graceUntilOutbox)
  else (graceUntilCommit, graceUntilOutbox)

def updateGracePeriods (s : ProbeSignals) (now : Int) (a : AttemptStateData) :
    AttemptStateData :=
  let grace := applyGraceTransitions (s.gitStatusHash ≠ a.dispatchGitStatusHash)
    (s.gitHeadHash ≠ a.dispatchGitHeadHash) (nonEmptyOutbox s.outboxMeta)
    a.graceUntilCommit a.graceUntilOutbox now
  { a with graceUntilCommit := grace.1, graceUntilOutbox := grace.2 }

def graceDeadline (a : AttemptStateData) : Option Int :=
  a.graceUntilOutbox.or a.graceUntilCommit

def attemptAfter (role : AgentRole) (s : ProbeSignals) (now : Int) (a : AttemptStateData) :
    AttemptStateData :=
  match role with
  | .executor => updateGracePeriods s now (persistBaselines s a)
  | .reviewer => persistBaselines s a

section After

variable (role : AgentRole) (sig : ProbeSignals) (now : Int) (a : AttemptStateData)

theorem attemptAfter_pid : (attemptAfter role sig now a).pid = a.pid := by
  cases role <;> rfl

theorem attemptAfter_role : (attemptAfter role sig now a).role = a.role := by
  cases role <;> rfl

theorem attemptAfter_dispatchTs : (attemptAfter role sig now a).dispatchTs = a.dispatchTs := by
  cases role <;> rfl

theorem attemptAfter_lastWork :
    (attemptAfter role sig now a).lastWorkSignalTs = a.lastWorkSignalTs := by
  cases role <;> rfl

theorem attemptAfter_logSeen : (attemptAfter role sig now a).providerLogEverSeen =
    (sig.providerLogMtime.isSome || a.providerLogEverSeen) := by
  cases role <;> rfl

end After

def outboxPresentRecent (a : AttemptStateData) (m : Option FileMeta) : Bool :=
  (m.map fun m => decide (a.dispatchTs ≤ m.mtime)).getD false && nonEmptyOutbox m

def checkSuccessContract (a : AttemptStateData) (s : ProbeSignals) : Bool :=
  if a.pid.isSome then false else nonEmptyOutbox s.outboxMeta

theorem pid_of_success {a : AttemptStateData} {sig : ProbeSignals}
    (h : checkSuccessContract a sig = true) : a.pid = none := by
  cases hpid : a.pid with
  | none => rfl
  | some pid => simp [checkSuccessContract, hpid] at h

theorem outbox_of_success {a : AttemptStateData} {sig : ProbeSignals}
    (h : checkSuccessContract a sig = true) : nonEmptyOutbox sig.outboxMeta = true := by
  revert h
  simp only [checkSuccessContract]
  split <;> simp

def softSuccessAllowed (w : WorkflowType) (artifactMap : String → Option Bool) : Bool :=
  match w with
  | .plan => (artifactMap "PLAN.md").getD false
  | .investigate => (artifactMap "INVESTIGATION.md").getD false
  | .implement => true

def checkSoftSuccessContract (w : WorkflowType) (role : AgentRole) (a : AttemptStateData)
    (s : ProbeSignals) (now : Int) : Bool :=
  if role = .reviewer then false
  else if a.pid.isSome then false
  else if !((graceDeadline a).map fun d => decide (d ≤ now)).getD false then false
  else
    match w with
    | .plan => !nonEmptyOutbox s.outboxMeta && (s.artifactMap "PLAN.md").getD false
    | .investigate =>
      !nonEmptyOutbox s.outboxMeta && (s.artifactMap "INVESTIGATION.md").getD false
    | .implement => !nonEmptyOutbox s.outboxMeta

theorem pid_of_softSuccess {w : WorkflowType} {role : AgentRole} {a : AttemptStateData}
    {sig : ProbeSignals} {now : Int} (h : checkSoftSuccessContract w role a sig now = true) :
    a.pid = none := by
  cases hpid : a.pid with
  | none => rfl
  | some pid => simp [checkSoftSuccessContract, hpid] at h

theorem executor_of_softSuccess {w : WorkflowType} {role : AgentRole} {a : AttemptStateData}
    {sig : ProbeSignals} {now : Int} (h : checkSoftSuccessContract w role a sig now = true) :
    role = .executor := by
  cases role with
  | executor => rfl
  | reviewer => simp [checkSoftSuccessContract] at h

section Snapshot

variable [Crates]

/-- The outbox is not opened while the process may still write it. -/
def checkProtocolInvalid (role : AgentRole) (a : AttemptStateData) (text : IoResult Bytes) :
    Bool :=
  if role = .executor then false
  else if a.pid.isSome then false
  else
    match readToString text with
    | .error _ => true
    | .ok raw =>
      if (trim raw).isEmpty then true else parseReviewerYaml raw matches .error _

theorem pid_of_protocolInvalid {role : AgentRole} {a : AttemptStateData} {text : IoResult Bytes}
    (h : checkProtocolInvalid role a text = true) : a.pid = none := by
  cases hpid : a.pid with
  | none => rfl
  | some pid => simp [checkProtocolInvalid, hpid] at h

/-- `a` is the attempt with its new baselines, but with its old last work signal. -/
def probeSnapshot (w : WorkflowType) (role : AgentRole) (a : AttemptStateData)
    (s : ProbeSignals) (changed : Bool) (error : Option ProviderErrorClass) (o : ProbeObs) :
    ProbeSnapshot where
  cancelled := o.cancelledAtSnapshot
  processExited := a.pid.isNone
  processAlive := s.processAlive
  outboxPresent := outboxPresentRecent a s.outboxMeta
  providerError := error
  successContract := checkSuccessContract a s
  softSuccessContract := checkSoftSuccessContract w role a s o.now
  protocolInvalid := checkProtocolInvalid role a o.outboxText
  providerActivityAfterExitIsFresh := !providerStale a s o.logClock
  workSignalsChanged := changed
  lastWorkSignalTs := a.lastWorkSignalTs
  providerStale := providerStale a s o.logClock
  graceDeadline := graceDeadline a
  hangMaxWithWorkSignalsExceeded := hangMaxExceeded a o.now

def readProviderDiagnostics (proc : Option DispatchedProcess) (o : ProbeObs) :
    OrchestratorResult String :=
  match proc with
  | none => .ok ""
  | some _ => do
    let stdout ← readLogTail o.stdoutTail
    let stderr ← readLogTail o.stderrTail
    return stdout ++ "\n" ++ stderr

def nonFatalDiagnostic (m : ProviderErrorMatch) : String :=
  "provider diagnostic (non-fatal): class=" ++ m.errorClass.debug ++ " pattern=" ++ m.pattern ++
    " fragment=" ++ m.fragment

def addWarning (warnings : List String) (w : String) : List String :=
  if w ∈ warnings then warnings else warnings ++ [w]

/-- The new warnings and the error. Only a service cap stops a run, and only the session log
of Claude is searched for one that the diagnostics do not show. -/
def detectProviderError (ctx : OrchestratorCtx) (combined : String) (o : ProbeObs) :
    OrchestratorResult (List String × Option ProviderErrorMatch) :=
  match classifyProviderErrorWithMatch combined with
  | some m =>
    match m.errorClass with
    | .serviceCap => .ok (ctx.warnings, some m)
    | .auth | .permission | .transport =>
      .ok (addWarning ctx.warnings (nonFatalDiagnostic m), none)
  | none =>
    match ctx.attempt with
    | none => .ok (ctx.warnings, none)
    | some a =>
      if ctx.args.provider a.role = .claude ∧ (ctx.sessionId a.role).isSome then
        (sessionJsonlServiceCapSince o a.dispatchTs).map fun signal =>
          (ctx.warnings, signal.map fun (pattern, fragment) => ⟨.serviceCap, pattern, fragment⟩)
      else .ok (ctx.warnings, none)

theorem detectProviderError_serviceCap {ctx : OrchestratorCtx} {combined : String} {o : ProbeObs}
    {warnings : List String} {m : ProviderErrorMatch}
    (h : detectProviderError ctx combined o = .ok (warnings, some m)) :
    m.errorClass = .serviceCap := by
  revert h
  simp only [detectProviderError]
  cases classifyProviderErrorWithMatch combined with
  | some m' =>
    cases hm : m'.errorClass with
    | serviceCap =>
      simp only [hm, Except.ok.injEq, Prod.mk.injEq, Option.some.injEq, and_imp]
      rintro - rfl
      exact hm
    | permission | auth | transport => simp [hm]
  | none =>
    cases ctx.attempt with
    | none => simp
    | some a =>
      by_cases hc : ctx.args.provider a.role = .claude ∧ (ctx.sessionId a.role).isSome
      · simp only [if_pos hc]
        cases sessionJsonlServiceCapSince o a.dispatchTs with
        | error e => simp [Except.map]
        | ok signal =>
          cases signal with
          | none => simp [Except.map]
          | some signal =>
            simp only [Except.map, Option.map_some, Except.ok.injEq, Prod.mk.injEq,
              Option.some.injEq, and_imp]
            rintro - rfl
            rfl
      · simp [if_neg hc]

end Snapshot

def Orch.pollChild (o : ProbeObs) (s : Orch) : Orch :=
  match s.ctx.activeProcess, o.tryWait with
  | some proc, some code =>
    { world := s.world.bury proc.child
      ctx := { s.ctx with
        attempt := s.ctx.attempt.map fun a => { a with exitCode := code, pid := none } } }
  | _, _ => s

theorem pollChild_ctx (o : ProbeObs) (s : Orch) :
    ∃ a, (s.pollChild o).ctx = { s.ctx with attempt := a } := by
  simp only [Orch.pollChild]
  split
  · exact ⟨_, rfl⟩
  · exact ⟨_, rfl⟩

theorem pollChild_args (o : ProbeObs) (s : Orch) : (s.pollChild o).ctx.args = s.ctx.args := by
  obtain ⟨a, h⟩ := pollChild_ctx o s
  rw [h]

/-- After a SIGTERM, and a SIGKILL where that was not enough, the child is dead. -/
def Orch.terminateActiveChild (s : Orch) : Orch :=
  match s.ctx.activeProcess with
  | some proc => { s with world := s.world.bury proc.child }
  | none => s

@[simp] theorem Orch.terminateActiveChild_ctx (s : Orch) :
    s.terminateActiveChild.ctx = s.ctx := by
  simp only [Orch.terminateActiveChild]
  split <;> rfl

def releaseLock (role : AgentRole) (ctx : OrchestratorCtx) : OrchestratorCtx :=
  ctx.setLock role none

def Orch.abort (s : Orch) : Orch :=
  Orch.terminateActiveChild { s with ctx := { s.ctx with runState := .runAborted } }

structure Probe where
  signals : ProbeSignals
  attempt : AttemptStateData
  changed : Bool
  error : Option ProviderErrorMatch

def RunState.outputCollect : AgentRole → RunState
  | .executor => .executorOutputCollect
  | .reviewer => .reviewerOutputCollect

def routeResult (role : AgentRole) (allowed outboxPresent : Bool) (ctx : OrchestratorCtx) :
    OrchestratorCtx :=
  let ctx := { ctx with outboxPresent := outboxPresent }
  if !allowed then
    { ctx with
      runState := .runFailedProtocol
      failures := ctx.failures ++ ["soft_success not allowed for this workflow/artifact state"] }
  else { releaseLock role ctx with runState := .outputCollect role }

def providerAccessFailure (error : Option ProviderErrorMatch) : String :=
  match error with
  | some m => "provider access error: class=" ++ m.errorClass.debug ++ " pattern=" ++ m.pattern ++
      " fragment=" ++ m.fragment
  | none => "provider access error: matched by classifier (pattern/fragment unavailable)"

def retryAttempt (role : AgentRole) (ctx : OrchestratorCtx) : OrchestratorCtx :=
  { releaseLock role ctx with
    consecutiveFailureCount := ctx.consecutiveFailureCount + 1
    runState := .roundRetryDecide }

def finalizingTimeout (p : Probe) (now : Int) : Bool :=
  (p.signals.outboxMeta.map fun m => decide (p.attempt.dispatchTs ≤ m.mtime) &&
    decide (m.mtime + seconds outboxFinalizingKillSec ≤ now)).getD false

def withoutProcess (ctx : OrchestratorCtx) : OrchestratorCtx :=
  { ctx with attempt := ctx.attempt.map fun a => { a with pid := none } }

def terminatingStale (ctx : OrchestratorCtx) : OrchestratorCtx :=
  { ctx with attempt := ctx.attempt.map fun a => { a with state := .terminatingStale } }

def route (role : AgentRole) (now : Int) (p : Probe) (state : AttemptState) (s : Orch) :
    Flow × Orch :=
  let outboxPresent := nonEmptyOutbox p.signals.outboxMeta
  match state with
  | .success => (.done, s.mapCtx (routeResult role true outboxPresent))
  | .softSuccess =>
    (.done, s.mapCtx (routeResult role
      (softSuccessAllowed s.ctx.args.workflowType s.ctx.artifactMap) outboxPresent))
  | .failedServiceCap =>
    (.done, s.mapCtx fun ctx => { releaseLock role ctx with runState := .runFailedServiceCap })
  | .failedProviderAccess =>
    (.done, s.mapCtx fun ctx => { releaseLock role ctx with
      failures := ctx.failures ++ [providerAccessFailure p.error]
      runState := .runFailedProviderAccess })
  | .failedTransport | .failedSilent | .failedProtocol => (.done, s.mapCtx (retryAttempt role))
  | .hangConfirmed =>
    (.done, (s.mapCtx terminatingStale).terminateActiveChild.mapCtx (retryAttempt role))
  | .finalizing =>
    (.again, if finalizingTimeout p now then s.terminateActiveChild.mapCtx withoutProcess else s)
  | .cancelled =>
    (.done, s.terminateActiveChild.mapCtx fun ctx =>
      { releaseLock role ctx with runState := .runAborted })
  | .running | .waitingOutput | .unknown
  | .dispatching | .terminatingStale | .retryPending | .retryExhausted => (.again, s)

def recordProbe (state : AttemptState) (changed : Bool) (now : Int) (a : AttemptStateData) :
    AttemptStateData :=
  { a with
    state := state
    lastWorkSignalTs := if changed then some now else a.lastWorkSignalTs
    nextProbeAt := now + seconds probeIntervalSec }

structure SameAttempt (a b : AttemptStateData) : Prop where
  role : b.role = a.role
  dispatchTs : b.dispatchTs = a.dispatchTs
  preReviewerOutboxMtime : b.preReviewerOutboxMtime = a.preReviewerOutboxMtime

theorem SameAttempt.after {a b : AttemptStateData} (h : SameAttempt a b) (role : AgentRole)
    (sig : ProbeSignals) (now : Int) (state : AttemptState) (changed : Bool) :
    SameAttempt a (recordProbe state changed now (attemptAfter role sig now b)) := by
  cases role <;> exact ⟨h.role, h.dispatchTs, h.preReviewerOutboxMtime⟩

theorem pollChild_attempt {o : ProbeObs} {s : Orch} {a : AttemptStateData}
    (h : s.ctx.attempt = some a) :
    ∃ b, (s.pollChild o).ctx.attempt = some b ∧ SameAttempt a b := by
  simp only [Orch.pollChild]
  split
  · rename_i proc code _ _
    exact ⟨{ a with exitCode := code, pid := none }, by simp [h], rfl, rfl, rfl⟩
  · exact ⟨a, h, rfl, rfl, rfl⟩

section Monitor

variable [Crates]

def observeProbe (role : AgentRole) (o : ProbeObs) : OrchM Probe := do
  let ctx ← OrchM.ctx
  let _ ← OrchM.ofResult (sessionIdOf ctx role)
  let signals ← OrchM.ofResult (collectProbeSignals (ctx.attempt.bind (·.pid))
    (workflowArtifacts ctx.args.workflowType) (ctx.args.provider role) o)
  OrchM.modifyCtx fun ctx => { ctx with artifactMap := signals.artifactMap }
  let a ← OrchM.unwrap ctx.attempt
  OrchM.ofResult (if gitCommitted a signals then
      (runGit ["diff", "--name-status", a.prevProbeGitHeadHash ++ ".." ++ signals.gitHeadHash]
        o.gitDiff).map fun _ => ()
    else .ok ())
  let after := attemptAfter role signals o.now a
  OrchM.modifyCtx fun ctx => { ctx with attempt := some after }
  let combined ← OrchM.ofResult (readProviderDiagnostics ctx.activeProcess o)
  let found ← OrchM.ofResult (detectProviderError { ctx with attempt := some after } combined o)
  OrchM.modifyCtx fun ctx => { ctx with warnings := found.1 }
  return ⟨signals, after, workSignalsChanged a signals, found.2⟩

def Probe.classify (w : WorkflowType) (role : AgentRole) (p : Probe) (o : ProbeObs) :
    AttemptState :=
  Orchestrator.classify (probeSnapshot w role p.attempt p.signals p.changed
    (p.error.map ProviderErrorMatch.errorClass) o) o.now

/-- One pass through the monitor loop. -/
def doMonitorProbe (role : AgentRole) (o : ProbeObs) : OrchM Flow := do
  if o.cancelledAtTop || o.cancelledAfterWait then do
    modify Orch.abort
    return .done
  else do
    modify (Orch.pollChild o)
    let p ← observeProbe role o
    let state := p.classify (← OrchM.ctx).args.workflowType role o
    OrchM.modifyCtx fun ctx =>
      { ctx with attempt := ctx.attempt.map (recordProbe state p.changed o.now) }
    let routed := route role o.now p state (← get)
    set routed.2
    return routed.1

structure Observed (role : AgentRole) (o : ProbeObs) (s : Orch) (p : Probe) (u : Orch) :
    Prop where
  attempt : ∃ a, s.ctx.attempt = some a ∧ p.attempt = attemptAfter role p.signals o.now a ∧
    p.changed = workSignalsChanged a p.signals ∧
    collectProbeSignals a.pid (workflowArtifacts s.ctx.args.workflowType)
      (s.ctx.args.provider role) o = .ok p.signals
  error : ∀ m, p.error = some m → m.errorClass = .serviceCap
  state : ∃ warnings, u = { s with ctx := { s.ctx with
    artifactMap := p.signals.artifactMap, attempt := some p.attempt, warnings := warnings } }

def Unobserved (s t : Orch) : Prop :=
  ∃ artifacts a warnings, t = { s with ctx := { s.ctx with
    artifactMap := artifacts, attempt := a, warnings := warnings } }

theorem observeProbe_spec (role : AgentRole) (o : ProbeObs) (s : Orch) :
    wp (observeProbe role o) (fun p u => Observed role o s p u)
      (fun _ t => Unobserved s t) s := by
  simp only [observeProbe, wp_bind, OrchM.wp_ctx, OrchM.wp_ofResult, OrchM.wp_modifyCtx,
    OrchM.wp_unwrap, wp_pure]
  refine ⟨fun _ _ => ⟨fun signals hsignals => ⟨fun a ha => ⟨fun _ _ => ?_, ?_⟩, ?_⟩, ?_⟩, ?_⟩
  · refine ⟨fun combined _ => ⟨fun found hfound => ?_, fun _ _ => ⟨_, _, _, rfl⟩⟩,
      fun _ _ => ⟨_, _, _, rfl⟩⟩
    rw [ha] at hsignals
    refine ⟨⟨a, ha, rfl, rfl, hsignals⟩, ?_, ⟨found.1, rfl⟩⟩
    obtain ⟨warnings, error⟩ := found
    rintro m rfl
    exact detectProviderError_serviceCap hfound
  all_goals intros; exact ⟨_, _, _, rfl⟩

/-- A probe that was classified; `v` is the state before it is routed. -/
structure Classified (role : AgentRole) (o : ProbeObs) (s : Orch) (p : Probe)
    (state : AttemptState) (v : Orch) : Prop where
  uncancelled : (o.cancelledAtTop || o.cancelledAfterWait) = false
  observed : ∃ u, observeProbe role o (s.pollChild o) = .ok p u
  attempt : ∃ a, (s.pollChild o).ctx.attempt = some a ∧
    p.attempt = attemptAfter role p.signals o.now a ∧
    p.changed = workSignalsChanged a p.signals ∧
    collectProbeSignals a.pid (workflowArtifacts s.ctx.args.workflowType)
      (s.ctx.args.provider role) o = .ok p.signals
  error : ∀ m, p.error = some m → m.errorClass = .serviceCap
  state_eq : p.classify s.ctx.args.workflowType role o = state
  after : ∃ warnings, v = { s.pollChild o with ctx := { (s.pollChild o).ctx with
    artifactMap := p.signals.artifactMap
    attempt := some (recordProbe state p.changed o.now p.attempt)
    warnings := warnings } }

inductive Probed (role : AgentRole) (o : ProbeObs) (s : Orch) : Flow → Orch → Prop
  | aborted : (o.cancelledAtTop || o.cancelledAfterWait) = true → Probed role o s .done s.abort
  | routed {p state v} : Classified role o s p state v →
      Probed role o s (route role o.now p state v).1 (route role o.now p state v).2

theorem doMonitorProbe_spec (role : AgentRole) (o : ProbeObs) (s : Orch) :
    wp (doMonitorProbe role o) (fun flow t => Probed role o s flow t)
      (fun _ t => Unobserved (s.pollChild o) t) s := by
  simp only [doMonitorProbe, wp_ite, wp_bind, wp_modify, wp_pure]
  refine ⟨.aborted, fun h => ?_⟩
  apply wp_mono (wp_and (observeProbe_spec role o (s.pollChild o)) (wp_self _ _))
  · rintro p u ⟨⟨hattempt, herror, warnings, rfl⟩, hobserved⟩
    simp only [OrchM.wp_ctx, OrchM.wp_modifyCtx, wp_get, wp_set]
    apply Probed.routed
    refine ⟨by simpa using h, ⟨_, hobserved⟩, ?_, herror, ?_, warnings, rfl⟩
    · simpa only [pollChild_args] using hattempt
    · rw [pollChild_args]
  · exact fun _ _ h => h.1

inductive Outcome (role : AgentRole) (o : ProbeObs) (s : Orch) : Flow → Orch → Prop
  | aborted : Outcome role o s .done s.abort
  | watched {p state v} : Classified role o s p state v → Outcome role o s .again v
  | stopped {p v} : Classified role o s p .finalizing v → finalizingTimeout p o.now = true →
      Outcome role o s .again (v.terminateActiveChild.mapCtx withoutProcess)
  | finished {p state v allowed} : Classified role o s p state v → p.attempt.pid = none →
      (state = .success ∧ allowed = true ∧ nonEmptyOutbox p.signals.outboxMeta = true ∨
        state = .softSuccess ∧ role = .executor) →
      Outcome role o s .done
        (v.mapCtx (routeResult role allowed (nonEmptyOutbox p.signals.outboxMeta)))
  | capped {p v} : Classified role o s p .failedServiceCap v → p.error.isSome →
      o.cancelledAtSnapshot = false →
      Outcome role o s .done (v.mapCtx fun ctx =>
        { releaseLock role ctx with runState := .runFailedServiceCap })
  | failed {p state v} : Classified role o s p state v → p.attempt.pid = none →
      Outcome role o s .done (v.mapCtx (retryAttempt role))
  | hung {p v} : Classified role o s p .hangConfirmed v →
      Outcome role o s .done
        ((v.mapCtx terminatingStale).terminateActiveChild.mapCtx (retryAttempt role))
  | cancelled {p v} : Classified role o s p .cancelled v →
      Outcome role o s .done (v.terminateActiveChild.mapCtx fun ctx =>
        { releaseLock role ctx with runState := .runAborted })

theorem Classified.error_class {role : AgentRole} {o : ProbeObs} {s v : Orch} {p : Probe}
    {state : AttemptState} (h : Classified role o s p state v) {c : ProviderErrorClass}
    (hc : p.error.map ProviderErrorMatch.errorClass = some c) : c = .serviceCap := by
  obtain ⟨m, hm, rfl⟩ := Option.map_eq_some_iff.mp hc
  exact h.error m hm

theorem Probed.outcome {role : AgentRole} {o : ProbeObs} {s t : Orch} {flow : Flow}
    (h : Probed role o s flow t) : Outcome role o s flow t := by
  cases h with
  | aborted _ => exact .aborted
  | @routed p state v h =>
    have hj := classify_justified (probeSnapshot s.ctx.args.workflowType role p.attempt p.signals
      p.changed (p.error.map ProviderErrorMatch.errorClass) o) o.now
    have hs : classify _ o.now = state := h.state_eq
    rw [hs] at hj
    cases state with
    | cancelled => exact .cancelled h
    | failedServiceCap =>
      have herror : p.error.isSome = true := by
        simpa [probeSnapshot] using Option.isSome_of_eq_some hj.2
      exact .capped h herror hj.1
    | failedProviderAccess =>
      obtain hc | hc := hj
      · exact absurd (h.error_class hc) (by simp)
      · exact absurd (h.error_class hc) (by simp)
    | failedTransport => exact absurd (h.error_class hj) (by simp)
    | success => exact .finished h (pid_of_success hj) (.inl ⟨rfl, rfl, outbox_of_success hj⟩)
    | softSuccess =>
      exact .finished h (pid_of_softSuccess hj) (.inr ⟨rfl, executor_of_softSuccess hj⟩)
    | failedProtocol => exact .failed h (pid_of_protocolInvalid hj)
    | failedSilent => exact .failed h (Option.isNone_iff_eq_none.mp hj)
    | hangConfirmed => exact .hung h
    | finalizing =>
      cases ht : finalizingTimeout p o.now with
      | true => simpa [route, ht] using Outcome.stopped h ht
      | false => simpa [route, ht] using Outcome.watched h
    | running | waitingOutput | unknown => exact .watched h
    | dispatching | terminatingStale | retryPending | retryExhausted => exact hj.elim

theorem Classified.ctx {role : AgentRole} {o : ProbeObs} {s v : Orch} {p : Probe}
    {state : AttemptState} (h : Classified role o s p state v) :
    ∃ warnings, v.ctx = { s.ctx with
      artifactMap := p.signals.artifactMap
      attempt := some (recordProbe state p.changed o.now p.attempt)
      warnings := warnings } := by
  obtain ⟨warnings, rfl⟩ := h.after
  obtain ⟨a, ha⟩ := pollChild_ctx o s
  exact ⟨warnings, by rw [ha]⟩

structure SameRound (c d : OrchestratorCtx) : Prop where
  args : d.args = c.args
  currentRole : d.currentRole = c.currentRole
  baseline : d.preReviewerGitStatus = c.preReviewerGitStatus
  executorSessionId : d.executorSessionId = c.executorSessionId
  reviewerSessionId : d.reviewerSessionId = c.reviewerSessionId
  activeProcess : d.activeProcess = c.activeProcess
  reviewResult : d.reviewResult = c.reviewResult
  reviewResultYamlRaw : d.reviewResultYamlRaw = c.reviewResultYamlRaw
  yamlRejection : d.reviewerYamlRejection = c.reviewerYamlRejection
  workspaceRejection : d.reviewerWorkspaceRejection = c.reviewerWorkspaceRejection

theorem Outcome.sameRound {role : AgentRole} {o : ProbeObs} {s t : Orch} {flow : Flow}
    (h : Outcome role o s flow t) : SameRound s.ctx t.ctx := by
  cases h with
  | aborted => simp only [Orch.abort, Orch.terminateActiveChild_ctx]; constructor <;> rfl
  | @finished p state v allowed h _ _ =>
    obtain ⟨w, hw⟩ := h.ctx
    cases allowed <;> simp only [Orch.mapCtx_ctx, hw] <;> constructor <;> rfl
  | watched h | stopped h _ | capped h _ _ | failed h _ | hung h | cancelled h =>
    obtain ⟨w, hw⟩ := h.ctx
    simp only [Orch.mapCtx_ctx, Orch.terminateActiveChild_ctx, hw]
    constructor <;> rfl

theorem Classified.sameAttempt {role : AgentRole} {o : ProbeObs} {s v : Orch} {p : Probe}
    {state : AttemptState} (h : Classified role o s p state v) {a : AttemptStateData}
    (ha : s.ctx.attempt = some a) : ∃ b, v.ctx.attempt = some b ∧ SameAttempt a b := by
  obtain ⟨b, hb, hab⟩ := pollChild_attempt (o := o) ha
  obtain ⟨b', hb', hp, -, -⟩ := h.attempt
  obtain ⟨w, hw⟩ := h.ctx
  rw [hb, Option.some.injEq] at hb'
  subst hb'
  refine ⟨_, by rw [hw], ?_⟩
  rw [hp]
  exact hab.after role p.signals o.now state p.changed

theorem Outcome.sameAttempt {role : AgentRole} {o : ProbeObs} {s t : Orch} {flow : Flow}
    (h : Outcome role o s flow t) {a : AttemptStateData} (ha : s.ctx.attempt = some a) :
    ∃ b, t.ctx.attempt = some b ∧ SameAttempt a b := by
  cases h with
  | aborted => exact ⟨a, by simpa [Orch.abort] using ha, rfl, rfl, rfl⟩
  | @finished p state v allowed h _ _ =>
    obtain ⟨b, hb, hab⟩ := h.sameAttempt ha
    exact ⟨b, by cases allowed <;> exact hb, hab⟩
  | watched h | capped h _ _ | failed h _ =>
    obtain ⟨b, hb, hab⟩ := h.sameAttempt ha
    exact ⟨b, hb, hab⟩
  | stopped h _ =>
    obtain ⟨b, hb, hab⟩ := h.sameAttempt ha
    refine ⟨{ b with pid := none }, by simp [withoutProcess, hb], ?_⟩
    exact ⟨hab.role, hab.dispatchTs, hab.preReviewerOutboxMtime⟩
  | hung h =>
    obtain ⟨b, hb, hab⟩ := h.sameAttempt ha
    refine ⟨{ b with state := .terminatingStale }, ?_, ?_⟩
    · simp [retryAttempt, releaseLock, OrchestratorCtx.setLock, terminatingStale, hb]
    · exact ⟨hab.role, hab.dispatchTs, hab.preReviewerOutboxMtime⟩
  | cancelled h =>
    obtain ⟨b, hb, hab⟩ := h.sameAttempt ha
    refine ⟨b, ?_, hab⟩
    simpa [releaseLock, OrchestratorCtx.setLock] using hb

theorem Outcome.target {role : AgentRole} {o : ProbeObs} {s t : Orch} {flow : Flow}
    (h : Outcome role o s flow t) :
    (t.ctx.consecutiveFailureCount = s.ctx.consecutiveFailureCount ∧
      (flow = .again ∧ t.ctx.runState = s.ctx.runState ∨
        flow = .done ∧ (t.ctx.runState = .outputCollect role ∨ t.ctx.runState.isTerminal))) ∨
    (t.ctx.consecutiveFailureCount = s.ctx.consecutiveFailureCount + 1 ∧
      flow = .done ∧ t.ctx.runState = .roundRetryDecide) := by
  cases h with
  | aborted =>
    simp [Orch.abort, RunState.isTerminal]
  | @finished p state v allowed h _ _ =>
    obtain ⟨w, hw⟩ := h.ctx
    cases allowed <;> simp [hw, routeResult, releaseLock, OrchestratorCtx.setLock,
      RunState.isTerminal]
  | watched h | stopped h _ | capped h _ _ | failed h _ | hung h | cancelled h =>
    obtain ⟨w, hw⟩ := h.ctx
    simp [hw, withoutProcess, retryAttempt, terminatingStale, releaseLock,
      OrchestratorCtx.setLock, RunState.isTerminal]

end Monitor

end Orchestrator

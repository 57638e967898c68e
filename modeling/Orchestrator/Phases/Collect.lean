import Orchestrator.Phases.Dispatch

namespace Orchestrator

open Rust Exec

def doRoundRetryDecide (ctx : OrchestratorCtx) : OrchestratorCtx :=
  if consecutiveFailureLimit ≤ ctx.consecutiveFailureCount then
    { ctx with
      attempt := ctx.attempt.map fun a => { a with state := .retryExhausted }
      runState := .runFailedConsecutiveFailureLimit
      failures := ctx.failures ++ ["consecutive failure limit reached (" ++
        toString ctx.consecutiveFailureCount ++ "/" ++ toString consecutiveFailureLimit ++ ")"] }
  else
    { ctx with
      attempt := ctx.attempt.map fun a => { a with state := .retryPending }
      runState :=
        match ctx.currentRole.getD .executor with
        | .executor => .executorDispatch
        | .reviewer => .reviewerDispatch }

structure ExecutorCollectObs where
  snapshot : SnapshotObs
  artifactLen : String → IoResult Nat
  gitLog : IoResult CommandOutput

def collectArtifacts (artifactLen : String → IoResult Nat) : List String → OrchM Unit
  | [] => pure ()
  | name :: names => do
    let present ← OrchM.ofResult (artifactFilePresent (artifactLen name))
    OrchM.modifyCtx fun ctx => { ctx with
      artifactMap := insertArtifact ctx.artifactMap name present
      artifactPaths := if present then ctx.artifactPaths ++ [name] else ctx.artifactPaths }
    collectArtifacts artifactLen names

def addCommitHash (hashes : List String) (line : String) : List String :=
  let hash := (splitWhitespace line).head?.getD ""
  if !hash.isEmpty && !hashes.contains hash then hashes ++ [hash] else hashes

section Executor

variable [Crates]

def surveyExecutor (o : ExecutorCollectObs) : OrchM Unit := do
  let ctx ← OrchM.ctx
  let snapshot ← OrchM.ofResult (readTransportSnapshot (ctx.transportPath outboxFile) .executor
    ctx.args.executorProvider (ctx.executorSessionId.getD "<unbound>") o.snapshot)
  OrchM.modifyCtx fun ctx => { ctx with executorOutboxSnapshot := snapshot }
  collectArtifacts o.artifactLen (workflowArtifacts ctx.args.workflowType)
  let log ← OrchM.ofResult (match ctx.initialGitHead with
    | some base => runGit ["log", "--oneline", base ++ "..HEAD"] o.gitLog
    | none => runGit ["log", "--oneline", "-20"] o.gitLog)
  OrchM.modifyCtx fun ctx => { ctx with
    commitHashes := (commitLines log).foldl addCommitHash ctx.commitHashes }

def doExecutorOutputCollect (o : ExecutorCollectObs) : OrchM Unit := do
  surveyExecutor o
  OrchM.modifyCtx fun ctx => { ctx with runState := .orchVerify }

end Executor

def Surveyed (s t : Orch) : Prop :=
  ∃ snapshot artifacts paths hashes, t = { s with ctx := { s.ctx with
    executorOutboxSnapshot := snapshot, artifactMap := artifacts, artifactPaths := paths,
    commitHashes := hashes } }

instance : IsPreorder Orch Surveyed where
  refl _ := ⟨_, _, _, _, rfl⟩
  trans _ _ _ := by
    rintro ⟨_, _, _, _, rfl⟩ ⟨_, _, _, _, rfl⟩
    exact ⟨_, _, _, _, rfl⟩

theorem collectArtifacts_frame (artifactLen : String → IoResult Nat) (names : List String) :
    Frame Surveyed (collectArtifacts artifactLen names) := by
  induction names with
  | nil => exact Frame.pure _
  | cons name names ih =>
    apply Frame.bind (OrchM.frame_ofResult _)
    intro present
    apply Frame.bind
    · exact fun s => ⟨_, _, _, _, rfl⟩
    · exact fun _ => ih

theorem surveyExecutor_frame [Crates] (o : ExecutorCollectObs) :
    Frame Surveyed (surveyExecutor o) := by
  apply Frame.bind OrchM.frame_ctx
  intro ctx
  apply Frame.bind (OrchM.frame_ofResult _)
  intro snapshot
  apply Frame.bind
  · exact fun s => ⟨_, _, _, _, rfl⟩
  intro _
  apply Frame.bind (collectArtifacts_frame _ _)
  intro _
  apply Frame.bind (OrchM.frame_ofResult _)
  intro log s
  exact ⟨_, _, _, _, rfl⟩

def doOrchVerify (ctx : OrchestratorCtx) : OrchestratorCtx :=
  { ctx with
    reviewResult := none
    reviewResultYamlRaw := none
    reviewerYamlRejection := none
    reviewerWorkspaceRejection := none
    runState := .reviewerDispatch }

structure CollectObs where
  outboxMtime : IoResult Int
  outboxText : IoResult Bytes
  snapshot : SnapshotObs
  gitStatusAll : IoResult CommandOutput

def retryReviewerOutputFailure (reason : String) (ctx : OrchestratorCtx) : OrchestratorCtx :=
  { ctx with
    consecutiveFailureCount := ctx.consecutiveFailureCount + 1
    failures := ctx.failures ++ [reason]
    runState := .roundRetryDecide }

/-- The path of a `git status --short` line; `none` where slicing it panics. -/
def statusLinePath (line : String) : Option String :=
  if 3 < line.utf8ByteSize then (sliceFrom 3 line.toList).map fun p => trim (String.ofList p)
  else some (trim line)

/-- The new lines that are not about the outbox; `none` is a panic. -/
def newDirtyLines (initial : List String) (outboxRel : String) :
    List String → Option (List String)
  | [] => some []
  | line :: lines =>
    if line ∈ initial then newDirtyLines initial outboxRel lines
    else
      (statusLinePath line).bind fun path =>
        (newDirtyLines initial outboxRel lines).map fun rest =>
          if path = outboxRel then rest else line :: rest

def reviewerWorkspaceDirtyLines (initial current outboxRel : String) :
    Option (Option (List String)) :=
  (newDirtyLines (lines initial) outboxRel (lines current)).map fun dirty =>
    if dirty.isEmpty then none else some dirty

def outboxRel : String := transportDir ++ "/" ++ outboxFile

def reviewerWorkspaceDirtyReason (ctx : OrchestratorCtx) (o : CollectObs) :
    OrchM (Option String) := do
  let current ← OrchM.ofResult (fullGitStatus o.gitStatusAll)
  let dirty ← OrchM.unwrap
    (reviewerWorkspaceDirtyLines (ctx.preReviewerGitStatus.getD "") current outboxRel)
  return dirty.map fun lines => "reviewer left dirty worktree entries after review; clean by " ++
    "committing or reverting before writing final YAML: " ++ "; ".intercalate lines

def CleanSince (baseline : Option String) (status : String) : Prop :=
  ∀ line ∈ lines status, line ∉ lines (baseline.getD "") → statusLinePath line = some outboxRel

theorem newDirtyLines_eq_nil {initial current : List String} {outboxRel : String} :
    newDirtyLines initial outboxRel current = some [] ↔
      ∀ line ∈ current, line ∉ initial → statusLinePath line = some outboxRel := by
  induction current with
  | nil => simp [newDirtyLines]
  | cons line current ih =>
    by_cases hline : line ∈ initial
    · simp [newDirtyLines, hline, ih]
    · simp only [newDirtyLines, if_neg hline, List.forall_mem_cons, ← ih]
      cases statusLinePath line with
      | none => simp [hline]
      | some path =>
        cases newDirtyLines initial outboxRel current with
        | none => simp
        | some rest =>
          by_cases hpath : path = outboxRel
          · simp [hpath]
          · simp [hpath, hline]

section Reviewer

variable [Crates]

def judgeReviewerOutput (policy : NotionPolicy) (raw : String) :
    OrchestratorResult ReviewerYaml := do
  let yaml ← parseReviewerYaml raw
  enforceReviewerNotionPolicy policy yaml
  return yaml

/-- Keep the saved verdict of this round or save a new one; false when a new one is rejected. -/
def saveVerdict (raw : String) : OrchM Bool := do
  let ctx ← OrchM.ctx
  if ctx.reviewResult.isSome then return true
  else
    match judgeReviewerOutput ctx.args.notionPolicy raw with
    | .ok yaml => do
      OrchM.modifyCtx fun ctx => { ctx with
        reviewerYamlRejection := none
        reviewResultYamlRaw := some raw
        reviewResult := some yaml }
      return true
    | .error e => do
      OrchM.modifyCtx fun ctx =>
        retryReviewerOutputFailure ("reviewer YAML parse failed: " ++ e.display)
          { ctx with reviewerYamlRejection := some e.display }
      return false

def checkReviewerWorkspace (o : CollectObs) : OrchM Unit := do
  let ctx ← OrchM.ctx
  match ← reviewerWorkspaceDirtyReason ctx o with
  | some reason =>
    OrchM.modifyCtx fun ctx =>
      retryReviewerOutputFailure ("reviewer workspace cleanup required: " ++ reason)
        { ctx with reviewerWorkspaceRejection := some reason }
  | none =>
    OrchM.modifyCtx fun ctx =>
      { ctx with reviewerWorkspaceRejection := none, runState := .qualityGate }

def reviewerText (ctx : OrchestratorCtx) (o : CollectObs) : IoResult String :=
  if ctx.reviewResult.isSome then .ok (ctx.reviewResultYamlRaw.getD "")
  else readToString o.outboxText

def doReviewerOutputCollect (o : CollectObs) : OrchM Unit := do
  let ctx ← OrchM.ctx
  let preMtime := ctx.attempt.bind (·.preReviewerOutboxMtime)
  let currentMtime ← OrchM.ofResult (optionalFileMtime o.outboxMtime)
  if preMtime = currentMtime ∧ preMtime.isSome then
    OrchM.modifyCtx (retryReviewerOutputFailure
      "reviewer outbox mtime unchanged after reviewer exit — retrying reviewer")
  else
    match reviewerText ctx o with
    | .error _ => OrchM.modifyCtx (retryReviewerOutputFailure "reviewer outbox not readable")
    | .ok raw => do
      let snapshot ← OrchM.ofResult (readTransportSnapshot (ctx.transportPath outboxFile)
        .reviewer ctx.args.reviewerProvider (ctx.reviewerSessionId.getD "<unbound>") o.snapshot)
      OrchM.modifyCtx fun ctx => { ctx with reviewerOutboxSnapshot := snapshot }
      if ← saveVerdict raw then checkReviewerWorkspace o else return ()

def OutboxChanged (s : Orch) (o : CollectObs) : Prop :=
  ∃ mtime, optionalFileMtime o.outboxMtime = .ok mtime ∧
    ¬(s.ctx.attempt.bind (·.preReviewerOutboxMtime) = mtime ∧
      (s.ctx.attempt.bind (·.preReviewerOutboxMtime)).isSome)

/-- The ways to a verdict `v`; the resulting state is the one before the worktree check. -/
inductive Judged (o : CollectObs) (s : Orch) (v : ReviewerYaml) : Orch → Prop
  | saved {snapshot} : s.ctx.reviewResult = some v →
      Judged o s v { s with ctx := { s.ctx with reviewerOutboxSnapshot := snapshot } }
  | fresh {snapshot raw} : s.ctx.reviewResult = none → readToString o.outboxText = .ok raw →
      parseReviewerYaml raw = .ok v →
      enforceReviewerNotionPolicy s.ctx.args.notionPolicy v = .ok () →
      Judged o s v { s with ctx := { s.ctx with
        reviewerOutboxSnapshot := snapshot
        reviewerYamlRejection := none
        reviewResultYamlRaw := some raw
        reviewResult := some v } }

inductive Collected (o : CollectObs) (s : Orch) : Orch → Prop
  | unchanged {reason} : ¬OutboxChanged s o →
      Collected o s { s with ctx := retryReviewerOutputFailure reason s.ctx }
  | unreadable {e reason} : OutboxChanged s o → s.ctx.reviewResult = none →
      readToString o.outboxText = .error e →
      Collected o s { s with ctx := retryReviewerOutputFailure reason s.ctx }
  | rejected {snapshot raw e reason} : OutboxChanged s o → s.ctx.reviewResult = none →
      readToString o.outboxText = .ok raw →
      judgeReviewerOutput s.ctx.args.notionPolicy raw = .error e →
      Collected o s { s with ctx := retryReviewerOutputFailure reason { s.ctx with
        reviewerOutboxSnapshot := snapshot
        reviewerYamlRejection := some e.display } }
  | dirty {u v status reason text} : OutboxChanged s o → Judged o s v u →
      fullGitStatus o.gitStatusAll = .ok status → ¬CleanSince s.ctx.preReviewerGitStatus status →
      Collected o s { u with
        ctx := retryReviewerOutputFailure text
          { u.ctx with reviewerWorkspaceRejection := some reason } }
  | clean {u v status} : OutboxChanged s o → Judged o s v u →
      fullGitStatus o.gitStatusAll = .ok status → CleanSince s.ctx.preReviewerGitStatus status →
      Collected o s { u with ctx :=
        { u.ctx with reviewerWorkspaceRejection := none, runState := .qualityGate } }

inductive Uncollected (o : CollectObs) (s : Orch) : Orch → Prop
  | unread {snapshot} :
      Uncollected o s { s with ctx := { s.ctx with reviewerOutboxSnapshot := snapshot } }
  | judged {u v} : OutboxChanged s o → Judged o s v u → Uncollected o s u

theorem checkReviewerWorkspace_spec {o : CollectObs} {s u : Orch} {v : ReviewerYaml}
    (hm : OutboxChanged s o) (hv : Judged o s v u) :
    wp (checkReviewerWorkspace o) (fun _ t => Collected o s t) (fun _ t => Uncollected o s t)
      u := by
  have hpre : u.ctx.preReviewerGitStatus = s.ctx.preReviewerGitStatus := by cases hv <;> rfl
  simp only [checkReviewerWorkspace, reviewerWorkspaceDirtyReason, reviewerWorkspaceDirtyLines,
    wp_bind, OrchM.wp_ctx, OrchM.wp_ofResult, OrchM.wp_unwrap, wp_pure]
  refine ⟨fun status hstatus => ⟨fun dirty hdirty => ?_, fun _ => .judged hm hv⟩, ?_⟩
  · rw [hpre, Option.map_eq_some_iff] at hdirty
    obtain ⟨new, hnew, rfl⟩ := hdirty
    have hclean : CleanSince s.ctx.preReviewerGitStatus status ↔ new = [] := by
      rw [CleanSince, ← newDirtyLines_eq_nil, hnew, Option.some.injEq]
    cases new with
    | nil => exact .clean hm hv hstatus (hclean.mpr rfl)
    | cons line rest => exact .dirty hm hv hstatus fun h => by simpa using hclean.mp h
  · exact fun _ _ => .judged hm hv

theorem judgeReviewerOutput_ok {policy : NotionPolicy} {raw : String} {v : ReviewerYaml} :
    judgeReviewerOutput policy raw = .ok v ↔
      parseReviewerYaml raw = .ok v ∧ enforceReviewerNotionPolicy policy v = .ok () := by
  simp only [judgeReviewerOutput, bind, Except.bind, pure, Except.pure]
  cases parseReviewerYaml raw with
  | error e => simp
  | ok yaml =>
    cases henforce : enforceReviewerNotionPolicy policy yaml with
    | error e =>
      simp only [henforce, reduceCtorEq, Except.ok.injEq, false_iff, not_and]
      rintro rfl
      simp [henforce]
    | ok _ =>
      simp only [henforce, Except.ok.injEq]
      exact ⟨fun h => ⟨h, h ▸ henforce⟩, fun h => h.1⟩

section SaveVerdict

variable {raw : String} {v : ReviewerYaml} {e : OrchestratorError} {Q : Bool → Orch → Prop}
  {E : Fault → Orch → Prop} {s : Orch}

theorem saveVerdict_saved (hres : s.ctx.reviewResult = some v) :
    wp (saveVerdict raw) Q E s ↔ Q true s := by
  simp [saveVerdict, hres]

theorem saveVerdict_fresh (hres : s.ctx.reviewResult = none)
    (hjudge : judgeReviewerOutput s.ctx.args.notionPolicy raw = .ok v) :
    wp (saveVerdict raw) Q E s ↔ Q true { s with ctx := { s.ctx with
      reviewerYamlRejection := none
      reviewResultYamlRaw := some raw
      reviewResult := some v } } := by
  simp [saveVerdict, hres, hjudge]

theorem saveVerdict_rejected (hres : s.ctx.reviewResult = none)
    (hjudge : judgeReviewerOutput s.ctx.args.notionPolicy raw = .error e) :
    wp (saveVerdict raw) Q E s ↔ Q false { s with
      ctx := retryReviewerOutputFailure ("reviewer YAML parse failed: " ++ e.display)
        { s.ctx with reviewerYamlRejection := some e.display } } := by
  simp [saveVerdict, hres, hjudge]

end SaveVerdict

theorem doReviewerOutputCollect_spec (o : CollectObs) (s : Orch) :
    wp (doReviewerOutputCollect o) (fun _ t => Collected o s t)
      (fun _ t => Uncollected o s t) s := by
  simp only [doReviewerOutputCollect, wp_bind, OrchM.wp_ctx, OrchM.wp_ofResult, wp_ite,
    OrchM.wp_modifyCtx]
  refine ⟨fun mtime hmtime => ⟨fun h => ?_, fun h => ?_⟩, fun _ _ => .unread⟩
  · refine .unchanged ?_
    rintro ⟨m, hm, hne⟩
    rw [hmtime, Except.ok.injEq] at hm
    exact hne (hm ▸ h)
  have hm : OutboxChanged s o := ⟨mtime, hmtime, h⟩
  obtain hres | ⟨v, hres⟩ := Option.eq_none_or_eq_some s.ctx.reviewResult
  · have htext : reviewerText s.ctx o = readToString o.outboxText := by
      simp [reviewerText, hres]
    rw [htext]
    cases hread : readToString o.outboxText with
    | error e => exact .unreadable hm hres hread
    | ok raw =>
      simp only [wp_bind, OrchM.wp_ofResult, OrchM.wp_modifyCtx]
      refine ⟨fun snapshot _ => ?_, fun _ _ => .unread⟩
      cases hjudge : judgeReviewerOutput s.ctx.args.notionPolicy raw with
      | error e =>
        apply (saveVerdict_rejected ?_ ?_).mpr
        · exact .rejected hm hres hread hjudge
        · exact hres
        · exact hjudge
      | ok v =>
        obtain ⟨hparse, hpolicy⟩ := judgeReviewerOutput_ok.mp hjudge
        apply (saveVerdict_fresh ?_ ?_).mpr
        · exact checkReviewerWorkspace_spec hm (.fresh hres hread hparse hpolicy)
        · exact hres
        · exact hjudge
  · have htext : reviewerText s.ctx o = .ok (s.ctx.reviewResultYamlRaw.getD "") := by
      simp [reviewerText, hres]
    rw [htext]
    simp only [wp_bind, OrchM.wp_ofResult, OrchM.wp_modifyCtx]
    refine ⟨fun snapshot _ => ?_, fun _ _ => .unread⟩
    apply (saveVerdict_saved (v := v) ?_).mpr
    · exact checkReviewerWorkspace_spec hm (.saved hres)
    · exact hres

end Reviewer

def doQualityGate (ctx : OrchestratorCtx) : OrchestratorCtx :=
  match ctx.reviewResult with
  | none => { ctx with runState := .runFailedProtocol }
  | some review =>
    let ctx := { ctx with consecutiveFailureCount := 0 }
    match review.decision with
    | .accept => { ctx with runState := .runDone, nextActionRequired := none }
    | .revise => { ctx with runState := .roundFeedbackPrep }
    | .blocked =>
      { ctx with
        runState := .runFailedExternalBlocker
        nextActionRequired := review.blockingReason }
    | .irreconcilableDisagreement =>
      { ctx with
        runState := .runFailedIrreconcilableDisagreement
        nextActionRequired := review.irreconcilableReason }
    | .poisonedSession =>
      { ctx with
        runState := .runFailedPoisonedSession
        nextActionRequired := review.poisonedSessionReason }

def doRoundFeedbackPrep (ctx : OrchestratorCtx) : OrchestratorCtx :=
  { ctx with runState := .executorDispatch }

end Orchestrator

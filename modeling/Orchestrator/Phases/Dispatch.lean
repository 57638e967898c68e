import Orchestrator.Context

namespace Orchestrator

open Rust Exec

structure ResetObs where
  createDir : IoResult Unit
  openInbox : IoResult Unit
  inboxLen : IoResult Nat
  openOutbox : IoResult Unit
  outboxLen : IoResult Nat

def truncateFile (path : String) (opened : IoResult Unit) (len : IoResult Nat) : OrchM Unit := do
  OrchM.ofResult (ofIo opened)
  OrchM.modifyWorld (·.record (.truncated path))
  let len ← OrchM.ofResult (ofIo len)
  OrchM.ofResult (if len ≠ 0 then .error (.transportResetFailed path) else .ok ())

def resetTransport (inbox outbox : String) (role : AgentRole) (o : ResetObs) : OrchM Unit := do
  OrchM.ofResult (ofIo o.createDir)
  truncateFile inbox o.openInbox o.inboxLen
  match role with
  | .executor => truncateFile outbox o.openOutbox o.outboxLen
  | .reviewer => pure ()

def workflowContractText : WorkflowType → String
  | .plan =>
    "Required: PLAN.md exists, non-empty, structurally valid; local commit when " ++
    "git-tracked files in workspace changed; executor outbox exists and is non-empty. " ++
    "SOFT_SUCCESS allowed when PLAN.md exists but outbox is missing after grace period."
  | .investigate =>
    "Required: INVESTIGATION.md exists, non-empty, structurally valid; local commit when " ++
    "git-tracked files in workspace changed; executor outbox exists and is non-empty. " ++
    "SOFT_SUCCESS allowed when INVESTIGATION.md exists but outbox is missing after grace."
  | .implement =>
    "Required: local commit for git-tracked workspace changes; clean worktree; executor " ++
    "outbox exists and is non-empty; requested tests/markers validate when deterministic " ++
    "command status is available. SOFT_SUCCESS routes to reviewer when outbox is missing " ++
    "after grace; " ++
    "the reviewer must verify commit presence, worktree cleanliness, tests, and " ++
    "implementation quality."

def reviewerYamlSchema : String :=
  "quality_score: 0\n" ++
  "decision: \"revise\"\n" ++
  "rationale: |-\n  English user-readable rationale.\n" ++
  "contract_satisfied: false\n" ++
  "hard_blockers_present: false\n" ++
  "notion_requirements_satisfied: true\n" ++
  "feedback_for_executor:\n  - |-\n    " ++
  "A concrete instruction or observation for the executor to evaluate.\n" ++
  "checks_performed: \"free_form_or_object_or_array\"\n" ++
  "findings: \"free_form_or_object_or_array\"\n" ++
  "verification_commands: \"free_form_or_object_or_array\"\n" ++
  "blocking_reason: null\n" ++
  "irreconcilable_reason: null\n" ++
  "poisoned_session_reason: null"

def commitLines (log : String) : List String :=
  (lines log).filter fun l => !(trim l).isEmpty

def formatGitFacts (initialHead : Option String)
    (status head log : IoResult CommandOutput) : OrchestratorResult String := do
  let status ← runGit ["status", "--short"] status
  let status := if (trim status).isEmpty then "(clean)" else trim status
  let head ← runGit ["log", "-1", "--oneline"] head
  let out := "git_status: " ++ status ++ "\ngit_head: " ++ trim head
  match initialHead with
  | none => return out
  | some base => do
    let log ← runGit ["log", "--oneline", base ++ "..HEAD"] log
    let commits := commitLines log
    let out := out ++ "\ncommits_since_dispatch: " ++ toString commits.length
    return if commits.isEmpty then out ++ "\nnew_commits: []"
      else out ++ "\nnew_commits:" ++ String.join (commits.map fun c => "\n  - " ++ c)

def numberedFeedback (feedback : List String) : String :=
  "\n".intercalate (feedback.zipIdx.map fun (s, i) => toString (i + 1) ++ ". " ++ s)

def templateFor (ctx : OrchestratorCtx) : AgentRole → TemplateId
  | .executor => if ctx.reviewResult.isSome then .executorFeedback else .executorInitial
  | .reviewer =>
    if ctx.reviewerWorkspaceRejection.isSome then .reviewerRepairWorkspace
    else if ctx.reviewerYamlRejection.isSome then .reviewerRepairYaml
    else .reviewerReview

def templateValues (ctx : OrchestratorCtx) (role : AgentRole) (gitFacts docsDir : String) :
    TemplateValues where
  provider := ctx.args.provider role
  workflowType := ctx.args.workflowType
  workspaceRoot := ctx.args.workspaceRoot
  transportDir := ctx.args.workspaceRoot ++ "/" ++ transportDir
  inboxPath := ctx.transportPath inboxFile
  outboxPath := ctx.transportPath outboxFile
  orchestratorDocsDir := docsDir
  branch := ctx.branch
  userPrompt := ctx.args.prompt
  notionPolicy := ctx.args.notionPolicy
  remoteNetworkPolicy := ctx.args.remoteNetworkPolicy
  workflowContract := workflowContractText ctx.args.workflowType
  gitFacts := gitFacts
  executorOutboxPresent := ctx.outboxPresent
  reviewerYamlSchema := if role = .reviewer then some reviewerYamlSchema else none
  reviewerYamlRejection := if role = .reviewer then ctx.reviewerYamlRejection else none
  reviewerWorkspaceRejection :=
    if role = .reviewer then ctx.reviewerWorkspaceRejection else none
  reviewResultYaml := ctx.reviewResultYamlRaw
  feedbackForExecutor := ctx.reviewResult.map fun r => numberedFeedback r.feedbackForExecutor

structure LockObs where
  base : Option String
  createDir : IoResult Unit
  openFile : IoResult Unit
  heldElsewhere : Bool
  tryLock : IoResult Unit
  setLen : IoResult Unit
  writePid : IoResult Unit

structure SnapshotObs where
  read : IoResult Bytes
  mtime : IoResult Int

structure DispatchObs where
  lock : LockObs
  inboxBytes : IoResult Bytes
  gitStatus : IoResult CommandOutput
  gitHead : IoResult CommandOutput
  reset : ResetObs
  outboxMtime : IoResult Int
  gitStatusAll : IoResult CommandOutput
  factsStatus : IoResult CommandOutput
  factsHead : IoResult CommandOutput
  factsLog : IoResult CommandOutput
  docsDir : String
  writeInbox : IoResult Unit
  readBack : IoResult Bytes
  inboxSnapshot : SnapshotObs
  spawn : OrchestratorResult Nat
  now : Int

def optionalFileMtime (r : IoResult Int) : OrchestratorResult (Option Int) :=
  ofIo (noneIfMissing r)

/-- `git status --short --untracked-files=all`, the status that reviewer leftovers are
measured against. -/
def fullGitStatus (out : IoResult CommandOutput) : OrchestratorResult String :=
  runGit ["status", "--short", "--untracked-files=all"] out

def captureReviewerBaseline (role : AgentRole) (o : DispatchObs) : OrchM (Option Int) := do
  match role with
  | .executor => return none
  | .reviewer => do
    let mtime ← OrchM.ofResult (optionalFileMtime o.outboxMtime)
    let ctx ← OrchM.ctx
    if ctx.reviewerWorkspaceRejection.isNone then do
      let status ← OrchM.ofResult (fullGitStatus o.gitStatusAll)
      OrchM.modifyCtx fun ctx => { ctx with preReviewerGitStatus := some status }
      return mtime
    else return mtime

/-- What a dispatch may do before the provider starts; its prompt is made from `c`. -/
structure Prepares (role : AgentRole) (c : OrchestratorCtx) (s t : Orch) : Prop where
  ctx : ∃ baseline inbox,
    t.ctx = { s.ctx with preReviewerGitStatus := baseline, lastInboxSnapshot := inbox }
  children : t.world.children = s.world.children
  writes : ∃ new, t.world.writes = new ++ s.world.writes ∧
    ∀ path template values, .request path template values ∈ new →
      template = templateFor c role ∧
        ∃ facts docsDir, values = templateValues c role facts docsDir

section Prepares

variable {role : AgentRole} {c : OrchestratorCtx} {s t u : Orch}

theorem Prepares.refl (s : Orch) : Prepares role c s s :=
  ⟨⟨_, _, rfl⟩, rfl, [], rfl, by simp⟩

theorem Prepares.trans (h₁ : Prepares role c s t) (h₂ : Prepares role c t u) :
    Prepares role c s u := by
  obtain ⟨⟨b, i, hc⟩, hch, n, hw, hn⟩ := h₁
  obtain ⟨⟨b', i', hc'⟩, hch', n', hw', hn'⟩ := h₂
  refine ⟨⟨b', i', by rw [hc', hc]⟩, hch'.trans hch, n' ++ n, by simp [hw', hw], ?_⟩
  intro path template values hmem
  cases List.mem_append.mp hmem with
  | inl h => exact hn' path template values h
  | inr h => exact hn path template values h

instance : IsPreorder Orch (Prepares role c) where
  refl := Prepares.refl
  trans _ _ _ := Prepares.trans

theorem Prepares.record {f : FileWrite}
    (hf : ∀ path template values, f = .request path template values →
      template = templateFor c role ∧
        ∃ facts docsDir, values = templateValues c role facts docsDir) :
    Prepares role c s { s with world := s.world.record f } :=
  ⟨⟨_, _, rfl⟩, rfl, [f], rfl, by simpa using fun p t v h => hf p t v h.symm⟩

theorem Prepares.of_withLock {l : Option SessionLock}
    (h : Prepares role (s.withLock role l).ctx t u) : Prepares role s.ctx t u :=
  ⟨h.ctx, h.children, h.writes⟩

theorem truncateFile_frame (path : String) (opened : IoResult Unit) (len : IoResult Nat) :
    Frame (Prepares role c) (truncateFile path opened len) := by
  apply Frame.bind (OrchM.frame_ofResult _)
  intro _
  apply Frame.bind
  · intro s
    exact Prepares.record (by simp)
  intro _
  apply Frame.bind (OrchM.frame_ofResult _)
  exact fun _ => OrchM.frame_ofResult _

theorem resetTransport_frame (inbox outbox : String) (o : ResetObs) :
    Frame (Prepares role c) (resetTransport inbox outbox role o) := by
  apply Frame.bind (OrchM.frame_ofResult _)
  intro _
  apply Frame.bind
  · exact truncateFile_frame inbox o.openInbox o.inboxLen
  intro _
  cases role with
  | executor => exact truncateFile_frame outbox o.openOutbox o.outboxLen
  | reviewer => exact Frame.pure _

def BaselineAfter (role : AgentRole) (c : OrchestratorCtx) (o : DispatchObs)
    (baseline : Option String) : Prop :=
  if role = .reviewer ∧ c.reviewerWorkspaceRejection = none then
    ∃ status, fullGitStatus o.gitStatusAll = .ok status ∧ baseline = some status
  else baseline = c.preReviewerGitStatus

theorem captureReviewerBaseline_spec (role : AgentRole) (o : DispatchObs) (s : Orch) :
    wp (captureReviewerBaseline role o)
      (fun _ t => ∃ baseline, BaselineAfter role s.ctx o baseline ∧
        t = { s with ctx := { s.ctx with preReviewerGitStatus := baseline } })
      (fun _ t => t = s) s := by
  cases role with
  | executor => exact ⟨_, rfl, rfl⟩
  | reviewer =>
    simp only [captureReviewerBaseline, wp_bind, OrchM.wp_ofResult, OrchM.wp_ctx, wp_ite,
      OrchM.wp_modifyCtx, wp_pure, BaselineAfter, true_and, Option.isNone_iff_eq_none]
    refine ⟨fun mtime hm => ⟨fun hr => ⟨fun status hs => ?_, ?_⟩, fun hr => ?_⟩, ?_⟩
    · exact ⟨some status, by rw [if_pos hr]; exact ⟨status, hs, rfl⟩, rfl⟩
    · exact fun _ _ => trivial
    · exact ⟨_, by rw [if_neg hr], rfl⟩
    · exact fun _ _ => trivial

theorem captureReviewerBaseline_frame (role : AgentRole) (o : DispatchObs) :
    Frame (Prepares role c) (captureReviewerBaseline role o) := by
  intro s
  apply wp_mono (captureReviewerBaseline_spec role o s)
  · rintro _ t ⟨baseline, -, rfl⟩
    exact ⟨⟨baseline, _, rfl⟩, rfl, [], rfl, by simp⟩
  · rintro _ t rfl
    exact Prepares.refl t

theorem resetTransport_ctx (inbox outbox : String) (role : AgentRole) (o : ResetObs) (s : Orch) :
    wp (resetTransport inbox outbox role o) (fun _ t => t.ctx = s.ctx) (fun _ _ => True) s := by
  cases role with
  | executor => simp [resetTransport, truncateFile]
  | reviewer => simp [resetTransport, truncateFile]

end Prepares

variable [Crates]

def lockFilePath (base : Option String) (provider : ProviderKind) (sessionId : String) :
    OrchestratorResult String :=
  match base with
  | none => .error (.invalidInput "lock_dir" "XDG_RUNTIME_DIR and HOME are both unset")
  | some base => .ok (base ++ "/multi-agent-orchestrator/session-locks/" ++
      Crates.sha256Hex (asBytes (provider.asStr ++ ":" ++ sessionId)) ++ ".lock")

/-- `holds` tells whether this run has the lock file at a path open and locked: an exclusive
lock conflicts with every other handle, also with one of the same process. -/
def acquireSessionLock (holds : String → Bool) (provider : ProviderKind) (sessionId : String)
    (o : LockObs) : OrchestratorResult SessionLock := do
  let path ← lockFilePath o.base provider sessionId
  ofIo o.createDir
  ofIo o.openFile
  if holds path || o.heldElsewhere then .error (.sessionLocked provider sessionId)
  else do
    match o.tryLock with
    | .ok () => pure ()
    | .error e =>
      if e.kind = .wouldBlock then .error (.sessionLocked provider sessionId)
      else .error (.io e)
    ofIo o.setLen
    ofIo o.writePid
    return ⟨path⟩

/-- The fingerprint is taken of the bytes read back, not of those written. -/
def writeRequest (inbox : String) (template : TemplateId) (values : TemplateValues)
    (written : IoResult Unit) (readBack : IoResult Bytes) : OrchM String := do
  OrchM.ofResult (ofIo written)
  OrchM.modifyWorld (·.record (.request inbox template values))
  let bytes ← OrchM.ofResult (ofIo readBack)
  return Crates.sha256Hex bytes

def verifyRequestFingerprint (originalSha : String) (inbox : IoResult Bytes) :
    OrchestratorResult Unit :=
  match inbox with
  | .error e => .error (.io e)
  | .ok bytes =>
    if Crates.sha256Hex bytes ≠ originalSha then .error .requestChangedAbortRetry else .ok ()

def readTransportSnapshot (path : String) (role : AgentRole) (provider : ProviderKind)
    (sessionId : String) (o : SnapshotObs) : OrchestratorResult (Option TransportBodyReport) :=
  match noneIfMissing o.read with
  | .error e => .error (.io e)
  | .ok none => .ok none
  | .ok (some bytes) =>
    match o.mtime with
    | .error e => .error (.io e)
    | .ok mtime =>
      .ok (some {
        role := role
        provider := provider
        sessionId := sessionId
        path := path
        sha256 := Crates.sha256Hex bytes
        bytes := bytes.length
        lines := (lines (fromUtf8Lossy bytes)).length
        utf8Lossy := (fromUtf8 bytes).isNone
        mtime := some mtime
        body := fromUtf8Lossy bytes })

def sessionIdOf (ctx : OrchestratorCtx) (role : AgentRole) : OrchestratorResult String :=
  match ctx.sessionId role with
  | some id => .ok id
  | none => .error (.invalidInput "session_id" (role.debug ++ " session not bound"))

def freshAttempt (role : AgentRole) (now : Int) (pid : Nat)
    (fingerprint statusHash headHash : String) (preReviewerOutboxMtime : Option Int) :
    AttemptStateData where
  state := .dispatching
  role := role
  dispatchTs := now
  pid := some pid
  exitCode := none
  requestFingerprint := fingerprint
  lastWorkSignalTs := some now
  graceUntilCommit := none
  graceUntilOutbox := none
  preReviewerOutboxMtime := preReviewerOutboxMtime
  nextProbeAt := now
  dispatchGitStatusHash := statusHash
  prevProbeGitStatusHash := statusHash
  dispatchGitHeadHash := headHash
  prevProbeGitHeadHash := headHash
  prevProbeOutboxMeta := none
  prevProbeLogMtime := none
  providerLogEverSeen := false

structure Prepared where
  fingerprint : String
  statusHash : String
  headHash : String
  outboxMtime : Option Int

def prepareDispatch (role : AgentRole) (sessionId : String) (o : DispatchObs) :
    OrchM Prepared := do
  let ctx ← OrchM.ctx
  OrchM.ofResult (match ctx.attempt with
    | some prev => verifyRequestFingerprint prev.requestFingerprint o.inboxBytes
    | none => .ok ())
  let status ← OrchM.ofResult (runGit ["status", "--short"] o.gitStatus)
  let head ← OrchM.ofResult (runGit ["rev-parse", "HEAD"] o.gitHead)
  let inbox := ctx.transportPath inboxFile
  resetTransport inbox (ctx.transportPath outboxFile) role o.reset
  let mtime ← captureReviewerBaseline role o
  let facts ← OrchM.ofResult
    (formatGitFacts ctx.initialGitHead o.factsStatus o.factsHead o.factsLog)
  let fingerprint ← writeRequest inbox (templateFor ctx role)
    (templateValues ctx role facts o.docsDir) o.writeInbox o.readBack
  let snapshot ← OrchM.ofResult (readTransportSnapshot inbox role (ctx.args.provider role)
    sessionId o.inboxSnapshot)
  OrchM.modifyCtx fun ctx => { ctx with lastInboxSnapshot := snapshot }
  return ⟨fingerprint, Crates.sha256Hex (asBytes status), trim head, mtime⟩

def launch (role : AgentRole) (now : Int) (pid : Nat) (p : Prepared) (s : Orch) : Orch where
  world := s.world.spawn role
  ctx := { s.ctx with
    attempt := some
      (freshAttempt role now pid p.fingerprint p.statusHash p.headHash p.outboxMtime)
    activeProcess := some ⟨s.world.children.length⟩
    currentRole := some role }

def dispatchRole (role : AgentRole) (o : DispatchObs) : OrchM Unit := do
  let ctx ← OrchM.ctx
  let sessionId ← OrchM.ofResult (sessionIdOf ctx role)
  let lock ← OrchM.ofResult
    (acquireSessionLock ctx.holds (ctx.args.provider role) sessionId o.lock)
  OrchM.modifyCtx fun ctx => ctx.setLock role (some lock)
  let prepared ← prepareDispatch role sessionId o
  let pid ← OrchM.ofResult o.spawn
  modify (launch role o.now pid prepared)

theorem writeRequest_frame {role : AgentRole} {c : OrchestratorCtx} {facts docsDir : String}
    (inbox : String) (written : IoResult Unit) (readBack : IoResult Bytes) :
    Frame (Prepares role c) (writeRequest inbox (templateFor c role)
      (templateValues c role facts docsDir) written readBack) := by
  apply Frame.bind (OrchM.frame_ofResult _)
  intro _
  apply Frame.bind
  · intro s
    apply Prepares.record
    intro path template values heq
    cases heq
    exact ⟨rfl, facts, docsDir, rfl⟩
  intro _
  apply Frame.bind (OrchM.frame_ofResult _)
  exact fun _ => Frame.pure _

theorem prepareDispatch_frame (role : AgentRole) (sessionId : String) (o : DispatchObs)
    (s : Orch) :
    wp (prepareDispatch role sessionId o) (fun _ t => Prepares role s.ctx s t)
      (fun _ t => Prepares role s.ctx s t) s := by
  rw [prepareDispatch, wp_bind, OrchM.wp_ctx]
  generalize s.ctx = c
  revert s
  apply Frame.bind (OrchM.frame_ofResult _)
  intro _
  apply Frame.bind (OrchM.frame_ofResult _)
  intro status
  apply Frame.bind (OrchM.frame_ofResult _)
  intro head
  apply Frame.bind
  · exact resetTransport_frame _ _ _
  intro _
  apply Frame.bind
  · exact captureReviewerBaseline_frame role o
  intro mtime
  apply Frame.bind (OrchM.frame_ofResult _)
  intro facts
  apply Frame.bind
  · exact writeRequest_frame _ _ _
  intro fingerprint
  apply Frame.bind (OrchM.frame_ofResult _)
  intro snapshot
  apply Frame.bind
  · intro s
    exact ⟨⟨_, snapshot, rfl⟩, rfl, [], rfl, by simp⟩
  · exact fun _ => Frame.pure _

theorem prepareDispatch_baseline (role : AgentRole) (sessionId : String) (o : DispatchObs)
    (s : Orch) :
    wp (prepareDispatch role sessionId o)
      (fun _ t => BaselineAfter role s.ctx o t.ctx.preReviewerGitStatus)
      (fun _ _ => True) s := by
  simp only [prepareDispatch, wp_bind, OrchM.wp_ctx, OrchM.wp_ofResult, implies_true, and_true]
  intro _ _ status _ head _
  apply wp_mono (resetTransport_ctx _ _ role o.reset s) _ fun _ _ _ => trivial
  intro _ t ht
  apply wp_mono (captureReviewerBaseline_spec role o t) _ fun _ _ _ => trivial
  rintro mtime u ⟨baseline, hb, rfl⟩
  rw [ht] at hb
  simpa [writeRequest] using fun _ _ _ _ _ _ _ _ => hb

inductive Dispatched (role : AgentRole) (o : DispatchObs) (s : Orch) : Orch → Prop
  | launched {id lock u p pid} : sessionIdOf s.ctx role = .ok id →
      acquireSessionLock s.ctx.holds (s.ctx.args.provider role) id o.lock = .ok lock →
      Prepares role s.ctx (s.withLock role (some lock)) u →
      BaselineAfter role s.ctx o u.ctx.preReviewerGitStatus →
      o.spawn = .ok pid → Dispatched role o s (launch role o.now pid p u)

inductive Refused (role : AgentRole) (o : DispatchObs) (s : Orch) : Orch → Prop
  | unlocked : Refused role o s s
  | locked {id lock u} : sessionIdOf s.ctx role = .ok id →
      acquireSessionLock s.ctx.holds (s.ctx.args.provider role) id o.lock = .ok lock →
      Prepares role s.ctx (s.withLock role (some lock)) u → Refused role o s u

theorem dispatchRole_spec (role : AgentRole) (o : DispatchObs) (s : Orch) :
    wp (dispatchRole role o) (fun _ t => Dispatched role o s t)
      (fun _ t => Refused role o s t) s := by
  simp only [dispatchRole, wp_bind, OrchM.wp_ctx, OrchM.wp_ofResult, OrchM.wp_modifyCtx]
  refine ⟨fun id hid => ⟨fun lock hlock => ?_, fun _ _ => .unlocked⟩, fun _ _ => .unlocked⟩
  have hframe := prepareDispatch_frame role id o (s.withLock role (some lock))
  have hbase := prepareDispatch_baseline role id o (s.withLock role (some lock))
  apply wp_mono (wp_and hframe hbase)
  · rintro p u ⟨hp, hb⟩
    refine ⟨fun pid hpid => ?_, fun _ _ => .locked hid hlock hp.of_withLock⟩
    exact .launched hid hlock hp.of_withLock hb hpid
  · rintro e u ⟨hp, -⟩
    exact .locked hid hlock hp.of_withLock

end Orchestrator

import Orchestrator.Context

namespace Orchestrator

open Rust Exec

structure PrologueObs where
  canonicalRoot : IoResult String
  rootIsDir : Bool
  executorModels : IoResult CommandOutput
  reviewerModels : IoResult CommandOutput

def invalidInput {α : Type} (field reason : String) : OrchestratorResult α :=
  .error (.invalidInput field reason)

def requireNonEmpty (field value : String) : OrchestratorResult Unit :=
  if (trim value).isEmpty then invalidInput field "must be non-empty" else .ok ()

def parseModelProvider (model : String) : Except String String :=
  match splitOnce '/' (trim model) with
  | none =>
    .error "must use provider/model format, for example deepseek/deepseek-v4-flash"
  | some (provider, modelName) =>
    if provider.isEmpty || modelName.isEmpty || contains modelName "/" then
      .error "must use provider/model format with exactly one '/' separator"
    else .ok provider

def modelProvider (field model : String) : OrchestratorResult String :=
  match parseModelProvider model with
  | .error reason => invalidInput field reason
  | .ok provider => .ok provider

def validateModelOption (field : String) (model : Option String) (provider : ProviderKind) :
    OrchestratorResult Unit :=
  match model with
  | none => .ok ()
  | some model =>
    if (trim model).isEmpty then invalidInput field "must be non-empty when provided"
    else if provider ≠ .opencode then
      invalidInput field ("model override is currently supported only for opencode, got " ++
        provider.asStr)
    else (modelProvider field model).map fun _ => ()

def validateInputs (o : PrologueObs) : OrchM Unit := do
  let args := (← OrchM.ctx).args
  OrchM.ofResult (requireNonEmpty "--prompt" args.prompt)
  OrchM.ofResult (requireNonEmpty "--executor-thread-name" args.executorThreadName)
  OrchM.ofResult (requireNonEmpty "--reviewer-thread-name" args.reviewerThreadName)
  OrchM.ofResult
    (validateModelOption "--executor-model" args.executorModel args.executorProvider)
  OrchM.ofResult
    (validateModelOption "--reviewer-model" args.reviewerModel args.reviewerProvider)
  OrchM.ofResult
    (if args.executorProvider = args.reviewerProvider ∧
        args.executorThreadName = args.reviewerThreadName then
      invalidInput "--reviewer-thread-name"
        "executor and reviewer must not share the same (provider, thread_name) pair"
    else .ok ())
  let root ← OrchM.ofResult (match o.canonicalRoot with
    | .ok root => .ok root
    | .error e => invalidInput "--workspace-root" ("cannot resolve path: " ++ e.message))
  OrchM.modifyCtx fun ctx => { ctx with args := { ctx.args with workspaceRoot := root } }
  OrchM.ofResult
    (if o.rootIsDir then .ok () else invalidInput "--workspace-root" "must be a directory")

def modelListContains (output model : String) : Bool :=
  (lines output).any fun line => trim line == model

def ensureModelAvailable (model field : String) (out : IoResult CommandOutput) :
    OrchestratorResult Unit := do
  let provider ← modelProvider field model
  let out ← ofIo out
  if !out.success then
    invalidInput field ("failed to list OpenCode models for provider '" ++ provider ++
      "' (exit " ++ out.status ++ "): " ++ trim (fromUtf8Lossy out.stderr))
  else if modelListContains (fromUtf8Lossy out.stdout) model then return ()
  else invalidInput field ("OpenCode model '" ++ model ++ "' was not found in `opencode models " ++
    provider ++ "`")

def validateProviderModels (ctx : OrchestratorCtx) (o : PrologueObs) :
    OrchestratorResult Unit := do
  match ctx.args.executorModel with
  | some model => ensureModelAvailable model "--executor-model" o.executorModels
  | none => pure ()
  match ctx.args.reviewerModel with
  | some model => ensureModelAvailable model "--reviewer-model" o.reviewerModels
  | none => pure ()

def prologue (o : PrologueObs) : OrchM Unit := do
  validateInputs o
  let ctx ← OrchM.ctx
  OrchM.ofResult (validateProviderModels ctx o)

def Rerooted (s t : Orch) : Prop :=
  ∃ root, t = { s with ctx := { s.ctx with args := { s.ctx.args with workspaceRoot := root } } }

instance : IsPreorder Orch Rerooted where
  refl _ := ⟨_, rfl⟩
  trans _ _ _ := by
    rintro ⟨root, rfl⟩ ⟨root', rfl⟩
    exact ⟨root', rfl⟩

theorem validateInputs_frame (o : PrologueObs) : Frame Rerooted (validateInputs o) := by
  apply Frame.bind OrchM.frame_ctx
  intro ctx
  apply Frame.bind (OrchM.frame_ofResult _)
  intro _
  apply Frame.bind (OrchM.frame_ofResult _)
  intro _
  apply Frame.bind (OrchM.frame_ofResult _)
  intro _
  apply Frame.bind (OrchM.frame_ofResult _)
  intro _
  apply Frame.bind (OrchM.frame_ofResult _)
  intro _
  apply Frame.bind (OrchM.frame_ofResult _)
  intro _
  apply Frame.bind (OrchM.frame_ofResult _)
  intro root
  apply Frame.bind
  · exact fun s => ⟨root, rfl⟩
  · exact fun _ => OrchM.frame_ofResult _

theorem prologue_frame (o : PrologueObs) : Frame Rerooted (prologue o) := by
  apply Frame.bind (validateInputs_frame o)
  intro _
  apply Frame.bind OrchM.frame_ctx
  exact fun _ => OrchM.frame_ofResult _

/-- What the checks of the repository observe. `refsLock` is what the search of the refs
directory for a lock file returns. -/
structure PrepObs where
  insideWorkTree : IoResult CommandOutput
  topLevel : IoResult CommandOutput
  canonicalize : String → IoResult String
  gitPath : String → IoResult CommandOutput
  pathExists : String → Bool
  refsLock : IoResult (Option String)
  unmerged : IoResult CommandOutput
  excludePath : IoResult CommandOutput
  excludeText : IoResult Bytes
  excludeOpen : IoResult Unit
  gitStatusAll : IoResult CommandOutput
  symbolicRef : IoResult CommandOutput
  verifyHead : IoResult CommandOutput

def gitStateInvalid {α : Type} (reason : String) : OrchestratorResult α :=
  invalidInput "--workspace-root" reason

def validateGitWorktree (o : PrepObs) : OrchestratorResult Unit := do
  let out ← ofIo o.insideWorkTree
  if !out.success || trim (fromUtf8Lossy out.stdout) != "true" then
    invalidInput "--workspace-root" "must be an existing git worktree"
  else return ()

def canonicalizeExistingPath (field path : String) (o : PrepObs) : OrchestratorResult String :=
  match o.canonicalize path with
  | .ok p => .ok p
  | .error e => invalidInput field ("cannot resolve path `" ++ path ++ "`: " ++ e.message)

def validateGitTopLevel (repo : String) (o : PrepObs) : OrchestratorResult Unit := do
  let top ← runGit ["rev-parse", "--show-toplevel"] o.topLevel
  let top ← canonicalizeExistingPath "--workspace-root" (trim top) o
  let repo ← canonicalizeExistingPath "--workspace-root" repo o
  if repo ≠ top then
    invalidInput "--workspace-root" ("must be the git repository top-level; got `" ++ repo ++
      "`, top-level is `" ++ top ++ "`")
  else return ()

/-- `Path::join`: an absolute path replaces the one it is joined to. -/
def joinPath (base path : String) : String :=
  if path.toList.head? = some '/' then path else base ++ "/" ++ path

def resolveGitPath (repo path : String) (o : PrepObs) : OrchestratorResult String :=
  (runGit ["rev-parse", "--git-path", path] (o.gitPath path)).map fun p => joinPath repo (trim p)

def rejectExisting (repo : String) (o : PrepObs) (reason : String → String → String) :
    List (String × String) → OrchestratorResult Unit
  | [] => .ok ()
  | (label, gitPath) :: rest => do
    let path ← resolveGitPath repo gitPath o
    if o.pathExists path then gitStateInvalid (reason label path)
    else rejectExisting repo o reason rest

def validateNoGitLocks (repo : String) (o : PrepObs) : OrchestratorResult Unit := do
  rejectExisting repo o (fun _ path => "git lock file exists: `" ++ path ++ "`")
    [("", "index.lock"), ("", "HEAD.lock"), ("", "packed-refs.lock")]
  let _ ← resolveGitPath repo "refs" o
  match ← ofIo o.refsLock with
  | some path => gitStateInvalid ("git refs lock file exists: `" ++ path ++ "`")
  | none => return ()

def validateNoUnmergedIndex (o : PrepObs) : OrchestratorResult Unit := do
  let unmerged ← runGit ["ls-files", "-u"] o.unmerged
  if (trim unmerged).isEmpty then return ()
  else gitStateInvalid ("git index contains unmerged/conflicted entries: " ++
    "; ".intercalate ((lines unmerged).take 5))

def validateNoGitOperationInProgress (repo : String) (o : PrepObs) : OrchestratorResult Unit :=
  rejectExisting repo o
    (fun state path =>
      "git operation in progress: " ++ state ++ " marker `" ++ path ++ "` exists")
    [("merge", "MERGE_HEAD"), ("rebase", "rebase-merge"), ("rebase", "rebase-apply"),
      ("cherry-pick", "CHERRY_PICK_HEAD"), ("revert", "REVERT_HEAD"),
      ("sequencer", "sequencer"), ("bisect", "BISECT_LOG")]

def excludeEntry : String := ".agent-io/"

def ensureAgentIoExcluded (repo : String) (o : PrepObs) : OrchM Unit := do
  let relative ← OrchM.ofResult (runGit ["rev-parse", "--git-path", "info/exclude"] o.excludePath)
  let path := joinPath repo (trim relative)
  let content ← OrchM.ofResult (ofIo (noneIfMissing (readToString o.excludeText)))
  if (lines (content.getD "")).any fun line => trim line == excludeEntry then return ()
  else do
    OrchM.ofResult (ofIo o.excludeOpen)
    OrchM.modifyWorld fun world =>
      if content.isNone then world.record (.created path) else world
    -- `write_all` hands the bytes to a task; the file is dropped without waiting for it.
    OrchM.modifyWorld (·.record (.appended path excludeEntry))

def currentBranchName (o : PrepObs) : OrchestratorResult String := do
  let symbolic ← ofIo o.symbolicRef
  let branch := trim (fromUtf8Lossy symbolic.stdout)
  if symbolic.success && !branch.isEmpty then return branch
  else gitStateInvalid "workspace must be on a named branch; detached HEAD is unsupported"

def currentHeadRequired (o : PrepObs) : OrchestratorResult String := do
  let out ← ofIo o.verifyHead
  let failed := .error (.commandFailed "git rev-parse --verify HEAD" out.status)
  if out.success then
    let head := trim (fromUtf8Lossy out.stdout)
    if head.isEmpty then failed else return head
  else
    let stderr := fromUtf8Lossy out.stderr
    if contains stderr "Needed a single revision" || contains stderr "unknown revision" then
      gitStateInvalid "workspace must have a valid HEAD commit; unborn branches are unsupported"
    else failed

def claudeProjectKey (workspaceRoot : String) : String :=
  String.ofList (workspaceRoot.toList.map fun c => if c = '/' then '-' else c)

def doContextPrep (o : PrepObs) : OrchM Unit := do
  let ctx ← OrchM.ctx
  let repo := ctx.args.workspaceRoot
  OrchM.ofResult (validateGitWorktree o)
  OrchM.ofResult (validateGitTopLevel repo o)
  OrchM.ofResult (validateNoGitLocks repo o)
  OrchM.ofResult (validateNoUnmergedIndex o)
  OrchM.ofResult (validateNoGitOperationInProgress repo o)
  ensureAgentIoExcluded repo o
  let status ← OrchM.ofResult
    (runGit ["status", "--short", "--untracked-files=all"] o.gitStatusAll)
  OrchM.ofResult (if (trim status).isEmpty then .ok () else .error (.dirtyWorktree status))
  let branch ← OrchM.ofResult (currentBranchName o)
  let head ← OrchM.ofResult (currentHeadRequired o)
  OrchM.modifyCtx fun ctx => { ctx with
    branch := branch
    initialGitHead := some head
    claudeProjectKey :=
      if ctx.args.executorProvider = .claude ∨ ctx.args.reviewerProvider = .claude then
        some (claudeProjectKey repo)
      else none
    runState := .sessionBind }

theorem ensureAgentIoExcluded_spec (repo : String) (o : PrepObs) (s : Orch) :
    wp (ensureAgentIoExcluded repo o)
      (fun _ t => t.ctx = s.ctx ∧ t.world.children = s.world.children)
      (fun _ t => t.ctx = s.ctx ∧ t.world.children = s.world.children) s := by
  have hchildren : ∀ (missing : Prop) [Decidable missing] (f : FileWrite),
      (if missing then s.world.record f else s.world).children = s.world.children := by
    intro missing _ f
    split <;> rfl
  simp [ensureAgentIoExcluded, hchildren]

theorem doContextPrep_spec (o : PrepObs) (s : Orch) :
    wp (doContextPrep o)
      (fun _ t => (∃ branch head key, t.ctx = { s.ctx with
          branch := branch, initialGitHead := some head, claudeProjectKey := key,
          runState := .sessionBind }) ∧ t.world.children = s.world.children)
      (fun _ t => t.ctx = s.ctx ∧ t.world.children = s.world.children) s := by
  simp only [doContextPrep, wp_bind, OrchM.wp_ctx, OrchM.wp_ofResult, and_self, implies_true,
    and_true]
  intro _ _ _ _ _ _ _ _ _ _
  apply wp_mono (ensureAgentIoExcluded_spec s.ctx.args.workspaceRoot o s)
  · rintro _ t ⟨hc, hw⟩
    refine ⟨fun status _ => ⟨fun _ _ => ⟨fun branch _ => ⟨fun head _ => ?_, ?_⟩, ?_⟩, ?_⟩, ?_⟩
    · exact ⟨⟨branch, head, _, by rw [← hc]⟩, hw⟩
    all_goals exact fun _ _ => ⟨hc, hw⟩
  · exact fun _ _ h => h

structure BindObs where
  discovered : AgentRole → OrchestratorResult String

def doSessionBind (o : BindObs) : OrchM Unit := do
  let executorId ← OrchM.ofResult (o.discovered .executor)
  let reviewerId ← OrchM.ofResult (o.discovered .reviewer)
  let args := (← OrchM.ctx).args
  OrchM.ofResult
    (if args.executorProvider = args.reviewerProvider ∧ executorId = reviewerId then
      .error (.sessionBindFailed .reviewer args.reviewerProvider
        "executor and reviewer resolved to the same (provider, session_id)")
    else .ok ())
  OrchM.modifyCtx fun ctx => { ctx with
    executorSessionId := some executorId
    reviewerSessionId := some reviewerId
    runState := .executorDispatch }

theorem doSessionBind_spec (o : BindObs) (s : Orch) :
    wp (doSessionBind o)
      (fun _ t => ∃ x y, (s.ctx.args.executorProvider, x) ≠ (s.ctx.args.reviewerProvider, y) ∧
        t = { s with ctx := { s.ctx with
          executorSessionId := some x, reviewerSessionId := some y,
          runState := .executorDispatch } })
      (fun _ t => t = s) s := by
  simp only [doSessionBind, wp_bind, OrchM.wp_ctx, OrchM.wp_ofResult, OrchM.wp_modifyCtx,
    implies_true, and_true]
  intro x _ y _ _ h
  rw [ite_error_eq_ok] at h
  refine ⟨x, y, ?_, rfl⟩
  simpa using h.1

end Orchestrator

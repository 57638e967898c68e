import Orchestrator.Lib.Throws
import Orchestrator.Exit
import Orchestrator.Persistence
import Orchestrator.Sessions

/-! Which errors a phase can raise, and why a run ends. -/

namespace Orchestrator

open Rust Exec Trace

def EndsIn (rs : List RunState) (e : OrchestratorError) : Prop := errorToRunState e ∈ rs

def RunState.errors : RunState → List RunState
  | .contextPrep => [.runFailedInvalidInput, .runFailedDirtyWorktree, .runFailedInternal]
  | .sessionBind => [.runFailedInvalidInput, .runFailedSessionBind, .runFailedInternal]
  | .executorDispatch | .reviewerDispatch =>
    [.runFailedInvalidInput, .runFailedSessionLocked, .runFailedInternal]
  | .executorMonitor | .reviewerMonitor => [.runFailedInvalidInput, .runFailedInternal]
  | .executorOutputCollect | .reviewerOutputCollect => [.runFailedInternal]
  | _ => []

def Raises (rs : List RunState) {α : Type} (x : OrchM α) : Prop :=
  Throws (fun f => ∀ e, f = .error e → EndsIn rs e) x

section Raises

variable {α : Type} {rs : List RunState}

@[simp] theorem endsIn_invalidInput {field reason : String} :
    EndsIn rs (.invalidInput field reason) ↔ .runFailedInvalidInput ∈ rs := Iff.rfl

@[simp] theorem endsIn_dirtyWorktree {status : String} :
    EndsIn rs (.dirtyWorktree status) ↔ .runFailedDirtyWorktree ∈ rs := Iff.rfl

@[simp] theorem endsIn_sessionBindFailed {role : AgentRole} {provider : ProviderKind}
    {reason : String} :
    EndsIn rs (.sessionBindFailed role provider reason) ↔ .runFailedSessionBind ∈ rs := Iff.rfl

@[simp] theorem endsIn_sessionLocked {provider : ProviderKind} {id : String} :
    EndsIn rs (.sessionLocked provider id) ↔ .runFailedSessionLocked ∈ rs := Iff.rfl

@[simp] theorem endsIn_io {e : IoError} : EndsIn rs (.io e) ↔ .runFailedInternal ∈ rs := Iff.rfl

@[simp] theorem endsIn_json {e : String} :
    EndsIn rs (.json e) ↔ .runFailedInternal ∈ rs := Iff.rfl

@[simp] theorem endsIn_commandFailed {program status : String} :
    EndsIn rs (.commandFailed program status) ↔ .runFailedInternal ∈ rs := Iff.rfl

@[simp] theorem endsIn_transportResetFailed {path : String} :
    EndsIn rs (.transportResetFailed path) ↔ .runFailedInternal ∈ rs := Iff.rfl

@[simp] theorem endsIn_requestChangedAbortRetry :
    EndsIn rs .requestChangedAbortRetry ↔ .runFailedInternal ∈ rs := Iff.rfl

theorem Raises.ofResult {r : OrchestratorResult α} (h : Fails (EndsIn rs) r) :
    Raises rs (OrchM.ofResult r) := by
  apply Throws.lift
  rintro f hf e rfl
  cases r with
  | ok a => cases hf
  | error e' =>
    cases hf
    exact h e rfl

theorem Raises.unwrap (o : Option α) : Raises rs (OrchM.unwrap o) := by
  apply Throws.lift
  rintro f hf e rfl
  cases o <;> cases hf

theorem Raises.ctx : Raises rs OrchM.ctx := fun _ => trivial

theorem Raises.modifyCtx (f : OrchestratorCtx → OrchestratorCtx) :
    Raises rs (OrchM.modifyCtx f) := Throws.modify _

theorem Raises.modifyWorld (f : World → World) : Raises rs (OrchM.modifyWorld f) :=
  Throws.modify _

theorem Raises.pure (a : α) : Raises rs (pure a) := Throws.pure a

theorem Raises.bind {β : Type} {x : OrchM α} {f : α → OrchM β} (h : Raises rs x)
    (hf : ∀ a, Raises rs (f a)) : Raises rs (x >>= f) := Throws.bind h hf

theorem Raises.map {β : Type} {x : OrchM α} (h : Raises rs x) (f : α → β) :
    Raises rs (f <$> x) := Throws.map h f

theorem Raises.ite {c : Prop} [Decidable c] {x y : OrchM α} (hx : Raises rs x)
    (hy : Raises rs y) : Raises rs (if c then x else y) := Throws.ite hx hy

theorem ofIo_fails (hi : .runFailedInternal ∈ rs) (r : IoResult α) :
    Fails (EndsIn rs) (ofIo r) := by
  cases r <;> simp [ofIo, hi]

theorem runGit_fails (hi : .runFailedInternal ∈ rs) (args : List String)
    (out : IoResult CommandOutput) : Fails (EndsIn rs) (runGit args out) := by
  cases out with
  | error e => simp [runGit, hi]
  | ok out => simp [runGit, hi]

theorem artifactFilePresent_fails (hi : .runFailedInternal ∈ rs) (len : IoResult Nat) :
    Fails (EndsIn rs) (artifactFilePresent len) := ofIo_fails hi _

theorem probeArtifacts_fails (hi : .runFailedInternal ∈ rs) (artifactLen : String → IoResult Nat)
    (names : List String) : Fails (EndsIn rs) (probeArtifacts artifactLen names) := by
  induction names with
  | nil => exact fails_ok _
  | cons name names ih =>
    rw [probeArtifacts]
    have h := artifactFilePresent_fails hi (artifactLen name)
    cases hname : artifactFilePresent (artifactLen name) with
    | error e => exact fails_error.mpr (h e hname)
    | ok present => exact fails_map.mpr ih

theorem collectArtifacts_raises (hi : .runFailedInternal ∈ rs)
    (artifactLen : String → IoResult Nat) (names : List String) :
    Raises rs (collectArtifacts artifactLen names) := by
  induction names with
  | nil => exact .pure ()
  | cons name names ih =>
    apply Raises.bind (.ofResult (artifactFilePresent_fails hi _))
    intro present
    exact Raises.bind (.modifyCtx _) fun _ => ih

theorem readLogTail_fails (hi : .runFailedInternal ∈ rs) (r : IoResult Bytes) :
    Fails (EndsIn rs) (readLogTail r) := ofIo_fails hi _

theorem providerLogMtime_fails (hi : .runFailedInternal ∈ rs) (hv : .runFailedInvalidInput ∈ rs)
    {o : ProbeObs} (hcodex : Fails (EndsIn rs) o.codexLogMtime)
    (hopencode : Fails (EndsIn rs) o.opencodeLogMtime) (provider : ProviderKind) :
    Fails (EndsIn rs) (providerLogMtime provider o) := by
  cases provider with
  | claude =>
    simp only [providerLogMtime, claudeSessionJsonlMtime]
    cases o.home with
    | none => exact fails_error.mpr hv
    | some home => exact ofIo_fails hi _
  | codex => exact hcodex
  | opencode => exact hopencode

theorem canonicalizeExistingPath_fails (hv : .runFailedInvalidInput ∈ rs) (field path : String)
    (o : PrepObs) : Fails (EndsIn rs) (canonicalizeExistingPath field path o) := by
  rw [canonicalizeExistingPath]
  cases o.canonicalize path <;> simp [invalidInput, hv]

theorem rejectExisting_fails (hi : .runFailedInternal ∈ rs) (hv : .runFailedInvalidInput ∈ rs)
    (repo : String) (o : PrepObs) (reason : String → String → String)
    (markers : List (String × String)) :
    Fails (EndsIn rs) (rejectExisting repo o reason markers) := by
  induction markers with
  | nil => exact fails_ok ()
  | cons marker markers ih =>
    simp [rejectExisting, resolveGitPath, runGit_fails hi, gitStateInvalid, invalidInput, hv, ih]

theorem ensureAgentIoExcluded_raises (hi : .runFailedInternal ∈ rs) (repo : String)
    (o : PrepObs) : Raises rs (ensureAgentIoExcluded repo o) := by
  apply Raises.bind (.ofResult (runGit_fails hi _ _))
  intro relative
  apply Raises.bind (.ofResult (ofIo_fails hi _))
  intro content
  apply Raises.ite (.pure ())
  apply Raises.bind (.ofResult (ofIo_fails hi _))
  intro _
  apply Raises.bind (.modifyWorld _)
  exact fun _ => .modifyWorld _

theorem doContextPrep_raises (o : PrepObs) :
    Raises (RunState.contextPrep).errors (doContextPrep o) := by
  have hi : .runFailedInternal ∈ RunState.contextPrep.errors := by simp [RunState.errors]
  have hv : .runFailedInvalidInput ∈ RunState.contextPrep.errors := by simp [RunState.errors]
  have hreject := rejectExisting_fails hi hv
  apply Raises.bind .ctx
  intro ctx
  apply Raises.bind
  · apply Raises.ofResult
    simp [validateGitWorktree, ofIo_fails hi, invalidInput, hv]
  intro _
  apply Raises.bind
  · apply Raises.ofResult
    simp [validateGitTopLevel, runGit_fails hi, canonicalizeExistingPath_fails hv, invalidInput,
      hv]
  intro _
  apply Raises.bind
  · apply Raises.ofResult
    apply Fails.bind (hreject _ _ _ _)
    intro _
    apply Fails.bind
    · simp [resolveGitPath, runGit_fails hi]
    intro _
    apply Fails.bind (ofIo_fails hi _)
    intro found
    cases found <;> simp [gitStateInvalid, invalidInput, hv]
  intro _
  apply Raises.bind
  · apply Raises.ofResult
    simp [validateNoUnmergedIndex, runGit_fails hi, gitStateInvalid, invalidInput, hv]
  intro _
  apply Raises.bind (.ofResult (hreject _ _ _ _))
  intro _
  apply Raises.bind (ensureAgentIoExcluded_raises hi _ _)
  intro _
  apply Raises.bind (.ofResult (runGit_fails hi _ _))
  intro status
  apply Raises.bind
  · apply Raises.ofResult
    simp [RunState.errors]
  intro _
  apply Raises.bind
  · apply Raises.ofResult
    simp [currentBranchName, ofIo_fails hi, gitStateInvalid, invalidInput, hv]
  intro branch
  apply Raises.bind
  · apply Raises.ofResult
    simp [currentHeadRequired, ofIo_fails hi, gitStateInvalid, invalidInput, hv, hi]
  exact fun head => .modifyCtx _

theorem doSessionBind_raises {o : BindObs}
    (ho : ∀ role, Fails (EndsIn (RunState.sessionBind).errors) (o.discovered role)) :
    Raises (RunState.sessionBind).errors (doSessionBind o) := by
  apply Raises.bind (.ofResult (ho .executor))
  intro executorId
  apply Raises.bind (.ofResult (ho .reviewer))
  intro reviewerId
  apply Raises.bind .ctx
  intro ctx
  apply Raises.bind
  · apply Raises.ofResult
    simp [RunState.errors]
  · exact fun _ => .modifyCtx _

theorem sessionIdOf_fails (hv : .runFailedInvalidInput ∈ rs) (ctx : OrchestratorCtx)
    (role : AgentRole) : Fails (EndsIn rs) (sessionIdOf ctx role) := by
  rw [sessionIdOf]
  cases ctx.sessionId role <;> simp [hv]

theorem truncateFile_raises (hi : .runFailedInternal ∈ rs) (path : String)
    (opened : IoResult Unit) (len : IoResult Nat) : Raises rs (truncateFile path opened len) := by
  apply Raises.bind (.ofResult (ofIo_fails hi _))
  intro _
  apply Raises.bind (.modifyWorld _)
  intro _
  apply Raises.bind (.ofResult (ofIo_fails hi _))
  intro len
  apply Raises.ofResult
  simp [hi]

theorem resetTransport_raises (hi : .runFailedInternal ∈ rs) (inbox outbox : String)
    (role : AgentRole) (o : ResetObs) : Raises rs (resetTransport inbox outbox role o) := by
  apply Raises.bind (.ofResult (ofIo_fails hi _))
  intro _
  apply Raises.bind (truncateFile_raises hi _ _ _)
  intro _
  cases role with
  | executor => exact truncateFile_raises hi _ _ _
  | reviewer => exact .pure ()

theorem captureReviewerBaseline_raises (hi : .runFailedInternal ∈ rs) (role : AgentRole)
    (o : DispatchObs) : Raises rs (captureReviewerBaseline role o) := by
  cases role with
  | executor => exact .pure none
  | reviewer =>
    apply Raises.bind (.ofResult (ofIo_fails hi _))
    intro mtime
    apply Raises.bind .ctx
    intro ctx
    apply Raises.ite
    · apply Raises.bind (.ofResult (runGit_fails hi _ _))
      intro status
      exact Raises.bind (.modifyCtx _) fun _ => .pure mtime
    · exact .pure mtime

theorem formatGitFacts_fails (hi : .runFailedInternal ∈ rs) (base : Option String)
    (status head log : IoResult CommandOutput) :
    Fails (EndsIn rs) (formatGitFacts base status head log) := by
  cases base <;> simp [formatGitFacts, runGit_fails hi]

theorem checkReviewerWorkspace_raises (hi : .runFailedInternal ∈ rs) (o : CollectObs) :
    Raises rs (checkReviewerWorkspace o) := by
  apply Raises.bind .ctx
  intro ctx
  apply Raises.bind
  · apply Raises.bind (.ofResult (runGit_fails hi _ _))
    intro current
    exact Raises.bind (.unwrap _) fun _ => .pure _
  intro dirty
  cases dirty <;> exact .modifyCtx _

section Crates

variable [Crates]

theorem acquireSessionLock_fails (hi : .runFailedInternal ∈ rs)
    (hv : .runFailedInvalidInput ∈ rs) (hl : .runFailedSessionLocked ∈ rs)
    (holds : String → Bool) (provider : ProviderKind) (id : String) (o : LockObs) :
    Fails (EndsIn rs) (acquireSessionLock holds provider id o) := by
  have htaken : ∀ path : String,
      Fails (EndsIn rs) (do ofIo o.setLen; ofIo o.writePid; return (⟨path⟩ : SessionLock)) := by
    intro path
    simp [ofIo_fails hi]
  apply Fails.bind
  · cases hbase : o.base <;> simp [lockFilePath, hv]
  intro path
  apply Fails.bind (ofIo_fails hi _)
  intro _
  apply Fails.bind (ofIo_fails hi _)
  intro _
  simp only [fails_ite]
  refine ⟨fun _ => by simpa using hl, fun _ => ?_⟩
  cases o.tryLock with
  | ok _ => exact htaken path
  | error e =>
    simp only
    split
    · exact fails_bind.mpr ⟨fails_error.mpr hl, fun _ _ => htaken path⟩
    · exact fails_bind.mpr ⟨fails_error.mpr hi, fun _ _ => htaken path⟩

theorem writeRequest_raises (hi : .runFailedInternal ∈ rs) (inbox : String)
    (template : TemplateId) (values : TemplateValues) (written : IoResult Unit)
    (readBack : IoResult Bytes) :
    Raises rs (writeRequest inbox template values written readBack) := by
  apply Raises.bind (.ofResult (ofIo_fails hi _))
  intro _
  apply Raises.bind (.modifyWorld _)
  intro _
  exact Raises.bind (.ofResult (ofIo_fails hi _)) fun _ => .pure _

theorem readTransportSnapshot_fails (hi : .runFailedInternal ∈ rs) (path : String)
    (role : AgentRole) (provider : ProviderKind) (id : String) (o : SnapshotObs) :
    Fails (EndsIn rs) (readTransportSnapshot path role provider id o) := by
  rw [readTransportSnapshot]
  split
  · simpa using hi
  · exact fails_ok _
  · cases o.mtime <;> simp [hi]

theorem prepareDispatch_raises (hi : .runFailedInternal ∈ rs) (role : AgentRole) (id : String)
    (o : DispatchObs) : Raises rs (prepareDispatch role id o) := by
  apply Raises.bind .ctx
  intro ctx
  apply Raises.bind
  · apply Raises.ofResult
    cases ctx.attempt with
    | none => exact fails_ok ()
    | some prev => cases hread : o.inboxBytes <;> simp [verifyRequestFingerprint, hi]
  intro _
  apply Raises.bind (.ofResult (runGit_fails hi _ _))
  intro status
  apply Raises.bind (.ofResult (runGit_fails hi _ _))
  intro head
  apply Raises.bind (resetTransport_raises hi _ _ _ _)
  intro _
  apply Raises.bind (captureReviewerBaseline_raises hi _ _)
  intro mtime
  apply Raises.bind (.ofResult (formatGitFacts_fails hi _ _ _ _))
  intro facts
  apply Raises.bind (writeRequest_raises hi _ _ _ _ _)
  intro fingerprint
  apply Raises.bind (.ofResult (readTransportSnapshot_fails hi _ _ _ _ _))
  intro snapshot
  exact Raises.bind (.modifyCtx _) fun _ => .pure _

theorem doDispatch_raises {role : AgentRole} {o : DispatchObs} (hi : .runFailedInternal ∈ rs)
    (hv : .runFailedInvalidInput ∈ rs) (hl : .runFailedSessionLocked ∈ rs)
    (ho : Fails (EndsIn rs) o.spawn) : Raises rs (doDispatch role o) := by
  apply Raises.bind
  · apply Raises.bind .ctx
    intro ctx
    apply Raises.bind (.ofResult (sessionIdOf_fails hv _ _))
    intro id
    apply Raises.bind (.ofResult (acquireSessionLock_fails hi hv hl _ _ _ _))
    intro lock
    apply Raises.bind (.modifyCtx _)
    intro _
    apply Raises.bind (prepareDispatch_raises hi _ _ _)
    intro prepared
    exact Raises.bind (.ofResult ho) fun _ => Throws.modify _
  · exact fun _ => .modifyCtx _

theorem sessionJsonlServiceCapSince_fails (hi : .runFailedInternal ∈ rs)
    (hv : .runFailedInvalidInput ∈ rs) (o : ProbeObs) (since : Int) :
    Fails (EndsIn rs) (sessionJsonlServiceCapSince o since) := by
  rw [sessionJsonlServiceCapSince]
  cases o.home with
  | none => exact fails_error.mpr hv
  | some home => exact fails_map.mpr (readLogTail_fails hi _)

theorem collectProbeSignals_fails (hi : .runFailedInternal ∈ rs)
    (hv : .runFailedInvalidInput ∈ rs) {o : ProbeObs}
    (hcodex : Fails (EndsIn rs) o.codexLogMtime)
    (hopencode : Fails (EndsIn rs) o.opencodeLogMtime) (pid : Option Nat) (names : List String)
    (provider : ProviderKind) : Fails (EndsIn rs) (collectProbeSignals pid names provider o) := by
  apply Fails.bind (ofIo_fails hi _)
  intro outboxMeta
  apply Fails.bind (runGit_fails hi _ _)
  intro status
  apply Fails.bind (runGit_fails hi _ _)
  intro head
  apply Fails.bind (probeArtifacts_fails hi _ _)
  intro artifacts
  exact Fails.bind (providerLogMtime_fails hi hv hcodex hopencode _) fun _ => fails_ok _

theorem detectProviderError_fails (hi : .runFailedInternal ∈ rs)
    (hv : .runFailedInvalidInput ∈ rs) (ctx : OrchestratorCtx) (combined : String) (o : ProbeObs) :
    Fails (EndsIn rs) (detectProviderError ctx combined o) := by
  rw [detectProviderError]
  split
  · split <;> exact fails_ok _
  · split
    · exact fails_ok _
    · simp [sessionJsonlServiceCapSince_fails hi hv]

theorem doMonitorProbe_raises (hi : .runFailedInternal ∈ rs) (hv : .runFailedInvalidInput ∈ rs)
    {o : ProbeObs} (hcodex : Fails (EndsIn rs) o.codexLogMtime)
    (hopencode : Fails (EndsIn rs) o.opencodeLogMtime) (role : AgentRole) :
    Raises rs (doMonitorProbe role o) := by
  apply Raises.ite
  · exact Raises.bind (Throws.modify _) fun _ => .pure _
  apply Raises.bind (Throws.modify _)
  intro _
  apply Raises.bind
  · apply Raises.bind .ctx
    intro ctx
    apply Raises.bind (.ofResult (sessionIdOf_fails hv _ _))
    intro _
    apply Raises.bind (.ofResult (collectProbeSignals_fails hi hv hcodex hopencode _ _ _))
    intro signals
    apply Raises.bind (.modifyCtx _)
    intro _
    apply Raises.bind (.unwrap _)
    intro a
    apply Raises.bind
    · apply Raises.ofResult
      simp [runGit_fails hi]
    intro _
    apply Raises.bind (.modifyCtx _)
    intro _
    apply Raises.bind
    · apply Raises.ofResult
      cases ctx.activeProcess <;> simp [readProviderDiagnostics, readLogTail_fails hi]
    intro combined
    apply Raises.bind (.ofResult (detectProviderError_fails hi hv _ _ _))
    intro found
    exact Raises.bind (.modifyCtx _) fun _ => .pure _
  intro p
  apply Raises.bind .ctx
  intro ctx
  apply Raises.bind (.modifyCtx _)
  intro _
  apply Raises.bind Throws.get
  intro s
  exact Raises.bind (fun _ => trivial) fun _ => .pure _

theorem doExecutorOutputCollect_raises (hi : .runFailedInternal ∈ rs) (o : ExecutorCollectObs) :
    Raises rs (doExecutorOutputCollect o) := by
  apply Raises.bind
  · apply Raises.bind .ctx
    intro ctx
    apply Raises.bind (.ofResult (readTransportSnapshot_fails hi _ _ _ _ _))
    intro snapshot
    apply Raises.bind (.modifyCtx _)
    intro _
    apply Raises.bind (collectArtifacts_raises hi _ _)
    intro _
    apply Raises.bind
    · apply Raises.ofResult
      cases ctx.initialGitHead <;> exact runGit_fails hi _ _
    · exact fun _ => .modifyCtx _
  · exact fun _ => .modifyCtx _

theorem saveVerdict_raises (raw : String) : Raises rs (saveVerdict raw) := by
  apply Raises.bind .ctx
  intro ctx
  apply Raises.ite (.pure true)
  split
  · exact Raises.bind (.modifyCtx _) fun _ => .pure _
  · exact Raises.bind (.modifyCtx _) fun _ => .pure _

theorem doReviewerOutputCollect_raises (hi : .runFailedInternal ∈ rs) (o : CollectObs) :
    Raises rs (doReviewerOutputCollect o) := by
  apply Raises.bind .ctx
  intro ctx
  apply Raises.bind (.ofResult (ofIo_fails hi _))
  intro mtime
  apply Raises.ite (.modifyCtx _)
  split
  · exact .modifyCtx _
  apply Raises.bind (.ofResult (readTransportSnapshot_fails hi _ _ _ _ _))
  intro snapshot
  apply Raises.bind (.modifyCtx _)
  intro _
  apply Raises.bind (saveVerdict_raises _)
  intro saved
  exact Raises.ite (checkReviewerWorkspace_raises hi o) (.pure ())

end Crates

end Raises

section Providers

variable {rs : List RunState}

theorem codexSessionJsonlMtime_fails (hi : .runFailedInternal ∈ rs)
    (hv : .runFailedInvalidInput ∈ rs) (home : Option String) (sessions : CodexSessions)
    (id : String) : Fails (EndsIn rs) (codexSessionJsonlMtime home sessions id) := by
  cases home with
  | none => exact fails_error.mpr hv
  | some home =>
    simp only [codexSessionJsonlMtime]
    cases noneIfMissing sessions with
    | error e => exact fails_error.mpr hi
    | ok years =>
      cases years with
      | none => exact fails_ok _
      | some years => exact ofIo_fails hi _

theorem bindOnly_fails (hb : .runFailedSessionBind ∈ rs) (role : AgentRole)
    (provider : ProviderKind) (threadName : String) (ids : List String) :
    Fails (EndsIn rs) (bindOnly role provider threadName ids) := by
  match ids with
  | [] => exact fails_error.mpr hb
  | [id] => exact fails_ok id
  | _ :: _ :: _ => exact fails_error.mpr hb

theorem parseSessionRows_fails [SessionFormats] (hi : .runFailedInternal ∈ rs) (json : Bytes) :
    Fails (EndsIn rs) (parseSessionRows json) := by
  rw [parseSessionRows, fails_ite]
  refine ⟨fun _ => fails_ok _, fun _ => ?_⟩
  cases SessionFormats.opencodeRows json with
  | ok rows => exact fails_ok rows
  | error e => exact fails_error.mpr hi

theorem opencodeSessionMtime_fails [SessionFormats] (hi : .runFailedInternal ∈ rs)
    (list : IoResult CommandOutput) (id : String) :
    Fails (EndsIn rs) (opencodeSessionMtime list id) := by
  cases list with
  | error e => exact fails_error.mpr hi
  | ok out =>
    simp only [opencodeSessionMtime, fails_ite]
    exact ⟨fun _ => fails_map.mpr (parseSessionRows_fails hi _), fun _ => fails_error.mpr hi⟩

theorem opencodeCandidates_fails [SessionFormats] (hi : .runFailedInternal ∈ rs)
    (hb : .runFailedSessionBind ∈ rs) (state : ProviderState) (repo threadName : String)
    (role : AgentRole) : Fails (EndsIn rs) (opencodeCandidates state repo threadName role) := by
  apply Fails.bind (ofIo_fails hi _)
  intro out
  rw [fails_ite]
  refine ⟨fun _ => fails_error.mpr hb, fun _ => ?_⟩
  apply Fails.bind
  · rw [parseSessionRowsForBind]
    cases parseSessionRows out.stdout with
    | ok rows => exact fails_ok rows
    | error e => exact fails_error.mpr hb
  intro rows
  rw [fails_ite]
  exact ⟨fun _ => fails_error.mpr hb, fun _ => fails_ok _⟩

theorem claudeCandidatesIn_fails [Crates] (hi : .runFailedInternal ∈ rs)
    (hb : .runFailedSessionBind ∈ rs) (dir : String) (role : AgentRole) (threadName : String)
    (entries : List (IoResult LogFile)) :
    Fails (EndsIn rs) (claudeCandidatesIn dir role threadName entries) := by
  induction entries with
  | nil => exact fails_ok []
  | cons entry entries ih =>
    apply Fails.bind (ofIo_fails hi _)
    intro file
    apply Fails.bind
    · rw [claudeCandidate]
      split
      · exact fails_ok none
      · split
        · exact fails_ok _
        · exact fails_error.mpr hb
    intro candidate
    exact Fails.bind ih fun _ => fails_ok _

theorem claudeCandidates_fails [Crates] (hi : .runFailedInternal ∈ rs)
    (hb : .runFailedSessionBind ∈ rs) (hv : .runFailedInvalidInput ∈ rs)
    (state : ProviderState) (repo threadName : String) (role : AgentRole) :
    Fails (EndsIn rs) (claudeCandidates state repo threadName role) := by
  rw [claudeCandidates]
  cases state.home with
  | none => exact fails_error.mpr hv
  | some home =>
    simp only
    cases state.claudeProject (claudeProjectKey repo) with
    | error e => exact fails_error.mpr hb
    | ok entries => exact claudeCandidatesIn_fails hi hb _ _ _ _

theorem readIndex_fails [SessionFormats] (hb : .runFailedSessionBind ∈ rs) (role : AgentRole)
    (ls : List (String × Nat)) (rows : List CodexSessionIndexRow) :
    Fails (EndsIn rs) (readIndex role ls rows) := by
  induction ls generalizing rows with
  | nil => exact fails_ok rows
  | cons l ls ih =>
    obtain ⟨line, n⟩ := l
    rw [readIndex, fails_ite]
    refine ⟨fun _ => ih rows, fun _ => ?_⟩
    split
    · exact fails_error.mpr hb
    · exact ih _

theorem codexCandidates_fails [Crates] [SessionFormats] (hb : .runFailedSessionBind ∈ rs)
    (hv : .runFailedInvalidInput ∈ rs) (state : ProviderState) (repo threadName : String)
    (role : AgentRole) : Fails (EndsIn rs) (codexCandidates state repo threadName role) := by
  rw [codexCandidates]
  split
  · exact fails_error.mpr hv
  · split
    · exact fails_ite.mpr ⟨fun _ => fails_error.mpr hb, fun _ => fails_error.mpr hb⟩
    · exact Fails.bind (readIndex_fails hb _ _ _) fun _ => fails_ok _

theorem discoverSession_fails [Crates] [SessionFormats] (hi : .runFailedInternal ∈ rs)
    (hb : .runFailedSessionBind ∈ rs) (hv : .runFailedInvalidInput ∈ rs)
    (state : ProviderState) (repo threadName : String) (role : AgentRole)
    (provider : ProviderKind) :
    Fails (EndsIn rs) (discoverSession state repo threadName role provider) := by
  apply Fails.bind
  · cases provider with
    | claude => exact claudeCandidates_fails hi hb hv _ _ _ _
    | opencode => exact opencodeCandidates_fails hi hb _ _ _ _
    | codex => exact codexCandidates_fails hb hv _ _ _ _
  · exact fun ids => bindOnly_fails hb _ _ _ ids

end Providers

/-- What a run reads of its providers are answers of the provider modules. -/
structure StepObs.Answers (o : StepObs) : Prop where
  spawned : Fails (EndsIn [.runFailedInternal]) o.dispatch.spawn
  discovered : ∀ role, Fails (EndsIn RunState.sessionBind.errors) (o.bind.discovered role)
  codexLog : Fails (EndsIn RunState.executorMonitor.errors) o.probe.codexLogMtime
  opencodeLog : Fails (EndsIn RunState.executorMonitor.errors) o.probe.opencodeLogMtime

theorem answers_of_providers [Crates] [SessionFormats] {o : StepObs} {spawned : IoResult Nat}
    {state : ProviderState} {args : CliArgs} {home : Option String} {sessions : CodexSessions}
    {list : IoResult CommandOutput} {codexId opencodeId : String}
    (hspawn : o.dispatch.spawn = ofIo spawned) (hbind : o.bind = discovery state args)
    (hcodex : o.probe.codexLogMtime = codexSessionJsonlMtime home sessions codexId)
    (hopencode : o.probe.opencodeLogMtime = opencodeSessionMtime list opencodeId) :
    o.Answers := by
  constructor
  · rw [hspawn]
    exact ofIo_fails (by simp) _
  · intro role
    rw [hbind]
    apply discoverSession_fails <;> simp [RunState.errors]
  · rw [hcodex]
    apply codexSessionJsonlMtime_fails <;> simp [RunState.errors]
  · rw [hopencode]
    apply opencodeSessionMtime_fails
    simp [RunState.errors]

def ReviewerYaml.conclusion (v : ReviewerYaml) : Option (RunState × Option String) :=
  match v.decision with
  | .accept => some (.runDone, none)
  | .revise => none
  | .blocked => some (.runFailedExternalBlocker, v.blockingReason)
  | .irreconcilableDisagreement =>
    some (.runFailedIrreconcilableDisagreement, v.irreconcilableReason)
  | .poisonedSession => some (.runFailedPoisonedSession, v.poisonedSessionReason)

/-- The end of a run whose last phase was the one of `c`: its state, the failures it adds to
the report, and the action it asks for. -/
inductive Conclusion (c : OrchestratorCtx) : RunState → List String → Option String → Prop
  | cancelled : Conclusion c .runAborted [] none
  | rejected {e : OrchestratorError} : c.runState = .runInit →
      Conclusion c .runFailedInvalidInput [e.display] none
  | failed {e} : errorToRunState e ∈ c.runState.errors →
      Conclusion c (errorToRunState e) [e.display] none
  | capped {role} : c.runState = .monitor role → Conclusion c .runFailedServiceCap [] none
  | exhausted : c.runState = .roundRetryDecide → Conclusion c .runFailedConsecutiveFailureLimit
      ["consecutive failure limit reached (5/5)"] none
  | judged {v state action} : c.runState = .qualityGate → c.reviewResult = some v →
      v.conclusion = some (state, action) → Conclusion c state [] action

theorem Conclusion.reached {c : OrchestratorCtx} {r : RunState} {new : List String}
    {action : Option String} (h : Conclusion c r new action) :
    r ≠ .runFailedProtocol ∧ r ≠ .runFailedProviderAccess := by
  cases h with
  | cancelled | rejected _ | capped _ | exhausted _ => simp
  | @failed e he =>
    revert he
    cases c.runState <;> cases e <;> simp [RunState.errors, errorToRunState]
  | @judged v _ _ _ _ hv =>
    revert hv
    simp only [ReviewerYaml.conclusion]
    cases v.decision <;> simp +contextual [eq_comm]

def Concludes (c d : OrchestratorCtx) : Prop :=
  ∃ new, d.failures = c.failures ++ new ∧ Conclusion c d.runState new d.nextActionRequired

theorem exhausted_ends {c : OrchestratorCtx} (hr : c.runState = .roundRetryDecide)
    (hle : c.consecutiveFailureCount ≤ consecutiveFailureLimit)
    (ht : (doRoundRetryDecide c).runState.isTerminal = true) (ha : c.nextActionRequired = none) :
    Concludes c (doRoundRetryDecide c) := by
  by_cases hlimit : consecutiveFailureLimit ≤ c.consecutiveFailureCount
  · have hcount := Nat.le_antisymm hle hlimit
    have htext : "consecutive failure limit reached (" ++ toString consecutiveFailureLimit ++
        "/" ++ toString consecutiveFailureLimit ++ ")" =
          "consecutive failure limit reached (5/5)" := by decide
    have hend := Conclusion.exhausted hr
    rw [← htext] at hend
    refine ⟨_, ?_, by simpa [doRoundRetryDecide, hlimit, ha] using hend⟩
    simp [doRoundRetryDecide, hcount]
  · revert ht
    simp only [doRoundRetryDecide, if_neg hlimit]
    cases c.currentRole.getD .executor <;> simp [RunState.isTerminal]

theorem judged_ends {c : OrchestratorCtx} {v : ReviewerYaml} (hr : c.runState = .qualityGate)
    (hv : c.reviewResult = some v) (ht : (doQualityGate c).runState.isTerminal = true) :
    Concludes c (doQualityGate c) := by
  refine ⟨[], ?_, ?_⟩
  · simp only [doQualityGate, hv, List.append_nil]
    cases v.decision <;> rfl
  · apply Conclusion.judged hr hv
    revert ht
    simp only [doQualityGate, hv, ReviewerYaml.conclusion]
    cases v.decision <;> simp [RunState.isTerminal]

section Run

variable [Crates] {o : StepObs} {s t : Orch} {flow : Flow}

theorem step_raises (ho : o.Answers) (s : Orch) :
    wp (step o) (fun _ _ => True)
      (fun f _ => ∀ e, f = .error e → EndsIn s.ctx.runState.errors e) s := by
  have hspawn : Fails (EndsIn (RunState.executorDispatch).errors) o.dispatch.spawn := by
    intro e he
    have hinternal := ho.spawned e he
    simp only [EndsIn, List.mem_singleton] at hinternal
    simp [EndsIn, hinternal, RunState.errors]
  rw [step, wp_bind, OrchM.wp_ctx]
  cases h : s.ctx.runState
  case contextPrep => exact Raises.map (doContextPrep_raises o.prep) _ s
  case sessionBind => exact Raises.map (doSessionBind_raises ho.discovered) _ s
  case executorDispatch | reviewerDispatch =>
    apply Raises.map
    apply doDispatch_raises
    · simp [RunState.errors]
    · simp [RunState.errors]
    · simp [RunState.errors]
    · exact hspawn
  case executorMonitor | reviewerMonitor =>
    apply doMonitorProbe_raises
    · simp [RunState.errors]
    · simp [RunState.errors]
    · exact ho.codexLog
    · exact ho.opencodeLog
  case executorOutputCollect =>
    exact Raises.map (doExecutorOutputCollect_raises (by simp [RunState.errors]) _) _ s
  case reviewerOutputCollect =>
    exact Raises.map (doReviewerOutputCollect_raises (by simp [RunState.errors]) _) _ s
  all_goals trivial

theorem Outcome.action {role : AgentRole} {o : ProbeObs} (h : Outcome role o s flow t) :
    t.ctx.nextActionRequired = s.ctx.nextActionRequired := by
  cases h with
  | aborted => simp [Orch.abort]
  | @finished p state v allowed h _ _ =>
    obtain ⟨w, hw⟩ := h.ctx
    cases allowed <;> simp [hw, routeResult, releaseLock, OrchestratorCtx.setLock]
  | watched h | stopped h _ | capped h _ _ | failed h _ | hung h | cancelled h =>
    obtain ⟨w, hw⟩ := h.ctx
    simp [hw, withoutProcess, retryAttempt, terminatingStale, releaseLock,
      OrchestratorCtx.setLock]

theorem Stepped.action (h : Stepped o s flow t) (ht : t.ctx.runState.isTerminal = false) :
    t.ctx.nextActionRequired = s.ctx.nextActionRequired := by
  cases h with
  | prepared _ hc _ => rw [hc]
  | bound _ _ | verified _ | fedBack _ | skipped _ => rfl
  | dispatched _ h =>
    cases h with
    | launched _ _ hp _ _ =>
      obtain ⟨baseline, inbox, hc⟩ := hp.ctx
      simp only [Orch.mapCtx_ctx, withState, launch, hc]
      rfl
  | probed _ hp => exact hp.outcome.action
  | retried _ =>
    simp only [Orch.mapCtx_ctx, doRoundRetryDecide]
    split <;> rfl
  | surveyed _ h =>
    obtain ⟨_, _, _, _, rfl⟩ := h
    rfl
  | collected _ h =>
    cases h with
    | unchanged _ | unreadable _ _ _ | rejected _ _ _ _ => rfl
    | dirty _ hv _ _ | clean _ hv _ _ => cases hv <;> rfl
  | gated _ =>
    revert ht
    cases hv : s.ctx.reviewResult with
    | none => simp [doQualityGate, hv]
    | some v =>
      simp only [Orch.mapCtx_ctx, doQualityGate, hv]
      cases v.decision <;> simp [RunState.isTerminal]

theorem Interrupted.report (h : Interrupted o s t) :
    t.ctx.failures = s.ctx.failures ∧
      t.ctx.nextActionRequired = s.ctx.nextActionRequired := by
  cases h with
  | preparing _ hc _ => rw [hc]; exact ⟨rfl, rfl⟩
  | dispatching _ h =>
    cases h with
    | unlocked => exact ⟨rfl, rfl⟩
    | locked _ _ hp =>
      obtain ⟨baseline, inbox, hc⟩ := hp.ctx
      rw [hc]
      exact ⟨rfl, rfl⟩
  | probing _ h =>
    obtain ⟨_, _, _, rfl⟩ := h
    obtain ⟨a, ha⟩ := pollChild_ctx o.probe s
    simp only [ha, and_self]
  | surveying _ h =>
    obtain ⟨_, _, _, _, rfl⟩ := h
    exact ⟨rfl, rfl⟩
  | collecting _ h =>
    cases h with
    | unread => exact ⟨rfl, rfl⟩
    | judged _ h => cases h <;> exact ⟨rfl, rfl⟩

/-- A probe ends the run only when it is cancelled or finds a service cap: a soft success that
the workflow does not allow is never classified as one. -/
theorem Probed.ends {role : AgentRole} {o : ProbeObs} (hr : s.ctx.runState = .monitor role)
    (h : Probed role o s flow t) (ht : t.ctx.runState.isTerminal = true)
    (ha : s.ctx.nextActionRequired = none) : Concludes s.ctx t.ctx := by
  have haction := h.outcome.action.trans ha
  cases h with
  | aborted _ =>
    refine ⟨[], by simp [Orch.abort], ?_⟩
    rw [haction]
    simpa [Orch.abort] using Conclusion.cancelled
  | @routed p state v h =>
    obtain ⟨w, hw⟩ := h.ctx
    have hstate : v.ctx.runState = .monitor role := by rw [hw]; exact hr
    have hfailures : v.ctx.failures = s.ctx.failures := by rw [hw]
    have hactive := monitor_not_terminal role
    have hcollect : (RunState.outputCollect role).isTerminal = false := by cases role <;> rfl
    revert ht haction
    cases state with
    | success => simp [route, routeResult, hcollect]
    | softSuccess =>
      obtain rfl := executor_of_softSuccess (Probe.softSuccess_contract h.state_eq)
      simp [route, h.allowed, routeResult, hcollect]
    | failedServiceCap =>
      intro _ haction
      refine ⟨[], by simpa [route, releaseLock, OrchestratorCtx.setLock] using hfailures, ?_⟩
      rw [haction]
      exact .capped hr
    | failedProviderAccess =>
      have hj := classify_justified (probeSnapshot s.ctx.args.workflowType role p.attempt
        p.signals p.changed (p.error.map ProviderErrorMatch.errorClass) o) o.now
      rw [show Orchestrator.classify _ o.now = .failedProviderAccess from h.state_eq] at hj
      obtain hc | hc := hj
      · exact absurd (h.error_class hc) (by simp)
      · exact absurd (h.error_class hc) (by simp)
    | cancelled =>
      intro _ haction
      refine ⟨[], ?_, ?_⟩
      · simpa [route, releaseLock, OrchestratorCtx.setLock] using hfailures
      · rw [haction]
        simpa [route] using Conclusion.cancelled
    | hangConfirmed => simp [route, retryAttempt, RunState.isTerminal]
    | failedTransport | failedSilent | failedProtocol =>
      simp [route, retryAttempt, RunState.isTerminal]
    | finalizing =>
      simp only [route]
      split <;> simp [withoutProcess, hstate, hactive]
    | running | waitingOutput | unknown | dispatching | terminatingStale | retryPending
      | retryExhausted => simp [route, hstate, hactive]

theorem Stepped.ends (h : Stepped o s flow t)
    (hle : s.ctx.consecutiveFailureCount ≤ consecutiveFailureLimit)
    (hverdict : s.ctx.runState = .qualityGate → s.ctx.reviewResult.isSome)
    (hs : s.ctx.runState.isTerminal = false) (ht : t.ctx.runState.isTerminal = true)
    (ha : s.ctx.nextActionRequired = none) : Concludes s.ctx t.ctx := by
  cases h with
  | prepared _ hc _ => exact absurd ht (by simp [hc, RunState.isTerminal])
  | bound _ _ | fedBack _ | verified _ =>
    exact absurd ht (by simp [doRoundFeedbackPrep, doOrchVerify, RunState.isTerminal])
  | @dispatched role _ _ _ => exact absurd ht (by simp [withState, monitor_not_terminal])
  | probed hr hp => exact hp.ends hr ht ha
  | retried hr => exact exhausted_ends hr hle ht ha
  | surveyed _ _ => exact absurd ht (by simp [withState, RunState.isTerminal])
  | collected _ h =>
    obtain ⟨-, ⟨-, hr⟩ | ⟨-, hr, -⟩⟩ := h.target
    · exact absurd ht (by simp [hr, RunState.isTerminal])
    · exact absurd ht (by simp [hr, RunState.isTerminal])
  | gated hr =>
    obtain ⟨v, hv⟩ := Option.isSome_iff_exists.mp (hverdict hr)
    exact judged_ends hr hv ht
  | skipped _ => exact absurd ht (by simp [hs])

theorem Move.action {m m' : Machine} {i : Input} (h : Move m i m')
    (ht : m'.ctx.runState.isTerminal = false) :
    m'.ctx.nextActionRequired = m.ctx.nextActionRequired := by
  cases h with
  | exit | idle _ | cancelled _ _ => rfl
  | admitted _ hs =>
    obtain ⟨root, rfl⟩ := hs
    rfl
  | rejected _ hs =>
    obtain ⟨root, rfl⟩ := hs
    rfl
  | stepped _ hs => exact hs.action ht
  | failed _ hi => exact hi.report.2
  | panicked hp =>
    obtain ⟨-, root, rfl⟩ | ⟨-, hi⟩ := hp
    · rfl
    · exact hi.report.2

theorem start_ends {m : Machine} {c : Bool} (hpc : m.pc = .start)
    (hr : m.ctx.runState = .runInit) (ha : m.ctx.nextActionRequired = none)
    (ht : (m.next (.tick c o)).ctx.runState.isTerminal = true) :
    Concludes m.ctx (m.next (.tick c o)).ctx := by
  simp only [Machine.next, hpc] at ht ⊢
  have hprologue := prologue_frame o.prologue m.toOrch
  cases hresult : prologue o.prologue m.toOrch with
  | ok _ s => exact absurd ht (by simp [hresult, withState, RunState.isTerminal])
  | error f s =>
    obtain ⟨root, rfl⟩ := wp_of_error hprologue hresult
    cases f with
    | error e => exact ⟨[e.display], rfl, by simpa [ha] using Conclusion.rejected hr⟩
    | panic => exact absurd ht (by simp [hresult, hr, RunState.isTerminal])

theorem settle_ends {m : Machine} {c : Bool} (ho : o.Answers) (hs : m.Steps c)
    (hm : m.Active)
    (hle : m.ctx.consecutiveFailureCount ≤ consecutiveFailureLimit)
    (hverdict : m.ctx.runState = .qualityGate → m.ctx.reviewResult.isSome)
    (ha : m.ctx.nextActionRequired = none)
    (ht : (m.next (.tick c o)).ctx.runState.isTerminal = true) :
    Concludes m.ctx (m.next (.tick c o)).ctx := by
  rw [next_of_steps hs] at ht ⊢
  have hstep := wp_and (step_spec o m.toOrch) (step_raises ho m.toOrch)
  cases hresult : step o m.toOrch with
  | ok flow t =>
    obtain ⟨hstepped, -⟩ := wp_of_ok hstep hresult
    rw [hresult] at ht
    cases flow with
    | again => exact hstepped.ends hle hverdict hm.2 ht ha
    | done => exact hstepped.ends hle hverdict hm.2 ht ha
  | error f t =>
    obtain ⟨hinterrupted, hraised⟩ := wp_of_error hstep hresult
    obtain ⟨hfailures, haction⟩ := hinterrupted.report
    have hstate := hinterrupted.kept.runState
    rw [hresult] at ht
    cases f with
    | error e =>
      refine ⟨[e.display], ?_, ?_⟩
      · simp [Machine.settle, Machine.fail, hfailures]
      · simpa [Machine.settle, Machine.fail, hstate, hm.2, haction, ha] using
          Conclusion.failed (hraised e rfl)
    | panic =>
      have hactive : t.ctx.runState.isTerminal = false := by rw [hstate]; exact hm.2
      exact absurd ht (by simp [Machine.settle, hactive])

structure Accounted (h : History Machine Input) (m : Machine) : Prop where
  silent : m.ctx.runState.isTerminal = false → m.ctx.nextActionRequired = none
  ended : m.ctx.runState.isTerminal = true → ∃ e ∈ h, e.pre.Active ∧ Concludes e.pre.ctx m.ctx

theorem Accounted.next {h : History Machine Input} {m : Machine} {i : Input} (hr : Run h m)
    (ho : ∀ c o, i = .tick c o → o.Answers) (ih : Accounted h m) :
    Accounted (⟨m, i, m.next i⟩ :: h) (m.next i) := by
  have hmove := next_move m i
  have hover (hm : ¬m.Active) : (m.next i).ctx = m.ctx := (hmove.ended (Run.placed hr) hm).2
  cases hterminal : m.ctx.runState.isTerminal with
  | true =>
    obtain ⟨e, he, hends⟩ := ih.ended hterminal
    have hctx : (m.next i).ctx = m.ctx := hover fun hm => absurd hm.2 (by simp [hterminal])
    refine ⟨fun ht => absurd ht (by simp [hctx, hterminal]), fun _ => ?_⟩
    exact ⟨e, List.mem_cons_of_mem _ he, hctx ▸ hends⟩
  | false =>
    have hsilent := ih.silent hterminal
    refine ⟨fun ht => (hmove.action ht).trans hsilent, fun ht => ?_⟩
    have hactive : m.Active := by
      by_contra hm
      exact absurd ht (by simp [hover hm, hterminal])
    refine ⟨_, List.mem_cons_self, hactive, ?_⟩
    have hcounted := Run.counted hr
    cases i with
    | exit child => exact absurd ht (by simp [Machine.next, hterminal])
    | tick c o =>
      cases hpc : m.pc with
      | start => exact start_ends hpc ((Run.placed hr).start hpc) hsilent ht
      | panicked => exact absurd hpc hactive.1
      | monitor =>
        exact settle_ends (ho c o rfl) (.inl hpc) hactive hcounted.count_le
          (hcounted.budget hactive).verdict hsilent ht
      | head =>
        cases c with
        | true =>
          refine ⟨[], ?_, ?_⟩
          · simp [Machine.next, hpc, hterminal, withState]
          · simpa [Machine.next, hpc, hterminal, withState, hsilent] using Conclusion.cancelled
        | false =>
          exact settle_ends (ho false o rfl) (.inr ⟨hpc, hterminal, rfl⟩) hactive
            hcounted.count_le (hcounted.budget hactive).verdict hsilent ht

theorem Run.accounted {h : History Machine Input} {m : Machine} (hr : Run h m)
    (ho : ∀ e ∈ h, ∀ c o, e.input = .tick c o → o.Answers) : Accounted h m := by
  apply Trace.Run.invariant
    (P := fun h m => (∀ e ∈ h, ∀ c o, e.input = .tick c o → o.Answers) → Accounted h m) hr _ _ ho
  · rintro _ ⟨args, rfl⟩ _
    exact ⟨fun _ => rfl, fun h => absurd h (by simp [Machine.init, OrchestratorCtx.new,
      RunState.isTerminal])⟩
  · intro h m i hr ih ho
    obtain ⟨hi, ho⟩ := List.forall_mem_cons.mp ho
    exact (ih ho).next hr hi

end Run

namespace Sample

def dirtyObs : StepObs :=
  { obsAt 1 with prep := { (obsAt 1).prep with gitStatusAll := git " M notes.txt\n" } }

def dirtyStart : List Input := [.tick false (obsAt 0), .tick false dirtyObs]

theorem dirtyStart_answers {o : StepObs} {c : Bool} (h : .tick c o ∈ dirtyStart) :
    o.Answers := by
  simp only [dirtyStart, List.mem_cons, Input.tick.injEq, List.not_mem_nil, or_false] at h
  obtain ⟨-, rfl⟩ | ⟨-, rfl⟩ := h
  all_goals
    constructor
    · exact fails_ok _
    · intro role
      cases role <;> exact fails_ok _
    · exact fails_ok _
    · exact fails_ok _

end Sample

end Orchestrator

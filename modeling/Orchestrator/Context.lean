import Orchestrator.Signals

/-! The context of a run and the world that it acts on. -/

namespace Orchestrator

open Rust

/-- The file an exclusive lock is held on; the lock lives as long as this handle. -/
structure SessionLock where
  path : String
  deriving DecidableEq

structure DispatchedProcess where
  child : Nat
  deriving DecidableEq

structure OrchestratorCtx where
  args : CliArgs
  runState : RunState
  consecutiveFailureCount : Nat
  currentRole : Option AgentRole
  branch : String
  preReviewerGitStatus : Option String
  initialGitHead : Option String
  claudeProjectKey : Option String
  executorSessionId : Option String
  reviewerSessionId : Option String
  executorLock : Option SessionLock
  reviewerLock : Option SessionLock
  attempt : Option AttemptStateData
  activeProcess : Option DispatchedProcess
  artifactMap : String → Option Bool
  outboxPresent : Bool
  reviewResult : Option ReviewerYaml
  reviewResultYamlRaw : Option String
  reviewerYamlRejection : Option String
  reviewerWorkspaceRejection : Option String
  lastInboxSnapshot : Option TransportBodyReport
  executorOutboxSnapshot : Option TransportBodyReport
  reviewerOutboxSnapshot : Option TransportBodyReport
  commitHashes : List String
  artifactPaths : List String
  warnings : List String
  failures : List String
  nextActionRequired : Option String

namespace OrchestratorCtx

def new (args : CliArgs) : OrchestratorCtx where
  args := args
  runState := .runInit
  consecutiveFailureCount := 0
  currentRole := none
  branch := ""
  preReviewerGitStatus := none
  initialGitHead := none
  claudeProjectKey := none
  executorSessionId := none
  reviewerSessionId := none
  executorLock := none
  reviewerLock := none
  attempt := none
  activeProcess := none
  artifactMap := fun _ => none
  outboxPresent := false
  reviewResult := none
  reviewResultYamlRaw := none
  reviewerYamlRejection := none
  reviewerWorkspaceRejection := none
  lastInboxSnapshot := none
  executorOutboxSnapshot := none
  reviewerOutboxSnapshot := none
  commitHashes := []
  artifactPaths := []
  warnings := []
  failures := []
  nextActionRequired := none

def sessionId (ctx : OrchestratorCtx) : AgentRole → Option String
  | .executor => ctx.executorSessionId
  | .reviewer => ctx.reviewerSessionId

def lock (ctx : OrchestratorCtx) : AgentRole → Option SessionLock
  | .executor => ctx.executorLock
  | .reviewer => ctx.reviewerLock

def setLock (ctx : OrchestratorCtx) (role : AgentRole) (l : Option SessionLock) :
    OrchestratorCtx :=
  { ctx with
    executorLock := if role = .executor then l else ctx.executorLock
    reviewerLock := if role = .reviewer then l else ctx.reviewerLock }

def holds (ctx : OrchestratorCtx) (path : String) : Bool :=
  ctx.executorLock = some ⟨path⟩ ∨ ctx.reviewerLock = some ⟨path⟩

def transportPath (ctx : OrchestratorCtx) (file : String) : String :=
  ctx.args.workspaceRoot ++ "/" ++ transportDir ++ "/" ++ file

@[simp] theorem lock_setLock (ctx : OrchestratorCtx) (role r : AgentRole) (l : Option SessionLock) :
    (ctx.setLock role l).lock r = if r = role then l else ctx.lock r := by
  cases role <;> cases r <;> rfl

end OrchestratorCtx

/-- A child process of the run; it is identified by the number of children before it. -/
structure Child where
  id : Nat
  role : AgentRole
  alive : Bool
  deriving DecidableEq

/-- A write that the orchestrator issues; `request` is a prompt, rendered into the inbox, and
`created` is a file that was missing when it was opened to append. Nothing waits for an `appended`
line to reach its file. -/
inductive FileWrite
  | truncated (path : String)
  | request (path : String) (template : TemplateId) (values : TemplateValues)
  | created (path : String)
  | appended (path line : String)

/-- The processes started and the writes issued, the newest first. -/
structure World where
  children : List Child
  writes : List FileWrite

namespace World

def empty : World := ⟨[], []⟩

def spawn (w : World) (role : AgentRole) : World :=
  { w with children := ⟨w.children.length, role, true⟩ :: w.children }

def bury (w : World) (id : Nat) : World :=
  { w with children := w.children.map fun c => if c.id = id then { c with alive := false } else c }

def record (w : World) (f : FileWrite) : World := { w with writes := f :: w.writes }

@[simp] theorem children_record (w : World) (f : FileWrite) :
    (w.record f).children = w.children := rfl

theorem mem_bury {w : World} {id : Nat} {c : Child} (h : c ∈ (w.bury id).children) :
    ∃ d ∈ w.children, d.id = c.id ∧ d.role = c.role ∧
      (c.alive = true → d.alive = true ∧ d.id ≠ id) := by
  obtain ⟨d, hd, rfl⟩ := List.mem_map.mp h
  refine ⟨d, hd, ?_⟩
  by_cases heq : d.id = id
  · simp [heq]
  · simp [heq]

end World

inductive Fault
  | error (e : OrchestratorError)
  | panic

structure Orch where
  ctx : OrchestratorCtx
  world : World

def Orch.withLock (s : Orch) (role : AgentRole) (l : Option SessionLock) : Orch :=
  { s with ctx := s.ctx.setLock role l }

def Orch.mapCtx (f : OrchestratorCtx → OrchestratorCtx) (s : Orch) : Orch :=
  { s with ctx := f s.ctx }

@[simp] theorem Orch.mapCtx_ctx (f : OrchestratorCtx → OrchestratorCtx) (s : Orch) :
    (s.mapCtx f).ctx = f s.ctx := rfl

@[simp] theorem Orch.mapCtx_world (f : OrchestratorCtx → OrchestratorCtx) (s : Orch) :
    (s.mapCtx f).world = s.world := rfl

abbrev OrchM (α : Type) := EStateM Fault Orch α

namespace OrchM

def ctx : OrchM OrchestratorCtx := fun s => .ok s.ctx s

def modifyCtx (f : OrchestratorCtx → OrchestratorCtx) : OrchM Unit :=
  modify fun s => { s with ctx := f s.ctx }

def modifyWorld (f : World → World) : OrchM Unit :=
  modify fun s => { s with world := f s.world }

def ofResult {α : Type} (r : OrchestratorResult α) : OrchM α :=
  Exec.lift (r.mapError Fault.error)

def unwrap {α : Type} (o : Option α) : OrchM α :=
  Exec.lift (match o with | some a => .ok a | none => .error .panic)

section Rules

open Exec

variable {α : Type} {Q : α → Orch → Prop} {E : Fault → Orch → Prop} {s : Orch}

@[simp] theorem wp_ctx {Q : OrchestratorCtx → Orch → Prop} :
    wp OrchM.ctx Q E s ↔ Q s.ctx s := Iff.rfl

@[simp] theorem wp_modifyCtx (f : OrchestratorCtx → OrchestratorCtx) {Q : Unit → Orch → Prop} :
    wp (modifyCtx f) Q E s ↔ Q () { s with ctx := f s.ctx } := Iff.rfl

@[simp] theorem wp_modifyWorld (f : World → World) {Q : Unit → Orch → Prop} :
    wp (modifyWorld f) Q E s ↔ Q () { s with world := f s.world } := Iff.rfl

@[simp] theorem wp_ofResult (r : OrchestratorResult α) :
    wp (ofResult r) Q E s ↔
      (∀ a, r = .ok a → Q a s) ∧ (∀ e, r = .error e → E (.error e) s) := by
  cases r <;> simp [ofResult, Except.mapError]

@[simp] theorem wp_unwrap (o : Option α) :
    wp (unwrap o) Q E s ↔ (∀ a, o = some a → Q a s) ∧ (o = none → E .panic s) := by
  cases o <;> simp [unwrap]

theorem frame_ofResult {R : Orch → Orch → Prop} [IsPreorder Orch R]
    (r : OrchestratorResult α) : Frame R (ofResult r) := Frame.lift _

theorem frame_ctx {R : Orch → Orch → Prop} [IsPreorder Orch R] : Frame R OrchM.ctx :=
  fun s => refl (r := R) s

end Rules

end OrchM

end Orchestrator

import Orchestrator.Lib.Rust

namespace Orchestrator

open Rust

def transportDir : String := ".agent-io"
def inboxFile : String := "inbox.txt"
def outboxFile : String := "outbox.txt"

def probeIntervalSec : Nat := 1
def hangConfirmSec : Nat := 420
def hangMaxWithWorkSignalsSec : Nat := 2400
def commitGraceSec : Nat := 180
def outboxGraceSec : Nat := 180
def outboxFinalizingKillSec : Nat := 60
def consecutiveFailureLimit : Nat := 5
def minAcceptScore : F64 := .finite 8

inductive AgentRole
  | executor | reviewer
  deriving DecidableEq

inductive ProviderKind
  | claude | opencode | codex
  deriving DecidableEq

def ProviderKind.asStr : ProviderKind → String
  | .claude => "claude"
  | .opencode => "opencode"
  | .codex => "codex"

inductive AttemptState
  | dispatching | running | waitingOutput | success | softSuccess
  | failedSilent | failedServiceCap | failedProviderAccess | failedTransport | failedProtocol
  | hangConfirmed | finalizing
  | terminatingStale | retryPending | retryExhausted
  | cancelled | unknown
  deriving DecidableEq

inductive RunState
  | runInit | contextPrep | sessionBind
  | executorDispatch | executorMonitor | roundRetryDecide | executorOutputCollect | orchVerify
  | reviewerDispatch | reviewerMonitor | reviewerOutputCollect | qualityGate | roundFeedbackPrep
  | runDone | runAborted | runFailedInvalidInput | runFailedDirtyWorktree
  | runFailedSessionBind | runFailedServiceCap | runFailedProviderAccess
  | runFailedConsecutiveFailureLimit | runFailedExternalBlocker
  | runFailedIrreconcilableDisagreement | runFailedPoisonedSession | runFailedProtocol
  | runFailedSessionLocked | runFailedInternal
  deriving DecidableEq

def RunState.isTerminal : RunState → Bool
  | .runDone | .runAborted | .runFailedInvalidInput | .runFailedDirtyWorktree
  | .runFailedSessionBind | .runFailedServiceCap | .runFailedProviderAccess
  | .runFailedConsecutiveFailureLimit | .runFailedExternalBlocker
  | .runFailedIrreconcilableDisagreement | .runFailedPoisonedSession | .runFailedProtocol
  | .runFailedSessionLocked | .runFailedInternal => true
  | _ => false

inductive WorkflowType
  | plan | investigate | implement
  deriving DecidableEq

inductive NotionPolicy
  | required | optional
  deriving DecidableEq

inductive RemoteNetworkPolicy
  | forbidden | readOnly | operational
  deriving DecidableEq

inductive ProviderErrorClass
  | serviceCap | permission | auth | transport
  deriving DecidableEq

inductive TemplateId
  | executorInitial | reviewerReview | reviewerRepairYaml | reviewerRepairWorkspace
  | executorFeedback
  deriving DecidableEq

inductive ReviewDecision
  | accept | revise | blocked | irreconcilableDisagreement | poisonedSession
  deriving DecidableEq

def AgentRole.debug : AgentRole → String
  | .executor => "Executor"
  | .reviewer => "Reviewer"

def ProviderKind.debug : ProviderKind → String
  | .claude => "Claude"
  | .opencode => "Opencode"
  | .codex => "Codex"

def ProviderErrorClass.debug : ProviderErrorClass → String
  | .serviceCap => "ServiceCap"
  | .permission => "Permission"
  | .auth => "Auth"
  | .transport => "Transport"

inductive OrchestratorError
  | transportResetFailed (path : String)
  | io (source : IoError)
  | json (source : String)
  | yaml (source : String)
  | commandFailed (program status : String)
  | sessionBindFailed (role : AgentRole) (provider : ProviderKind) (reason : String)
  | sessionLocked (provider : ProviderKind) (sessionId : String)
  | invalidInput (field reason : String)
  | dirtyWorktree (status : String)
  | artifactContract (contract : String)
  | requestChangedAbortRetry
  deriving DecidableEq

def OrchestratorError.display : OrchestratorError → String
  | .transportResetFailed path => s!"transport reset failed for {path}"
  | .io source => "io error: " ++ source.message
  | .json source => s!"json error: {source}"
  | .yaml source => s!"yaml parse error: {source}"
  | .commandFailed program status => "command `" ++ program ++ "` failed: " ++ status
  | .sessionBindFailed role provider reason =>
    "session bind failed for " ++ role.debug ++ " " ++ provider.debug ++ ": " ++ reason
  | .sessionLocked provider sessionId =>
    "session is locked: " ++ provider.debug ++ " " ++ sessionId
  | .invalidInput field reason => "invalid input `" ++ field ++ "`: " ++ reason
  | .dirtyWorktree status => "dirty worktree before orchestration:\n" ++ status
  | .artifactContract contract => s!"artifact contract failed: {contract}"
  | .requestChangedAbortRetry => "request payload changed before retry — aborting retry"

abbrev OrchestratorResult (α : Type) := Except OrchestratorError α

/-- The `?` that turns an `io::Error` into the orchestrator's own. -/
def ofIo {α : Type} : IoResult α → OrchestratorResult α
  | .ok a => .ok a
  | .error e => .error (.io e)

theorem ofIo_ok {α : Type} {r : IoResult α} {a : α} : ofIo r = .ok a ↔ r = .ok a := by
  cases r <;> simp [ofIo]

inductive YamlNumber
  | int (n : Int)
  | float (x : F64)

inductive YamlValue
  | null
  | bool (b : Bool)
  | number (n : YamlNumber)
  | string (s : String)
  | sequence (items : List YamlValue)
  | mapping (entries : List (YamlValue × YamlValue))
  | tagged (tag : String) (value : YamlValue)

structure ReviewerYaml where
  qualityScore : F64
  decision : ReviewDecision
  rationale : String
  contractSatisfied : Bool
  hardBlockersPresent : Bool
  notionRequirementsSatisfied : Option Bool
  feedbackForExecutor : List String
  checksPerformed : Option YamlValue
  findings : Option YamlValue
  verificationCommands : Option YamlValue
  blockingReason : Option String
  irreconcilableReason : Option String
  poisonedSessionReason : Option String

structure FileMeta where
  size : Nat
  mtime : Int
  deriving DecidableEq

def nonEmptyOutbox (m : Option FileMeta) : Bool := (m.map fun m => decide (0 < m.size)).getD false

structure AttemptStateData where
  state : AttemptState
  role : AgentRole
  dispatchTs : Int
  pid : Option Nat
  exitCode : Option Int
  requestFingerprint : String
  lastWorkSignalTs : Option Int
  graceUntilCommit : Option Int
  graceUntilOutbox : Option Int
  preReviewerOutboxMtime : Option Int
  nextProbeAt : Int
  dispatchGitStatusHash : String
  prevProbeGitStatusHash : String
  dispatchGitHeadHash : String
  prevProbeGitHeadHash : String
  prevProbeOutboxMeta : Option FileMeta
  prevProbeLogMtime : Option Int
  providerLogEverSeen : Bool

structure TemplateValues where
  provider : ProviderKind
  workflowType : WorkflowType
  workspaceRoot : String
  transportDir : String
  inboxPath : String
  outboxPath : String
  orchestratorDocsDir : String
  branch : String
  userPrompt : String
  notionPolicy : NotionPolicy
  remoteNetworkPolicy : RemoteNetworkPolicy
  workflowContract : String
  gitFacts : String
  executorOutboxPresent : Bool
  reviewerYamlSchema : Option String
  reviewerYamlRejection : Option String
  reviewerWorkspaceRejection : Option String
  reviewResultYaml : Option String
  feedbackForExecutor : Option String

structure TransportBodyReport where
  role : AgentRole
  provider : ProviderKind
  sessionId : String
  path : String
  sha256 : String
  bytes : Nat
  lines : Nat
  utf8Lossy : Bool
  mtime : Option Int
  body : String

structure CliArgs where
  workflowType : WorkflowType
  notionPolicy : NotionPolicy
  remoteNetworkPolicy : RemoteNetworkPolicy
  workspaceRoot : String
  executorThreadName : String
  reviewerThreadName : String
  prompt : String
  executorProvider : ProviderKind
  reviewerProvider : ProviderKind
  executorModel : Option String
  reviewerModel : Option String

def CliArgs.provider (args : CliArgs) : AgentRole → ProviderKind
  | .executor => args.executorProvider
  | .reviewer => args.reviewerProvider

def CliArgs.model (args : CliArgs) : AgentRole → Option String
  | .executor => args.executorModel
  | .reviewer => args.reviewerModel

/-- A JSON value; numbers keep only whether they are an unsigned integer. -/
inductive Json
  | null
  | bool (b : Bool)
  | natural (n : Nat)
  | otherNumber (text : String)
  | string (s : String)
  | array (items : List Json)
  | object (entries : List (String × Json))

end Orchestrator

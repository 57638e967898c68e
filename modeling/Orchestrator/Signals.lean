import Orchestrator.Fsm
import Orchestrator.YamlCheck

namespace Orchestrator

open Rust

variable [Crates]

structure CommandOutput where
  success : Bool
  status : String
  stdout : Bytes
  stderr : Bytes

def runGit (args : List String) (out : IoResult CommandOutput) : OrchestratorResult String :=
  match out with
  | .error e => .error (.io e)
  | .ok out =>
    if out.success then .ok (fromUtf8Lossy out.stdout)
    else .error (.commandFailed ("git " ++ " ".intercalate args) out.status)

def fileMeta (r : IoResult FileMeta) : OrchestratorResult (Option FileMeta) :=
  ofIo (noneIfMissing r)

def readLogTail (r : IoResult Bytes) : OrchestratorResult String :=
  ofIo (r.map fromUtf8Lossy)

def serviceCapPatterns : List String :=
  ["(?i)usage limit (reached|exceeded|hit)",
   "(?i)reached your usage limit",
   "(?i)hit your usage limit",
   "(?i)you'?ve hit your limit",
   "(?i)rate limit exceeded",
   "(?i)quota exceeded",
   "(?i)\\bhttp\\s*429\\b",
   "(?i)\\b429\\b.\x7b0,40\x7d(rate limit|too many requests|quota)",
   "(?i)(selected model is at capacity|server[_ ]overloaded)"]

def permissionPatterns : List String :=
  ["(?i)permission denied",
   "(?i)sandbox.\x7b0,40\x7d(denied|forbidden|blocked|violation)",
   "(?i)policy violation"]

def transportPatterns : List String :=
  ["(?i)(connect|read|request)timeout",
   "(?i)(connect|connection|read|request|operation).\x7b0,24\x7dtimed out",
   "(?i)connection reset",
   "(?i)broken pipe",
   "(?i)connection refused",
   "(?i)connectionrefused",
   "(?i)network unreachable",
   "(?i)\\b(http\\s*)?50[234]\\b.\x7b0,32\x7d(bad gateway|service unavailable|gateway timeout)?",
   "(?i)failed to open socket",
   "(?i)failedtoopensocket"]

def authPatterns : List String :=
  ["(?i)\\b401\\b.\x7b0,40\x7d(unauthorized|invalid|auth|token|key|credential)",
   "(?i)\\bunauthorized\\b.\x7b0,40\x7d(api|token|key|credential|request|access|auth)|" ++
     "\\b(auth|api).\x7b0,40\x7dunauthorized\\b",
   "(?i)\\b403\\b.\x7b0,40\x7d(forbidden|access denied|auth|token|api)|\\baccess denied\\b",
   "(?i)\\bforbidden\\b.\x7b0,40\x7d(api|token|credential|auth|request|access)|" ++
     "\\b(api|auth|token|credential).\x7b0,40\x7d\\bforbidden\\b",
   "(?i)apierror.\x7b0,160\x7dstatuscode\\\"?\\s*:?\\s*401",
   "(?i)invalid.\x7b0,20\x7d(api[-_ ]?key|token|credential|credentials)",
   "(?i)authentication failed"]

structure ProviderErrorMatch where
  errorClass : ProviderErrorClass
  pattern : String
  fragment : String

def firstMatchingPattern (text : String) (patterns : List String) : Option String :=
  patterns.find? fun p => Crates.regexIsMatch p text

def matchedFragment (text pattern : String) : String :=
  (Crates.regexFind pattern text).getD ""

def matchOf (text : String) (c : ProviderErrorClass) (pattern : String) : ProviderErrorMatch :=
  ⟨c, pattern, matchedFragment text pattern⟩

def classifyProviderErrorWithMatch (text : String) : Option ProviderErrorMatch :=
  match firstMatchingPattern text serviceCapPatterns with
  | some p => some (matchOf text .serviceCap p)
  | none =>
    match firstMatchingPattern text permissionPatterns with
    | some p => some (matchOf text .permission p)
    | none =>
      match firstMatchingPattern text authPatterns with
      | some p => some (matchOf text .auth p)
      | none => (firstMatchingPattern text transportPatterns).map (matchOf text .transport)

/-- `Value::get`; of two entries with one key the last is kept. -/
def Json.get (key : String) : Json → Option Json
  | .object entries => (entries.reverse.find? fun e => e.1 == key).map Prod.snd
  | _ => none

def Json.asStr : Json → Option String
  | .string s => some s
  | _ => none

def recordServiceCap (value : Json) : Option (String × String) :=
  if (value.get "message" >>= Json.get "stop_reason" >>= Json.asStr) = some "max_tokens" then
    some ("claude_jsonl_max_tokens_since_dispatch", "max_tokens")
  else if (value.get "error" >>= Json.asStr) = some "rate_limit" then
    some ("claude_jsonl_rate_limit_since_dispatch", "rate_limit")
  else if value.get "apiErrorStatus" matches some (.natural 429) then
    some ("claude_jsonl_api_429_since_dispatch", "apiErrorStatus=429")
  else if value.get "isApiErrorMessage" matches some (.bool true) then
    if (classifyProviderErrorWithMatch (Crates.jsonToString value)).map
        ProviderErrorMatch.errorClass = some .serviceCap then
      some ("claude_jsonl_api_error_text_since_dispatch", "isApiErrorMessage service cap")
    else none
  else none

def lineServiceCap (since : Int) (line : String) : Option (String × String) :=
  match Crates.serdeJson line with
  | none => none
  | some value =>
    match value.get "timestamp" >>= Json.asStr >>= Crates.parseRfc3339 with
    | none => none
    | some timestamp => if timestamp < since then none else recordServiceCap value

def tailServiceCapSince (tail : String) (since : Int) : Option (String × String) :=
  (lines tail).reverse.findSome? (lineServiceCap since)

/-- What one pass through the monitor loop observes of the world. `tryWait` is `some` when
the child is found to have exited; `logClock` is the clock that the log's age is read at. -/
structure ProbeObs where
  cancelledAtTop : Bool
  cancelledAfterWait : Bool
  cancelledAtSnapshot : Bool
  now : Int
  logClock : Int
  tryWait : Option (Option Int)
  procExists : Bool
  liveChildren : Bool
  outboxMeta : IoResult FileMeta
  gitStatus : IoResult CommandOutput
  gitHead : IoResult CommandOutput
  artifactLen : String → IoResult Nat
  home : Option String
  claudeLogMtime : IoResult Int
  codexLogMtime : OrchestratorResult (Option Int)
  opencodeLogMtime : OrchestratorResult (Option Int)
  gitDiff : IoResult CommandOutput
  stdoutTail : IoResult Bytes
  stderrTail : IoResult Bytes
  jsonlTail : IoResult Bytes
  outboxText : IoResult Bytes

structure ProbeSignals where
  processAlive : Bool
  outboxMeta : Option FileMeta
  gitStatusHash : String
  gitStatusShort : String
  gitHeadHash : String
  artifactMap : String → Option Bool
  providerLogMtime : Option Int
  hasChildProcesses : Bool

def homeUnset : OrchestratorError :=
  .invalidInput "HOME" "HOME environment variable is not set"

def claudeSessionJsonlMtime (o : ProbeObs) : OrchestratorResult (Option Int) :=
  match o.home with
  | none => .error homeUnset
  | some _ => ofIo (noneIfMissing o.claudeLogMtime)

def sessionJsonlServiceCapSince (o : ProbeObs) (since : Int) :
    OrchestratorResult (Option (String × String)) :=
  match o.home with
  | none => .error homeUnset
  | some _ => (readLogTail o.jsonlTail).map fun tail => tailServiceCapSince tail since

def providerLogMtime (provider : ProviderKind) (o : ProbeObs) : OrchestratorResult (Option Int) :=
  match provider with
  | .claude => claudeSessionJsonlMtime o
  | .codex => o.codexLogMtime
  | .opencode => o.opencodeLogMtime

def insertArtifact (m : String → Option Bool) (name : String) (present : Bool) :
    String → Option Bool :=
  fun n => if n = name then some present else m n

def workflowArtifacts : WorkflowType → List String
  | .plan => ["PLAN.md"]
  | .investigate => ["INVESTIGATION.md"]
  | .implement => []

def artifactFilePresent (len : IoResult Nat) : OrchestratorResult Bool :=
  ofIo ((noneIfMissing len).map fun len => (len.map fun n => decide (0 < n)).getD false)

def probeArtifacts (artifactLen : String → IoResult Nat) :
    List String → OrchestratorResult (String → Option Bool)
  | [] => .ok fun _ => none
  | name :: names =>
    match artifactFilePresent (artifactLen name) with
    | .error e => .error e
    | .ok present => (probeArtifacts artifactLen names).map fun m =>
        fun n => (m n).or (if n = name then some present else none)

def collectProbeSignals (pid : Option Nat) (workflowArtifacts : List String)
    (provider : ProviderKind) (o : ProbeObs) : OrchestratorResult ProbeSignals := do
  let outboxMeta ← fileMeta o.outboxMeta
  let status ← runGit ["status", "--short"] o.gitStatus
  let head ← runGit ["rev-parse", "HEAD"] o.gitHead
  let artifactMap ← probeArtifacts o.artifactLen workflowArtifacts
  let logMtime ← providerLogMtime provider o
  return {
    processAlive := pid.isSome && o.procExists
    outboxMeta := outboxMeta
    gitStatusHash := Crates.sha256Hex (asBytes status)
    gitStatusShort := status
    gitHeadHash := trim head
    artifactMap := artifactMap
    providerLogMtime := logMtime
    hasChildProcesses := pid.isSome && o.liveChildren }

theorem collectProbeSignals_ok {pid : Option Nat} {names : List String} {provider : ProviderKind}
    {o : ProbeObs} {s : ProbeSignals} (h : collectProbeSignals pid names provider o = .ok s) :
    s.processAlive = (pid.isSome && o.procExists) ∧
      s.hasChildProcesses = (pid.isSome && o.liveChildren) ∧
      fileMeta o.outboxMeta = .ok s.outboxMeta ∧
      providerLogMtime provider o = .ok s.providerLogMtime ∧
      probeArtifacts o.artifactLen names = .ok s.artifactMap := by
  revert h
  simp only [collectProbeSignals, bind, Except.bind, pure, Except.pure]
  cases fileMeta o.outboxMeta with
  | error e => simp
  | ok outboxMeta =>
    cases runGit ["status", "--short"] o.gitStatus with
    | error e => simp
    | ok status =>
      cases runGit ["rev-parse", "HEAD"] o.gitHead with
      | error e => simp
      | ok head =>
        cases probeArtifacts o.artifactLen names with
        | error e => simp
        | ok artifacts =>
          cases providerLogMtime provider o with
          | error e => simp
          | ok logMtime =>
            simp only [Except.ok.injEq]
            intro h
            subst h
            exact ⟨rfl, rfl, rfl, rfl, rfl⟩

end Orchestrator

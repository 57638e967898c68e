import Orchestrator.Data
import Orchestrator.Lib.Exec

namespace Orchestrator

open Rust

def ReviewDecision.asStr : ReviewDecision → String
  | .accept => "accept"
  | .revise => "revise"
  | .blocked => "blocked"
  | .irreconcilableDisagreement => "irreconcilable_disagreement"
  | .poisonedSession => "poisoned_session"

/-- The functions of other crates that the orchestrator calls. -/
class Crates where
  /-- `hex::encode(Sha256::digest(..))` -/
  sha256Hex : Bytes → String
  /-- `Regex::is_match`: pattern, then text -/
  regexIsMatch : String → String → Bool
  /-- `Regex::find`: pattern, then text -/
  regexFind : String → String → Option String
  /-- `YamlLoader::load_from_str`: the number of documents -/
  yamlLoad : String → Except String Nat
  /-- `serde_yaml::from_str` at `ReviewerYaml` -/
  serdeYaml : String → Except String ReviewerYaml
  /-- `serde_json::from_str` at `Value` -/
  serdeJson : String → Option Json
  /-- `serde_json::to_string` -/
  jsonToString : Json → String
  /-- `DateTime::parse_from_rfc3339` -/
  parseRfc3339 : String → Option Int
  displayF64 : F64 → String

variable [Crates]

def anchorPattern : String :=
  "(?m)(?:^[ \\t]*(?:-[ \\t]+)?|:[ \\t]+|,[ \\t]*)&[a-zA-Z_][a-zA-Z0-9_-]*"
def aliasPattern : String :=
  "(?m)(?:^[ \\t]*(?:-[ \\t]+)?|:[ \\t]+|,[ \\t]*)\\*[a-zA-Z_][a-zA-Z0-9_-]*"
def tagPattern : String :=
  "(?m)(?:^[ \\t]*(?:-[ \\t]+)?|:[ \\t]+|,[ \\t]*)!!?[a-zA-Z]"

def protocolError {α : Type} (msg : String) : OrchestratorResult α :=
  .error (.artifactContract msg)

def prescanReviewerYaml (raw : String) : OrchestratorResult Unit :=
  if contains raw "```" then protocolError "markdown fence in reviewer YAML"
  else if contains raw "\n---" then
    protocolError "multiple YAML documents in reviewer output"
  else if Crates.regexIsMatch anchorPattern raw then
    protocolError "YAML anchor in reviewer output"
  else if Crates.regexIsMatch aliasPattern raw then protocolError "YAML alias in reviewer output"
  else if Crates.regexIsMatch tagPattern raw then protocolError "YAML tag in reviewer output"
  else
    match Crates.yamlLoad raw with
    | .error e => protocolError s!"YAML parse error in pre-scan: {e}"
    | .ok n =>
      if n ≠ 1 then protocolError "reviewer output must be exactly one YAML document"
      else .ok ()

def requireReason (reason : Option String) (msg : String) : OrchestratorResult Unit :=
  if (reason.map fun s => (trim s).isEmpty).getD true then protocolError msg else .ok ()

def validateReviewerYaml (yaml : ReviewerYaml) : OrchestratorResult Unit :=
  if !(F64.le (.finite 0) yaml.qualityScore && F64.le yaml.qualityScore (.finite 10)) then
    protocolError ("quality_score must be in [0, 10], got " ++ Crates.displayF64 yaml.qualityScore)
  else if (trim yaml.rationale).isEmpty then protocolError "rationale must not be empty"
  else
    match yaml.decision with
    | .accept =>
      if yaml.qualityScore.lt minAcceptScore then
        protocolError ("decision=accept requires quality_score >= " ++
          Crates.displayF64 minAcceptScore ++ ", got " ++ Crates.displayF64 yaml.qualityScore)
      else if !yaml.contractSatisfied then
        protocolError "decision=accept requires contract_satisfied=true"
      else if yaml.hardBlockersPresent then
        protocolError "decision=accept requires hard_blockers_present=false"
      else .ok ()
    | .revise =>
      if yaml.feedbackForExecutor.isEmpty then
        protocolError "decision=revise requires non-empty feedback_for_executor"
      else .ok ()
    | .blocked =>
      requireReason yaml.blockingReason "decision=blocked requires non-empty blocking_reason"
    | .irreconcilableDisagreement =>
      requireReason yaml.irreconcilableReason
        "decision=irreconcilable_disagreement requires non-empty irreconcilable_reason"
    | .poisonedSession =>
      requireReason yaml.poisonedSessionReason
        "decision=poisoned_session requires non-empty poisoned_session_reason"

def parseReviewerYaml (raw : String) : OrchestratorResult ReviewerYaml :=
  match prescanReviewerYaml raw with
  | .error e => .error e
  | .ok () =>
    match Crates.serdeYaml raw with
    | .error e => .error (.yaml e)
    | .ok yaml =>
      match validateReviewerYaml yaml with
      | .error e => .error e
      | .ok () => .ok yaml

def enforceReviewerNotionPolicy (policy : NotionPolicy) (yaml : ReviewerYaml) :
    OrchestratorResult Unit :=
  if policy ≠ .required then .ok ()
  else
    match yaml.notionRequirementsSatisfied with
    | none => protocolError ("notion_policy=required requires explicit " ++
        "notion_requirements_satisfied=true|false in reviewer YAML")
    | some notionOk =>
      if yaml.decision = .accept ∧ notionOk = false then
        protocolError ("decision=accept is forbidden when notion_policy=required and " ++
          "notion_requirements_satisfied=false")
      else .ok ()

theorem parseReviewerYaml_eq_ok {raw : String} {v : ReviewerYaml} :
    parseReviewerYaml raw = .ok v ↔
      prescanReviewerYaml raw = .ok () ∧ Crates.serdeYaml raw = .ok v ∧
        validateReviewerYaml v = .ok () := by
  simp only [parseReviewerYaml]
  cases prescanReviewerYaml raw with
  | error e => simp
  | ok _ =>
    cases Crates.serdeYaml raw with
    | error e => simp
    | ok yaml =>
      simp only [Except.ok.injEq, true_and]
      constructor
      · intro h
        cases hv : validateReviewerYaml yaml with
        | error e => simp [hv] at h
        | ok _ =>
          obtain rfl : yaml = v := by simpa [hv] using h
          exact ⟨rfl, hv⟩
      · rintro ⟨rfl, hv⟩
        rw [hv]

theorem validateReviewerYaml_of_parse {raw : String} {v : ReviewerYaml}
    (h : parseReviewerYaml raw = .ok v) : validateReviewerYaml v = .ok () :=
  (parseReviewerYaml_eq_ok.mp h).2.2

/-- The facts that `decision = accept` commits the reviewer to. -/
structure ReviewerYaml.Acceptable (policy : NotionPolicy) (v : ReviewerYaml) : Prop where
  decision : v.decision = .accept
  score_ge : F64.le (.finite 8) v.qualityScore = true
  score_le : F64.le v.qualityScore (.finite 10) = true
  contract : v.contractSatisfied = true
  blockers : v.hardBlockersPresent = false
  notion : policy = .required → v.notionRequirementsSatisfied = some true

theorem acceptable_of_validate {policy : NotionPolicy} {v : ReviewerYaml}
    (hv : validateReviewerYaml v = .ok ()) (hn : enforceReviewerNotionPolicy policy v = .ok ())
    (hd : v.decision = .accept) : v.Acceptable policy := by
  simp only [validateReviewerYaml, protocolError, hd, Exec.ite_error_eq_ok,
    Bool.not_eq_true', Bool.not_eq_false, Bool.and_eq_true] at hv
  obtain ⟨⟨hpos, hle⟩, -, hscore, hcontract, hblockers, -⟩ := hv
  have hnan : v.qualityScore ≠ .nan := by
    intro h
    simp [h, F64.le] at hpos
  rw [minAcceptScore, F64.lt_eq_not_le hnan (by simp)] at hscore
  refine ⟨hd, by simpa using hscore, hle, hcontract, by simpa using hblockers, ?_⟩
  intro hp
  simp only [enforceReviewerNotionPolicy, hp, hd, protocolError] at hn
  cases hs : v.notionRequirementsSatisfied with
  | none => simp [hs] at hn
  | some b => cases b <;> simp [hs] at hn ⊢

end Orchestrator

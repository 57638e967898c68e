import Orchestrator.Run

namespace Orchestrator

open Rust

def hasText (s : String) : Bool := s.toList.any fun c => !isWhitespace c

def Tells (reason : Option String) (ctx : OrchestratorCtx) : Prop :=
  ∃ text, reason = some text ∧ hasText text = true ∧ ctx.nextActionRequired = some text

def FeedsBack (v : ReviewerYaml) (ctx : OrchestratorCtx) : Prop :=
  templateFor ctx .executor = .executorFeedback ∧ ∀ gitFacts docsDir, ∃ text i item,
    (templateValues ctx .executor gitFacts docsDir).feedbackForExecutor = some text ∧
      v.feedbackForExecutor[i]? = some item ∧ hasText item = true ∧
      contains text (toString (i + 1) ++ ". " ++ item) = true

def Delivered (v : ReviewerYaml) (ctx : OrchestratorCtx) : Prop :=
  match v.decision with
  | .accept => (doQualityGate ctx).nextActionRequired = none
  | .revise => FeedsBack v (doRoundFeedbackPrep (doQualityGate ctx))
  | .blocked => Tells v.blockingReason (doQualityGate ctx)
  | .irreconcilableDisagreement => Tells v.irreconcilableReason (doQualityGate ctx)
  | .poisonedSession => Tells v.poisonedSessionReason (doQualityGate ctx)

theorem isEmpty_trim_eq_not_hasText (s : String) : (trim s).isEmpty = !hasText s := by
  simp [isEmpty_trim, hasText, List.any_eq_not_all_not]

section Gate

variable {v : ReviewerYaml} {ctx : OrchestratorCtx} {reason : Option String} {msg : String}

theorem requireReason_eq_ok :
    requireReason reason msg = .ok () ↔ ∃ text, reason = some text ∧ hasText text = true := by
  cases reason with
  | none => simp [requireReason, protocolError]
  | some text => simp [requireReason, protocolError, isEmpty_trim_eq_not_hasText]

theorem tells_of_required (h : requireReason reason msg = .ok ())
    (hctx : ctx.nextActionRequired = reason) : Tells reason ctx := by
  obtain ⟨text, rfl, htext⟩ := requireReason_eq_ok.mp h
  exact ⟨text, rfl, htext, hctx⟩

theorem contains_numberedFeedback {feedback : List String} {i : Nat} {item : String}
    (h : feedback[i]? = some item) :
    contains (numberedFeedback feedback) (toString (i + 1) ++ ". " ++ item) = true := by
  apply contains_intercalate
  apply List.mem_map.mpr
  exact ⟨(item, i), List.mk_mem_zipIdx_iff_getElem?.mpr h, rfl⟩

theorem feedsBack_iff (h : ctx.reviewResult = some v) :
    FeedsBack v ctx ↔ ∃ item ∈ v.feedbackForExecutor, hasText item = true := by
  constructor
  · rintro ⟨-, hvalues⟩
    obtain ⟨_, i, item, -, hitem, htext, -⟩ := hvalues "" ""
    exact ⟨item, List.mem_of_getElem? hitem, htext⟩
  · rintro ⟨item, hmem, htext⟩
    obtain ⟨i, hi⟩ := List.getElem?_of_mem hmem
    refine ⟨by simp [templateFor, h], fun _ _ => ?_⟩
    refine ⟨numberedFeedback v.feedbackForExecutor, i, item, ?_, hi, htext, ?_⟩
    · simp [templateValues, h]
    · exact contains_numberedFeedback hi

theorem doQualityGate_nextAction (h : ctx.reviewResult = some v) :
    (doQualityGate ctx).nextActionRequired =
      match v.decision with
      | .accept => none
      | .revise => ctx.nextActionRequired
      | .blocked => v.blockingReason
      | .irreconcilableDisagreement => v.irreconcilableReason
      | .poisonedSession => v.poisonedSessionReason := by
  simp only [doQualityGate, h]
  cases v.decision <;> rfl

variable [Crates]

/-- Of all that a verdict may have to say, only the items of the feedback go unchecked. -/
theorem delivered_iff {raw : String} (hparse : parseReviewerYaml raw = .ok v)
    (hctx : ctx.reviewResult = some v) :
    Delivered v ctx ↔
      (v.decision = .revise → ∃ item ∈ v.feedbackForExecutor, hasText item = true) := by
  have hvalid := validateReviewerYaml_of_parse hparse
  simp only [validateReviewerYaml, protocolError, Exec.ite_error_eq_ok] at hvalid
  obtain ⟨-, -, hvalid⟩ := hvalid
  have hnext := doQualityGate_nextAction hctx
  simp only [Delivered]
  cases hd : v.decision with
  | accept => simpa [hd] using hnext
  | revise =>
    have hkept : (doRoundFeedbackPrep (doQualityGate ctx)).reviewResult = some v := by
      simp [doRoundFeedbackPrep, doQualityGate, hctx, hd]
    simpa using feedsBack_iff hkept
  | blocked | irreconcilableDisagreement | poisonedSession =>
    simp only [hd] at hvalid hnext
    simpa using tells_of_required hvalid hnext

end Gate

namespace Sample.Revise

def text (item : String) : String :=
  "\x7bquality_score: 5, decision: revise, rationale: thin, contract_satisfied: false, " ++
  "hard_blockers_present: false, feedback_for_executor: [\"" ++ item ++ "\"]\x7d"

def verdict (item : String) : ReviewerYaml :=
  { acceptYaml with
    qualityScore := .finite 5
    decision := .revise
    rationale := "thin"
    contractSatisfied := false
    feedbackForExecutor := [item] }

scoped instance crates : Crates :=
  { Sample.crates with
    serdeYaml := fun raw =>
      if raw = text " " then .ok (verdict " ")
      else if raw = text "add a test" then .ok (verdict "add a test")
      else .error "not a sample text" }

def gated (item : String) : OrchestratorCtx :=
  { OrchestratorCtx.new args with
    runState := .qualityGate
    reviewResult := some (verdict item) }

end Sample.Revise

open Sample.Revise in
theorem delivered_addATest :
    parseReviewerYaml (text "add a test") = .ok (verdict "add a test") ∧
      Delivered (verdict "add a test") (gated "add a test") := by
  have hne : text "add a test" ≠ text " " := by decide +kernel
  have hparse : parseReviewerYaml (text "add a test") = .ok (verdict "add a test") :=
    parseReviewerYaml_eq_ok.mpr
      ⟨by decide +kernel, (if_neg hne).trans (if_pos rfl), by decide +kernel⟩
  refine ⟨hparse, (delivered_iff hparse rfl).mpr fun _ => ?_⟩
  exact ⟨"add a test", by simp [verdict], by decide⟩

open Sample.Revise in
theorem blank_feedback :
    parseReviewerYaml (text " ") = .ok (verdict " ") ∧
      (gated " ").reviewResult = some (verdict " ") ∧ ¬Delivered (verdict " ") (gated " ") := by
  have hparse : parseReviewerYaml (text " ") = .ok (verdict " ") :=
    parseReviewerYaml_eq_ok.mpr ⟨by decide +kernel, if_pos rfl, by decide +kernel⟩
  refine ⟨hparse, rfl, ?_⟩
  rintro ⟨-, hvalues⟩
  obtain ⟨_, i, item, -, hitem, htext, -⟩ := hvalues "" ""
  obtain rfl : item = " " := by simpa [verdict] using List.mem_of_getElem? hitem
  exact absurd htext (by decide)

end Orchestrator

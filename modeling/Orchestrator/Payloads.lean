import Orchestrator.Report

namespace Orchestrator

open Rust

/-- `MapKeySerializer`: a key has to be a text, a boolean or a number; not every float has a text as
a key. -/
def keyText (numberKey : YamlNumber → Option String) : YamlValue → Option String
  | .string s => some s
  | .bool b => some (if b then "true" else "false")
  | .number n => numberKey n
  | .null | .sequence _ | .mapping _ | .tagged _ _ => none

/-- `serde_json::to_value` at a YAML value, and what it can convert. -/
class SerdeJson where
  toValue : YamlValue → Option Json
  numberKey : YamlNumber → Option String
  null : toValue .null = some .null
  bool (b : Bool) : toValue (.bool b) = some (.bool b)
  number (n : YamlNumber) : (toValue (.number n)).isSome
  string (s : String) : toValue (.string s) = some (.string s)
  sequence (items : List YamlValue) :
    (toValue (.sequence items)).isSome ↔ ∀ item ∈ items, (toValue item).isSome
  mapping (entries : List (YamlValue × YamlValue)) :
    (toValue (.mapping entries)).isSome ↔
      ∀ entry ∈ entries, (keyText numberKey entry.1).isSome ∧ (toValue entry.2).isSome
  tagged (tag : String) (value : YamlValue) :
    (toValue (.tagged tag value)).isSome ↔ (toValue value).isSome

mutual

def YamlValue.keys : YamlValue → List YamlValue
  | .null | .bool _ | .number _ | .string _ => []
  | .sequence items => itemKeys items
  | .mapping entries => entryKeys entries
  | .tagged _ value => value.keys

def itemKeys : List YamlValue → List YamlValue
  | [] => []
  | item :: items => item.keys ++ itemKeys items

def entryKeys : List (YamlValue × YamlValue) → List YamlValue
  | [] => []
  | (key, value) :: entries => key :: (value.keys ++ entryKeys entries)

end

section Conversion

variable [SerdeJson]

def YamlValue.Keyed (y : YamlValue) : Prop :=
  ∀ key ∈ y.keys, (keyText SerdeJson.numberKey key).isSome = true

mutual

theorem isSome_toValue : ∀ y, (SerdeJson.toValue y).isSome ↔ y.Keyed
  | .null => by simp [SerdeJson.null, YamlValue.Keyed, YamlValue.keys]
  | .bool b => by simp [SerdeJson.bool, YamlValue.Keyed, YamlValue.keys]
  | .number n => by simp [SerdeJson.number, YamlValue.Keyed, YamlValue.keys]
  | .string s => by simp [SerdeJson.string, YamlValue.Keyed, YamlValue.keys]
  | .sequence items => by
    rw [SerdeJson.sequence, YamlValue.Keyed, YamlValue.keys]
    exact isSome_toItems items
  | .mapping entries => by
    rw [SerdeJson.mapping, YamlValue.Keyed, YamlValue.keys]
    exact isSome_toMembers entries
  | .tagged tag value => by
    rw [SerdeJson.tagged, YamlValue.Keyed, YamlValue.keys]
    exact isSome_toValue value

theorem isSome_toItems : ∀ items, (∀ item ∈ items, (SerdeJson.toValue item).isSome) ↔
    ∀ key ∈ itemKeys items, (keyText SerdeJson.numberKey key).isSome = true
  | [] => by simp [itemKeys]
  | item :: items => by
    have hitem := isSome_toValue item
    rw [YamlValue.Keyed] at hitem
    rw [List.forall_mem_cons, itemKeys, List.forall_mem_append, hitem, isSome_toItems items]

theorem isSome_toMembers : ∀ entries : List (YamlValue × YamlValue),
    (∀ entry ∈ entries, (keyText SerdeJson.numberKey entry.1).isSome ∧
      (SerdeJson.toValue entry.2).isSome) ↔
    ∀ key ∈ entryKeys entries, (keyText SerdeJson.numberKey key).isSome = true
  | [] => by simp [entryKeys]
  | (key, value) :: entries => by
    have hvalue := isSome_toValue value
    rw [YamlValue.Keyed] at hvalue
    rw [List.forall_mem_cons, entryKeys, List.forall_mem_cons, List.forall_mem_append, hvalue,
      isSome_toMembers entries, and_assoc]

end

def Absent (payload : Option YamlValue) : Prop := payload = none ∨ payload = some .null

theorem bind_toValue_eq_none_iff {payload : Option YamlValue} (hnull : payload ≠ some .null) :
    (payload.bind SerdeJson.toValue = none ↔ Absent payload) ↔
      ∀ y, payload = some y → y.Keyed := by
  cases payload with
  | none => simp [Absent]
  | some y =>
    have hkeyed : y.Keyed ↔ SerdeJson.toValue y ≠ none := by
      rw [← isSome_toValue, Option.isSome_iff_ne_none]
    have hpresent : ¬Absent (some y) := by simpa [Absent] using hnull
    simp [hpresent, hkeyed]

end Conversion

def ReviewerYaml.payloads (v : ReviewerYaml) : List (Option YamlValue) :=
  [v.findings, v.checksPerformed, v.verificationCommands]

structure PayloadsShown (v : ReviewerYaml) (report : FinalReport) : Prop where
  findings : report.reviewerFindings = none ↔ Absent v.findings
  checks : report.reviewerChecks = none ↔ Absent v.checksPerformed
  commands : report.reviewerVerificationCommands = none ↔ Absent v.verificationCommands

section Report

variable [Crates]

/-- `serde_yaml` reads a null for an optional field as if the field were missing. -/
def NullsMissing : Prop :=
  ∀ raw v, Crates.serdeYaml raw = .ok v → some .null ∉ v.payloads

variable [SerdeJson] {raw : String} {v : ReviewerYaml} {ctx : OrchestratorCtx}

/-- The payloads of a verdict all reach the report, unless one of them has a key in it that JSON
cannot have. -/
theorem payloads_shown_iff (hnull : NullsMissing) (hparse : parseReviewerYaml raw = .ok v)
    (hctx : ctx.reviewResult = some v) :
    PayloadsShown v (buildReport SerdeJson.toValue ctx) ↔ ∀ y, some y ∈ v.payloads → y.Keyed := by
  have hread := hnull raw v (parseReviewerYaml_eq_ok.mp hparse).2.1
  simp only [ReviewerYaml.payloads, List.mem_cons, List.not_mem_nil, or_false, not_or] at hread
  obtain ⟨hfindings, hchecks, hcommands⟩ := hread
  have hall : (∀ y, some y ∈ v.payloads → y.Keyed) ↔ (∀ y, v.findings = some y → y.Keyed) ∧
      (∀ y, v.checksPerformed = some y → y.Keyed) ∧
      ∀ y, v.verificationCommands = some y → y.Keyed := by
    simp only [ReviewerYaml.payloads, List.mem_cons, List.not_mem_nil, or_false, or_imp,
      forall_and, eq_comm]
  rw [hall, ← bind_toValue_eq_none_iff (Ne.symm hfindings),
    ← bind_toValue_eq_none_iff (Ne.symm hchecks), ← bind_toValue_eq_none_iff (Ne.symm hcommands)]
  constructor
  · rintro ⟨hf, hc, hv⟩
    exact ⟨by simpa [buildReport, hctx] using hf, by simpa [buildReport, hctx] using hc,
      by simpa [buildReport, hctx] using hv⟩
  · rintro ⟨hf, hc, hv⟩
    exact ⟨by simpa [buildReport, hctx] using hf, by simpa [buildReport, hctx] using hc,
      by simpa [buildReport, hctx] using hv⟩

end Report

namespace Sample.Findings

def text (key : String) : String :=
  "\x7bquality_score: 9, decision: accept, rationale: ok, contract_satisfied: true, " ++
  "hard_blockers_present: false, feedback_for_executor: [], findings: \x7b" ++ key ++
  ": unused import\x7d\x7d"

def verdict (key : YamlValue) : ReviewerYaml :=
  { acceptYaml with findings := some (.mapping [(key, .string "unused import")]) }

scoped instance crates : Crates :=
  { Sample.crates with
    serdeYaml := fun raw =>
      if raw = text "null" then .ok (verdict .null)
      else if raw = text "7" then .ok (verdict (.number (.int 7)))
      else .error "not a sample text" }

def insertMember (member : String × Json) : List (String × Json) → List (String × Json)
  | [] => [member]
  | first :: rest =>
    if member.1 < first.1 then member :: first :: rest
    else if member.1 = first.1 then member :: rest
    else first :: insertMember member rest

def number : YamlNumber → Json
  | .int (.ofNat n) => .natural n
  | .int (.negSucc n) => .otherNumber (toString (Int.negSucc n))
  | .float _ => .null

def numberKey : YamlNumber → Option String
  | .int n => some (toString n)
  | .float _ => none

mutual

def toValue : YamlValue → Option Json
  | .null => some .null
  | .bool b => some (.bool b)
  | .number n => some (number n)
  | .string s => some (.string s)
  | .sequence items => (toItems items).map .array
  | .mapping entries => (toMembers entries).map fun members =>
      .object (members.foldl (fun object member => insertMember member object) [])
  | .tagged tag value => (toValue value).map fun v => .object [("!" ++ tag, v)]

def toItems : List YamlValue → Option (List Json)
  | [] => some []
  | item :: items => (toValue item).bind fun v => (toItems items).map (v :: ·)

def toMembers : List (YamlValue × YamlValue) → Option (List (String × Json))
  | [] => some []
  | (key, value) :: entries => (keyText numberKey key).bind fun k => (toValue value).bind fun v =>
      (toMembers entries).map ((k, v) :: ·)

end

theorem toItems_isSome (items : List YamlValue) :
    (toItems items).isSome ↔ ∀ item ∈ items, (toValue item).isSome := by
  induction items with
  | nil => simp [toItems]
  | cons item items ih =>
    rw [List.forall_mem_cons, ← ih, toItems]
    cases toValue item <;> simp

theorem toMembers_isSome (entries : List (YamlValue × YamlValue)) :
    (toMembers entries).isSome ↔
      ∀ entry ∈ entries, (keyText numberKey entry.1).isSome ∧ (toValue entry.2).isSome := by
  induction entries with
  | nil => simp [toMembers]
  | cons entry entries ih =>
    obtain ⟨key, value⟩ := entry
    rw [List.forall_mem_cons, ← ih, toMembers]
    cases keyText numberKey key with
    | none => simp
    | some k => cases toValue value <;> simp

scoped instance : SerdeJson where
  toValue := toValue
  numberKey := numberKey
  null := rfl
  bool _ := rfl
  number _ := rfl
  string _ := rfl
  sequence items := by rw [toValue, Option.isSome_map, toItems_isSome]
  mapping entries := by rw [toValue, Option.isSome_map, toMembers_isSome]
  tagged tag value := by rw [toValue, Option.isSome_map]

theorem nullsMissing : NullsMissing := by
  intro raw v h
  simp only [Crates.serdeYaml] at h
  split at h
  · cases h
    simp [ReviewerYaml.payloads, verdict, acceptYaml]
  · split at h
    · cases h
      simp [ReviewerYaml.payloads, verdict, acceptYaml]
    · cases h

def accepted (key : YamlValue) : OrchestratorCtx :=
  { OrchestratorCtx.new args with runState := .runDone, reviewResult := some (verdict key) }

end Sample.Findings

open Sample.Findings in
theorem payloads_shown_line :
    NullsMissing ∧ parseReviewerYaml (text "7") = .ok (verdict (.number (.int 7))) ∧
      PayloadsShown (verdict (.number (.int 7)))
        (buildReport SerdeJson.toValue (accepted (.number (.int 7)))) := by
  have hne : text "7" ≠ text "null" := by decide +kernel
  have hparse : parseReviewerYaml (text "7") = .ok (verdict (.number (.int 7))) :=
    parseReviewerYaml_eq_ok.mpr
      ⟨by decide +kernel, (if_neg hne).trans (if_pos rfl), by decide +kernel⟩
  refine ⟨nullsMissing, hparse, (payloads_shown_iff nullsMissing hparse rfl).mpr ?_⟩
  intro y hy key hkey
  obtain rfl : y = .mapping [(.number (.int 7), .string "unused import")] := by
    simpa [ReviewerYaml.payloads, verdict, Sample.acceptYaml] using hy
  obtain rfl : key = .number (.int 7) := by simpa [YamlValue.keys, entryKeys] using hkey
  rfl

open Sample.Findings in
theorem findings_lost :
    NullsMissing ∧ parseReviewerYaml (text "null") = .ok (verdict .null) ∧
      (accepted .null).reviewResult = some (verdict .null) ∧
      ¬PayloadsShown (verdict .null) (buildReport SerdeJson.toValue (accepted .null)) := by
  have hparse : parseReviewerYaml (text "null") = .ok (verdict .null) :=
    parseReviewerYaml_eq_ok.mpr ⟨by decide +kernel, if_pos rfl, by decide +kernel⟩
  refine ⟨nullsMissing, hparse, rfl, ?_⟩
  intro hshown
  obtain habsent | habsent := hshown.findings.mp rfl
  · cases habsent
  · cases habsent

end Orchestrator

import Orchestrator.Printing

namespace Orchestrator

open Rust Exec

def YamlValue.text? : YamlValue → Option String
  | string s => some s
  | _ => none

namespace ReviewerYaml

def optionalTexts (v : ReviewerYaml) : List (Option String) :=
  [v.checksPerformed.bind YamlValue.text?, v.findings.bind YamlValue.text?,
    v.verificationCommands.bind YamlValue.text?, v.blockingReason, v.irreconcilableReason,
    v.poisonedSessionReason]

def texts (v : ReviewerYaml) : List String :=
  v.rationale :: (v.feedbackForExecutor ++ v.optionalTexts.filterMap id)

end ReviewerYaml

def yamlBool : Bool → String
  | true => "true"
  | false => "false"

inductive Slot
  | omitted
  | null
  | text (x : Scalar)

namespace Slot

def Prints : Slot → Option String → Prop
  | omitted, o => o = none
  | null, o => o = none
  | text x, o => ∃ s, o = some s ∧ x.Prints s

def PrintsPayload (slot : Slot) (o : Option YamlValue) : Prop :=
  ∃ t : Option String, o = t.map .string ∧ slot.Prints t

def blocks (key : String) : Slot → List Block
  | omitted => []
  | null => [.fixed ((key ++ ": ").toList ++ "null".toList)]
  | text x => [.text (key ++ ": ").toList x]

end Slot

/-- What the schema leaves open about the text of a verdict. -/
structure Layout where
  score : List Char
  decisionQuoted : Bool
  rationale : Scalar
  notionNull : Bool
  indent : Nat
  feedback : List Scalar
  checks : Slot
  findings : Slot
  commands : Slot
  blocking : Slot
  irreconcilable : Slot
  poisoned : Slot
  newline : Bool

namespace Layout

def decisionText (d : Layout) (decision : ReviewDecision) : String :=
  if d.decisionQuoted then "\"" ++ decision.asStr ++ "\"" else decision.asStr

def notionBlocks (d : Layout) : Option Bool → List Block
  | some b => [.fixed ("notion_requirements_satisfied: " ++ yamlBool b).toList]
  | none => if d.notionNull then [.fixed "notion_requirements_satisfied: null".toList] else []

def item (d : Layout) : List Char := List.replicate d.indent ' ' ++ "- ".toList

def feedbackBlocks (d : Layout) : List Block :=
  if d.feedback.isEmpty then [.fixed "feedback_for_executor: []".toList]
  else .fixed "feedback_for_executor:".toList :: d.feedback.map (.text d.item)

def slots (d : Layout) : List (String × Slot) :=
  [("checks_performed", d.checks), ("findings", d.findings),
    ("verification_commands", d.commands), ("blocking_reason", d.blocking),
    ("irreconcilable_reason", d.irreconcilable), ("poisoned_session_reason", d.poisoned)]

def blocks (d : Layout) (v : ReviewerYaml) : List Block :=
  [.fixed ("quality_score: ".toList ++ d.score),
    .fixed ("decision: " ++ d.decisionText v.decision).toList,
    .text "rationale: ".toList d.rationale,
    .fixed ("contract_satisfied: " ++ yamlBool v.contractSatisfied).toList,
    .fixed ("hard_blockers_present: " ++ yamlBool v.hardBlockersPresent).toList] ++
  d.notionBlocks v.notionRequirementsSatisfied ++ d.feedbackBlocks ++
    d.slots.flatMap fun slot => slot.2.blocks slot.1

def text (d : Layout) (v : ReviewerYaml) : String :=
  String.ofList (unlines ((d.blocks v).flatMap Block.lines ++ if d.newline then [[]] else []))

def scalars (d : Layout) (v : ReviewerYaml) : List Scalar := (d.blocks v).flatMap Block.scalars

structure Prints (d : Layout) (v : ReviewerYaml) : Prop where
  score : ∀ c ∈ d.score, c.isAlphanum = true ∨ c ∈ ['.', '+', '-']
  rationale : d.rationale.Prints v.rationale
  feedback : List.Forall₂ Scalar.Prints d.feedback v.feedbackForExecutor
  checks : d.checks.PrintsPayload v.checksPerformed
  findings : d.findings.PrintsPayload v.findings
  commands : d.commands.PrintsPayload v.verificationCommands
  blocking : d.blocking.Prints v.blockingReason
  irreconcilable : d.irreconcilable.Prints v.irreconcilableReason
  poisoned : d.poisoned.Prints v.poisonedSessionReason

end Layout

theorem ReviewerYaml.mem_texts_of_optional {v : ReviewerYaml} {s : String}
    (h : some s ∈ v.optionalTexts) : s ∈ v.texts :=
  List.mem_cons_of_mem _ (List.mem_append_right _ (List.mem_filterMap.mpr ⟨some s, h, rfl⟩))

namespace Slot

variable {slot : Slot} {key : String} {texts : List String}

theorem sound {o : Option String} (hkey : Tame (key ++ ": ").toList) (h : slot.Prints o)
    (htexts : ∀ s, o = some s → s ∈ texts) : ∀ b ∈ slot.blocks key, b.Sound texts := by
  cases slot with
  | omitted => simp [blocks]
  | null =>
    simp only [blocks, List.mem_singleton, forall_eq]
    exact hkey.append (by decide +kernel)
  | text x =>
    obtain ⟨s, hs, hx⟩ := h
    simp only [blocks, List.mem_singleton, forall_eq]
    exact ⟨hkey, s, htexts s hs, hx⟩

theorem PrintsPayload.prints {o : Option YamlValue} (h : slot.PrintsPayload o) :
    slot.Prints (o.bind YamlValue.text?) := by
  obtain ⟨t, rfl, hslot⟩ := h
  cases t <;> exact hslot

end Slot

namespace Layout

variable {d : Layout} {v : ReviewerYaml}

theorem tame_scoreChar {c : Char} (h : c.isAlphanum = true ∨ c ∈ ['.', '+', '-']) :
    tameChar c = true := by
  have hne (d : Char) (hd : d.isAlphanum = false ∧ d ∉ ['.', '+', '-']) : c ≠ d := by
    rintro rfl
    obtain hc | hc := h
    · simp [hc] at hd
    · exact hd.2 hc
  simp [tameChar, Indicator.isMarker, hne '&' (by decide), hne '*' (by decide),
    hne '!' (by decide), hne '`' (by decide), hne '\n' (by decide)]

theorem tame_decision (d : Layout) (decision : ReviewDecision) :
    Tame ("decision: " ++ d.decisionText decision).toList := by
  rw [decisionText]
  cases d.decisionQuoted <;> cases decision <;> decide +kernel

theorem notion_sound {texts : List String} (notion : Option Bool) :
    ∀ b ∈ d.notionBlocks notion, b.Sound texts := by
  cases notion with
  | none =>
    rw [notionBlocks]
    split
    · have htame : Tame "notion_requirements_satisfied: null".toList := by decide +kernel
      simpa [Block.Sound] using htame
    · simp
  | some b =>
    simp only [notionBlocks, List.mem_singleton, forall_eq, Block.Sound]
    cases b <;> decide +kernel

theorem tame_item (d : Layout) : Tame d.item := by
  have hlead : (List.replicate d.indent ' ').all tameChar = true := by
    simp only [List.all_eq_true, List.mem_replicate]
    rintro _ ⟨-, rfl⟩
    decide
  refine ⟨?_, ?_, ?_⟩
  · rw [item, List.all_append, hlead]
    decide +kernel
  · simp [item]
  · rw [item]
    match d.indent with
    | 0 => decide +kernel
    | 1 => decide +kernel
    | n + 2 => simp [List.replicate_succ]

theorem feedback_sound {texts : List String}
    (h : ∀ x ∈ d.feedback, ∃ s ∈ texts, x.Prints s) :
    ∀ b ∈ d.feedbackBlocks, b.Sound texts := by
  rw [feedbackBlocks]
  split
  · have htame : Tame "feedback_for_executor: []".toList := by decide +kernel
    simpa [Block.Sound] using htame
  · have htame : Tame "feedback_for_executor:".toList := by decide +kernel
    refine List.forall_mem_cons.mpr ⟨htame, ?_⟩
    simp only [List.mem_map, forall_exists_index, and_imp, forall_apply_eq_imp_iff₂]
    exact fun x hx => ⟨d.tame_item, h x hx⟩

theorem Prints.feedback_texts (h : d.Prints v) :
    ∀ x ∈ d.feedback, ∃ s ∈ v.texts, x.Prints s := by
  have hlist : ∀ {xs : List Scalar} {ss : List String}, List.Forall₂ Scalar.Prints xs ss →
      ∀ x ∈ xs, ∃ s ∈ ss, x.Prints s := by
    intro xs ss hall
    induction hall with
    | nil => simp
    | cons hx _ ih =>
      refine List.forall_mem_cons.mpr ⟨⟨_, List.mem_cons_self .., hx⟩, fun x hmem => ?_⟩
      obtain ⟨s, hs, hprints⟩ := ih x hmem
      exact ⟨s, List.mem_cons_of_mem _ hs, hprints⟩
  intro x hx
  obtain ⟨s, hs, hprints⟩ := hlist h.feedback x hx
  exact ⟨s, List.mem_cons_of_mem _ (List.mem_append_left _ hs), hprints⟩

theorem Prints.slots_sound (h : d.Prints v) :
    ∀ b ∈ d.slots.flatMap fun slot => slot.2.blocks slot.1, b.Sound v.texts := by
  have htexts (o : Option String) (ho : o ∈ v.optionalTexts) (s : String) (hs : o = some s) :
      s ∈ v.texts := ReviewerYaml.mem_texts_of_optional (hs ▸ ho)
  simp only [slots, List.flatMap_cons, List.flatMap_nil, List.append_nil, List.forall_mem_append]
  refine ⟨Slot.sound ?_ h.checks.prints (htexts _ ?_),
    Slot.sound ?_ h.findings.prints (htexts _ ?_),
    Slot.sound ?_ h.commands.prints (htexts _ ?_), Slot.sound ?_ h.blocking (htexts _ ?_),
    Slot.sound ?_ h.irreconcilable (htexts _ ?_), Slot.sound ?_ h.poisoned (htexts _ ?_)⟩
  all_goals first | decide +kernel | simp [ReviewerYaml.optionalTexts]

theorem Prints.sound (h : d.Prints v) : ∀ b ∈ d.blocks v, b.Sound v.texts := by
  have hscore : Tame ("quality_score: ".toList ++ d.score) :=
    Tame.append (by decide +kernel)
      (List.all_eq_true.mpr fun c hc => tame_scoreChar (h.score c hc))
  have hbool (key : String) (hkey : Tame key.toList) (b : Bool) :
      Tame (key ++ yamlBool b).toList := by
    rw [String.toList_append]
    refine hkey.append ?_
    cases b <;> decide +kernel
  simp only [blocks, List.forall_mem_append, List.forall_mem_cons, Block.Sound]
  refine ⟨⟨⟨⟨hscore, d.tame_decision _, ⟨by decide +kernel, v.rationale, ?_, h.rationale⟩,
    hbool _ (by decide +kernel) _, hbool _ (by decide +kernel) _, by simp⟩,
    notion_sound _⟩, feedback_sound h.feedback_texts⟩, h.slots_sound⟩
  exact List.mem_cons_self ..

theorem toList_text : (d.text v).toList =
    unlines ((d.blocks v).flatMap Block.lines ++ if d.newline then [[]] else []) := by
  rw [text, String.toList_ofList]

theorem Prints.forall_lines (h : d.Prints v) {P : List Char → Prop} (hnil : P [])
    (hblock : ∀ b : Block, b.Sound v.texts → ∀ line ∈ b.lines, P line) :
    ∀ line ∈ (d.blocks v).flatMap Block.lines ++ (if d.newline then [[]] else []), P line := by
  refine List.forall_mem_append.mpr ⟨fun line hline => ?_, ?_⟩
  · obtain ⟨b, hb, hline⟩ := List.mem_flatMap.mp hline
    exact hblock b (h.sound b hb) line hline
  · split <;> simp [hnil]

theorem Prints.no_fence (h : d.Prints v) (hfence : ∀ s ∈ v.texts, contains s "```" = false) :
    contains (d.text v) "```" = false := by
  have htexts : ∀ s ∈ v.texts, ¬fence <:+: s.toList :=
    fun s hs => of_decide_eq_false (hfence s hs)
  refine decide_eq_false fun hinside => ?_
  rw [toList_text] at hinside
  obtain ⟨line, hline, hfound⟩ := infix_of_unlines (by decide +kernel) (by decide +kernel) hinside
  exact h.forall_lines (P := fun line => ¬fence <:+: line) (by decide)
    (fun _ => Block.no_fence htexts) line hline hfound

theorem Prints.no_separator (h : d.Prints v) : contains (d.text v) "\n---" = false := by
  refine decide_eq_false fun hinside => ?_
  rw [toList_text] at hinside
  have hbreak : '\n' :: dashes <:+: unlines ((d.blocks v).flatMap Block.lines ++
      if d.newline then [[]] else []) := hinside
  obtain ⟨line, hline, hfound⟩ := infix_of_break_unlines (by decide) hbreak
  exact h.forall_lines (P := fun line => ¬(dashes <+: line ∨ '\n' :: dashes <:+: line))
    (by decide) (fun _ => Block.no_separator) line hline hfound

theorem Prints.marked_eq (h : d.Prints v) (kind : Indicator) :
    kind.marked .indent (d.text v).toList = (d.scalars v).any (Scalar.marked kind) := by
  have htail : (if d.newline then [([] : List Char)] else []).any (kind.marked .indent) =
      false := by
    cases d.newline <;> rfl
  rw [toList_text, Indicator.marked_unlines, List.any_append, htail, Bool.or_false, scalars,
    List.any_flatMap, List.any_flatMap, Bool.eq_iff_iff, List.any_eq_true, List.any_eq_true]
  exact exists_congr fun b => and_congr_right fun hb => by
    rw [Block.any_marked kind (h.sound b hb)]

end Layout

section Accepted

variable [Crates] {d : Layout} {v : ReviewerYaml}

/-- The loader reads one document, and the deserializer the value that the text stands for. -/
structure ReadsBack (raw : String) (v : ReviewerYaml) : Prop where
  loaded : Crates.yamlLoad raw = .ok 1
  deserialized : Crates.serdeYaml raw = .ok v

/-- A printed verdict is read back exactly when the patterns take nothing in its strings for a
marker. -/
theorem printed_accepted_iff (hsearch : SearchesPatterns) (hprints : d.Prints v)
    (hvalid : validateReviewerYaml v = .ok ())
    (hfence : ∀ s ∈ v.texts, contains s "```" = false) (hback : ReadsBack (d.text v) v) :
    parseReviewerYaml (d.text v) = .ok v ↔
      ∀ x ∈ d.scalars v, ∀ kind : Indicator, x.marked kind = false := by
  have hkinds : (∀ kind : Indicator, kind.marked .indent (d.text v).toList = false) ↔
      ∀ x ∈ d.scalars v, ∀ kind : Indicator, x.marked kind = false := by
    simp only [hprints.marked_eq, List.any_eq_false, Bool.not_eq_true]
    exact ⟨fun h x hx kind => h kind x hx, fun h kind x hx => h x hx kind⟩
  rw [parseReviewerYaml_eq_ok, prescan_eq_ok hsearch, hkinds]
  constructor
  · exact fun h => h.1.2.2.1
  · exact fun h => ⟨⟨hprints.no_fence hfence, hprints.no_separator, h, hback.loaded⟩,
      hback.deserialized, hvalid⟩

end Accepted

namespace Sample.Printed

def verdict (rationale : String) : ReviewerYaml where
  qualityScore := .finite 5
  decision := .revise
  rationale := rationale
  contractSatisfied := false
  hardBlockersPresent := false
  notionRequirementsSatisfied := some true
  feedbackForExecutor := ["Run the tests."]
  checksPerformed := some (.string "cargo test")
  findings := none
  verificationCommands := none
  blockingReason := none
  irreconcilableReason := none
  poisonedSessionReason := none

def layout (rationale : String) : Layout where
  score := ['5']
  decisionQuoted := true
  rationale := .literal none .strip 2 [rationale.toList]
  notionNull := false
  indent := 2
  feedback := [.literal none .strip 4 ["Run the tests.".toList]]
  checks := .text (.quoted "cargo test".toList)
  findings := .omitted
  commands := .omitted
  blocking := .null
  irreconcilable := .null
  poisoned := .null
  newline := false

def printed (rationale : String) : String := (layout rationale).text (verdict rationale)

def calm : String := "The tests do not pass."

def pointer : String := "*ptr is read after it is freed."

scoped instance crates : Crates :=
  { Sample.Texts.crates with
    yamlLoad := fun _ => .ok 1
    serdeYaml := fun raw =>
      if raw = printed calm then .ok (verdict calm)
      else if raw = printed pointer then .ok (verdict pointer)
      else .error "not a sample text" }

theorem searchesPatterns : SearchesPatterns := Sample.Texts.searchesPatterns

theorem prints {rationale : String} (h : '\n' ∉ rationale.toList) :
    (layout rationale).Prints (verdict rationale) where
  score := by simp [layout]
  rationale := ⟨by simp [unlines, Chomp.ending, verdict], by simpa using h, by decide, by simp⟩
  feedback :=
    .cons ⟨by simp [unlines, Chomp.ending], by decide +kernel, by decide, by simp⟩ .nil
  checks := ⟨some "cargo test", rfl, _, rfl, Quoted.of_plain (by decide +kernel)⟩
  findings := ⟨none, rfl, rfl⟩
  commands := ⟨none, rfl, rfl⟩
  blocking := rfl
  irreconcilable := rfl
  poisoned := rfl

theorem readsBack_calm : ReadsBack (printed calm) (verdict calm) := ⟨rfl, if_pos rfl⟩

theorem readsBack_pointer : ReadsBack (printed pointer) (verdict pointer) := by
  have hne : printed pointer ≠ printed calm := by
    intro heq
    have hlines := congrArg String.toList heq
    rw [printed, printed, Layout.toList_text, Layout.toList_text] at hlines
    exact absurd hlines (by decide +kernel)
  exact ⟨rfl, (if_neg hne).trans (if_pos rfl)⟩

end Sample.Printed

open Sample.Printed in
theorem printed_accepted_calm :
    parseReviewerYaml (printed calm) = .ok (verdict calm) := by
  have hclean : ∀ kind ∈ [Indicator.anchor, .aliased, .tag],
      ∀ x ∈ (layout calm).scalars (verdict calm), x.marked kind = false := by decide +kernel
  refine (printed_accepted_iff Sample.Printed.searchesPatterns (prints (by decide +kernel))
    (by decide +kernel) (by decide +kernel) readsBack_calm).mpr fun x hx kind => ?_
  exact hclean kind (by cases kind <;> decide) x hx

open Sample.Printed in
theorem pointer_rejected :
    SearchesPatterns ∧ (layout pointer).Prints (verdict pointer) ∧
      validateReviewerYaml (verdict pointer) = .ok () ∧
      (∀ s ∈ (verdict pointer).texts, contains s "```" = false) ∧
      ReadsBack (printed pointer) (verdict pointer) ∧
      parseReviewerYaml (printed pointer) =
        .error (.artifactContract "YAML alias in reviewer output") := by
  have hprints : (layout pointer).Prints (verdict pointer) := prints (by decide +kernel)
  have hfence : ∀ s ∈ (verdict pointer).texts, contains s "```" = false := by decide +kernel
  have hmatch (kind : Indicator) : Crates.regexIsMatch kind.pattern (printed pointer) =
      ((layout pointer).scalars (verdict pointer)).any (Scalar.marked kind) :=
    (regexIsMatch_eq Sample.Printed.searchesPatterns kind _).trans (hprints.marked_eq kind)
  have hanchor : Crates.regexIsMatch anchorPattern (printed pointer) = false :=
    (hmatch .anchor).trans (by decide +kernel)
  have halias : Crates.regexIsMatch aliasPattern (printed pointer) = true :=
    (hmatch .aliased).trans (by decide +kernel)
  have hplain : contains (printed pointer) "```" = false := hprints.no_fence hfence
  have hone : contains (printed pointer) "\n---" = false := hprints.no_separator
  have hprescan : prescanReviewerYaml (printed pointer) =
      .error (.artifactContract "YAML alias in reviewer output") := by
    rw [prescanReviewerYaml, hplain, hone, hanchor, halias]
    rfl
  refine ⟨Sample.Printed.searchesPatterns, hprints, by decide +kernel, hfence,
    readsBack_pointer, ?_⟩
  rw [parseReviewerYaml, hprescan]

end Orchestrator

import Orchestrator.Lib.Regex
import Orchestrator.Run

/-! The pre-scan of reviewer YAML, and the event stream that YAML 1.2 gives a text. -/

namespace Orchestrator

open Rust Exec

def isBlank (c : Char) : Bool := c == ' ' || c == '\t'

def isNameStart (c : Char) : Bool := c.isAlpha || c == '_'

def isNameChar (c : Char) : Bool := c.isAlphanum || c == '_' || c == '-'

inductive Indicator
  | anchor | aliased | tag
  deriving DecidableEq

namespace Indicator

def pattern : Indicator → String
  | anchor => anchorPattern
  | aliased => aliasPattern
  | tag => tagPattern

def char (c : Char) : Regex := .one (· == c)

/-- `[ \t]*` -/
def blanks : Regex := .many isBlank

/-- `[ \t]+` -/
def blanks1 : Regex := .seq (.one isBlank) (.many isBlank)

/-- `(?:^[ \t]*(?:-[ \t]+)?|:[ \t]+|,[ \t]*)` -/
def valueStart : Regex :=
  .alt (.seq .lineStart (.seq blanks (.opt (.seq (char '-') blanks1))))
    (.alt (.seq (char ':') blanks1) (.seq (char ',') blanks))

def named (c : Char) : Regex := .seq (char c) (.seq (.one isNameStart) (.many isNameChar))

def marker : Indicator → Regex
  | anchor => named '&'
  | aliased => named '*'
  | tag => .seq (char '!') (.seq (.opt (char '!')) (.one Char.isAlpha))

def regex (kind : Indicator) : Regex := .seq valueStart kind.marker

def heads : Indicator → List Char → Bool
  | anchor, c :: d :: _ => c == '&' && isNameStart d
  | aliased, c :: d :: _ => c == '*' && isNameStart d
  | tag, c :: d :: cs =>
    c == '!' && (d.isAlpha || d == '!' && (cs.head?.map Char.isAlpha).getD false)
  | _, _ => false

theorem named_heads {c : Char} {before after : List Char} :
    (∃ w rest, after = w ++ rest ∧ (named c).Matches before w) ↔
      ∃ d rest, after = c :: d :: rest ∧ isNameStart d = true := by
  simp only [named, char, Regex.Matches]
  constructor
  · rintro ⟨_, rest, rfl, _, _, rfl, ⟨c', hc', rfl⟩, _, v, rfl, ⟨d, hd, rfl⟩, -⟩
    obtain rfl : c' = c := by simpa using hc'
    exact ⟨d, v ++ rest, by simp, hd⟩
  · rintro ⟨d, rest, rfl, hd⟩
    exact ⟨[c, d], rest, rfl, [c], [d], rfl, ⟨c, by simp, rfl⟩, [d], [], rfl, ⟨d, hd, rfl⟩, by simp⟩

theorem tag_heads {before after : List Char} :
    (∃ w rest, after = w ++ rest ∧ (marker tag).Matches before w) ↔
      (∃ d rest, after = '!' :: d :: rest ∧ d.isAlpha = true) ∨
        ∃ d rest, after = '!' :: '!' :: d :: rest ∧ d.isAlpha = true := by
  simp only [marker, char, Regex.Matches]
  constructor
  · rintro ⟨_, rest, rfl, _, _, rfl, ⟨c, hc, rfl⟩, u, _, rfl, hu, d, hd, rfl⟩
    obtain rfl : c = '!' := by simpa using hc
    obtain rfl | ⟨c, hc, rfl⟩ := hu
    · exact .inl ⟨d, rest, rfl, hd⟩
    · obtain rfl : c = '!' := by simpa using hc
      exact .inr ⟨d, rest, rfl, hd⟩
  · rintro (⟨d, rest, rfl, hd⟩ | ⟨d, rest, rfl, hd⟩)
    · exact ⟨['!', d], rest, rfl, ['!'], [d], rfl, ⟨'!', rfl, rfl⟩, [], [d], rfl, .inl rfl,
        d, hd, rfl⟩
    · exact ⟨['!', '!', d], rest, rfl, ['!'], ['!', d], rfl, ⟨'!', rfl, rfl⟩, ['!'], [d], rfl,
        .inr ⟨'!', rfl, rfl⟩, d, hd, rfl⟩

theorem heads_iff {kind : Indicator} {before after : List Char} :
    (∃ w rest, after = w ++ rest ∧ kind.marker.Matches before w) ↔ kind.heads after = true := by
  cases kind with
  | anchor =>
    rw [marker, named_heads]
    cases after with
    | nil => simp [heads]
    | cons c cs => cases cs <;> simp [heads, and_assoc]
  | aliased =>
    rw [marker, named_heads]
    cases after with
    | nil => simp [heads]
    | cons c cs => cases cs <;> simp [heads, and_assoc]
  | tag =>
    rw [tag_heads]
    cases after with
    | nil => simp [heads]
    | cons c cs =>
      cases cs with
      | nil => simp [heads]
      | cons d ds => cases ds <;> simp [heads, and_or_left, and_assoc]

end Indicator

inductive Place
  | indent | dash | colon | value | text
  deriving DecidableEq

namespace Place

def blank : Place → Place
  | indent => indent
  | text => text
  | _ => value

def next (p : Place) (c : Char) : Place :=
  if c = '\n' then indent
  else if c = ':' then colon
  else if c = ',' then value
  else if isBlank c then p.blank
  else if c = '-' ∧ p = indent then dash
  else text

def after (before : List Char) : Place := before.foldl next indent

def accepts (p : Place) : Bool := p = indent ∨ p = value

theorem after_snoc (before : List Char) (c : Char) :
    after (before ++ [c]) = (after before).next c := by
  simp [after]

open Regex Indicator

theorem reaches_char_snoc {before : List Char} {c d : Char} :
    (char c).Reaches (before ++ [d]) ↔ d = c := by
  rw [char, reaches_one_snoc, beq_iff_eq]

theorem reaches_indent {before : List Char} :
    (seq lineStart blanks).Reaches before ↔ after before = indent := by
  induction before using List.reverseRecOn with
  | nil => simp [blanks, reaches_seq_many_nil, reaches_lineStart, after]
  | append_singleton before c ih =>
    rw [blanks] at ih
    rw [blanks, reaches_seq_many_snoc, reaches_lineStart, ih, after_snoc, startsLine_snoc]
    cases after before <;> grind [next, blank, isBlank]

theorem reaches_dash {before : List Char} :
    (seq (seq lineStart blanks) (char '-')).Reaches before ↔ after before = dash := by
  induction before using List.reverseRecOn with
  | nil => simp [char, not_reaches_seq_one_nil, after]
  | append_singleton before c ih =>
    rw [char, reaches_seq_one_snoc, reaches_indent, after_snoc]
    cases after before <;> grind [next, blank, isBlank]

theorem reaches_colon {before : List Char} :
    (char ':').Reaches before ↔ after before = colon := by
  induction before using List.reverseRecOn with
  | nil => simp [char, not_reaches_one_nil, after]
  | append_singleton before c ih =>
    rw [reaches_char_snoc, after_snoc]
    cases after before <;> grind [next, blank, isBlank]

theorem reaches_value {before : List Char} :
    (seq (seq (seq (seq lineStart blanks) (char '-')) (one isBlank)) blanks).Reaches before ∨
      (seq (seq (char ':') (one isBlank)) blanks).Reaches before ∨
        (seq (char ',') blanks).Reaches before ↔ after before = value := by
  induction before using List.reverseRecOn with
  | nil =>
    simp [blanks, char, reaches_seq_many_nil, not_reaches_seq_one_nil, not_reaches_one_nil, after]
  | append_singleton before c ih =>
    rw [after_snoc, blanks, reaches_seq_many_snoc, reaches_seq_many_snoc, reaches_seq_many_snoc,
      reaches_seq_one_snoc, reaches_seq_one_snoc, reaches_char_snoc, ← blanks, reaches_dash,
      reaches_colon]
    generalize after before = p at ih ⊢
    cases p <;> grind [next, blank, isBlank]

theorem reaches_valueStart {before : List Char} :
    valueStart.Reaches before ↔ (after before).accepts = true := by
  rw [valueStart, reaches_alt, reaches_alt, reaches_seq_assoc, reaches_seq_opt, reaches_indent,
    blanks1, reaches_seq_assoc, reaches_seq_assoc, reaches_seq_assoc, ← blanks, or_assoc,
    reaches_value, accepts, decide_eq_true_eq]

end Place

namespace Indicator

def marked (kind : Indicator) (p : Place) : List Char → Bool
  | [] => false
  | c :: cs => p.accepts && kind.heads (c :: cs) || kind.marked (p.next c) cs

theorem heads_nil (kind : Indicator) : kind.heads [] = false := by
  cases kind <;> rfl

theorem marked_iff {kind : Indicator} {p : Place} {text : List Char} :
    kind.marked p text = true ↔ ∃ before after, text = before ++ after ∧
      (before.foldl Place.next p).accepts = true ∧ kind.heads after = true := by
  induction text generalizing p with
  | nil => simp [marked, heads_nil]
  | cons c cs ih =>
    rw [marked, Bool.or_eq_true, Bool.and_eq_true, ih]
    constructor
    · rintro (⟨hp, hheads⟩ | ⟨before, after, rfl, hplace, hheads⟩)
      · exact ⟨[], c :: cs, rfl, hp, hheads⟩
      · exact ⟨c :: before, after, rfl, hplace, hheads⟩
    · rintro ⟨before, after, heq, hplace, hheads⟩
      cases before with
      | nil =>
        obtain rfl : c :: cs = after := heq
        exact .inl ⟨hplace, hheads⟩
      | cons d before =>
        obtain ⟨rfl, rfl⟩ := List.cons.inj heq
        exact .inr ⟨before, after, rfl, hplace, hheads⟩

theorem isMatch_iff {kind : Indicator} {text : List Char} :
    kind.regex.IsMatch text ↔ kind.marked .indent text = true := by
  rw [regex, Regex.isMatch_seq, marked_iff]
  simp only [heads_iff, Place.reaches_valueStart, Place.after]

end Indicator

inductive EventKind
  | streamStart | streamEnd | documentStart | documentEnd | aliased | scalar
  | sequenceStart | sequenceEnd | mappingStart | mappingEnd
  deriving DecidableEq

/-- An anchor or a tag of a node, or an alias; its indicator stands at `offset`. -/
structure Property where
  kind : Indicator
  offset : Nat

structure Event where
  kind : EventKind
  properties : List Property

/-- The patterns see the indicator of the property where it stands. -/
def Seen (raw : String) (p : Property) : Prop :=
  (Place.after (raw.toList.take p.offset)).accepts = true ∧
    p.kind.heads (raw.toList.drop p.offset) = true

section Accepted

variable [Crates]

/-- `Regex::is_match` searches a text for the patterns of the pre-scan. -/
def SearchesPatterns : Prop := ∀ (kind : Indicator) (text : String),
  Crates.regexIsMatch kind.pattern text = true ↔ kind.regex.IsMatch text.toList

theorem regexIsMatch_eq (hsearch : SearchesPatterns) (kind : Indicator) (text : String) :
    Crates.regexIsMatch kind.pattern text = kind.marked .indent text.toList := by
  rw [Bool.eq_iff_iff, hsearch, Indicator.isMatch_iff]

theorem prescan_eq_ok (hsearch : SearchesPatterns) {raw : String} :
    prescanReviewerYaml raw = .ok () ↔ contains raw "```" = false ∧
      contains raw "\n---" = false ∧ (∀ kind : Indicator, kind.marked .indent raw.toList = false) ∧
        Crates.yamlLoad raw = .ok 1 := by
  have hkinds : (∀ kind : Indicator, kind.marked .indent raw.toList = false) ↔
      Crates.regexIsMatch anchorPattern raw = false ∧
        Crates.regexIsMatch aliasPattern raw = false ∧
          Crates.regexIsMatch tagPattern raw = false := by
    simp only [← regexIsMatch_eq hsearch]
    exact ⟨fun h => ⟨h .anchor, h .aliased, h .tag⟩,
      fun ⟨ha, hb, hc⟩ kind => by cases kind <;> assumption⟩
  rw [hkinds]
  simp only [prescanReviewerYaml, protocolError, ite_error_eq_ok, Bool.not_eq_true]
  cases Crates.yamlLoad raw with
  | error e => simp
  | ok n => simp [and_assoc]

theorem not_seen_of_accepted (hsearch : SearchesPatterns) {raw : String}
    (h : prescanReviewerYaml raw = .ok ()) (p : Property) : ¬Seen raw p := by
  rintro ⟨hplace, hheads⟩
  have hmarked : p.kind.marked .indent raw.toList = true :=
    Indicator.marked_iff.mpr ⟨_, _, (List.take_append_drop p.offset _).symm, hplace, hheads⟩
  simp [((prescan_eq_ok hsearch).mp h).2.2.1] at hmarked

end Accepted

/-- YAML 1.2: the event stream of a well-formed text. -/
class Yaml where
  events : String → Option (List Event)

section Events

variable [Crates] [Yaml]

def documents (events : List Event) : Nat := events.countP (·.kind = .documentStart)

/-- What the loader loads is a stream, with its documents. -/
def LoadsStreams : Prop := ∀ raw n, Crates.yamlLoad raw = .ok n →
  ∃ events, Yaml.events raw = some events ∧ documents events = n

def Plain (raw : String) : Prop :=
  ∃ events, Yaml.events raw = some events ∧ documents events = 1 ∧
    ∀ event ∈ events, event.properties = []

/-- An accepted text is one document, and a plain one unless the patterns miss something. -/
theorem plain_iff (hsearch : SearchesPatterns) (hload : LoadsStreams) {raw : String}
    (h : prescanReviewerYaml raw = .ok ()) : Plain raw ↔
      ∀ events, Yaml.events raw = some events → ∀ event ∈ events, ∀ p ∈ event.properties,
        Seen raw p := by
  constructor
  · rintro ⟨events, hevents, -, hplain⟩ events' hevents' event hevent p hp
    obtain rfl : events = events' := Option.some.inj (hevents.symm.trans hevents')
    simp [hplain event hevent] at hp
  · intro hseen
    obtain ⟨events, hevents, hone⟩ := hload raw 1 ((prescan_eq_ok hsearch).mp h).2.2.2
    refine ⟨events, hevents, hone, fun event hevent => ?_⟩
    rw [List.eq_nil_iff_forall_not_mem]
    exact fun p hp => not_seen_of_accepted hsearch h p (hseen events hevents event hevent p hp)

end Events

namespace Sample.Texts

def plainText : String := "rationale: ok\n"

def anchoredText : String := "findings: [&x y]\n"

def event (kind : EventKind) : Event := ⟨kind, []⟩

def mappingOf (value : List Event) : List Event :=
  [event .streamStart, event .documentStart, event .mappingStart, event .scalar] ++ value ++
    [event .mappingEnd, event .documentEnd, event .streamEnd]

scoped instance : Yaml where
  events text :=
    if text = plainText then some (mappingOf [event .scalar])
    else if text = anchoredText then
      some (mappingOf [event .sequenceStart, ⟨.scalar, [⟨.anchor, 11⟩]⟩, event .sequenceEnd])
    else none

scoped instance crates : Crates :=
  { Sample.crates with
    regexIsMatch := fun pattern text =>
      [Indicator.anchor, .aliased, .tag].any fun kind =>
        decide (pattern = kind.pattern) && kind.marked .indent text.toList
    yamlLoad := fun text =>
      match Yaml.events text with
      | some events => .ok (documents events)
      | none => .error "not a sample text" }

theorem searchesPatterns : SearchesPatterns := by
  intro kind text
  have hne : anchorPattern ≠ aliasPattern ∧ anchorPattern ≠ tagPattern ∧
      aliasPattern ≠ tagPattern := by decide
  rw [Indicator.isMatch_iff]
  cases kind <;> simp [Crates.regexIsMatch, Indicator.pattern, hne, hne.1.symm, hne.2.1.symm,
    hne.2.2.symm]

theorem loadsStreams : LoadsStreams := by
  intro raw n h
  simp only [Crates.yamlLoad] at h
  cases hevents : Yaml.events raw with
  | none => simp [hevents] at h
  | some events => exact ⟨events, rfl, by simpa [hevents] using h⟩

end Sample.Texts

open Sample.Texts in
theorem plain_plainText :
    prescanReviewerYaml plainText = .ok () ∧ Plain plainText := by
  have haccepted : prescanReviewerYaml plainText = .ok () := by decide +kernel
  refine ⟨haccepted, (plain_iff searchesPatterns loadsStreams haccepted).mpr ?_⟩
  intro events hevents event hevent p hp
  obtain rfl : mappingOf [Sample.Texts.event .scalar] = events := Option.some.inj hevents
  have hnone : ∀ e ∈ mappingOf [Sample.Texts.event .scalar], e.properties = [] := by
    simp [mappingOf, Sample.Texts.event]
  simp [hnone event hevent] at hp

open Sample.Texts in
theorem anchor_accepted : SearchesPatterns ∧ LoadsStreams ∧
    prescanReviewerYaml anchoredText = .ok () ∧ ¬Plain anchoredText := by
  refine ⟨searchesPatterns, loadsStreams, by decide +kernel, ?_⟩
  rintro ⟨events, hevents, -, hplain⟩
  obtain rfl : mappingOf [event .sequenceStart, ⟨.scalar, [⟨.anchor, 11⟩]⟩, event .sequenceEnd] =
      events := Option.some.inj hevents
  have hanchor : (⟨.scalar, [⟨.anchor, 11⟩]⟩ : Event) ∈
      mappingOf [event .sequenceStart, ⟨.scalar, [⟨.anchor, 11⟩]⟩, event .sequenceEnd] := by
    simp [mappingOf]
  simpa using hplain _ hanchor

end Orchestrator

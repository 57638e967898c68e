import Orchestrator.Prescan

/-! Strings as YAML scalars, and what the pre-scan and the search for fences see in them. -/

namespace Orchestrator

open Rust Exec

def unlines : List (List Char) → List Char
  | [] => []
  | [line] => line
  | line :: second :: lines => line ++ '\n' :: unlines (second :: lines)

theorem infix_unlines {line : List Char} {lines : List (List Char)} (h : line ∈ lines) :
    line <:+: unlines lines := by
  induction lines with
  | nil => simp at h
  | cons first lines ih =>
    cases lines with
    | nil =>
      obtain rfl : line = first := by simpa using h
      exact List.infix_rfl
    | cons second lines =>
      obtain rfl | hmem := List.mem_cons.mp h
      · exact (List.prefix_append _ _).isInfix
      · have hrest := ih hmem
        exact hrest.trans ((List.suffix_cons _ _).trans (List.suffix_append _ _)).isInfix

theorem prefix_append_of_not_mem {pat line rest : List Char} {q : Char} (hpat : q ∉ pat)
    (h : pat <+: line ++ q :: rest) : pat <+: line := by
  obtain hline | ⟨tail, rfl⟩ := List.prefix_or_prefix_of_prefix h (List.prefix_append line _)
  · exact hline
  · rw [List.prefix_append_right_inj] at h
    cases tail with
    | nil => simp
    | cons c tail =>
      obtain ⟨rfl, -⟩ := List.cons_prefix_cons.mp h
      simp at hpat

theorem infix_append_of_not_mem {pat line rest : List Char} {q : Char} (hpat : q ∉ pat)
    (h : pat <:+: line ++ q :: rest) : pat <:+: line ∨ pat <:+: rest := by
  induction line with
  | nil =>
    obtain hstart | hinside := List.infix_cons_iff.mp h
    · exact .inl (@prefix_append_of_not_mem _ [] _ _ hpat hstart).isInfix
    · exact .inr hinside
  | cons c line ih =>
    obtain hstart | hinside := List.infix_cons_iff.mp h
    · exact .inl (@prefix_append_of_not_mem _ (c :: line) _ _ hpat hstart).isInfix
    · obtain hline | hrest := ih hinside
      · exact .inl (hline.trans (List.suffix_cons _ _).isInfix)
      · exact .inr hrest

theorem infix_of_unlines {pat : List Char} {lines : List (List Char)} (hpat : '\n' ∉ pat)
    (hne : pat ≠ []) (h : pat <:+: unlines lines) : ∃ line ∈ lines, pat <:+: line := by
  induction lines with
  | nil => exact absurd (List.eq_nil_of_infix_nil h) hne
  | cons line lines ih =>
    cases lines with
    | nil => exact ⟨line, by simp, h⟩
    | cons second lines =>
      obtain hline | hrest := infix_append_of_not_mem hpat h
      · exact ⟨line, by simp, hline⟩
      · obtain ⟨found, hmem, hfound⟩ := ih hrest
        exact ⟨found, List.mem_cons_of_mem _ hmem, hfound⟩

theorem infix_after_line {pat line rest : List Char} (hpat : '\n' ∉ pat)
    (h : '\n' :: pat <:+: line ++ '\n' :: rest) :
    '\n' :: pat <:+: line ∨ pat <+: rest ∨ '\n' :: pat <:+: rest := by
  induction line with
  | nil =>
    obtain hstart | hinside := List.infix_cons_iff.mp h
    · exact .inr (.inl (List.cons_prefix_cons.mp hstart).2)
    · exact .inr (.inr hinside)
  | cons c line ih =>
    obtain hstart | hinside := List.infix_cons_iff.mp h
    · obtain ⟨rfl, htail⟩ := List.cons_prefix_cons.mp hstart
      have hline := prefix_append_of_not_mem hpat htail
      exact .inl (List.cons_prefix_cons.mpr ⟨rfl, hline⟩).isInfix
    · obtain hline | hrest := ih hinside
      · exact .inl (hline.trans (List.suffix_cons _ _).isInfix)
      · exact .inr hrest

theorem prefix_of_prefix_unlines {pat line : List Char} {lines : List (List Char)}
    (hpat : '\n' ∉ pat) (h : pat <+: unlines (line :: lines)) : pat <+: line := by
  cases lines with
  | nil => exact h
  | cons second lines => exact prefix_append_of_not_mem hpat h

theorem infix_of_break_unlines {pat : List Char} {lines : List (List Char)} (hpat : '\n' ∉ pat)
    (h : '\n' :: pat <:+: unlines lines) :
    ∃ line ∈ lines, pat <+: line ∨ '\n' :: pat <:+: line := by
  induction lines with
  | nil => exact absurd (List.eq_nil_of_infix_nil h) (by simp)
  | cons line lines ih =>
    cases lines with
    | nil => exact ⟨line, by simp, .inr h⟩
    | cons second lines =>
      obtain hline | hstart | hinside := infix_after_line hpat h
      · exact ⟨line, by simp, .inr hline⟩
      · exact ⟨second, by simp, .inl (prefix_of_prefix_unlines hpat hstart)⟩
      · obtain ⟨found, hmem, hfound⟩ := ih hinside
        exact ⟨found, List.mem_cons_of_mem _ hmem, hfound⟩

theorem infix_skip {q : Char} {pat lead rest : List Char} (hlead : q ∉ lead)
    (h : q :: pat <:+: lead ++ rest) : q :: pat <:+: rest := by
  induction lead with
  | nil => exact h
  | cons c lead ih =>
    obtain ⟨hc, hlead⟩ := not_or.mp (List.mem_cons.not.mp hlead)
    obtain hstart | hinside := List.infix_cons_iff.mp h
    · exact absurd (List.cons_prefix_cons.mp hstart).1 hc
    · exact ih hlead hinside

namespace Indicator

def isMarker (c : Char) : Bool := c == '&' || c == '*' || c == '!'

theorem heads_of_not_marker {kind : Indicator} {c : Char} {cs : List Char}
    (h : isMarker c = false) : kind.heads (c :: cs) = false := by
  cases kind <;> cases cs <;> simp_all [heads, isMarker]

theorem heads_append {kind : Indicator} {cs rest : List Char} {q : Char}
    (hq : (isMarker q || isNameStart q) = false) :
    kind.heads (cs ++ q :: rest) = kind.heads cs := by
  obtain ⟨hmarker, hname⟩ := Bool.or_eq_false_iff.mp hq
  have halpha : q.isAlpha = false := (Bool.or_eq_false_iff.mp hname).1
  have hbang : (q == '!') = false := (Bool.or_eq_false_iff.mp hmarker).2
  match cs with
  | [] => simp [heads_of_not_marker hmarker, heads_nil]
  | [c] => cases kind <;> simp [heads, hname, halpha, hbang]
  | [c, d] => cases kind <;> simp [heads, halpha]
  | c :: d :: e :: cs => cases kind <;> rfl

theorem marked_append {kind : Indicator} {p : Place} {cs rest : List Char} {q : Char}
    (hq : (isMarker q || isNameStart q) = false) : kind.marked p (cs ++ q :: rest) =
      (kind.marked p cs || kind.marked ((cs.foldl Place.next p).next q) rest) := by
  induction cs generalizing p with
  | nil =>
    have hmarker := (Bool.or_eq_false_iff.mp hq).1
    simp [marked, heads_of_not_marker hmarker]
  | cons c cs ih =>
    rw [List.cons_append, marked, marked, ih, ← List.cons_append, heads_append hq,
      List.foldl_cons, Bool.or_assoc]

theorem next_newline (p : Place) : p.next '\n' = .indent := rfl

theorem marked_unlines (kind : Indicator) (lines : List (List Char)) :
    kind.marked .indent (unlines lines) = lines.any (kind.marked .indent) := by
  induction lines with
  | nil => rfl
  | cons line lines ih =>
    cases lines with
    | nil => simp [unlines]
    | cons second lines =>
      rw [unlines, marked_append (by decide), next_newline, ih]
      rfl

theorem marked_skip {kind : Indicator} {p : Place} {lead rest : List Char}
    (h : ∀ c ∈ lead, isMarker c = false) :
    kind.marked p (lead ++ rest) = kind.marked (lead.foldl Place.next p) rest := by
  induction lead generalizing p with
  | nil => rfl
  | cons c lead ih =>
    obtain ⟨hc, hlead⟩ := List.forall_mem_cons.mp h
    rw [List.cons_append, marked, heads_of_not_marker hc, Bool.and_false, Bool.false_or, ih hlead,
      List.foldl_cons]

theorem not_marked {kind : Indicator} {p : Place} {line : List Char}
    (h : ∀ c ∈ line, isMarker c = false) : kind.marked p line = false := by
  rw [← List.append_nil line, marked_skip h]
  rfl

end Indicator

inductive Chomp
  | strip | clip | keep

def Chomp.char : Chomp → List Char
  | strip => ['-']
  | clip => []
  | keep => ['+']

def Chomp.ending : Chomp → List Char
  | strip => []
  | clip | keep => ['\n']

/-- How a string is printed: as a literal block scalar with its lines, or double-quoted. -/
inductive Scalar
  | literal (indicator : Option Char) (chomp : Chomp) (indent : Nat) (lines : List (List Char))
  | quoted (body : List Char)

def simpleEscapes : List (Char × Char) :=
  [('0', '\x00'), ('a', '\x07'), ('b', '\x08'), ('t', '\t'), ('\t', '\t'), ('n', '\n'),
    ('v', '\x0b'), ('f', '\x0c'), ('r', '\r'), ('e', '\x1b'), (' ', ' '), ('"', '"'),
    ('/', '/'), ('\\', '\\'), ('N', '\x85'), ('_', '\xa0'), ('L', '\u2028'), ('P', '\u2029')]

def hexDigit (c : Char) : Option Nat :=
  if c.isDigit then some (c.toNat - '0'.toNat)
  else if 'a' ≤ c ∧ c ≤ 'f' then some (c.toNat - 'a'.toNat + 10)
  else if 'A' ≤ c ∧ c ≤ 'F' then some (c.toNat - 'A'.toNat + 10)
  else none

def hexValue (n : Nat) : List Char → Option Nat
  | [] => some n
  | c :: digits => (hexDigit c).bind fun d => hexValue (n * 16 + d) digits

inductive Escape : List Char → Char → Prop
  | simple {e c : Char} : (e, c) ∈ simpleEscapes → Escape [e] c
  | hex {e c : Char} {digits : List Char} : (e, digits.length) ∈ [('x', 2), ('u', 4), ('U', 8)] →
      hexValue 0 digits = some c.toNat → Escape (e :: digits) c

/-- What the line feeds between two lines of a double-quoted scalar stand for. -/
def folded : Nat → List Char
  | 0 => [' ']
  | k => List.replicate k '\n'

def beginsLine (body : List Char) : Prop := ∀ c ∈ body.head?, isBlank c = false ∧ c ≠ '\n'

/-- The inside of a double-quoted scalar, and what it stands for. -/
inductive Quoted : List Char → List Char → Prop
  | nil : Quoted [] []
  | plain {c : Char} {body text : List Char} : c ≠ '"' → c ≠ '\\' → c ≠ '\n' →
      (isBlank c = true → body.head? ≠ some '\n') → Quoted body text →
      Quoted (c :: body) (c :: text)
  | escaped {e : List Char} {c : Char} {body text : List Char} : Escape e c → Quoted body text →
      Quoted ('\\' :: (e ++ body)) (c :: text)
  | wrapped {k n : Nat} {body text : List Char} : beginsLine body → Quoted body text →
      Quoted (List.replicate (k + 1) '\n' ++ (List.replicate n ' ' ++ ' ' :: body))
        (folded k ++ text)
  | joined {n : Nat} {body text : List Char} : beginsLine body → Quoted body text →
      Quoted ('\\' :: (List.replicate 1 '\n' ++ (List.replicate n ' ' ++ ' ' :: body))) text

namespace Scalar

def Prints : Scalar → String → Prop
  | literal indicator chomp indent lines, s => s.toList = unlines lines ++ chomp.ending ∧
      (∀ line ∈ lines, '\n' ∉ line) ∧ 0 < indent ∧ ∀ c ∈ indicator, c.isDigit = true
  | quoted body, s => Quoted body s.toList

def indented (indent : Nat) (line : List Char) : List Char :=
  if line.isEmpty then [] else List.replicate indent ' ' ++ line

def lines (lead : List Char) : Scalar → List (List Char)
  | literal indicator chomp indent ls =>
    (lead ++ '|' :: (indicator.toList ++ chomp.char)) :: ls.map (indented indent)
  | quoted body => [lead ++ '"' :: body ++ ['"']]

def marked (kind : Indicator) : Scalar → Bool
  | literal _ _ _ ls => ls.any (kind.marked .indent)
  | quoted body => kind.marked .text body

end Scalar

def fence : List Char := ['`', '`', '`']

def dashes : List Char := ['-', '-', '-']

def tameChar (c : Char) : Bool := !Indicator.isMarker c && c != '`' && c != '\n'

structure Tame (lead : List Char) : Prop where
  chars : lead.all tameChar = true
  long : 2 ≤ lead.length
  start : lead.take 2 ≠ ['-', '-']

instance (lead : List Char) : Decidable (Tame lead) :=
  decidable_of_iff (lead.all tameChar = true ∧ 2 ≤ lead.length ∧ lead.take 2 ≠ ['-', '-'])
    ⟨fun ⟨chars, long, start⟩ => ⟨chars, long, start⟩, fun h => ⟨h.chars, h.long, h.start⟩⟩

theorem Tame.plain {lead : List Char} (h : Tame lead) :
    ∀ c ∈ lead, Indicator.isMarker c = false ∧ c ≠ '`' ∧ c ≠ '\n' := by
  simpa [tameChar, and_assoc] using h.chars

theorem Tame.append {lead rest : List Char} (hlead : Tame lead)
    (hrest : rest.all tameChar = true) : Tame (lead ++ rest) where
  chars := by rw [List.all_append, hlead.chars, hrest, Bool.and_self]
  long := by
    rw [List.length_append]
    exact hlead.long.trans (Nat.le_add_right _ _)
  start := by
    rw [List.take_append_of_le_length hlead.long]
    exact hlead.start

theorem Tame.not_dashes {lead : List Char} (h : Tame lead) (rest : List Char) :
    ¬dashes <+: lead ++ rest := by
  intro hstart
  have htake := (hstart.take 2).eq_of_length (by simp [dashes]; have := h.long; omega)
  rw [List.take_append_of_le_length h.long] at htake
  exact h.start htake.symm

theorem not_infix_fence {line : List Char} (h : '`' ∉ line) : ¬fence <:+: line :=
  fun hinside => h (hinside.subset (by decide))

theorem hexDigit_of_hexValue {digits : List Char} {n value : Nat}
    (h : hexValue n digits = some value) : ∀ d ∈ digits, (hexDigit d).isSome := by
  induction digits generalizing n with
  | nil => simp
  | cons c digits ih =>
    obtain ⟨d, hd, hrest⟩ := Option.bind_eq_some_iff.mp h
    exact List.forall_mem_cons.mpr ⟨by simp [hd], ih hrest⟩

theorem Escape.plain {e : List Char} {c : Char} (h : Escape e c) :
    ∀ d ∈ e, d ≠ '`' ∧ d ≠ '\n' := by
  cases h with
  | @simple e c he =>
    have htable : ∀ p ∈ simpleEscapes, p.1 ≠ '`' ∧ p.1 ≠ '\n' := by decide
    simpa using htable _ he
  | @hex e c digits he hvalue =>
    refine List.forall_mem_cons.mpr ⟨?_, fun d hd => ?_⟩
    · simp only [List.mem_cons, Prod.mk.injEq, List.not_mem_nil, or_false] at he
      obtain ⟨rfl, -⟩ | ⟨rfl, -⟩ | ⟨rfl, -⟩ := he <;> decide
    · have hdigit := hexDigit_of_hexValue hvalue d hd
      constructor
      · rintro rfl
        exact absurd hdigit (by decide)
      · rintro rfl
        exact absurd hdigit (by decide)

namespace Quoted

variable {body text : List Char}

theorem prefix_backticks (h : Quoted body text) (n : Nat)
    (hstart : List.replicate n '`' <+: body) : List.replicate n '`' <+: text := by
  induction h generalizing n with
  | nil => exact hstart
  | plain _ _ _ _ _ ih =>
    cases n with
    | zero => simp
    | succ n =>
      obtain ⟨rfl, hrest⟩ := List.cons_prefix_cons.mp hstart
      exact List.cons_prefix_cons.mpr ⟨rfl, ih n hrest⟩
  | escaped _ _ _ | wrapped _ _ _ | joined _ _ _ =>
    cases n with
    | zero => simp
    | succ n => exact absurd (List.cons_prefix_cons.mp hstart).1 (by decide)

theorem infix_wrap {q : Char} {pat : List Char} {k n : Nat} (hblank : q ≠ ' ') (hline : q ≠ '\n')
    (h : q :: pat <:+: List.replicate k '\n' ++ (List.replicate n ' ' ++ ' ' :: body)) :
    q :: pat <:+: body := by
  have hbreaks : q ∉ List.replicate k '\n' := by simp [List.mem_replicate, hline]
  have hindent : q ∉ List.replicate n ' ' := by simp [List.mem_replicate, hblank]
  have hrest : q :: pat <:+: [' '] ++ body := infix_skip hindent (infix_skip hbreaks h)
  exact infix_skip (by simpa using hblank) hrest

theorem infix_fence (h : Quoted body text) (hfence : fence <:+: body) : fence <:+: text := by
  induction h with
  | nil => exact hfence
  | @plain c body text hquote hback hline hblank hbody ih =>
    obtain hstart | hinside := List.infix_cons_iff.mp hfence
    · exact ((Quoted.plain hquote hback hline hblank hbody).prefix_backticks 3 hstart).isInfix
    · exact (ih hinside).trans (List.suffix_cons _ _).isInfix
  | @escaped e c body text hescape _ ih =>
    have hrest : fence <:+: ['\\'] ++ (e ++ body) := hfence
    have hescaped := infix_skip (fun hmem => (hescape.plain _ hmem).1 rfl)
      (infix_skip (by decide) hrest)
    exact (ih hescaped).trans (List.suffix_cons _ _).isInfix
  | wrapped _ _ ih =>
    have hrest := infix_wrap (by decide) (by decide) hfence
    exact (ih hrest).trans (List.suffix_append _ _).isInfix
  | @joined n body text _ _ ih =>
    have hbreak : fence <:+: ['\\'] ++ (List.replicate 1 '\n' ++
      (List.replicate n ' ' ++ ' ' :: body)) := hfence
    exact ih (infix_wrap (by decide) (by decide) (infix_skip (by decide) hbreak))

theorem infix_wrap_break {k n : Nat}
    (h : ['\n', '-'] <:+: List.replicate k '\n' ++ (List.replicate n ' ' ++ ' ' :: body)) :
    ['\n', '-'] <:+: body := by
  induction k with
  | zero =>
    have hindent : '\n' ∉ List.replicate n ' ' := by simp [List.mem_replicate]
    have hrest : ['\n', '-'] <:+: [' '] ++ body := infix_skip hindent h
    exact infix_skip (by decide) hrest
  | succ k ih =>
    obtain hstart | hinside := List.infix_cons_iff.mp h
    · have hdash := (List.cons_prefix_cons.mp hstart).2
      cases k with
      | zero =>
        cases n <;> exact absurd (List.cons_prefix_cons.mp hdash).1 (by decide)
      | succ k => exact absurd (List.cons_prefix_cons.mp hdash).1 (by decide)
    · exact ih hinside

theorem no_break (h : Quoted body text) : ¬['\n', '-'] <:+: body := by
  induction h with
  | nil => simp
  | plain _ _ hline _ _ ih =>
    intro hbreak
    obtain hstart | hinside := List.infix_cons_iff.mp hbreak
    · exact hline (List.cons_prefix_cons.mp hstart).1.symm
    · exact ih hinside
  | @escaped e c body text hescape _ ih =>
    intro hbreak
    have hrest : ['\n', '-'] <:+: ['\\'] ++ (e ++ body) := hbreak
    exact ih (infix_skip (fun hmem => (hescape.plain _ hmem).2 rfl) (infix_skip (by decide) hrest))
  | wrapped _ _ ih => exact fun hbreak => ih (infix_wrap_break hbreak)
  | @joined n body text _ _ ih =>
    intro hbreak
    have hrest : ['\n', '-'] <:+: ['\\'] ++ (List.replicate 1 '\n' ++
      (List.replicate n ' ' ++ ' ' :: body)) := hbreak
    exact ih (infix_wrap_break (infix_skip (by decide) hrest))

theorem of_plain (h : '"' ∉ text ∧ '\\' ∉ text ∧ '\n' ∉ text) : Quoted text text := by
  induction text with
  | nil => exact .nil
  | cons c text ih =>
    obtain ⟨hquote, hback, hline⟩ := h
    rw [List.mem_cons, not_or] at hquote hback hline
    refine .plain (Ne.symm hquote.1) (Ne.symm hback.1) (Ne.symm hline.1) (fun _ hhead => ?_)
      (ih ⟨hquote.2, hback.2, hline.2⟩)
    exact hline.2 (List.mem_of_head? hhead)

end Quoted

namespace Scalar

variable {x : Scalar} {s : String} {lead : List Char}

theorem marked_indented (kind : Indicator) (indent : Nat) (line : List Char) :
    kind.marked .indent (indented indent line) = kind.marked .indent line := by
  cases line with
  | nil => rfl
  | cons c line =>
    have hplace : (List.replicate indent ' ').foldl Place.next .indent = .indent := by
      induction indent with
      | zero => rfl
      | succ n ih => exact ih
    rw [indented, if_neg (by simp), Indicator.marked_skip, hplace]
    simp only [List.mem_replicate]
    rintro _ ⟨-, rfl⟩
    rfl

theorem header_plain {indicator : Option Char} {chomp : Chomp}
    (h : ∀ c ∈ indicator, c.isDigit = true) :
    ∀ c ∈ '|' :: (indicator.toList ++ chomp.char),
      Indicator.isMarker c = false ∧ c ≠ '`' ∧ c ≠ '\n' := by
  simp only [List.mem_cons, List.mem_append, Option.mem_toList]
  rintro c (rfl | hc | hc)
  · decide
  · have hdigit := h c hc
    refine ⟨?_, ?_, ?_⟩
    · rw [Bool.eq_false_iff]
      intro hmarker
      simp only [Indicator.isMarker, Bool.or_eq_true, beq_iff_eq] at hmarker
      obtain (rfl | rfl) | rfl := hmarker <;> exact absurd hdigit (by decide)
    · rintro rfl
      exact absurd hdigit (by decide)
    · rintro rfl
      exact absurd hdigit (by decide)
  · cases chomp with
    | strip | keep =>
      obtain rfl : c = _ := List.mem_singleton.mp hc
      decide
    | clip => simp [Chomp.char] at hc

theorem any_marked_lines (kind : Indicator) (hx : x.Prints s) (hlead : Tame lead) :
    (x.lines lead).any (kind.marked .indent) = x.marked kind := by
  have hplain : ∀ c ∈ lead, Indicator.isMarker c = false := fun c hc => (hlead.plain c hc).1
  cases x with
  | literal indicator chomp indent ls =>
    obtain ⟨-, -, -, hindicator⟩ := hx
    have hfirst : kind.marked .indent (lead ++ '|' :: (indicator.toList ++ chomp.char)) =
        false := by
      rw [Indicator.marked_skip hplain]
      exact Indicator.not_marked fun c hc => (header_plain hindicator c hc).1
    simp [lines, hfirst, marked, marked_indented, Function.comp_def]
  | quoted body =>
    have hquote (p : Place) : p.next '"' = .text := by cases p <;> rfl
    have hbody : kind.marked .text (body ++ ['"']) = kind.marked .text body := by
      rw [Indicator.marked_append (by decide)]
      simp [Indicator.marked]
    simp only [lines, List.any_cons, List.any_nil, Bool.or_false, marked, List.append_assoc]
    rw [Indicator.marked_skip hplain, List.cons_append, Indicator.marked,
      Indicator.heads_of_not_marker (by decide), Bool.and_false, Bool.false_or, hquote, hbody]

theorem no_break_lines (hx : x.Prints s) (hlead : Tame lead) :
    ∀ line ∈ x.lines lead, ¬( '\n' :: dashes <:+: line) := by
  have hplain : '\n' ∉ lead := fun hmem => (hlead.plain _ hmem).2.2 rfl
  cases x with
  | literal indicator chomp indent ls =>
    obtain ⟨-, hls, -, hindicator⟩ := hx
    have hhead (line : List Char) (hline : '\n' ∉ line) : ¬( '\n' :: dashes <:+: line) :=
      fun hinside => hline (hinside.subset (List.mem_cons_self ..))
    refine List.forall_mem_cons.mpr ⟨hhead _ ?_, ?_⟩
    · rw [List.mem_append, not_or]
      exact ⟨hplain, fun hmem => (header_plain hindicator _ hmem).2.2 rfl⟩
    · simp only [List.mem_map, forall_exists_index, and_imp, forall_apply_eq_imp_iff₂]
      intro line hline
      apply hhead
      rw [indented]
      split
      · simp
      · simp [hls line hline]
  | quoted body =>
    simp only [lines, List.mem_singleton, forall_eq]
    intro hinside
    rw [List.append_assoc] at hinside
    have hquoted : '\n' :: dashes <:+: ['"'] ++ (body ++ ['"']) := infix_skip hplain hinside
    obtain hbody | hend := infix_append_of_not_mem (by decide) (infix_skip (by decide) hquoted)
    · have hbreak : ['\n', '-'] <+: '\n' :: dashes := by decide
      exact Quoted.no_break hx (hbreak.isInfix.trans hbody)
    · simp at hend

theorem no_dashes_lines (hx : x.Prints s) (hlead : Tame lead) :
    ∀ line ∈ x.lines lead, ¬dashes <+: line := by
  cases x with
  | literal indicator chomp indent ls =>
    obtain ⟨-, -, hindent, -⟩ := hx
    refine List.forall_mem_cons.mpr ⟨hlead.not_dashes _, ?_⟩
    simp only [List.mem_map, forall_exists_index, and_imp, forall_apply_eq_imp_iff₂]
    intro line hline
    obtain ⟨n, rfl⟩ := Nat.exists_eq_succ_of_ne_zero hindent.ne'
    rw [indented]
    split
    · simp [dashes]
    · exact fun hstart => absurd (List.cons_prefix_cons.mp hstart).1 (by decide)
  | quoted body => simpa [lines] using hlead.not_dashes _

theorem fence_lines (hx : x.Prints s) (hlead : Tame lead) {line : List Char}
    (hline : line ∈ x.lines lead) (hfence : fence <:+: line) : fence <:+: s.toList := by
  have hplain : '`' ∉ lead := fun hmem => (hlead.plain _ hmem).2.1 rfl
  cases x with
  | literal indicator chomp indent ls =>
    obtain ⟨htext, -, -, hindicator⟩ := hx
    obtain rfl | hmem := List.mem_cons.mp hline
    · have hheader := infix_skip hplain hfence
      exact absurd hheader
        (not_infix_fence fun hmem => (header_plain hindicator _ hmem).2.1 rfl)
    · obtain ⟨l, hl, rfl⟩ := List.mem_map.mp hmem
      have hinside : fence <:+: l := by
        rw [indented] at hfence
        split at hfence
        · exact absurd hfence (not_infix_fence (by simp))
        · exact infix_skip (by simp [List.mem_replicate]) hfence
      rw [htext]
      exact hinside.trans ((infix_unlines hl).trans (List.prefix_append _ _).isInfix)
  | quoted body =>
    obtain rfl := List.mem_singleton.mp hline
    rw [List.append_assoc] at hfence
    have hquoted : fence <:+: ['"'] ++ (body ++ ['"']) := infix_skip hplain hfence
    obtain hbody | hend := infix_append_of_not_mem (by decide) (infix_skip (by decide) hquoted)
    · exact Quoted.infix_fence hx hbody
    · exact absurd hend (not_infix_fence (by simp))

theorem marked_literal {indicator : Option Char} {chomp : Chomp} {indent : Nat}
    {ls : List (List Char)} (kind : Indicator)
    (hx : (literal indicator chomp indent ls).Prints s) :
    (literal indicator chomp indent ls).marked kind = true ↔ kind.regex.IsMatch s.toList := by
  have hend : kind.marked .indent (unlines ls ++ chomp.ending) =
      kind.marked .indent (unlines ls) := by
    cases chomp with
    | strip => rw [Chomp.ending, List.append_nil]
    | clip | keep =>
      rw [Chomp.ending, Indicator.marked_append (by decide)]
      simp [Indicator.marked]
  rw [Indicator.isMatch_iff, hx.1, hend, Indicator.marked_unlines]
  rfl

end Scalar

inductive Block
  | fixed (line : List Char)
  | text (lead : List Char) (x : Scalar)

namespace Block

def lines : Block → List (List Char)
  | fixed line => [line]
  | text lead x => x.lines lead

def scalars : Block → List Scalar
  | fixed _ => []
  | text _ x => [x]

def Sound (texts : List String) : Block → Prop
  | fixed line => Tame line
  | text lead x => Tame lead ∧ ∃ s ∈ texts, x.Prints s

variable {texts : List String} {b : Block}

theorem any_marked (kind : Indicator) (h : b.Sound texts) :
    b.lines.any (kind.marked .indent) = b.scalars.any (Scalar.marked kind) := by
  cases b with
  | fixed line =>
    have hline : kind.marked .indent line = false :=
      Indicator.not_marked fun c hc => (h.plain c hc).1
    simp [lines, scalars, hline]
  | text lead x =>
    obtain ⟨hlead, s, -, hx⟩ := h
    simp [lines, scalars, Scalar.any_marked_lines kind hx hlead]

theorem no_separator (h : b.Sound texts) :
    ∀ line ∈ b.lines, ¬(dashes <+: line ∨ '\n' :: dashes <:+: line) := by
  cases b with
  | fixed line =>
    simp only [lines, List.mem_singleton, forall_eq, not_or]
    refine ⟨?_, fun hinside => (h.plain '\n' (hinside.subset (List.mem_cons_self ..))).2.2 rfl⟩
    simpa using h.not_dashes []
  | text lead x =>
    obtain ⟨hlead, s, -, hx⟩ := h
    intro line hline
    exact not_or.mpr ⟨Scalar.no_dashes_lines hx hlead line hline,
      Scalar.no_break_lines hx hlead line hline⟩

theorem no_fence (htexts : ∀ s ∈ texts, ¬fence <:+: s.toList) (h : b.Sound texts) :
    ∀ line ∈ b.lines, ¬fence <:+: line := by
  cases b with
  | fixed line =>
    simp only [lines, List.mem_singleton, forall_eq]
    exact not_infix_fence fun hmem => (h.plain _ hmem).2.1 rfl
  | text lead x =>
    obtain ⟨hlead, s, hs, hx⟩ := h
    exact fun line hline hinside => htexts s hs (Scalar.fence_lines hx hlead hline hinside)

end Block

end Orchestrator

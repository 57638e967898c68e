import Mathlib.Data.List.Basic
import Mathlib.Data.List.Infix
import Mathlib.Tactic.Common

/-! JSON texts, by the grammar of RFC 8259, and why no part of an object is a text. -/

namespace Rfc8259

def IsSpace (c : Char) : Prop := c ∈ [' ', '\t', '\n', '\r']

instance (c : Char) : Decidable (IsSpace c) := inferInstanceAs (Decidable (c ∈ _))

def Ws (cs : List Char) : Prop := ∀ c ∈ cs, IsSpace c

def IsDigit (c : Char) : Prop := '0' ≤ c ∧ c ≤ '9'

instance (c : Char) : Decidable (IsDigit c) := inferInstanceAs (Decidable (_ ∧ _))

def IsHexDigit (c : Char) : Prop := IsDigit c ∨ 'a' ≤ c ∧ c ≤ 'f' ∨ 'A' ≤ c ∧ c ≤ 'F'

instance (c : Char) : Decidable (IsHexDigit c) := inferInstanceAs (Decidable (_ ∨ _ ∧ _ ∨ _ ∧ _))

def Digits (cs : List Char) : Prop := cs ≠ [] ∧ ∀ c ∈ cs, IsDigit c

inductive Natural : List Char → Prop
  | zero : Natural ['0']
  | digits {c : Char} {cs : List Char} : IsDigit c → c ≠ '0' → (∀ d ∈ cs, IsDigit d) →
      Natural (c :: cs)

inductive Fraction : List Char → Prop
  | none : Fraction []
  | digits {cs : List Char} : Digits cs → Fraction ('.' :: cs)

inductive Exponent : List Char → Prop
  | none : Exponent []
  | digits {e : Char} {sign cs : List Char} : e ∈ ['e', 'E'] → sign ∈ [[], ['+'], ['-']] →
      Digits cs → Exponent (e :: sign ++ cs)

inductive Number : List Char → Prop
  | mk {sign int frac exp : List Char} : sign ∈ [[], ['-']] → Natural int → Fraction frac →
      Exponent exp → Number (sign ++ int ++ frac ++ exp)

def escapes : List Char := ['"', '\\', '/', 'b', 'f', 'n', 'r', 't', 'u']

inductive Chars : List Char → Prop
  | nil : Chars []
  | plain {c : Char} {cs : List Char} : 0x20 ≤ c.toNat → c ≠ '"' → c ≠ '\\' → Chars cs →
      Chars (c :: cs)
  | escape {c : Char} {cs : List Char} : c ∈ escapes → c ≠ 'u' → Chars cs →
      Chars ('\\' :: c :: cs)
  | unicode {ds cs : List Char} : ds.length = 4 → (∀ d ∈ ds, IsHexDigit d) → Chars cs →
      Chars ('\\' :: 'u' :: ds ++ cs)

theorem chars_of_plain {cs : List Char} (h : ∀ c ∈ cs, 0x20 ≤ c.toNat ∧ c ≠ '"' ∧ c ≠ '\\') :
    Chars cs := by
  induction cs with
  | nil => exact .nil
  | cons c cs ih =>
    obtain ⟨⟨hprint, hquote, hback⟩, hcs⟩ := List.forall_mem_cons.mp h
    exact .plain hprint hquote hback (ih hcs)

inductive Symbol
  | text | value | elements | members

inductive Derives : Symbol → List Char → Prop
  | text {w v w' : List Char} : Ws w → Derives .value v → Ws w' → Derives .text (w ++ v ++ w')
  | literal {cs : List Char} :
      cs ∈ [['n', 'u', 'l', 'l'], ['t', 'r', 'u', 'e'], ['f', 'a', 'l', 's', 'e']] →
      Derives .value cs
  | number {cs : List Char} : Number cs → Derives .value cs
  | string {cs : List Char} : Chars cs → Derives .value ('"' :: cs ++ ['"'])
  | emptyArray {w : List Char} : Ws w → Derives .value ('[' :: w ++ [']'])
  | array {cs : List Char} : Derives .elements cs → Derives .value ('[' :: cs ++ [']'])
  | emptyObject {w : List Char} : Ws w → Derives .value ('{' :: w ++ ['}'])
  | object {cs : List Char} : Derives .members cs → Derives .value ('{' :: cs ++ ['}'])
  | element {cs : List Char} : Derives .text cs → Derives .elements cs
  | elements {cs ds : List Char} : Derives .text cs → Derives .elements ds →
      Derives .elements (cs ++ ',' :: ds)
  | member {w k w' cs : List Char} : Ws w → Chars k → Ws w' → Derives .text cs →
      Derives .members (w ++ ('"' :: k ++ ['"']) ++ w' ++ ':' :: cs)
  | members {w k w' cs ds : List Char} : Ws w → Chars k → Ws w' → Derives .text cs →
      Derives .members ds →
      Derives .members (w ++ ('"' :: k ++ ['"']) ++ w' ++ ':' :: cs ++ ',' :: ds)

def IsText (cs : List Char) : Prop := Derives .text cs

section Compact

variable {k cs ds : List Char}

theorem Derives.isText (h : Derives .value cs) : IsText cs := by
  simpa [IsText] using Derives.text (List.forall_mem_nil IsSpace) h (List.forall_mem_nil IsSpace)

theorem Derives.field (hk : Chars k) (h : IsText cs) :
    Derives .members ('"' :: k ++ ['"', ':'] ++ cs) := by
  simpa using Derives.member (List.forall_mem_nil IsSpace) hk (List.forall_mem_nil IsSpace) h

theorem Derives.fields (hk : Chars k) (h : IsText cs) (hrest : Derives .members ds) :
    Derives .members ('"' :: k ++ ['"', ':'] ++ cs ++ ',' :: ds) := by
  simpa using
    Derives.members (List.forall_mem_nil IsSpace) hk (List.forall_mem_nil IsSpace) h hrest

end Compact

def IsObject (cs : List Char) : Prop := Derives .value cs ∧ cs.head? = some '{'

inductive Mode
  | outside | inside | escaped
  deriving DecidableEq

/-- Where a reader is: in or out of a string, and within how many brackets. -/
structure State where
  mode : Mode
  depth : Int
  deriving DecidableEq

def next (s : State) (c : Char) : Option State :=
  match s.mode with
  | .outside =>
    if c = '"' then some ⟨.inside, s.depth⟩
    else if c = '\\' ∨ 0x80 ≤ c.toNat then none
    else if c ∈ ['{', '['] then some ⟨.outside, s.depth + 1⟩
    else if c ∈ ['}', ']'] then some ⟨.outside, s.depth - 1⟩
    else some s
  | .inside =>
    if c = '"' then some ⟨.outside, s.depth⟩
    else if c = '\\' then some ⟨.escaped, s.depth⟩
    else some s
  | .escaped => if c ∈ escapes then some ⟨.inside, s.depth⟩ else none

def scan (s : State) (cs : List Char) : Option State := cs.foldlM next s

@[simp] theorem scan_nil (s : State) : scan s [] = some s := rfl

@[simp] theorem scan_cons (s : State) (c : Char) (cs : List Char) :
    scan s (c :: cs) = (next s c).bind fun t => scan t cs := rfl

theorem scan_append (s : State) (cs ds : List Char) :
    scan s (cs ++ ds) = (scan s cs).bind fun t => scan t ds := List.foldlM_append

/-- Read in the mode `m`, `cs` ends where it starts and never leaves the brackets around it. -/
structure Nested (m : Mode) (cs : List Char) : Prop where
  balanced : ∀ d, scan ⟨m, d⟩ cs = some ⟨m, d⟩
  above : ∀ p d t, p <+: cs → scan ⟨m, d⟩ p = some t → d ≤ t.depth

namespace Nested

variable {m : Mode} {cs ds : List Char} {a b c : Char}

theorem nil : Nested m [] where
  balanced _ := rfl
  above p d t hp ht := by
    obtain rfl := List.prefix_nil.mp hp
    obtain rfl := Option.some.inj ht
    exact Int.le_refl d

theorem append (hc : Nested m cs) (hd : Nested m ds) : Nested m (cs ++ ds) where
  balanced d := by rw [scan_append, hc.balanced, Option.bind_some, hd.balanced]
  above p d t hp ht := by
    obtain hle | ⟨q, rfl⟩ := List.prefix_or_prefix_of_prefix hp (List.prefix_append cs ds)
    · exact hc.above p d t hle ht
    · rw [scan_append, hc.balanced, Option.bind_some] at ht
      exact hd.above q d t ((List.prefix_append_right_inj cs).mp hp) ht

theorem single (h : ∀ d, next ⟨m, d⟩ c = some ⟨m, d⟩) : Nested m [c] where
  balanced d := by rw [scan_cons, h, Option.bind_some, scan_nil]
  above p d t hp ht := by
    obtain rfl | rfl : p = [] ∨ p = [c] := by simpa [← List.mem_inits] using hp
    · exact nil.above [] d t List.nil_prefix ht
    · rw [scan_cons, h, Option.bind_some, scan_nil] at ht
      obtain rfl := Option.some.inj ht
      exact Int.le_refl d

theorem all (h : ∀ c ∈ cs, ∀ d, next ⟨m, d⟩ c = some ⟨m, d⟩) : Nested m cs := by
  induction cs with
  | nil => exact nil
  | cons c cs ih =>
    obtain ⟨hc, hcs⟩ := List.forall_mem_cons.mp h
    exact (single hc).append (ih hcs)

theorem wrap (m' : Mode) {k : Int} (hk : 0 ≤ k) (ha : ∀ d, next ⟨m, d⟩ a = some ⟨m', d + k⟩)
    (hb : ∀ d, next ⟨m', d + k⟩ b = some ⟨m, d⟩) (h : Nested m' cs) :
    Nested m (a :: cs ++ [b]) where
  balanced d := by
    rw [List.cons_append, scan_cons, ha, Option.bind_some, scan_append, h.balanced,
      Option.bind_some, scan_cons, hb, Option.bind_some, scan_nil]
  above p d t hp ht := by
    obtain rfl | ⟨q, rfl, hq⟩ := List.prefix_cons_iff.mp hp
    · exact nil.above [] d t List.nil_prefix ht
    · rw [scan_cons, ha, Option.bind_some] at ht
      have hopen : ∀ r u, r <+: cs → scan ⟨m', d + k⟩ r = some u → d ≤ u.depth := by
        intro r u hr hu
        have := h.above r (d + k) u hr hu
        omega
      obtain hle | ⟨r, rfl⟩ := List.prefix_or_prefix_of_prefix hq (List.prefix_append cs [b])
      · exact hopen q t hle ht
      · rw [scan_append, h.balanced, Option.bind_some] at ht
        have hr : r <+: [b] := (List.prefix_append_right_inj cs).mp hq
        obtain rfl | rfl : r = [] ∨ r = [b] := by simpa [← List.mem_inits] using hr
        · exact hopen [] t List.nil_prefix ht
        · rw [scan_cons, hb, Option.bind_some, scan_nil] at ht
          obtain rfl := Option.some.inj ht
          exact Int.le_refl d

end Nested

def Calm (c : Char) : Prop := c.toNat < 0x80 ∧ c ∉ ['"', '\\', '{', '[', '}', ']']

instance (c : Char) : Decidable (Calm c) := inferInstanceAs (Decidable (_ ∧ c ∉ _))

theorem next_calm {c : Char} (h : Calm c) (d : Int) :
    next ⟨.outside, d⟩ c = some ⟨.outside, d⟩ := by
  simp only [Calm, List.mem_cons, List.not_mem_nil, or_false, not_or] at h
  simp [next, h]

theorem nested_calm {cs : List Char} (h : ∀ c ∈ cs, Calm c) : Nested .outside cs :=
  .all fun c hc => next_calm (h c hc)

theorem calm_space {c : Char} (h : IsSpace c) : Calm c := by
  simp only [IsSpace, List.mem_cons, List.not_mem_nil, or_false] at h
  obtain rfl | rfl | rfl | rfl := h <;> decide

theorem calm_digit {c : Char} (h : IsDigit c) : Calm c := by
  refine ⟨lt_of_le_of_lt h.2 (by decide), fun hmem => ?_⟩
  simp only [List.mem_cons, List.not_mem_nil, or_false] at hmem
  obtain rfl | rfl | rfl | rfl | rfl | rfl := hmem <;> exact absurd h (by decide)

theorem calm_sign {c : Char} {sign : List Char} (h : sign ∈ [[], ['+'], ['-']]) (hc : c ∈ sign) :
    Calm c := by
  simp only [List.mem_cons, List.not_mem_nil, or_false] at h
  obtain rfl | rfl | rfl := h
  · cases hc
  · obtain rfl := List.mem_singleton.mp hc
    decide
  · obtain rfl := List.mem_singleton.mp hc
    decide

theorem nested_ws {w : List Char} (h : Ws w) : Nested .outside w :=
  nested_calm fun c hc => calm_space (h c hc)

theorem calm_digits {cs : List Char} (h : Digits cs) : ∀ c ∈ cs, Calm c :=
  fun c hc => calm_digit (h.2 c hc)

theorem calm_number {cs : List Char} (h : Number cs) : ∀ c ∈ cs, Calm c := by
  obtain @⟨sign, int, frac, exp, hsign, hint, hfrac, hexp⟩ := h
  have hminus : ∀ c ∈ sign, Calm c := by
    refine fun c hc => calm_sign ?_ hc
    simp only [List.mem_cons, List.not_mem_nil, or_false] at hsign ⊢
    exact hsign.imp_right .inr
  have hwhole : ∀ c ∈ int, Calm c := by
    cases hint with
    | zero => simp [Calm]
    | digits hc _ hcs =>
      exact List.forall_mem_cons.mpr ⟨calm_digit hc, fun d hd => calm_digit (hcs d hd)⟩
  have hpart : ∀ c ∈ frac, Calm c := by
    cases hfrac with
    | none => simp
    | digits hcs => exact List.forall_mem_cons.mpr ⟨by decide, calm_digits hcs⟩
  have hpower : ∀ c ∈ exp, Calm c := by
    cases hexp with
    | none => simp
    | digits he hs hcs =>
      simp only [List.mem_cons, List.not_mem_nil, or_false] at he
      refine List.forall_mem_cons.mpr ⟨?_, List.forall_mem_append.mpr ⟨?_, calm_digits hcs⟩⟩
      · obtain rfl | rfl := he <;> decide
      · exact fun c hc => calm_sign hs hc
  simp only [List.forall_mem_append]
  exact ⟨⟨⟨hminus, hwhole⟩, hpart⟩, hpower⟩

theorem nested_string {cs : List Char} (h : Chars cs) : Nested .outside ('"' :: cs ++ ['"']) := by
  have hescape : ∀ c ∈ escapes, Nested .inside ['\\', c] := fun c hc =>
    .wrap .escaped (Int.le_refl 0) (by simp [next]) (by simp [next, hc]) .nil
  have hinside : Nested .inside cs := by
    induction h with
    | nil => exact .nil
    | plain _ hquote hback _ ih =>
      exact (Nested.single (by simp [next, hquote, hback])).append ih
    | escape hc _ _ ih => exact (hescape _ hc).append ih
    | unicode _ hds _ ih =>
      have hdigits : Nested .inside _ := .all fun d hd => by
        have hne : d ≠ '"' ∧ d ≠ '\\' := by
          constructor <;> (rintro rfl; exact absurd (hds _ hd) (by decide))
        simp [next, hne]
      exact ((hescape 'u' (by decide)).append hdigits).append ih
  exact .wrap .inside (Int.le_refl 0) (by simp [next]) (by simp [next]) hinside

theorem nested_object {cs : List Char} (h : Nested .outside cs) :
    Nested .outside ('{' :: cs ++ ['}']) :=
  .wrap .outside Int.one_nonneg (by simp [next]) (by simp [next]) h

theorem nested_array {cs : List Char} (h : Nested .outside cs) :
    Nested .outside ('[' :: cs ++ [']']) :=
  .wrap .outside Int.one_nonneg (by simp [next]) (by simp [next]) h

theorem Derives.nested {x : Symbol} {cs : List Char} (h : Derives x cs) : Nested .outside cs := by
  have hcomma : Nested .outside [','] := nested_calm (by simp [Calm])
  have hcolon : Nested .outside [':'] := nested_calm (by simp [Calm])
  induction h with
  | text hw _ hw' ih => exact ((nested_ws hw).append ih).append (nested_ws hw')
  | literal h =>
    simp only [List.mem_cons, List.not_mem_nil, or_false] at h
    obtain rfl | rfl | rfl := h <;> exact nested_calm (by simp [Calm])
  | number h => exact nested_calm (calm_number h)
  | string h => exact nested_string h
  | emptyArray hw => exact nested_array (nested_ws hw)
  | array _ ih => exact nested_array ih
  | emptyObject hw => exact nested_object (nested_ws hw)
  | object _ ih => exact nested_object ih
  | element _ ih => exact ih
  | elements _ _ ihc ihd => exact ihc.append (hcomma.append ihd)
  | member hw hk hw' _ ih =>
    exact (((nested_ws hw).append (nested_string hk)).append (nested_ws hw')).append
      (hcolon.append ih)
  | members hw hk hw' _ _ ih ihd =>
    exact ((((nested_ws hw).append (nested_string hk)).append (nested_ws hw')).append
      (hcolon.append ih)).append (hcomma.append ihd)

theorem IsText.balanced {cs : List Char} (h : IsText cs) (d : Int) :
    scan ⟨.outside, d⟩ cs = some ⟨.outside, d⟩ := h.nested.balanced d

theorem head_of_last {cs : List Char} (h : Derives .value cs) (hlast : cs.getLast? = some '}') :
    cs.head? = some '{' := by
  cases h with
  | literal h =>
    simp only [List.mem_cons, List.not_mem_nil, or_false] at h
    obtain rfl | rfl | rfl := h <;> exact absurd hlast (by decide)
  | number h => exact absurd (calm_number h _ (List.mem_of_getLast? hlast)) (by decide)
  | string => exact absurd (List.getLast?_concat.symm.trans hlast) (by decide)
  | emptyArray => exact absurd (List.getLast?_concat.symm.trans hlast) (by decide)
  | array => exact absurd (List.getLast?_concat.symm.trans hlast) (by decide)
  | emptyObject => rfl
  | object => rfl

theorem IsObject.eq_wrap {cs : List Char} (h : IsObject cs) :
    ∃ ds, cs = '{' :: ds ++ ['}'] ∧ Nested .outside ds := by
  obtain ⟨h, hhead⟩ := h
  cases h with
  | literal h =>
    simp only [List.mem_cons, List.not_mem_nil, or_false] at h
    obtain rfl | rfl | rfl := h <;> exact absurd hhead (by decide)
  | number h => exact absurd (calm_number h _ (List.mem_of_head? hhead)) (by decide)
  | string => exact absurd (Option.some.inj hhead) (by decide)
  | emptyArray => exact absurd (Option.some.inj hhead) (by decide)
  | array => exact absurd (Option.some.inj hhead) (by decide)
  | emptyObject hw => exact ⟨_, rfl, nested_ws hw⟩
  | object h => exact ⟨_, rfl, h.nested⟩

theorem IsObject.within {cs p : List Char} (h : IsObject cs) (hp : p <+: cs) (hne : p ≠ cs)
    (hnil : p ≠ []) : ∃ t, scan ⟨.outside, 0⟩ p = some t ∧ 0 < t.depth := by
  obtain ⟨ds, rfl, hds⟩ := h.eq_wrap
  obtain rfl | ⟨q, rfl, hq⟩ := List.prefix_cons_iff.mp hp
  · exact absurd rfl hnil
  · have hopen : next ⟨.outside, 0⟩ '{' = some ⟨.outside, 1⟩ := rfl
    have hq : q <+: ds := by
      replace hq : q <+: ds ++ ['}'] := hq
      rw [List.prefix_concat_iff] at hq
      exact hq.resolve_left fun hq => hne (by rw [hq, List.cons_append])
    obtain ⟨r, rfl⟩ := hq
    have hall := hds.balanced 1
    rw [scan_append] at hall
    obtain ⟨t, ht, -⟩ := Option.bind_eq_some_iff.mp hall
    refine ⟨t, by rw [scan_cons, hopen, Option.bind_some, ht], ?_⟩
    have hle := hds.above q 1 t (List.prefix_append q r) ht
    omega

theorem Derives.value_ne_nil {v : List Char} (h : Derives .value v) : v ≠ [] := by
  cases h with
  | literal h =>
    rintro rfl
    exact absurd h (by decide)
  | number h =>
    obtain @⟨sign, int, frac, exp, -, hint, -, -⟩ := h
    cases hint <;> simp
  | _ => simp

theorem IsText.ne_nil {cs : List Char} (h : IsText cs) : cs ≠ [] := by
  obtain @⟨w, v, w', -, hv, -⟩ := h
  simp [hv.value_ne_nil]

theorem IsObject.not_text_isPrefix {cs p tail : List Char} (h : IsObject cs) (hp : p <+: cs)
    (hne : p ≠ cs) (htail : tail = [] ∨ tail = ['\uFFFD']) : ¬IsText (p ++ tail) := by
  intro htext
  have hscan := htext.balanced 0
  have hout : ∀ d, next ⟨.outside, d⟩ '\uFFFD' = none := fun _ => rfl
  have hin : ∀ d, next ⟨.inside, d⟩ '\uFFFD' = some ⟨.inside, d⟩ := fun _ => rfl
  have hescaped : ∀ d, next ⟨.escaped, d⟩ '\uFFFD' = none := fun _ => rfl
  by_cases hnil : p = []
  · subst hnil
    obtain rfl | rfl := htail
    · exact htext.ne_nil rfl
    · simp [hout] at hscan
  · obtain ⟨⟨m, d⟩, ht, hdepth⟩ := h.within hp hne hnil
    rw [scan_append, ht, Option.bind_some] at hscan
    obtain rfl | rfl := htail
    · obtain ⟨-, rfl⟩ := State.mk.inj (Option.some.inj hscan)
      exact absurd hdepth (Int.lt_irrefl 0)
    · cases m <;> simp [hout, hin, hescaped] at hscan

def Opposite (s s' : State) : Prop :=
  s.mode = .outside ∧ s'.mode = .inside ∨ s.mode = .inside ∧ s'.mode = .outside

theorem next_outside {d : Int} {c : Char} {t : State} (h : next ⟨.outside, d⟩ c = some t) :
    c = '"' ∧ t.mode = .inside ∨ c ≠ '"' ∧ c ≠ '\\' ∧ t.mode = .outside := by
  simp only [next] at h
  split_ifs at h with hquote hbad
  · exact .inl ⟨hquote, by rw [← Option.some.inj h]⟩
  all_goals exact .inr ⟨hquote, fun hc => hbad (.inl hc), by rw [← Option.some.inj h]⟩

theorem next_inside {d : Int} {c : Char} {t : State} (h : next ⟨.inside, d⟩ c = some t) :
    c = '"' ∧ t.mode = .outside ∨ c ≠ '"' ∧ (c ≠ '\\' → t.mode = .inside) := by
  simp only [next] at h
  split_ifs at h with hquote hback
  · exact .inl ⟨hquote, by rw [← Option.some.inj h]⟩
  · exact .inr ⟨hquote, fun hne => absurd hback hne⟩
  · exact .inr ⟨hquote, fun _ => by rw [← Option.some.inj h]⟩

theorem opposite_next {s s' t t' : State} {c : Char} (h : Opposite s s') (ht : next s c = some t)
    (ht' : next s' c = some t') : Opposite t t' := by
  obtain ⟨m, d⟩ := s
  obtain ⟨m', d'⟩ := s'
  obtain ⟨rfl, rfl⟩ | ⟨rfl, rfl⟩ := h
  · have hout := next_outside ht
    have hin := next_inside ht'
    grind [Opposite]
  · have hin := next_inside ht
    have hout := next_outside ht'
    grind [Opposite]

theorem opposite_scan {s s' t t' : State} {cs : List Char} (h : Opposite s s')
    (ht : scan s cs = some t) (ht' : scan s' cs = some t') : Opposite t t' := by
  induction cs generalizing s s' with
  | nil =>
    obtain rfl := Option.some.inj ht
    obtain rfl := Option.some.inj ht'
    exact h
  | cons c cs ih =>
    obtain ⟨u, hu, ht⟩ := Option.bind_eq_some_iff.mp ht
    obtain ⟨u', hu', ht'⟩ := Option.bind_eq_some_iff.mp ht'
    exact ih (opposite_next h hu hu') ht ht'

theorem IsText.head_not_escape {c : Char} {cs : List Char} (h : IsText (c :: cs))
    (hlast : (c :: cs).getLast? = some '}') : c ∉ escapes := by
  have hspace : ∀ {c}, IsSpace c → c ∉ escapes ∧ c ≠ '}' := by
    intro c hc
    simp only [IsSpace, List.mem_cons, List.not_mem_nil, or_false] at hc
    obtain rfl | rfl | rfl | rfl := hc <;> decide
  generalize hcs : c :: cs = ds at h hlast
  obtain @⟨w, v, w', hw, hv, hw'⟩ := h
  obtain rfl : w' = [] := by
    by_contra hne
    rw [List.getLast?_append_of_ne_nil _ hne] at hlast
    exact (hspace (hw' _ (List.mem_of_getLast? hlast))).2 rfl
  rw [List.append_nil] at hcs hlast
  rw [List.getLast?_append_of_ne_nil _ hv.value_ne_nil] at hlast
  have hhead := head_of_last hv hlast
  cases w with
  | nil =>
    rw [List.nil_append] at hcs
    rw [← hcs] at hhead
    obtain rfl := Option.some.inj hhead
    decide
  | cons b w =>
    obtain rfl := (List.cons.inj hcs).1
    exact (hspace (hw c (by simp))).1

theorem IsObject.not_text_suffix {cs u : List Char} (h : IsObject cs) (hu : u <:+ cs) (n : Nat)
    (hne : n = 0 → u ≠ cs) : ¬IsText (List.replicate n '\uFFFD' ++ u) := by
  intro htext
  cases n with
  | succ n =>
    have hscan := htext.balanced 0
    have hout : next ⟨.outside, 0⟩ '\uFFFD' = none := rfl
    simp [List.replicate_succ, hout] at hscan
  | zero =>
    replace htext : IsText u := htext
    obtain ⟨x, rfl⟩ := hu
    have hx : x ≠ x ++ u := by simp [htext.ne_nil]
    have hx' : x ≠ [] := by
      rintro rfl
      exact hne rfl rfl
    obtain ⟨⟨m, d⟩, ht, hdepth⟩ := h.within (List.prefix_append x u) hx hx'
    have hall := h.1.nested.balanced 0
    rw [scan_append, ht, Option.bind_some] at hall
    cases m with
    | outside =>
      rw [htext.balanced d] at hall
      obtain ⟨-, rfl⟩ := State.mk.inj (Option.some.inj hall)
      exact absurd hdepth (by decide)
    | inside =>
      have hopp := opposite_scan (.inr ⟨rfl, rfl⟩) hall (htext.balanced 0)
      simp [Opposite] at hopp
    | escaped =>
      have hlast : u.getLast? = some '}' := by
        obtain ⟨ds, hds, -⟩ := h.eq_wrap
        rw [← List.getLast?_append_of_ne_nil x htext.ne_nil, hds, List.getLast?_concat]
      cases u with
      | nil => exact htext.ne_nil rfl
      | cons c u =>
        have hnext : next ⟨.escaped, d⟩ c = none := if_neg (htext.head_not_escape hlast)
        rw [scan_cons, hnext] at hall
        cases hall

end Rfc8259

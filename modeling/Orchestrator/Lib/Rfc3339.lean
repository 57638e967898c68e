import Mathlib.Algebra.Order.Ring.Unbundled.Rat
import Mathlib.Data.List.Basic
import Mathlib.Data.Prod.Lex
import Mathlib.Data.String.Basic
import Mathlib.Order.Fin.Basic
import Mathlib.Tactic.Common
import Mathlib.Tactic.Linarith

/-! UTC times in the spellings of RFC 3339, as times and as texts. -/

namespace Rfc3339

theorem append_lt_append {a b x y : List Char} (h : a.length = b.length) :
    a ++ x < b ++ y ↔ a < b ∨ a = b ∧ x < y := by
  induction a generalizing b with
  | nil =>
    obtain rfl := List.length_eq_zero_iff.mp h.symm
    simp
  | cons c a ih =>
    cases b with
    | nil => cases h
    | cons d b =>
      simp only [List.cons_append, List.cons_lt_cons_iff, List.cons.injEq, ih (Nat.succ.inj h)]
      tauto

def digitChar (d : Fin 10) : Char := Char.ofNat (48 + d)

theorem digitChar_lt {d e : Fin 10} : digitChar d < digitChar e ↔ d < e := by
  revert d e
  decide

theorem digitChar_inj {d e : Fin 10} : digitChar d = digitChar e ↔ d = e := by
  revert d e
  decide

def numeral : Nat → Nat → List Char
  | 0, _ => []
  | w + 1, n => numeral w (n / 10) ++ [digitChar (Fin.ofNat 10 n)]

section Numeral

variable {w m n : Nat}

@[simp] theorem length_numeral : (numeral w n).length = w := by
  induction w generalizing n with
  | zero => rfl
  | succ w ih => simp [numeral, ih]

theorem numeral_inj (hm : m < 10 ^ w) (hn : n < 10 ^ w) : numeral w m = numeral w n ↔ m = n := by
  induction w generalizing m n with
  | zero => simp_all [numeral]
  | succ w ih =>
    rw [pow_succ] at hm hn
    constructor
    · intro h
      obtain ⟨hhigh, hlow⟩ := List.append_inj h (by simp)
      have hdiv : m / 10 = n / 10 := (ih (by omega) (by omega)).mp hhigh
      have hmod : m % 10 = n % 10 :=
        congrArg Fin.val (digitChar_inj.mp (List.singleton_inj.mp hlow))
      omega
    · rintro rfl
      rfl

theorem numeral_lt (hm : m < 10 ^ w) (hn : n < 10 ^ w) : numeral w m < numeral w n ↔ m < n := by
  induction w generalizing m n with
  | zero => simp_all [numeral]
  | succ w ih =>
    rw [pow_succ] at hm hn
    rw [numeral, numeral, append_lt_append (by simp), ih (by omega) (by omega),
      numeral_inj (by omega) (by omega), List.cons_lt_cons_iff, digitChar_lt, Fin.lt_def]
    simp only [Fin.ofNat, Fin.val_mk, List.not_lt_nil, and_false, or_false]
    omega

end Numeral

def triple (sep : Char) (w a b c : Nat) : List Char :=
  numeral w a ++ sep :: (numeral 2 b ++ sep :: numeral 2 c)

section Triple

variable {sep : Char} {w a b c a' b' c' : Nat}

@[simp] theorem length_triple : (triple sep w a b c).length = w + 6 := by simp [triple]

theorem triple_inj (ha : a < 10 ^ w) (ha' : a' < 10 ^ w) (hb : b < 100) (hb' : b' < 100)
    (hc : c < 100) (hc' : c' < 100) :
    triple sep w a b c = triple sep w a' b' c' ↔
      toLex (a, toLex (b, c)) = toLex (a', toLex (b', c')) := by
  constructor
  · intro h
    obtain ⟨h₁, h⟩ := List.append_inj h (by simp)
    obtain ⟨h₂, h⟩ := List.append_inj (List.cons.inj h).2 (by simp)
    rw [(numeral_inj ha ha').mp h₁, (numeral_inj hb hb').mp h₂,
      (numeral_inj hc hc').mp (List.cons.inj h).2]
  · intro h
    simp only [EmbeddingLike.apply_eq_iff_eq, Prod.mk.injEq] at h
    obtain ⟨rfl, rfl, rfl⟩ := h
    rfl

theorem triple_lt (ha : a < 10 ^ w) (ha' : a' < 10 ^ w) (hb : b < 100) (hb' : b' < 100)
    (hc : c < 100) (hc' : c' < 100) :
    triple sep w a b c < triple sep w a' b' c' ↔
      toLex (a, toLex (b, c)) < toLex (a', toLex (b', c')) := by
  rw [triple, triple, append_lt_append (by simp), numeral_lt ha ha', numeral_inj ha ha',
    List.cons_lt_cons_self, append_lt_append (by simp), numeral_lt hb hb', numeral_inj hb hb',
    List.cons_lt_cons_self, numeral_lt hc hc', Prod.Lex.toLex_lt_toLex, Prod.Lex.toLex_lt_toLex]

end Triple

def fractionValue : List (Fin 10) → ℚ
  | [] => 0
  | d :: ds => (d.val + fractionValue ds) / 10

theorem fractionValue_nonneg (ds : List (Fin 10)) : 0 ≤ fractionValue ds := by
  induction ds with
  | nil => exact le_refl _
  | cons d ds ih =>
    have hd : (0 : ℚ) ≤ d.val := Nat.cast_nonneg _
    rw [fractionValue]
    linarith

theorem fractionValue_lt_one (ds : List (Fin 10)) : fractionValue ds < 1 := by
  induction ds with
  | nil => exact one_pos
  | cons d ds ih =>
    have hd : (d.val : ℚ) ≤ 9 := by exact_mod_cast Nat.le_of_lt_succ d.isLt
    rw [fractionValue]
    linarith

theorem fractionValue_cons_le {d e : Fin 10} {ds es : List (Fin 10)}
    (h : fractionValue (d :: ds) ≤ fractionValue (e :: es)) :
    d < e ∨ d = e ∧ fractionValue ds ≤ fractionValue es := by
  simp only [fractionValue] at h
  obtain hlt | rfl | hgt := lt_trichotomy d e
  · exact .inl hlt
  · exact .inr ⟨rfl, by linarith⟩
  · have hde : (e.val : ℚ) + 1 ≤ d.val := by exact_mod_cast hgt
    linarith [fractionValue_nonneg ds, fractionValue_lt_one es]

inductive Separator
  | upper | lower
  deriving DecidableEq

inductive Zone
  | plus | minus | upper | lower
  deriving DecidableEq

def Separator.char : Separator → Char
  | .upper => 'T'
  | .lower => 't'

def Zone.chars : Zone → List Char
  | .plus => ['+', '0', '0', ':', '0', '0']
  | .minus => ['-', '0', '0', ':', '0', '0']
  | .upper => ['Z']
  | .lower => ['z']

def Zone.Signed (zone : Zone) : Prop := zone = .plus ∨ zone = .minus

instance (zone : Zone) : Decidable zone.Signed := inferInstanceAs (Decidable (_ ∨ _))

/-- A time as it is spelled; a second of 60 is a leap second. -/
structure Stamp where
  year : Fin 10000
  month : Fin 13
  day : Fin 32
  sep : Separator
  hour : Fin 24
  minute : Fin 60
  second : Fin 61
  fraction : List (Fin 10)
  zone : Zone
  deriving DecidableEq

namespace Stamp

def date (s : Stamp) : ℕ ×ₗ ℕ ×ₗ ℕ := toLex (s.year.val, toLex (s.month.val, s.day.val))

def clock (s : Stamp) : ℕ ×ₗ ℕ ×ₗ ℕ := toLex (s.hour.val, toLex (s.minute.val, s.second.val))

def instant (s : Stamp) : (ℕ ×ₗ ℕ ×ₗ ℕ) ×ₗ (ℕ ×ₗ ℕ ×ₗ ℕ) ×ₗ ℚ :=
  toLex (s.date, toLex (s.clock, fractionValue s.fraction))

def tail (fraction : List (Fin 10)) (zone : Zone) : List Char :=
  if fraction = [] then zone.chars else '.' :: (fraction.map digitChar ++ zone.chars)

def text (s : Stamp) : String :=
  String.ofList (triple '-' 4 s.year s.month s.day ++
    s.sep.char :: (triple ':' 2 s.hour s.minute s.second ++ tail s.fraction s.zone))

end Stamp

section Zone

variable {zone : Zone} {c : Char} {cs : List Char}

theorem Zone.chars_lt_cons (hlow : '-' < c) (hhigh : c < 'Z') :
    zone.chars < c :: cs ↔ zone.Signed := by
  cases zone with
  | plus => simp [chars, Signed, List.cons_lt_cons_iff, lt_trans (by decide : '+' < '-') hlow]
  | minus => simp [chars, Signed, List.cons_lt_cons_iff, hlow]
  | upper => simp [chars, Signed, List.cons_lt_cons_iff, not_lt_of_gt hhigh, hhigh.ne']
  | lower =>
    have hz : c < 'z' := lt_trans hhigh (by decide)
    simp [chars, Signed, List.cons_lt_cons_iff, not_lt_of_gt hz, hz.ne']

theorem Zone.cons_lt_chars (hlow : '-' < c) (hhigh : c < 'Z') :
    c :: cs < zone.chars ↔ ¬zone.Signed := by
  have hsigned : zone.chars < c :: cs ↔ zone.Signed := chars_lt_cons hlow hhigh
  rw [← hsigned, not_lt, le_iff_lt_or_eq, or_iff_left]
  intro h
  cases zone <;> obtain ⟨rfl, -⟩ := List.cons.inj h <;> revert hlow hhigh <;> decide

theorem low_digitChar (d : Fin 10) : '-' < digitChar d := by
  revert d
  decide

theorem digitChar_high (d : Fin 10) : digitChar d < 'Z' := by
  revert d
  decide

end Zone

/-- The digits, or the zone after them, of a fraction that is no greater make a greater text. -/
def TailOvertakes (xs ys : List (Fin 10)) (zx zy : Zone) : Prop :=
  (xs <+: ys ∧ xs ≠ ys ∧ ¬zx.Signed) ∨ (xs = ys ∧ zy.chars < zx.chars) ∨
    (ys <+: xs ∧ xs ≠ ys ∧ zy.Signed)

instance {xs ys : List (Fin 10)} {zx zy : Zone} : Decidable (TailOvertakes xs ys zx zy) :=
  inferInstanceAs (Decidable (_ ∨ _ ∨ _))

section Tail

variable {xs ys : List (Fin 10)} {zx zy : Zone}

theorem tailOvertakes_cons {x : Fin 10} :
    TailOvertakes (x :: xs) (x :: ys) zx zy ↔ TailOvertakes xs ys zx zy := by
  simp [TailOvertakes]

theorem tailOvertakes_nil_cons {y : Fin 10} :
    TailOvertakes [] (y :: ys) zx zy ↔ ¬zx.Signed := by
  simp [TailOvertakes]

theorem tailOvertakes_cons_nil {x : Fin 10} :
    TailOvertakes (x :: xs) [] zx zy ↔ zy.Signed := by
  simp [TailOvertakes]

theorem tailOvertakes_nil : TailOvertakes [] [] zx zy ↔ zy.chars < zx.chars := by
  simp [TailOvertakes]

theorem digits_lt (h : fractionValue xs ≤ fractionValue ys) :
    ys.map digitChar ++ zy.chars < xs.map digitChar ++ zx.chars ↔ TailOvertakes xs ys zx zy := by
  induction xs generalizing ys with
  | nil =>
    cases ys with
    | nil => rw [tailOvertakes_nil]; rfl
    | cons y ys =>
      rw [tailOvertakes_nil_cons]
      exact Zone.cons_lt_chars (low_digitChar y) (digitChar_high y)
  | cons x xs ih =>
    cases ys with
    | nil =>
      rw [tailOvertakes_cons_nil]
      exact Zone.chars_lt_cons (low_digitChar x) (digitChar_high x)
    | cons y ys =>
      rw [List.map_cons, List.map_cons, List.cons_append, List.cons_append, List.cons_lt_cons_iff,
        digitChar_lt, digitChar_inj]
      obtain hlt | ⟨rfl, hle⟩ := fractionValue_cons_le h
      · simp [TailOvertakes, not_lt_of_gt hlt, hlt.ne, hlt.ne']
      · rw [tailOvertakes_cons, ih hle]
        simp

theorem Stamp.tail_lt (h : fractionValue xs ≤ fractionValue ys) :
    Stamp.tail ys zy < Stamp.tail xs zx ↔ TailOvertakes xs ys zx zy := by
  cases xs with
  | nil =>
    cases ys with
    | nil => exact tailOvertakes_nil.symm
    | cons y ys =>
      rw [tailOvertakes_nil_cons]
      exact Zone.cons_lt_chars (by decide) (by decide)
  | cons x xs =>
    cases ys with
    | nil =>
      rw [tailOvertakes_cons_nil]
      exact Zone.chars_lt_cons (by decide) (by decide)
    | cons y ys =>
      rw [← digits_lt h]
      exact List.cons_lt_cons_self

end Tail

namespace Stamp

variable {r s : Stamp}

def Overtakes (r s : Stamp) : Prop :=
  r.date = s.date ∧ (s.sep.char < r.sep.char ∨
    r.sep = s.sep ∧ r.clock = s.clock ∧ TailOvertakes r.fraction s.fraction r.zone s.zone)

instance : Decidable (Overtakes r s) := inferInstanceAs (Decidable (_ ∧ (_ ∨ _ ∧ _ ∧ _)))

theorem instant_le : r.instant ≤ s.instant ↔ r.date < s.date ∨ r.date = s.date ∧
    (r.clock < s.clock ∨ r.clock = s.clock ∧
      fractionValue r.fraction ≤ fractionValue s.fraction) := by
  rw [instant, instant, Prod.Lex.toLex_le_toLex, Prod.Lex.toLex_le_toLex]

theorem text_lt (h : r.instant ≤ s.instant) : s.text < r.text ↔ Overtakes r s := by
  have hdate {r s : Stamp} : triple '-' 4 r.year r.month r.day < triple '-' 4 s.year s.month s.day ↔
      r.date < s.date := by
    apply triple_lt <;> omega
  have hdateEq : triple '-' 4 s.year s.month s.day = triple '-' 4 r.year r.month r.day ↔
      s.date = r.date := by
    apply triple_inj <;> omega
  have hclock : triple ':' 2 s.hour s.minute s.second < triple ':' 2 r.hour r.minute r.second ↔
      s.clock < r.clock := by
    apply triple_lt <;> omega
  have hclockEq : triple ':' 2 s.hour s.minute s.second = triple ':' 2 r.hour r.minute r.second ↔
      s.clock = r.clock := by
    apply triple_inj <;> omega
  rw [String.lt_iff_toList_lt, text, text, String.toList_ofList, String.toList_ofList,
    append_lt_append (by simp), hdate, hdateEq, List.cons_lt_cons_iff,
    append_lt_append (by simp), hclock, hclockEq]
  obtain hlt | ⟨heq, hle⟩ := instant_le.mp h
  · simp [Overtakes, hlt.ne, hlt.ne', not_lt_of_gt hlt]
  · have hsep : s.sep.char = r.sep.char ↔ r.sep = s.sep := by
      cases r.sep <;> cases s.sep <;> decide
    simp only [Overtakes, heq, lt_irrefl, false_or, true_and, hsep]
    obtain hlt | ⟨hceq, hfraction⟩ := hle
    · simp [hlt.ne, hlt.ne', not_lt_of_gt hlt]
    · simp only [hceq, lt_irrefl, false_or, true_and, tail_lt hfraction]

end Stamp

end Rfc3339

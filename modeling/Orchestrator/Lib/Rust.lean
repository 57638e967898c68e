import Mathlib.Tactic.Common
import Mathlib.Data.List.Infix
import Mathlib.Data.List.TakeWhile
import Mathlib.Algebra.Order.Ring.Unbundled.Rat

/-! The parts of Rust's standard library that the source is written against. -/

namespace Rust

abbrev Bytes := List UInt8

def isWhitespace (c : Char) : Bool :=
  (0x9 ≤ c.val && c.val ≤ 0xD) || c.val == 0x20 || c.val == 0x85 || c.val == 0xA0 ||
    c.val == 0x1680 || (0x2000 ≤ c.val && c.val ≤ 0x200A) || c.val == 0x2028 ||
    c.val == 0x2029 || c.val == 0x202F || c.val == 0x205F || c.val == 0x3000

def trimChars (cs : List Char) : List Char :=
  ((cs.dropWhile isWhitespace).reverse.dropWhile isWhitespace).reverse

def trim (s : String) : String := String.ofList (trimChars s.toList)

/-- A line without its line feed, given in reverse; one carriage return goes with it. -/
def endLine : List Char → List Char
  | '\r' :: cs => cs.reverse
  | cs => cs.reverse

/-- `acc` holds the current line in reverse. -/
def linesAux (acc : List Char) : List Char → List (List Char)
  | [] => if acc.isEmpty then [] else [acc.reverse]
  | '\n' :: cs => endLine acc :: linesAux [] cs
  | c :: cs => linesAux (c :: acc) cs

def lines (s : String) : List String := (linesAux [] s.toList).map String.ofList

def contains (s pat : String) : Bool := decide (pat.toList <:+: s.toList)

def splitOnce (sep : Char) (s : String) : Option (String × String) :=
  match s.toList.span (· ≠ sep) with
  | (_, []) => none
  | (a, _ :: b) => some (String.ofList a, String.ofList b)

def splitWhitespaceAux (acc : List Char) : List Char → List (List Char)
  | [] => if acc.isEmpty then [] else [acc.reverse]
  | c :: cs =>
    if isWhitespace c then
      if acc.isEmpty then splitWhitespaceAux [] cs else acc.reverse :: splitWhitespaceAux [] cs
    else splitWhitespaceAux (c :: acc) cs

def splitWhitespace (s : String) : List String :=
  (splitWhitespaceAux [] s.toList).map String.ofList

/-- `&s[n..]`: `none` where the slice panics, off a character boundary or past the end. -/
def sliceFrom : Nat → List Char → Option (List Char)
  | 0, cs => some cs
  | _ + 1, [] => none
  | n + 1, c :: cs =>
    if c.utf8Size ≤ n + 1 then sliceFrom (n + 1 - c.utf8Size) cs else none

def asBytes (s : String) : Bytes := s.toList.flatMap String.utf8EncodeChar

theorem asBytes_eq_toByteArray (s : String) : asBytes s = s.toByteArray.data.toList := by
  obtain ⟨cs, rfl⟩ : ∃ cs, s = String.ofList cs := ⟨s.toList, String.ofList_toList.symm⟩
  rw [asBytes, String.toList_ofList, String.toByteArray_ofList]
  simp [List.utf8Encode]

theorem trimChars_eq_nil {cs : List Char} :
    trimChars cs = [] ↔ ∀ c ∈ cs, isWhitespace c = true := by
  rw [trimChars, List.reverse_eq_nil_iff, List.dropWhile_eq_nil_iff]
  simp only [List.mem_reverse]
  constructor
  · intro h c hc
    rw [← List.takeWhile_append_dropWhile (p := isWhitespace) (l := cs)] at hc
    cases List.mem_append.mp hc with
    | inl htake => exact List.mem_takeWhile_imp htake
    | inr hdrop => exact h c hdrop
  · exact fun h c hc => h c ((List.dropWhile_suffix _).subset hc)

theorem isEmpty_trim (s : String) : (trim s).isEmpty = s.toList.all isWhitespace := by
  rw [Bool.eq_iff_iff, String.isEmpty_iff, trim, ← String.toList_eq_nil_iff, String.toList_ofList,
    trimChars_eq_nil, List.all_eq_true]

theorem contains_intercalate {sep item : String} {items : List String} (h : item ∈ items) :
    contains (sep.intercalate items) item = true := by
  rw [contains, decide_eq_true_iff, String.toList_intercalate]
  induction items with
  | nil => cases h
  | cons first rest ih =>
    by_cases hrest : rest = []
    · subst hrest
      obtain rfl : item = first := by simpa using h
      simp
    · rw [List.map_cons, List.intercalate_cons_of_ne_nil (by simpa using hrest)]
      cases List.mem_cons.mp h with
      | inl heq => exact heq ▸ ((List.prefix_append _ _).trans (List.prefix_append _ _)).isInfix
      | inr hmem => exact (ih hmem).trans (List.suffix_append _ _).isInfix

def isContinuation (b : UInt8) : Bool := 0x80 ≤ b && b ≤ 0xBF

def isSecond (b₀ b₁ : UInt8) : Bool :=
  if b₀ == 0xE0 then 0xA0 ≤ b₁ && b₁ ≤ 0xBF
  else if b₀ == 0xED then 0x80 ≤ b₁ && b₁ ≤ 0x9F
  else if b₀ == 0xF0 then 0x90 ≤ b₁ && b₁ ≤ 0xBF
  else if b₀ == 0xF4 then 0x80 ≤ b₁ && b₁ ≤ 0x8F
  else isContinuation b₁

def low6 (b : UInt8) : Nat := b.toNat % 64

/-- The characters of a byte sequence; `none` stands for one maximal invalid part. -/
def utf8Chunks : Bytes → List (Option Char)
  | [] => []
  | b₀ :: bs =>
    if b₀ < 0x80 then some (Char.ofNat b₀.toNat) :: utf8Chunks bs
    else if 0xC2 ≤ b₀ && b₀ ≤ 0xDF then
      match bs with
      | [] => [none]
      | b₁ :: bs' =>
        if isContinuation b₁ then
          some (Char.ofNat (b₀.toNat % 32 * 64 + low6 b₁)) :: utf8Chunks bs'
        else none :: utf8Chunks (b₁ :: bs')
    else if 0xE0 ≤ b₀ && b₀ ≤ 0xEF then
      match bs with
      | [] => [none]
      | b₁ :: bs' =>
        if isSecond b₀ b₁ then
          match bs' with
          | [] => [none]
          | b₂ :: bs'' =>
            if isContinuation b₂ then
              some (Char.ofNat ((b₀.toNat % 16 * 64 + low6 b₁) * 64 + low6 b₂)) ::
                utf8Chunks bs''
            else none :: utf8Chunks (b₂ :: bs'')
        else none :: utf8Chunks (b₁ :: bs')
    else if 0xF0 ≤ b₀ && b₀ ≤ 0xF4 then
      match bs with
      | [] => [none]
      | b₁ :: bs' =>
        if isSecond b₀ b₁ then
          match bs' with
          | [] => [none]
          | b₂ :: bs'' =>
            if isContinuation b₂ then
              match bs'' with
              | [] => [none]
              | b₃ :: bs''' =>
                if isContinuation b₃ then
                  some (Char.ofNat (((b₀.toNat % 8 * 64 + low6 b₁) * 64 + low6 b₂) * 64 +
                    low6 b₃)) :: utf8Chunks bs'''
                else none :: utf8Chunks (b₃ :: bs''')
            else none :: utf8Chunks (b₂ :: bs'')
        else none :: utf8Chunks (b₁ :: bs')
    else none :: utf8Chunks bs

def fromUtf8Lossy (bs : Bytes) : String :=
  String.ofList ((utf8Chunks bs).map fun c => c.getD '\uFFFD')

def fromUtf8 (bs : Bytes) : Option String := (allSome (utf8Chunks bs)).map String.ofList
where
  allSome : List (Option Char) → Option (List Char)
    | [] => some []
    | c :: cs => c.bind fun c => (allSome cs).map (c :: ·)

example : fromUtf8Lossy [0x61, 0xC3, 0xA9, 0xE2, 0x82, 0x62] = "aé\uFFFDb" := by decide
example : fromUtf8 (asBytes "aé€") = some "aé€" := by decide

inductive IoErrorKind
  | notFound | permissionDenied | wouldBlock | invalidData | other
  deriving DecidableEq

structure IoError where
  kind : IoErrorKind
  message : String
  deriving DecidableEq

abbrev IoResult (α : Type) := Except IoError α

def readToString (r : IoResult Bytes) : IoResult String :=
  match r with
  | .error e => .error e
  | .ok bs =>
    match fromUtf8 bs with
    | some s => .ok s
    | none => .error ⟨.invalidData, "stream did not contain valid UTF-8"⟩

/-- The idiom that turns a missing file into `None` and keeps every other failure. -/
def noneIfMissing {α : Type} (r : IoResult α) : IoResult (Option α) :=
  match r with
  | .ok a => .ok (some a)
  | .error e => if e.kind = .notFound then .ok none else .error e

/-! A time is an `Int`, the nanoseconds since the Unix epoch. -/

def seconds (n : Nat) : Int := n * 1000000000

/-- `Duration::num_seconds`: whole seconds, rounded towards zero. -/
def numSeconds (d : Int) : Int := d.tdiv 1000000000

def secondsSince (now t : Int) : Nat := (numSeconds (now - t)).toNat

/-- `SystemTime::elapsed`, read at `clock`; it fails for a time in the future. -/
def elapsed (clock t : Int) : Option Nat :=
  if t ≤ clock then some ((clock - t) / 1000000000).toNat else none

theorem numSeconds_of_nonneg {d : Int} (h : 0 ≤ d) : numSeconds d = d / 1000000000 :=
  Int.tdiv_eq_ediv_of_nonneg h

theorem numSeconds_of_nonpos {d : Int} (h : d ≤ 0) : numSeconds d ≤ 0 := by
  have hd : d = -(-d) := by omega
  rw [numSeconds, hd, Int.neg_tdiv]
  have := Int.tdiv_nonneg (a := -d) (b := 1000000000) (by omega) (by decide)
  omega

theorem le_secondsSince {now t : Int} {n : Nat} (hn : 0 < n) :
    n ≤ secondsSince now t ↔ seconds n ≤ now - t := by
  simp only [secondsSince, seconds]
  cases Int.le_total 0 (now - t) with
  | inl h =>
    rw [numSeconds_of_nonneg h]
    omega
  | inr h =>
    have := numSeconds_of_nonpos h
    omega

theorem le_elapsed {clock t : Int} {n : Nat} (hn : 0 < n) :
    (∃ d, elapsed clock t = some d ∧ n ≤ d) ↔ seconds n ≤ clock - t := by
  simp only [elapsed, seconds]
  split
  · simp only [Option.some.injEq, exists_eq_left']
    omega
  · simp only [reduceCtorEq, false_and, exists_false, false_iff]
    omega

/-- An `f64`, up to the values a comparison can tell apart. -/
inductive F64
  | nan
  | inf (negative : Bool)
  | finite (q : ℚ)
  deriving DecidableEq

/-- `<=`: false whenever a side is not a number. -/
def F64.le : F64 → F64 → Bool
  | .nan, _ | _, .nan => false
  | .inf true, _ => true
  | .finite _, .inf n => !n
  | .inf false, .inf n => !n
  | .inf false, .finite _ => false
  | .finite p, .finite q => p ≤ q

def F64.lt : F64 → F64 → Bool
  | .nan, _ | _, .nan => false
  | .inf true, .inf n => !n
  | .inf true, .finite _ => true
  | .inf false, _ => false
  | .finite _, .inf n => !n
  | .finite p, .finite q => p < q

theorem F64.lt_eq_not_le {a b : F64} (ha : a ≠ .nan) (hb : b ≠ .nan) :
    a.lt b = !b.le a := by
  cases a with
  | nan => exact absurd rfl ha
  | inf n => cases b with
    | nan => exact absurd rfl hb
    | inf m => cases n <;> cases m <;> rfl
    | finite q => cases n <;> rfl
  | finite p => cases b with
    | nan => exact absurd rfl hb
    | inf m => cases m <;> rfl
    | finite q => simp [F64.lt, F64.le, ← not_le]

end Rust

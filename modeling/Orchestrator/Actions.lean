import Orchestrator.Lib.Utf8
import Orchestrator.Lib.Words

namespace Orchestrator

open Rust Words

/-- The loop's search for a boundary; `none` is an index that falls below zero. -/
def lastBoundary (value : String) : Nat → Option Nat
  | 0 => if isCharBoundary value 0 then some 0 else none
  | newLen + 1 =>
    if isCharBoundary value (newLen + 1) then some (newLen + 1) else lastBoundary value newLen

/-- Here and below, `none` is a panic. -/
def truncateAtCharBoundary (value : String) (maxBytes : Nat) : Option String :=
  if value.utf8ByteSize ≤ maxBytes then some value
  else (lastBoundary value maxBytes).bind (truncate value)

def normalizeProviderAction (raw : String) : Option (Option String) :=
  let action := trim raw
  if action.isEmpty then some none
  else
    let action := String.ofList (action.toList.map fun c => if c = '\n' then ' ' else c)
    let action := " ".intercalate (splitWhitespace action)
    let action := trim action
    if 220 < action.utf8ByteSize then
      (truncateAtCharBoundary action 220).map fun action => some (action ++ "...")
    else some (some action)

structure LongestPrefix (s : String) (n : Nat) (p : String) : Prop where
  isPrefix : p.toList <+: s.toList
  within : p.utf8ByteSize ≤ n
  longest : ∀ q : String, q.toList <+: s.toList → q.utf8ByteSize ≤ n → q.toList <+: p.toList

theorem lastBoundary_spec (value : String) (n : Nat) :
    ∃ m, lastBoundary value n = some m ∧ m ≤ n ∧ isCharBoundary value m = true ∧
      ∀ k ≤ n, isCharBoundary value k = true → k ≤ m := by
  induction n with
  | zero =>
    have hzero : isCharBoundary value 0 = true := rfl
    exact ⟨0, by rw [lastBoundary, if_pos hzero], le_refl _, hzero, fun k hk _ => hk⟩
  | succ n ih =>
    by_cases hboundary : isCharBoundary value (n + 1) = true
    · exact ⟨n + 1, by rw [lastBoundary, if_pos hboundary], le_refl _, hboundary, fun k hk _ => hk⟩
    · obtain ⟨m, hm, hle, hend, hlast⟩ := ih
      refine ⟨m, by rw [lastBoundary, if_neg hboundary, hm], Nat.le_succ_of_le hle, hend, ?_⟩
      intro k hk hend'
      obtain rfl | hlt := Nat.eq_or_lt_of_le hk
      · exact absurd hend' hboundary
      · exact hlast k (Nat.lt_succ_iff.mp hlt) hend'

theorem truncateAtCharBoundary_spec (value : String) (maxBytes : Nat) :
    ∃ p, truncateAtCharBoundary value maxBytes = some p ∧ LongestPrefix value maxBytes p := by
  by_cases hle : value.utf8ByteSize ≤ maxBytes
  · exact ⟨value, if_pos hle, List.prefix_refl _, hle, fun q hq _ => hq⟩
  · obtain ⟨m, hm, hmle, hend, hlast⟩ := lastBoundary_spec value maxBytes
    obtain ⟨p, hp, rfl⟩ := isCharBoundary_iff.mp hend
    refine ⟨p, ?_, hp, hmle, ?_⟩
    · rw [truncateAtCharBoundary, if_neg hle, hm, Option.bind_some, truncate_isPrefix hp]
    · intro q hq hqle
      exact prefix_of_size_le hp hq (hlast _ hqle (isCharBoundary_iff.mpr ⟨q, hq, rfl⟩))

section Space

theorem splitWhitespaceAux_eq {acc : List Char} (hacc : ∀ c ∈ acc, isWhitespace c = false)
    (cs : List Char) : splitWhitespaceAux acc cs = words isWhitespace (acc.reverse ++ cs) := by
  have hword : ∀ acc : List Char, (∀ c ∈ acc, isWhitespace c = false) →
      words isWhitespace acc.reverse = if acc.isEmpty then [] else [acc.reverse] := by
    intro acc hacc
    cases acc with
    | nil => rfl
    | cons c acc => exact words_word ⟨by simp, fun d hd => hacc d (List.mem_reverse.mp hd)⟩
  induction cs generalizing acc with
  | nil => rw [splitWhitespaceAux, List.append_nil, hword acc hacc]
  | cons c cs ih =>
    rw [splitWhitespaceAux]
    split
    · next hc =>
      rw [words_break hc, hword acc hacc, ih (by simp)]
      split <;> rfl
    · next hc =>
      rw [ih (List.forall_mem_cons.mpr ⟨by simpa using hc, hacc⟩), List.reverse_cons,
        List.append_assoc]
      rfl

theorem splitWhitespace_eq (s : String) :
    splitWhitespace s = (words isWhitespace s.toList).map String.ofList := by
  rw [splitWhitespace, splitWhitespaceAux_eq (by simp)]
  rfl

theorem words_trimChars (cs : List Char) :
    words isWhitespace (trimChars cs) = words isWhitespace cs := by
  have hspace : ∀ cs : List Char, ∀ c ∈ cs.takeWhile isWhitespace, isWhitespace c = true :=
    fun cs c hc => List.mem_takeWhile_imp hc
  have hfront : words isWhitespace (cs.dropWhile isWhitespace) = words isWhitespace cs := by
    rw [← words_append_left (hspace cs), List.takeWhile_append_dropWhile]
  have hback : ∀ ds : List Char,
      words isWhitespace (ds.reverse.dropWhile isWhitespace).reverse = words isWhitespace ds := by
    intro ds
    have hreverse : ∀ c ∈ (ds.reverse.takeWhile isWhitespace).reverse, isWhitespace c = true :=
      fun c hc => hspace _ c (List.mem_reverse.mp hc)
    rw [← words_append_right hreverse, ← List.reverse_append, List.takeWhile_append_dropWhile,
      List.reverse_reverse]
  rw [trimChars, hback, hfront]

theorem trimChars_eq_self {cs : List Char} (hhead : ∀ c ∈ cs.head?, isWhitespace c = false)
    (hlast : ∀ c ∈ cs.getLast?, isWhitespace c = false) : trimChars cs = cs := by
  have hkeep : ∀ ds : List Char, (∀ c ∈ ds.head?, isWhitespace c = false) →
      ds.dropWhile isWhitespace = ds := by
    intro ds h
    cases ds with
    | nil => rfl
    | cons d ds => rw [List.dropWhile_cons_of_neg (by simp [h d rfl])]
  rw [trimChars, hkeep cs hhead, hkeep cs.reverse (by rwa [List.head?_reverse]),
    List.reverse_reverse]

def collapsed (s : String) : String := String.ofList (collapse isWhitespace ' ' s.toList)

theorem intercalate_splitWhitespace (s : String) :
    " ".intercalate (splitWhitespace s) = collapsed s := by
  have hlists : (splitWhitespace s).map String.toList = words isWhitespace s.toList := by
    simp [splitWhitespace_eq, Function.comp_def]
  rw [← String.toList_inj, String.toList_intercalate, hlists]
  exact String.toList_ofList.symm

theorem collapsed_eq_of_words {s t : String}
    (h : words isWhitespace s.toList = words isWhitespace t.toList) :
    collapsed s = collapsed t := by
  rw [collapsed, collapse, h]
  rfl

theorem trim_collapsed (s : String) : trim (collapsed s) = collapsed s := by
  rw [trim, collapsed, String.toList_ofList,
    trimChars_eq_self (spaced_collapse _ _ _).head (last_collapse _ _ _)]

theorem trim_words_of_trim (raw : String) :
    trim (" ".intercalate (splitWhitespace
      (String.ofList ((trim raw).toList.map fun c => if c = '\n' then ' ' else c)))) =
      collapsed raw := by
  have hsep : ∀ c : Char, isWhitespace c = true →
      isWhitespace (if c = '\n' then ' ' else c) = true := by
    intro c hc
    split
    · rfl
    · exact hc
  have hplain : ∀ c : Char, isWhitespace c = false → (if c = '\n' then ' ' else c) = c := by
    intro c hc
    apply if_neg
    rintro rfl
    cases hc
  rw [intercalate_splitWhitespace, trim_collapsed]
  apply collapsed_eq_of_words
  rw [String.toList_ofList, words_map hsep hplain, trim, String.toList_ofList, words_trimChars]

end Space

/-- What the monitor makes of a text that is not blank: its words on one line, cut if they are too
long. -/
structure Normalized (raw text : String) : Prop where
  spaced : Spaced isWhitespace ' ' text.toList
  size : text.utf8ByteSize ≤ 223
  whole_or_cut : (collapsed raw).utf8ByteSize ≤ 220 ∧ text = collapsed raw ∨
    220 < (collapsed raw).utf8ByteSize ∧
      ∃ p, LongestPrefix (collapsed raw) 220 p ∧ text = p ++ "..."

theorem normalized_of_small {raw : String} (h : (collapsed raw).utf8ByteSize ≤ 220) :
    Normalized raw (collapsed raw) := by
  have hspaced : Spaced isWhitespace ' ' (collapsed raw).toList := by
    rw [collapsed, String.toList_ofList]
    exact spaced_collapse _ _ _
  exact ⟨hspaced, by omega, .inl ⟨h, rfl⟩⟩

theorem normalized_of_cut {raw p : String} (h : 220 < (collapsed raw).utf8ByteSize)
    (hp : LongestPrefix (collapsed raw) 220 p) : Normalized raw (p ++ "...") := by
  have hspaced : Spaced isWhitespace ' ' (collapsed raw).toList := by
    rw [collapsed, String.toList_ofList]
    exact spaced_collapse _ _ _
  refine ⟨?_, ?_, .inr ⟨h, p, hp, rfl⟩⟩
  · rw [String.toList_append]
    exact (hspaced.of_isPrefix hp.isPrefix).append_word ⟨by simp, by simp [isWhitespace]⟩
  · have hwithin := hp.within
    have hdots : "...".utf8ByteSize = 3 := rfl
    rw [String.utf8ByteSize_append, hdots]
    omega

theorem normalizeProviderAction_spec (raw : String) :
    ∃ action, normalizeProviderAction raw = some action ∧
      (action = none ↔ ∀ c ∈ raw.toList, isWhitespace c = true) ∧
      ∀ text, action = some text → Normalized raw text := by
  have hblank : (trim raw).isEmpty = true ↔ ∀ c ∈ raw.toList, isWhitespace c = true := by
    rw [isEmpty_trim, List.all_eq_true]
  by_cases hempty : (trim raw).isEmpty = true
  · exact ⟨none, if_pos hempty, by simpa using hblank.mp hempty, by simp⟩
  · have hnone : ∀ text : String,
        some text = none ↔ ∀ c ∈ raw.toList, isWhitespace c = true :=
      fun text => iff_of_false (by simp) fun h => hempty (hblank.mpr h)
    by_cases hsmall : (collapsed raw).utf8ByteSize ≤ 220
    · refine ⟨some (collapsed raw), ?_, hnone _, ?_⟩
      · simp only [normalizeProviderAction, trim_words_of_trim]
        rw [if_neg hempty, if_neg (by omega)]
      · rintro _ ⟨⟩
        exact normalized_of_small hsmall
    · obtain ⟨p, hp, hlongest⟩ := truncateAtCharBoundary_spec (collapsed raw) 220
      refine ⟨some (p ++ "..."), ?_, hnone _, ?_⟩
      · simp only [normalizeProviderAction, trim_words_of_trim]
        rw [if_neg hempty, if_pos (by omega), hp]
        rfl
      · rintro _ ⟨⟩
        exact normalized_of_cut (by omega) hlongest

theorem actions_safe :
    (∀ value maxBytes, ∃ p, truncateAtCharBoundary value maxBytes = some p ∧
      LongestPrefix value maxBytes p) ∧
    ∀ raw, ∃ action, normalizeProviderAction raw = some action ∧
      (action = none ↔ ∀ c ∈ raw.toList, isWhitespace c = true) ∧
      ∀ text, action = some text → Normalized raw text :=
  ⟨truncateAtCharBoundary_spec, normalizeProviderAction_spec⟩

example : normalizeProviderAction " git  status\n--short " = some (some "git status --short") := by
  decide +kernel

end Orchestrator

import Mathlib.Data.List.Basic

/-! Regular expressions that repeat single characters only, searched for in a text. -/

namespace Rust

inductive Regex
  | lineStart
  | one (p : Char → Bool)
  | many (p : Char → Bool)
  | opt (r : Regex)
  | seq (r s : Regex)
  | alt (r s : Regex)

def startsLine (before : List Char) : Bool := before.getLast?.all (· == '\n')

@[simp] theorem startsLine_nil : startsLine [] = true := rfl

@[simp] theorem startsLine_snoc (before : List Char) (c : Char) :
    startsLine (before ++ [c]) = (c == '\n') := by
  simp [startsLine]

namespace Regex

/-- `w`, with `before` before it, is a match. -/
def Matches : Regex → List Char → List Char → Prop
  | lineStart, before, w => startsLine before = true ∧ w = []
  | one p, _, w => ∃ c, p c = true ∧ w = [c]
  | many p, _, w => ∀ c ∈ w, p c = true
  | opt r, before, w => w = [] ∨ r.Matches before w
  | seq r s, before, w => ∃ u v, w = u ++ v ∧ r.Matches before u ∧ s.Matches (before ++ u) v
  | alt r s, before, w => r.Matches before w ∨ s.Matches before w

def IsMatch (r : Regex) (text : List Char) : Prop :=
  ∃ before w after, text = before ++ w ++ after ∧ r.Matches before w

/-- A match ends where the text ends. -/
def Reaches (r : Regex) (text : List Char) : Prop :=
  ∃ before w, text = before ++ w ∧ r.Matches before w

attribute [local simp] Matches

variable {r s t : Regex} {p : Char → Bool} {text : List Char} {c : Char}

theorem reaches_lineStart : lineStart.Reaches text ↔ startsLine text = true := by
  simp [Reaches, Matches]

theorem reaches_alt : (alt r s).Reaches text ↔ r.Reaches text ∨ s.Reaches text := by
  simp only [Reaches, Matches, and_or_left, exists_or]

theorem reaches_seq : (seq r s).Reaches text ↔
    ∃ before w, text = before ++ w ∧ r.Reaches before ∧ s.Matches before w := by
  constructor
  · rintro ⟨before, w, rfl, u, v, rfl, hr, hs⟩
    exact ⟨before ++ u, v, by simp, ⟨before, u, rfl, hr⟩, hs⟩
  · rintro ⟨_, v, rfl, ⟨before, u, rfl, hr⟩, hs⟩
    exact ⟨before, u ++ v, by simp, u, v, rfl, hr, hs⟩

theorem reaches_seq_assoc :
    (seq r (seq s t)).Reaches text ↔ (seq (seq r s) t).Reaches text := by
  constructor
  · rw [reaches_seq]
    rintro ⟨before, w, rfl, hr, u, v, rfl, hs, ht⟩
    exact reaches_seq.mpr ⟨before ++ u, v, by simp, reaches_seq.mpr ⟨before, u, rfl, hr, hs⟩, ht⟩
  · rw [reaches_seq]
    rintro ⟨_, v, rfl, hrs, ht⟩
    obtain ⟨before, u, rfl, hr, hs⟩ := reaches_seq.mp hrs
    exact reaches_seq.mpr ⟨before, u ++ v, by simp, hr, u, v, rfl, hs, ht⟩

theorem reaches_seq_opt :
    (seq r (opt s)).Reaches text ↔ r.Reaches text ∨ (seq r s).Reaches text := by
  simp only [reaches_seq, Matches]
  constructor
  · rintro ⟨before, w, rfl, hr, rfl | hs⟩
    · exact .inl (by simpa using hr)
    · exact .inr ⟨before, w, rfl, hr, hs⟩
  · rintro (hr | ⟨before, w, rfl, hr, hs⟩)
    · exact ⟨text, [], by simp, hr, .inl rfl⟩
    · exact ⟨before, w, rfl, hr, .inr hs⟩

theorem not_reaches_one_nil : ¬(one p).Reaches [] := by
  simp [Reaches, Matches]

theorem reaches_one_snoc : (one p).Reaches (text ++ [c]) ↔ p c = true := by
  simp only [Reaches, Matches]
  constructor
  · rintro ⟨before, _, heq, d, hd, rfl⟩
    obtain rfl : c = d := by simpa using (List.append_inj' heq rfl).2
    exact hd
  · exact fun hc => ⟨text, [c], rfl, c, hc, rfl⟩

theorem not_reaches_seq_one_nil : ¬(seq r (one p)).Reaches [] := by
  simp [reaches_seq, Matches]

theorem reaches_seq_one_snoc :
    (seq r (one p)).Reaches (text ++ [c]) ↔ p c = true ∧ r.Reaches text := by
  simp only [reaches_seq, Matches]
  constructor
  · rintro ⟨before, _, heq, hr, d, hd, rfl⟩
    obtain ⟨rfl, ⟨⟩⟩ := List.append_inj' heq rfl
    exact ⟨hd, hr⟩
  · exact fun ⟨hc, hr⟩ => ⟨text, [c], rfl, hr, c, hc, rfl⟩

theorem reaches_seq_many_nil : (seq r (many p)).Reaches [] ↔ r.Reaches [] := by
  simp [reaches_seq, Matches]

theorem reaches_seq_many_snoc : (seq r (many p)).Reaches (text ++ [c]) ↔
    r.Reaches (text ++ [c]) ∨ p c = true ∧ (seq r (many p)).Reaches text := by
  simp only [reaches_seq, Matches]
  constructor
  · rintro ⟨before, w, heq, hr, hw⟩
    obtain rfl | ⟨v, d, rfl⟩ := List.eq_nil_or_concat w
    · exact .inl (by simpa [heq] using hr)
    · rw [List.concat_eq_append, ← List.append_assoc] at heq
      obtain ⟨rfl, ⟨⟩⟩ := List.append_inj' heq rfl
      refine .inr ⟨hw c (by simp), before, v, rfl, hr, fun e he => hw e ?_⟩
      simp [he]
  · rintro (hr | ⟨hc, before, w, rfl, hr, hw⟩)
    · exact ⟨text ++ [c], [], by simp, hr, by simp⟩
    · refine ⟨before, w ++ [c], by simp, hr, fun e he => ?_⟩
      obtain he | rfl := by simpa using he
      · exact hw e he
      · exact hc

theorem isMatch_seq : (seq r s).IsMatch text ↔
    ∃ before after, text = before ++ after ∧ r.Reaches before ∧
      ∃ w rest, after = w ++ rest ∧ s.Matches before w := by
  constructor
  · rintro ⟨before, _, rest, rfl, u, v, rfl, hr, hs⟩
    exact ⟨before ++ u, v ++ rest, by simp, ⟨before, u, rfl, hr⟩, v, rest, rfl, hs⟩
  · rintro ⟨_, _, rfl, ⟨before, u, rfl, hr⟩, v, rest, rfl, hs⟩
    exact ⟨before, u ++ v, rest, by simp, u, v, rfl, hr, hs⟩

end Regex

end Rust

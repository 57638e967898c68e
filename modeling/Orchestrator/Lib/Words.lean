import Mathlib.Data.List.Chain

universe u

/-! The words of a list: what stands between the elements that separate. -/

namespace Words

variable {α : Type u} {p : α → Bool} {cs w : List α}

structure IsWord (p : α → Bool) (w : List α) : Prop where
  ne_nil : w ≠ []
  plain : ∀ c ∈ w, p c = false

def words (p : α → Bool) (cs : List α) : List (List α) :=
  (cs.splitOnP p).filter fun w => !w.isEmpty

/-- One `sep` between two words, and none around them. -/
def collapse (p : α → Bool) (sep : α) (cs : List α) : List α := [sep].intercalate (words p cs)

section Laws

@[simp] theorem words_nil : words p [] = [] := rfl

theorem words_break {c : α} (hc : p c = true) (xs ys : List α) :
    words p (xs ++ c :: ys) = words p xs ++ words p ys := by
  rw [words, List.splitOnP_append_cons xs ys hc, List.filter_append]
  rfl

theorem words_word (h : IsWord p w) : words p w = [w] := by
  rw [words, List.splitOnP_eq_singleton h.plain]
  simp [h.ne_nil]

theorem words_cons_break {c : α} (hc : p c = true) (cs : List α) :
    words p (c :: cs) = words p cs :=
  words_break hc [] cs

theorem words_append_left {xs : List α} (h : ∀ c ∈ xs, p c = true) (ys : List α) :
    words p (xs ++ ys) = words p ys := by
  induction xs with
  | nil => rfl
  | cons c xs ih =>
    obtain ⟨hc, hxs⟩ := List.forall_mem_cons.mp h
    rw [List.cons_append, words_cons_break hc, ih hxs]

theorem words_append_right {ys : List α} (h : ∀ c ∈ ys, p c = true) (xs : List α) :
    words p (xs ++ ys) = words p xs := by
  cases ys with
  | nil => rw [List.append_nil]
  | cons c ys =>
    obtain ⟨hc, hys⟩ := List.forall_mem_cons.mp h
    have hnil : words p ys = [] := by simpa using words_append_left hys []
    rw [words_break hc, hnil, List.append_nil]

theorem splitOnPPrepend_map {f : α → α} (hsep : ∀ c, p c = true → p (f c) = true)
    (hplain : ∀ c, p c = false → f c = c) (cs acc : List α) :
    List.splitOnPPrepend p (cs.map f) acc = List.splitOnPPrepend p cs acc := by
  induction cs generalizing acc with
  | nil => rfl
  | cons c cs ih =>
    rw [List.map_cons]
    cases hc : p c with
    | true =>
      rw [List.splitOnPPrepend_cons_pos (hsep c hc), List.splitOnPPrepend_cons_pos hc]
      exact congrArg _ (ih [])
    | false =>
      rw [hplain c hc, List.splitOnPPrepend_cons_neg hc, List.splitOnPPrepend_cons_neg hc, ih]

theorem words_map {f : α → α} (hsep : ∀ c, p c = true → p (f c) = true)
    (hplain : ∀ c, p c = false → f c = c) (cs : List α) : words p (cs.map f) = words p cs := by
  rw [words, List.splitOnP, splitOnPPrepend_map hsep hplain]
  rfl

theorem plain_of_mem {acc : List α} (hacc : ∀ c ∈ acc, p c = false)
    (h : w ∈ List.splitOnPPrepend p cs acc) : ∀ c ∈ w, p c = false := by
  induction cs generalizing acc with
  | nil =>
    obtain rfl : w = acc.reverse := List.mem_singleton.mp h
    exact fun c hc => hacc c (List.mem_reverse.mp hc)
  | cons d cs ih =>
    rw [List.splitOnPPrepend_cons_eq_if] at h
    split at h
    · cases List.mem_cons.mp h with
      | inl hw =>
        subst hw
        exact fun c hc => hacc c (List.mem_reverse.mp hc)
      | inr hw => exact ih (by simp) hw
    · next hd => exact ih (List.forall_mem_cons.mpr ⟨by simpa using hd, hacc⟩) h

theorem isWord_of_mem (h : w ∈ words p cs) : IsWord p w := by
  obtain ⟨hw, hne⟩ := List.mem_filter.mp h
  have hplain : ∀ c ∈ w, p c = false := plain_of_mem (by simp) hw
  exact ⟨by simpa using hne, hplain⟩

end Laws

structure Spaced (p : α → Bool) (sep : α) (cs : List α) : Prop where
  eq_sep : ∀ c ∈ cs, p c = true → c = sep
  head : ∀ c ∈ cs.head?, p c = false
  single : cs.IsChain fun a b => p a = true → p b = false

section Spaced

variable {sep : α} {xs ys : List α} {ws : List (List α)}

theorem isChain_plain (h : ∀ c ∈ cs, p c = false) :
    cs.IsChain fun a b => p a = true → p b = false := by
  induction cs with
  | nil => exact .nil
  | cons c cs ih =>
    obtain ⟨-, hcs⟩ := List.forall_mem_cons.mp h
    exact (ih hcs).cons fun d hd _ => hcs d (List.mem_of_head? hd)

theorem IsWord.spaced (h : IsWord p w) : Spaced p sep w := by
  constructor
  · intro c hc hsep
    rw [h.plain c hc] at hsep
    cases hsep
  · exact fun c hc => h.plain c (List.mem_of_head? hc)
  · exact isChain_plain h.plain

theorem Spaced.of_isPrefix (h : Spaced p sep ys) (hxs : xs <+: ys) : Spaced p sep xs := by
  obtain ⟨zs, rfl⟩ := hxs
  constructor
  · exact fun c hc => h.eq_sep c (List.mem_append_left zs hc)
  · intro c hc
    apply h.head c
    rw [List.head?_append, hc]
    rfl
  · exact (List.isChain_append.mp h.single).1

theorem Spaced.append_word (h : Spaced p sep xs) (hw : IsWord p w) : Spaced p sep (xs ++ w) := by
  have hspaced : Spaced p sep w := hw.spaced
  constructor
  · intro c hc
    obtain hc | hc := List.mem_append.mp hc
    · exact h.eq_sep c hc
    · exact hspaced.eq_sep c hc
  · intro c hc
    rw [List.head?_append] at hc
    cases hxs : xs.head? with
    | none => exact hspaced.head c (by simpa [hxs] using hc)
    | some d => exact h.head c (by simpa [hxs] using hc)
  · rw [List.isChain_append]
    exact ⟨h.single, hspaced.single, fun _ _ c hc _ => hspaced.head c hc⟩

theorem IsWord.spaced_cons (hw : IsWord p w) (h : Spaced p sep xs) :
    Spaced p sep (w ++ sep :: xs) := by
  have hspaced : Spaced p sep w := hw.spaced
  constructor
  · intro c hc hsep
    obtain hc | hc := List.mem_append.mp hc
    · exact hspaced.eq_sep c hc hsep
    · obtain rfl | hc := List.mem_cons.mp hc
      · rfl
      · exact h.eq_sep c hc hsep
  · intro c hc
    rw [List.head?_append_of_ne_nil _ hw.ne_nil] at hc
    exact hspaced.head c hc
  · rw [List.isChain_append]
    refine ⟨hspaced.single, h.single.cons fun d hd _ => h.head d hd, ?_⟩
    intro c hc d _ hsep
    rw [hw.plain c (List.mem_of_getLast? hc)] at hsep
    cases hsep

theorem spaced_intercalate (hws : ∀ w ∈ ws, IsWord p w) : Spaced p sep ([sep].intercalate ws) := by
  induction ws with
  | nil => exact ⟨by simp, by simp, .nil⟩
  | cons w ws ih =>
    obtain ⟨hw, hws⟩ := List.forall_mem_cons.mp hws
    by_cases hnil : ws = []
    · subst hnil
      simpa using hw.spaced
    · rw [List.intercalate_cons_of_ne_nil hnil, List.append_assoc, List.singleton_append]
      exact hw.spaced_cons (ih hws)

theorem intercalate_ne_nil (hws : ∀ w ∈ ws, IsWord p w) (hne : ws ≠ []) :
    [sep].intercalate ws ≠ [] := by
  cases ws with
  | nil => exact absurd rfl hne
  | cons w ws =>
    have hw := hws w (List.mem_cons_self ..)
    by_cases hnil : ws = []
    · subst hnil
      simpa using hw.ne_nil
    · rw [List.intercalate_cons_of_ne_nil hnil]
      simp

theorem last_intercalate (hws : ∀ w ∈ ws, IsWord p w) :
    ∀ c ∈ ([sep].intercalate ws).getLast?, p c = false := by
  induction ws with
  | nil => simp
  | cons w ws ih =>
    obtain ⟨hw, hws⟩ := List.forall_mem_cons.mp hws
    intro c hc
    by_cases hnil : ws = []
    · subst hnil
      exact hw.plain c (List.mem_of_getLast? (by simpa using hc))
    · rw [List.intercalate_cons_of_ne_nil hnil,
        List.getLast?_append_of_ne_nil _ (intercalate_ne_nil hws hnil)] at hc
      exact ih hws c hc

theorem spaced_collapse (p : α → Bool) (sep : α) (cs : List α) : Spaced p sep (collapse p sep cs) :=
  spaced_intercalate fun _ hw => isWord_of_mem hw

theorem last_collapse (p : α → Bool) (sep : α) (cs : List α) :
    ∀ c ∈ (collapse p sep cs).getLast?, p c = false :=
  last_intercalate fun _ hw => isWord_of_mem hw

end Spaced

end Words

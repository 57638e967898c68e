import Orchestrator.Lib.Rust

/-! The lines of a text, and what is appended to it. -/

namespace Rust

theorem endLine_of_ne {cs : List Char} (h : ∀ ds, cs ≠ '\r' :: ds) : endLine cs = cs.reverse := by
  unfold endLine
  split
  · exact absurd rfl (h _)
  · rfl

theorem endLine_reverse {cs : List Char} (h : cs.getLast? ≠ some '\r') :
    endLine cs.reverse = cs := by
  rw [endLine_of_ne, List.reverse_reverse]
  intro ds hds
  rw [← List.head?_reverse, hds] at h
  exact h rfl

theorem linesAux_newline {line : List Char} (h : '\n' ∉ line) (acc rest : List Char) :
    linesAux acc (line ++ '\n' :: rest) = endLine (line.reverse ++ acc) :: linesAux [] rest := by
  induction line generalizing acc with
  | nil => rfl
  | cons c line ih =>
    obtain ⟨hc, hline⟩ := not_or.mp (mt List.mem_cons.mpr h)
    rw [List.cons_append, linesAux, ih hline, List.reverse_cons, List.append_assoc]
    · rfl
    · exact fun h => hc h.symm

theorem linesAux_last {line : List Char} (h : '\n' ∉ line) (acc : List Char) :
    linesAux acc line = if acc = [] ∧ line = [] then [] else [acc.reverse ++ line] := by
  induction line generalizing acc with
  | nil => cases acc <;> simp [linesAux]
  | cons c line ih =>
    obtain ⟨hc, hline⟩ := not_or.mp (mt List.mem_cons.mpr h)
    rw [linesAux, ih hline]
    · simp
    · exact fun h => hc h.symm

theorem linesAux_append (acc xs rest : List Char) :
    linesAux acc (xs ++ '\n' :: rest) = linesAux acc (xs ++ ['\n']) ++ linesAux [] rest := by
  induction xs generalizing acc with
  | nil => rfl
  | cons c xs ih =>
    by_cases hc : c = '\n'
    · subst hc
      simp only [List.cons_append, linesAux, ih]
    · rw [List.cons_append, List.cons_append, linesAux, linesAux, ih]
      all_goals exact hc

theorem linesAux_intercalate {ls : List (List Char)}
    (h : ∀ line ∈ ls, line ≠ [] ∧ '\n' ∉ line ∧ line.getLast? ≠ some '\r') :
    linesAux [] (['\n'].intercalate ls) = ls := by
  induction ls with
  | nil => rfl
  | cons line ls ih =>
    obtain ⟨⟨hne, hnew, hend⟩, hls⟩ := List.forall_mem_cons.mp h
    by_cases hnil : ls = []
    · subst hnil
      rw [List.intercalate_singleton, linesAux_last hnew, if_neg fun h => hne h.2]
      rfl
    · rw [List.intercalate_cons_of_ne_nil hnil, List.append_assoc, List.singleton_append,
        linesAux_newline hnew, List.append_nil, endLine_reverse hend, ih hls]

def Terminated (cs : List Char) : Prop := cs = [] ∨ ['\n'] <:+ cs

instance (cs : List Char) : Decidable (Terminated cs) := inferInstanceAs (Decidable (_ ∨ _))

theorem Terminated.linesAux {xs : List Char} (h : Terminated xs) (rest : List Char) :
    linesAux [] (xs ++ rest) = Rust.linesAux [] xs ++ Rust.linesAux [] rest := by
  obtain rfl | ⟨ys, rfl⟩ := h
  · rfl
  · rw [List.append_assoc, List.singleton_append, linesAux_append]

theorem exists_open_line {cs : List Char} (h : ¬Terminated cs) :
    ∃ xs last, cs = xs ++ last ∧ Terminated xs ∧ last ≠ [] ∧ '\n' ∉ last := by
  induction cs using List.reverseRecOn with
  | nil => exact absurd (.inl rfl) h
  | append_singleton cs c ih =>
    have hc : c ≠ '\n' := by
      rintro rfl
      exact h (.inr (List.suffix_append cs _))
    by_cases hcs : Terminated cs
    · exact ⟨cs, [c], rfl, hcs, by simp, by simpa using hc.symm⟩
    · obtain ⟨xs, last, rfl, hxs, -, hlast⟩ := ih hcs
      refine ⟨xs, last ++ [c], List.append_assoc .., hxs, by simp, ?_⟩
      simpa using ⟨hlast, hc.symm⟩

section Appended

variable {line : List Char} (hnew : '\n' ∉ line) (hend : line.getLast? ≠ some '\r')

include hnew hend

theorem linesAux_line : linesAux [] (line ++ ['\n']) = [line] := by
  rw [linesAux_newline hnew, List.append_nil, endLine_reverse hend]
  rfl

/-- Appending a line to a text keeps its lines just when none of them is open. -/
theorem linesAux_appended_iff {cs : List Char} (hne : line ≠ []) :
    (linesAux [] cs).Sublist (linesAux [] (cs ++ (line ++ ['\n']))) ↔ Terminated cs := by
  constructor
  · intro h
    by_contra hopen
    obtain ⟨xs, last, rfl, hxs, hlast, hnot⟩ := exists_open_line hopen
    have hmerged : linesAux [] (last ++ line ++ ['\n']) = [last ++ line] := by
      apply linesAux_line
      · simp [hnot, hnew]
      · rwa [List.getLast?_append_of_ne_nil _ hne]
    rw [hxs.linesAux, linesAux_last hnot, List.append_assoc, hxs.linesAux, ← List.append_assoc,
      hmerged, if_neg fun hnil => hlast hnil.2] at h
    have hsame := h.eq_of_length (by simp)
    simp [hne] at hsame
  · intro h
    rw [h.linesAux]
    exact List.sublist_append_left _ _

end Appended

theorem map_toList_lines (s : String) : (lines s).map String.toList = linesAux [] s.toList := by
  simp [lines, Function.comp_def]

theorem lines_intercalate {ls : List String}
    (h : ∀ line ∈ ls, line ≠ "" ∧ '\n' ∉ line.toList ∧ line.toList.getLast? ≠ some '\r') :
    lines ("\n".intercalate ls) = ls := by
  have hlists : linesAux [] ("\n".intercalate ls).toList = ls.map String.toList := by
    rw [String.toList_intercalate]
    apply linesAux_intercalate
    intro cs hcs
    obtain ⟨line, hline, rfl⟩ := List.mem_map.mp hcs
    simpa using h line hline
  rw [lines, hlists, List.map_map]
  simp [Function.comp_def]

theorem lines_appended_iff {text line : String} (hnew : '\n' ∉ line.toList)
    (hend : line.toList.getLast? ≠ some '\r') (hne : line ≠ "") :
    (lines text).Sublist (lines (text ++ line ++ "\n")) ↔ Terminated text.toList := by
  have htext : (text ++ line ++ "\n").toList = text.toList ++ (line.toList ++ ['\n']) := by
    simp
  rw [← linesAux_appended_iff hnew hend (by simpa using hne), ← htext]
  constructor
  · intro h
    simpa only [map_toList_lines] using h.map String.toList
  · exact fun h => h.map String.ofList

theorem mem_lines_appended {text line : String} (hnew : '\n' ∉ line.toList)
    (hend : line.toList.getLast? ≠ some '\r') (h : Terminated text.toList) :
    line ∈ lines (text ++ line ++ "\n") := by
  have htext : (text ++ line ++ "\n").toList = text.toList ++ (line.toList ++ ['\n']) := by
    simp
  rw [lines, htext, h.linesAux, linesAux_line hnew hend]
  simp

end Rust

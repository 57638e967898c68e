import Orchestrator.CodexIndex
import Orchestrator.Lib.Rfc3339

namespace Orchestrator

open Rust Latest Rfc3339

structure Appended where
  id : String
  threadName : String
  stamp : Stamp

def Appended.row (entry : Appended) : CodexSessionIndexRow where
  id := entry.id
  threadName := entry.threadName
  updatedAt := entry.stamp.text

def Chronological (entries : List Appended) : Prop :=
  entries.Pairwise fun x y => x.id = y.id → x.stamp.instant ≤ y.stamp.instant

def Appended.ties (entry x : Appended) : Bool :=
  decide (x.id = entry.id ∧ x.stamp.text = entry.stamp.text)

/-- No older row of the session has a greater text, and the first one that ties has its name. -/
def Undisputed (older : List Appended) (entry : Appended) : Prop :=
  (∀ x ∈ older, x.id = entry.id → ¬x.stamp.Overtakes entry.stamp) ∧
    ((older ++ [entry]).find? entry.ties).map (·.threadName) = some entry.threadName

instance {older : List Appended} {entry : Appended} : Decidable (Undisputed older entry) :=
  inferInstanceAs (Decidable (_ ∧ _))

section Undisputed

variable {older newer : List Appended} {entry : Appended}

theorem Chronological.instant_le (h : Chronological (older ++ entry :: newer)) :
    ∀ x ∈ older, x.id = entry.id → x.stamp.instant ≤ entry.stamp.instant := fun x hx =>
  (List.pairwise_append.mp h).2.2 x hx entry List.mem_cons_self

theorem greatest_iff (horder : Chronological (older ++ entry :: newer))
    (hlast : ∀ x ∈ newer, x.id ≠ entry.id) :
    (∀ row ∈ (older ++ entry :: newer).map Appended.row, row.id = entry.row.id →
        row.updatedAt ≤ entry.row.updatedAt) ↔
      ∀ x ∈ older, x.id = entry.id → ¬x.stamp.Overtakes entry.stamp := by
  have hle : ∀ x ∈ older, x.id = entry.id →
      (x.stamp.text ≤ entry.stamp.text ↔ ¬x.stamp.Overtakes entry.stamp) := fun x hx hid => by
    rw [← Stamp.text_lt (horder.instant_le x hx hid), not_lt]
  simp only [List.forall_mem_map, List.forall_mem_append, List.forall_mem_cons, Appended.row]
  constructor
  · rintro ⟨holder, -, -⟩ x hx hid
    exact (hle x hx hid).mp (holder x hx hid)
  · intro holder
    exact ⟨fun x hx hid => (hle x hx hid).mpr (holder x hx hid), fun _ => le_refl _,
      fun x hx hid => absurd hid (hlast x hx)⟩

theorem first_iff :
    (((older ++ entry :: newer).map Appended.row).find? fun row =>
        row.id = entry.row.id ∧ row.updatedAt = entry.row.updatedAt) = some entry.row ↔
      ((older ++ [entry]).find? entry.ties).map (·.threadName) = some entry.threadName := by
  have hties : entry.ties entry = true := by simp [Appended.ties]
  have hsplit : (older ++ entry :: newer).find? entry.ties =
      (older ++ [entry]).find? entry.ties := by
    simp [List.find?_append, hties]
  have hmap : (((older ++ entry :: newer).map Appended.row).find? fun row =>
      row.id = entry.row.id ∧ row.updatedAt = entry.row.updatedAt) =
        ((older ++ [entry]).find? entry.ties).map Appended.row :=
    List.find?_map.trans (congrArg _ hsplit)
  rw [hmap]
  cases hfind : (older ++ [entry]).find? entry.ties with
  | none => simp
  | some x =>
    have hx : entry.ties x = true := List.find?_some hfind
    obtain ⟨hid, htext⟩ := of_decide_eq_true hx
    simp [Appended.row, hid, htext]

theorem undisputed_iff (horder : Chronological (older ++ entry :: newer))
    (hlast : ∀ x ∈ newer, x.id ≠ entry.id) :
    entry.row ∈ latestById ((older ++ entry :: newer).map Appended.row) ↔
      Undisputed older entry := by
  rw [mem_keepLatest, isLatest_iff_find?, greatest_iff horder hlast, first_iff, Undisputed]

end Undisputed

section Fresh

variable [SessionFormats] {index : IoResult Bytes} {content : String} {row : CodexSessionIndexRow}

/-- `row` is kept for its session, which is found under the name in it and under no other. -/
structure Fresh (index : IoResult Bytes) (content : String) (row : CodexSessionIndexRow) :
    Prop where
  kept : ∀ role, ∃ latest, readIndex role (lines content).zipIdx [] = .ok latest ∧
    ∀ r, r.id = row.id → (r ∈ latest ↔ r = row)
  found : ∀ order role workspaceRoot cwdLookup,
    (∀ id, cwdLookup id = some workspaceRoot ↔ id = row.id) →
      discoverByThreadFromIndexWithCwdLookup order index row.threadName role workspaceRoot
        cwdLookup = .ok row.id
  notFound : ∀ order threadName role workspaceRoot cwdLookup, threadName ≠ row.threadName →
    discoverByThreadFromIndexWithCwdLookup order index threadName role workspaceRoot
      cwdLookup ≠ .ok row.id

theorem readIndex_parsed (role : AgentRole) (hparsed : ∀ line ∈ lines content, ¬Unparsable line) :
    readIndex role (lines content).zipIdx [] = .ok (latestById (indexRows content)) :=
  readIndex_ok hparsed

theorem fresh_iff_kept (hread : readToString index = .ok content)
    (hparsed : ∀ line ∈ lines content, ¬Unparsable line) :
    Fresh index content row ↔ row ∈ latestById (indexRows content) := by
  constructor
  · intro h
    obtain ⟨latest, hlatest, hkept⟩ := h.kept .executor
    rw [readIndex_parsed .executor hparsed] at hlatest
    obtain rfl := Except.ok.inj hlatest
    exact (hkept row rfl).mpr rfl
  · intro hmem
    have hkept : ∀ r, r.id = row.id → (r ∈ latestById (indexRows content) ↔ r = row) :=
      fun r hid => ⟨fun hr => List.inj_on_of_nodup_map nodup_keepLatest hr hmem hid,
        fun heq => heq ▸ hmem⟩
    refine ⟨fun role => ⟨_, readIndex_parsed role hparsed, hkept⟩, ?_, ?_⟩
    · intro order role workspaceRoot cwdLookup hlookup
      rw [discover_parsed hread hparsed, bindOnly_eq_ok_of_nodup nodup_candidateIds]
      intro id
      rw [mem_candidateIds]
      constructor
      · rintro ⟨r, -, -, -, hcwd⟩
        exact (hlookup id).mp hcwd
      · rintro rfl
        exact ⟨row, hmem, rfl, rfl, (hlookup row.id).mpr rfl⟩
    · intro order threadName role workspaceRoot cwdLookup hne hok
      rw [discover_parsed hread hparsed, bindOnly_eq_ok_of_nodup nodup_candidateIds] at hok
      obtain ⟨r, hr, hid, hname, -⟩ := mem_candidateIds.mp ((hok row.id).mpr rfl)
      obtain rfl := (hkept r hid).mp hr
      exact hne hname.symm

/-- The row that was appended last for a session is kept unless an older one disputes it. -/
theorem fresh_iff {older newer : List Appended} {entry : Appended}
    (hread : readToString index = .ok content)
    (hparsed : ∀ line ∈ lines content, ¬Unparsable line)
    (hrows : indexRows content = (older ++ entry :: newer).map Appended.row)
    (horder : Chronological (older ++ entry :: newer)) (hlast : ∀ x ∈ newer, x.id ≠ entry.id) :
    Fresh index content entry.row ↔ Undisputed older entry := by
  rw [fresh_iff_kept hread hparsed, hrows, undisputed_iff horder hlast]

end Fresh

namespace Sample.Index

def stamp (day : Fin 32) (fraction : List (Fin 10)) : Stamp where
  year := 2026
  month := 1
  day := day
  sep := .upper
  hour := 10
  minute := 0
  second := 0
  fraction := fraction
  zone := .upper

def appendedOld : Appended := ⟨"same", "old-name", stamp 1 []⟩

def appendedNew : Appended := ⟨"same", "new-name", stamp 2 []⟩

def appendedRenewed : Appended := ⟨"same", "newer-name", stamp 2 [⟨5, by decide⟩]⟩

theorem row_old : appendedOld.row = old := by decide +kernel

theorem row_new : appendedNew.row = new := by decide +kernel

theorem row_renewed : appendedRenewed.row = renewed := by decide +kernel

theorem chronological_new : Chronological [appendedOld, appendedNew] := by
  have hle : appendedOld.stamp.instant ≤ appendedNew.stamp.instant :=
    Stamp.instant_le.mpr (.inl (by decide))
  simp [Chronological, hle]

theorem chronological_renewed : Chronological [appendedNew, appendedRenewed] := by
  have hfraction : fractionValue [] ≤ fractionValue [⟨5, by decide⟩] := fractionValue_nonneg _
  have hle : appendedNew.stamp.instant ≤ appendedRenewed.stamp.instant :=
    Stamp.instant_le.mpr (.inr ⟨rfl, .inr ⟨rfl, hfraction⟩⟩)
  simp [Chronological, hle]

end Sample.Index

open Sample.Index in
theorem fresh_renamed : Fresh (index [old, new]) (text [old, new]) new ∧
    Undisputed [appendedOld] appendedNew := by
  have hread : readToString (index [old, new]) = .ok (text [old, new]) := read_text _
  have hparsed : ∀ line ∈ lines (text [old, new]), ¬Unparsable line := parsed_text (by simp)
  have hrows : indexRows (text [old, new]) = [appendedOld, appendedNew].map Appended.row := by
    rw [indexRows_text (by simp), List.map_cons, List.map_singleton, row_old, row_new]
  have hundisputed : Undisputed [appendedOld] appendedNew := by decide +kernel
  have hfresh : Fresh (index [old, new]) (text [old, new]) appendedNew.row :=
    (fresh_iff hread hparsed hrows chronological_new (by simp)).mpr hundisputed
  exact ⟨row_new ▸ hfresh, hundisputed⟩

open Sample.Index in
theorem renewed_stale :
    Chronological [appendedNew, appendedRenewed] ∧
      indexRows (text [new, renewed]) = [appendedNew, appendedRenewed].map Appended.row ∧
      (∀ line ∈ lines (text [new, renewed]), ¬Unparsable line) ∧
      discoverByThreadFromIndexWithCwdLookup .insertion (index [new, renewed]) "new-name" .executor
        "/" (fun _ => some "/") = .ok "same" ∧
      discoverByThreadFromIndexWithCwdLookup .insertion (index [new, renewed]) "newer-name"
        .executor "/" (fun _ => some "/") ≠ .ok "same" ∧
      ¬Fresh (index [new, renewed]) (text [new, renewed]) renewed := by
  have hread : readToString (index [new, renewed]) = .ok (text [new, renewed]) := read_text _
  have hrows : indexRows (text [new, renewed]) = [new, renewed] := indexRows_text (by simp)
  have hparsed : ∀ line ∈ lines (text [new, renewed]), ¬Unparsable line := parsed_text (by simp)
  refine ⟨chronological_renewed, ?_, hparsed, ?_, ?_, ?_⟩
  · rw [hrows, List.map_cons, List.map_singleton, row_new, row_renewed]
  · rw [discover_parsed hread hparsed, hrows]
    decide +kernel
  · rw [discover_parsed hread hparsed, hrows]
    decide +kernel
  · rw [fresh_iff_kept hread hparsed, hrows]
    decide +kernel

end Orchestrator

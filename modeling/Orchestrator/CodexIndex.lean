import Orchestrator.Sessions
import Orchestrator.Lib.Latest
import Orchestrator.Lib.Utf8
import Mathlib.Data.String.Basic

namespace Orchestrator

open Rust Latest

/-- An order in which a hash map yields its values. -/
structure IterOrder where
  intoValues : List CodexSessionIndexRow → List CodexSessionIndexRow
  perm : ∀ rows, (intoValues rows).Perm rows

def IterOrder.insertion : IterOrder := ⟨id, fun _ => .rfl⟩

section Bind

variable {role : AgentRole} {provider : ProviderKind} {threadName id : String}
  {ids ids' : List String}

theorem bindOnly_perm (h : ids.Perm ids') :
    bindOnly role provider threadName ids = bindOnly role provider threadName ids' := by
  have hlen := h.length_eq
  match ids, ids' with
  | [], [] => rfl
  | [_], [_] => rw [List.singleton_perm_singleton.mp h]
  | _ :: _ :: _, _ :: _ :: _ => simp only [bindOnly, hlen]

theorem bindOnly_failed {e : OrchestratorError}
    (h : bindOnly role provider threadName ids = .error e) :
    ∃ reason, e = .sessionBindFailed role provider reason := by
  match ids with
  | [] => exact ⟨_, (Except.error.inj h).symm⟩
  | _ :: _ :: _ => exact ⟨_, (Except.error.inj h).symm⟩

theorem bindOnly_eq_ok_of_nodup (h : ids.Nodup) :
    bindOnly role provider threadName ids = .ok id ↔ ∀ id', id' ∈ ids ↔ id' = id := by
  rw [bindOnly_eq_ok, ← List.perm_singleton, List.perm_ext_iff_of_nodup h (List.nodup_singleton id)]
  simp only [List.mem_singleton]

end Bind

section Rows

variable [SessionFormats]

def rowOf (line : String) : Option CodexSessionIndexRow :=
  if (trim line).isEmpty then none else (SessionFormats.codexRow line).toOption

def indexRows (content : String) : List CodexSessionIndexRow := (lines content).filterMap rowOf

def Unparsable (line : String) : Prop :=
  (trim line).isEmpty = false ∧ ∀ row, SessionFormats.codexRow line ≠ .ok row

end Rows

abbrev latestById (rows : List CodexSessionIndexRow) : List CodexSessionIndexRow :=
  keepLatest CodexSessionIndexRow.id CodexSessionIndexRow.updatedAt rows

def OneName (rows : List CodexSessionIndexRow) : Prop :=
  ∀ x ∈ rows, ∀ y ∈ rows, x.id = y.id → x.updatedAt = y.updatedAt → x.threadName = y.threadName

/-- A row of its session with the greatest `updated_at`. -/
def IsCurrent (rows : List CodexSessionIndexRow) (row : CodexSessionIndexRow) : Prop :=
  row ∈ rows ∧ ∀ r ∈ rows, r.id = row.id → r.updatedAt ≤ row.updatedAt

def Bindable (rows : List CodexSessionIndexRow) (threadName workspaceRoot : String)
    (cwdLookup : String → Option String) (id : String) : Prop :=
  ∃ row, IsCurrent rows row ∧ row.id = id ∧ row.threadName = threadName ∧
    cwdLookup id = some workspaceRoot

theorem OneName.untied {rows : List CodexSessionIndexRow} (h : OneName rows) :
    Untied CodexSessionIndexRow.id CodexSessionIndexRow.updatedAt rows := by
  rintro ⟨id, threadName, updatedAt⟩ hx ⟨id', threadName', updatedAt'⟩ hy hid hat
  obtain rfl : id = id' := hid
  obtain rfl : updatedAt = updatedAt' := hat
  obtain rfl : threadName = threadName' := h _ hx _ hy rfl rfl
  rfl

theorem mem_latestById {rows : List CodexSessionIndexRow} (h : OneName rows)
    {row : CodexSessionIndexRow} : row ∈ latestById rows ↔ IsCurrent rows row :=
  mem_keepLatest_of_untied h.untied

theorem insertRow_eq (row : CodexSessionIndexRow) (rows : List CodexSessionIndexRow) :
    insertRow row rows =
      insertLatest CodexSessionIndexRow.id CodexSessionIndexRow.updatedAt row rows := by
  induction rows with
  | nil => rfl
  | cons prev rows ih =>
    rw [insertRow, insertLatest, ih]

section Candidates

variable {order : IterOrder} {threadName workspaceRoot : String}
  {cwdLookup : String → Option String} {rows : List CodexSessionIndexRow} {id : String}

def candidateIds (order : IterOrder) (threadName workspaceRoot : String)
    (cwdLookup : String → Option String) (rows : List CodexSessionIndexRow) : List String :=
  ((order.intoValues (latestById rows)).filter fun row =>
    row.threadName = threadName ∧ cwdLookup row.id = some workspaceRoot).map (·.id)

theorem nodup_candidateIds :
    (candidateIds order threadName workspaceRoot cwdLookup rows).Nodup := by
  have hids : ((order.intoValues (latestById rows)).map (·.id)).Nodup :=
    ((order.perm _).map _).nodup_iff.mpr nodup_keepLatest
  exact hids.sublist (List.filter_sublist.map _)

theorem mem_candidateIds :
    id ∈ candidateIds order threadName workspaceRoot cwdLookup rows ↔
      ∃ row ∈ latestById rows, row.id = id ∧ row.threadName = threadName ∧
        cwdLookup id = some workspaceRoot := by
  simp only [candidateIds, List.mem_map, List.mem_filter, (order.perm _).mem_iff,
    decide_eq_true_iff]
  constructor
  · rintro ⟨row, ⟨hrow, hname, hcwd⟩, rfl⟩
    exact ⟨row, hrow, rfl, hname, hcwd⟩
  · rintro ⟨row, hrow, rfl, hname, hcwd⟩
    exact ⟨row, ⟨hrow, hname, hcwd⟩, rfl⟩

theorem mem_candidateIds_of_oneName (h : OneName rows) :
    id ∈ candidateIds order threadName workspaceRoot cwdLookup rows ↔
      Bindable rows threadName workspaceRoot cwdLookup id := by
  simp only [mem_candidateIds, mem_latestById h, Bindable]

end Candidates

section Read

variable [SessionFormats] {role : AgentRole}

theorem readIndex_ok {ls : List String} {n : Nat} {rows : List CodexSessionIndexRow}
    (h : ∀ line ∈ ls, ¬Unparsable line) :
    readIndex role (ls.zipIdx n) rows =
      .ok ((ls.filterMap rowOf).foldl (fun kept row =>
        insertLatest CodexSessionIndexRow.id CodexSessionIndexRow.updatedAt row kept) rows) := by
  induction ls generalizing n rows with
  | nil => rfl
  | cons line ls ih =>
    obtain ⟨hline, hls⟩ := List.forall_mem_cons.mp h
    rw [List.zipIdx_cons, readIndex]
    by_cases hblank : (trim line).isEmpty = true
    · rw [if_pos hblank, ih hls, List.filterMap_cons_none (by rw [rowOf, if_pos hblank])]
    · cases hrow : SessionFormats.codexRow line with
      | error e => exact absurd ⟨by simpa using hblank, by simp [hrow]⟩ hline
      | ok row =>
        have hof : rowOf line = some row := by rw [rowOf, if_neg hblank, hrow]; rfl
        rw [if_neg hblank, List.filterMap_cons_some hof, List.foldl_cons]
        simp only [ih hls, insertRow_eq]

theorem readIndex_error {ls : List String} {n : Nat} {rows : List CodexSessionIndexRow}
    {e : OrchestratorError} (h : readIndex role (ls.zipIdx n) rows = .error e) :
    ∃ reason, e = .sessionBindFailed role .codex reason := by
  induction ls generalizing n rows with
  | nil => cases h
  | cons line ls ih =>
    rw [List.zipIdx_cons, readIndex] at h
    split at h
    · exact ih h
    · split at h
      · exact ⟨_, (Except.error.inj h).symm⟩
      · exact ih h

theorem readIndex_unparsable {ls : List String} {n : Nat} {rows : List CodexSessionIndexRow}
    {line : String} (hmem : line ∈ ls) (h : Unparsable line) :
    ∃ e, readIndex role (ls.zipIdx n) rows = .error e := by
  induction ls generalizing n rows with
  | nil => cases hmem
  | cons first ls ih =>
    rw [List.zipIdx_cons, readIndex]
    by_cases hfirst : line = first
    · subst hfirst
      rw [if_neg (by simp [h.1])]
      cases hrow : SessionFormats.codexRow line with
      | error e => exact ⟨_, rfl⟩
      | ok row => exact absurd hrow (h.2 row)
    · have hrest : line ∈ ls := by simpa [hfirst] using hmem
      split
      · exact ih hrest
      · split
        · exact ⟨_, rfl⟩
        · exact ih hrest

end Read

section Discover

variable [SessionFormats]

def discoverByThreadFromIndexWithCwdLookup (order : IterOrder) (index : IoResult Bytes)
    (threadName : String) (role : AgentRole) (workspaceRoot : String)
    (cwdLookup : String → Option String) : OrchestratorResult String :=
  match readToString index with
  | .error e =>
    if e.kind = .notFound then bindFailed role .codex
      "~/.codex/session_index.jsonl not found; create a Codex session first"
    else bindFailed role .codex
      ("failed to read ~/.codex/session_index.jsonl: " ++ e.message)
  | .ok content => do
    let latest ← readIndex role (lines content).zipIdx []
    let rows := (order.intoValues latest).filter fun row =>
      row.threadName = threadName ∧ cwdLookup row.id = some workspaceRoot
    bindOnly role .codex threadName (rows.map (·.id))

variable {order : IterOrder} {index : IoResult Bytes} {content threadName workspaceRoot : String}
  {role : AgentRole} {cwdLookup : String → Option String}

theorem discoverSession_codex [Crates] {state : ProviderState} {home : String}
    (hhome : state.home = some home) :
    discoverSession state workspaceRoot threadName role .codex =
      discoverByThreadFromIndexWithCwdLookup .insertion state.codexIndex threadName role
        workspaceRoot (codexSessionCwd state.home state.codexSessions) := by
  simp only [discoverSession, candidates, codexCandidates, hhome,
    discoverByThreadFromIndexWithCwdLookup, IterOrder.insertion, id]
  cases readToString state.codexIndex with
  | error e => by_cases he : e.kind = .notFound <;> simp [he, bindFailed, bind, Except.bind]
  | ok content =>
    simp only [bind, Except.bind]
    cases readIndex role (lines content).zipIdx [] <;> rfl

theorem discover_parsed (hread : readToString index = .ok content)
    (hparsed : ∀ line ∈ lines content, ¬Unparsable line) :
    discoverByThreadFromIndexWithCwdLookup order index threadName role workspaceRoot cwdLookup =
      bindOnly role .codex threadName
        (candidateIds order threadName workspaceRoot cwdLookup (indexRows content)) := by
  rw [discoverByThreadFromIndexWithCwdLookup, hread]
  simp only [readIndex_ok hparsed]
  rfl

theorem discover_failed {e : OrchestratorError}
    (h : discoverByThreadFromIndexWithCwdLookup order index threadName role workspaceRoot
      cwdLookup = .error e) : ∃ reason, e = .sessionBindFailed role .codex reason := by
  rw [discoverByThreadFromIndexWithCwdLookup] at h
  split at h
  · split at h
    · exact ⟨_, (Except.error.inj h).symm⟩
    · exact ⟨_, (Except.error.inj h).symm⟩
  · rename_i content _
    cases hrows : readIndex role (lines content).zipIdx [] with
    | error e' =>
      rw [hrows] at h
      obtain rfl := Except.error.inj h
      exact readIndex_error hrows
    | ok rows =>
      rw [hrows] at h
      exact bindOnly_failed h

theorem discover_unparsable {line : String} (hread : readToString index = .ok content)
    (hmem : line ∈ lines content) (h : Unparsable line) :
    ∃ reason, discoverByThreadFromIndexWithCwdLookup order index threadName role workspaceRoot
      cwdLookup = .error (.sessionBindFailed role .codex reason) := by
  obtain ⟨e, he⟩ : ∃ e, readIndex role (lines content).zipIdx [] = .error e :=
    readIndex_unparsable hmem h
  have hdiscover : discoverByThreadFromIndexWithCwdLookup order index threadName role workspaceRoot
      cwdLookup = .error e := by
    rw [discoverByThreadFromIndexWithCwdLookup, hread]
    simp only [he]
    rfl
  obtain ⟨reason, rfl⟩ := readIndex_error he
  exact ⟨reason, hdiscover⟩

structure ExactBinding (rows : List CodexSessionIndexRow) (threadName : String) (role : AgentRole)
    (workspaceRoot : String) (cwdLookup : String → Option String)
    (result : OrchestratorResult String) : Prop where
  only : ∀ id, result = .ok id ↔
    ∀ id', Bindable rows threadName workspaceRoot cwdLookup id' ↔ id' = id
  failed : ∀ e, result = .error e → ∃ reason, e = .sessionBindFailed role .codex reason
  superseded : ∀ row, IsCurrent rows row → row.threadName ≠ threadName → result ≠ .ok row.id

theorem discover_exact (hread : readToString index = .ok content)
    (hparsed : ∀ line ∈ lines content, ¬Unparsable line) (hname : OneName (indexRows content)) :
    ExactBinding (indexRows content) threadName role workspaceRoot cwdLookup
      (discoverByThreadFromIndexWithCwdLookup order index threadName role workspaceRoot
        cwdLookup) := by
  have honly : ∀ id, discoverByThreadFromIndexWithCwdLookup order index threadName role
      workspaceRoot cwdLookup = .ok id ↔
      ∀ id', Bindable (indexRows content) threadName workspaceRoot cwdLookup id' ↔ id' = id := by
    intro id
    rw [discover_parsed hread hparsed, bindOnly_eq_ok_of_nodup nodup_candidateIds]
    simp only [mem_candidateIds_of_oneName hname]
  refine ⟨honly, fun e he => discover_failed he, fun row hrow hne hok => ?_⟩
  obtain ⟨current, hcurrent, hid, hthread, -⟩ := ((honly row.id).mp hok row.id).mpr rfl
  have hat : current.updatedAt = row.updatedAt :=
    le_antisymm (hrow.2 current hcurrent.1 hid) (hcurrent.2 row hrow.1 hid.symm)
  exact hne ((hname current hcurrent.1 row hrow.1 hid hat).symm.trans hthread)

theorem discover_order (order' : IterOrder) (hread : readToString index = .ok content)
    (hparsed : ∀ line ∈ lines content, ¬Unparsable line) :
    discoverByThreadFromIndexWithCwdLookup order' index threadName role workspaceRoot cwdLookup =
      discoverByThreadFromIndexWithCwdLookup order index threadName role workspaceRoot
        cwdLookup := by
  have hvalues : (order'.intoValues (latestById (indexRows content))).Perm
      (order.intoValues (latestById (indexRows content))) :=
    (order'.perm _).trans (order.perm _).symm
  rw [discover_parsed hread hparsed, discover_parsed hread hparsed]
  exact bindOnly_perm ((hvalues.filter _).map _)

theorem discover_perm {index' : IoResult Bytes} {content' : String}
    (hread : readToString index = .ok content) (hread' : readToString index' = .ok content')
    (hperm : (lines content').Perm (lines content))
    (hparsed : ∀ line ∈ lines content, ¬Unparsable line) (hname : OneName (indexRows content)) :
    discoverByThreadFromIndexWithCwdLookup order index' threadName role workspaceRoot cwdLookup =
      discoverByThreadFromIndexWithCwdLookup order index threadName role workspaceRoot
        cwdLookup := by
  have hparsed' : ∀ line ∈ lines content', ¬Unparsable line := fun line hline =>
    hparsed line (hperm.mem_iff.mp hline)
  have hkept : (latestById (indexRows content')).Perm (latestById (indexRows content)) :=
    (keepLatest_perm hname.untied (hperm.symm.filterMap rowOf)).symm
  have hvalues : (order.intoValues (latestById (indexRows content'))).Perm
      (order.intoValues (latestById (indexRows content))) :=
    ((order.perm _).trans hkept).trans (order.perm _).symm
  rw [discover_parsed hread hparsed, discover_parsed hread' hparsed']
  exact bindOnly_perm ((hvalues.filter _).map _)

/-- A session is bound if and only if it is the only one that the thread names now. -/
theorem codex_binding (order : IterOrder) (threadName workspaceRoot : String) (role : AgentRole)
    (cwdLookup : String → Option String) (hread : readToString index = .ok content) :
    ((∀ line ∈ lines content, ¬Unparsable line) → OneName (indexRows content) →
      ExactBinding (indexRows content) threadName role workspaceRoot cwdLookup
          (discoverByThreadFromIndexWithCwdLookup order index threadName role workspaceRoot
            cwdLookup) ∧
        (∀ order', discoverByThreadFromIndexWithCwdLookup order' index threadName role
            workspaceRoot cwdLookup =
          discoverByThreadFromIndexWithCwdLookup order index threadName role workspaceRoot
            cwdLookup) ∧
        ∀ index' content', readToString index' = .ok content' →
          (lines content').Perm (lines content) →
          discoverByThreadFromIndexWithCwdLookup order index' threadName role workspaceRoot
              cwdLookup =
            discoverByThreadFromIndexWithCwdLookup order index threadName role workspaceRoot
              cwdLookup) ∧
      ((∃ line ∈ lines content, Unparsable line) →
        ∃ reason, discoverByThreadFromIndexWithCwdLookup order index threadName role workspaceRoot
          cwdLookup = .error (.sessionBindFailed role .codex reason)) := by
  constructor
  · intro hparsed hname
    exact ⟨discover_exact hread hparsed hname, fun order' => discover_order order' hread hparsed,
      fun index' content' hread' hperm => discover_perm hread hread' hperm hparsed hname⟩
  · rintro ⟨line, hmem, h⟩
    exact discover_unparsable hread hmem h

end Discover

namespace Sample.Index

def line (row : CodexSessionIndexRow) : String :=
  "\x7b\"id\":\"" ++ row.id ++ "\",\"thread_name\":\"" ++ row.threadName ++
    "\",\"updated_at\":\"" ++ row.updatedAt ++ "\"\x7d"

def old : CodexSessionIndexRow := ⟨"same", "old-name", "2026-01-01T10:00:00Z"⟩

def new : CodexSessionIndexRow := ⟨"same", "new-name", "2026-01-02T10:00:00Z"⟩

def renewed : CodexSessionIndexRow := ⟨"same", "newer-name", "2026-01-02T10:00:00.5Z"⟩

scoped instance : SessionFormats where
  codexRow text :=
    match [old, new, renewed].find? (fun row => line row = text) with
    | some row => .ok row
    | none => .error "not a sample row"
  opencodeRows _ := .error "not a sample list"

def text (rows : List CodexSessionIndexRow) : String := "\n".intercalate (rows.map line)

def index (rows : List CodexSessionIndexRow) : IoResult Bytes := .ok (asBytes (text rows))

end Sample.Index

namespace Sample.Index

theorem line_plain : ∀ row ∈ [old, new, renewed], line row ≠ "" ∧ '\n' ∉ (line row).toList ∧
    (line row).toList.getLast? ≠ some '\r' := by
  simp [line, old, new, renewed]

theorem line_distinct : line old ≠ line new ∧ line old ≠ line renewed ∧
    line new ≠ line renewed := by
  simp only [line, old, new, renewed, ne_eq, ← String.toList_inj, String.toList_append,
    List.append_assoc, List.append_cancel_left_eq]
  simp

theorem codexRow_line : ∀ row ∈ [old, new, renewed],
    SessionFormats.codexRow (line row) = .ok row := by
  simp [SessionFormats.codexRow, line_distinct]

theorem rowOf_line : ∀ row ∈ [old, new, renewed], rowOf (line row) = some row := by
  intro row h
  have htext : (trim (line row)).isEmpty = false := by
    rw [isEmpty_trim]
    simp [line, isWhitespace]
  rw [rowOf, htext, codexRow_line row h]
  rfl

theorem read_text (rows : List CodexSessionIndexRow) :
    readToString (index rows) = .ok (text rows) :=
  readToString_asBytes _

section Text

variable {rows : List CodexSessionIndexRow} (hrows : rows ⊆ [old, new, renewed])

include hrows

theorem lines_text : lines (text rows) = rows.map line := by
  apply lines_intercalate
  intro l hl
  obtain ⟨row, hrow, rfl⟩ := List.mem_map.mp hl
  exact line_plain row (hrows hrow)

theorem parsed_text : ∀ line ∈ lines (text rows), ¬Unparsable line := by
  rw [lines_text hrows]
  intro l hl hbad
  obtain ⟨row, hrow, rfl⟩ := List.mem_map.mp hl
  exact hbad.2 row (codexRow_line row (hrows hrow))

theorem indexRows_text : indexRows (text rows) = rows := by
  have hrow : ∀ row ∈ rows, (rowOf ∘ line) row = some row := by
    intro row hrow
    rw [Function.comp_apply, rowOf_line row (hrows hrow)]
  rw [indexRows, lines_text hrows, List.filterMap_map, List.filterMap_congr hrow,
    List.filterMap_some]

end Text

theorem isCurrent_renamed {row : CodexSessionIndexRow} : IsCurrent [old, new] row ↔ row = new := by
  constructor
  · rintro ⟨hmem, hmax⟩
    obtain rfl | rfl : row = old ∨ row = new := by simpa using hmem
    · exact absurd (hmax new (by simp) rfl) (by decide)
    · rfl
  · rintro rfl
    exact ⟨by simp, by decide⟩

theorem bindable_renamed {threadName id : String} :
    Bindable [old, new] threadName "/" (fun _ => some "/") id ↔
      id = "same" ∧ threadName = "new-name" := by
  simp only [Bindable, isCurrent_renamed, exists_eq_left, and_true]
  exact and_congr eq_comm eq_comm

end Sample.Index

open Sample.Index in
theorem codex_binding_renamed :
    readToString (index [old, new]) = .ok (text [old, new]) ∧
      (∀ line ∈ lines (text [old, new]), ¬Unparsable line) ∧
      OneName (indexRows (text [old, new])) ∧
      ∀ order,
        discoverByThreadFromIndexWithCwdLookup order (index [old, new]) "new-name" .executor "/"
            (fun _ => some "/") = .ok "same" ∧
          discoverByThreadFromIndexWithCwdLookup order (index [old, new]) "old-name" .executor "/"
            (fun _ => some "/") ≠ .ok "same" := by
  have hread : readToString (index [old, new]) = .ok (text [old, new]) := read_text _
  have hrows : indexRows (text [old, new]) = [old, new] := indexRows_text (by simp)
  have hparsed : ∀ line ∈ lines (text [old, new]), ¬Unparsable line := parsed_text (by simp)
  have hname : OneName (indexRows (text [old, new])) := by
    rw [hrows]
    unfold OneName
    decide
  refine ⟨hread, hparsed, hname, fun order => ⟨?_, ?_⟩⟩
  · rw [((codex_binding order "new-name" "/" .executor _ hread).1 hparsed hname).1.only, hrows]
    simp [bindable_renamed]
  · rw [ne_eq, ((codex_binding order "old-name" "/" .executor _ hread).1 hparsed hname).1.only,
      hrows]
    simp [bindable_renamed]

end Orchestrator

import Orchestrator.Sessions
import Orchestrator.Lib.Utf8

namespace Orchestrator

open Rust

def Json.HasType (type : String) (record : Json) : Prop :=
  (record.get "type" >>= Json.asStr) = some type

instance (type : String) (record : Json) : Decidable (record.HasType type) :=
  inferInstanceAs (Decidable (_ = _))

def IsTitle (record : Json) : Prop :=
  record.HasType "custom-title" ∨ record.HasType "agent-name"

def lastField (type field : String) (records : List Json) : Option String :=
  (records.filter fun r => r.HasType type).getLast?.bind fun r => r.get field >>= Json.asStr

def titlesOf (records : List Json) : Titles :=
  ⟨lastField "custom-title" "customTitle" records, lastField "agent-name" "agentName" records⟩

def Titles.effective (titles : Titles) : Option String := titles.customTitle.or titles.agentName

theorem lastField_concat (type field : String) (records : List Json) (r : Json) :
    lastField type field (records ++ [r]) =
      if r.HasType type then r.get field >>= Json.asStr else lastField type field records := by
  rw [lastField, List.filter_append]
  by_cases h : r.HasType type <;> simp [h, lastField]

theorem lastField_insert {type field : String} {rs : List Json} (h : ∀ r ∈ rs, ¬r.HasType type)
    (before after : List Json) :
    lastField type field (before ++ (rs ++ after)) = lastField type field (before ++ after) := by
  have hnone : rs.filter (fun r => r.HasType type) = [] := by
    rw [List.filter_eq_nil_iff]
    exact fun r hr => by simpa using h r hr
  rw [lastField, List.filter_append, List.filter_append, hnone, List.nil_append,
    ← List.filter_append]
  rfl

theorem titlesOf_insert {rs : List Json} (h : ∀ r ∈ rs, ¬IsTitle r) (before after : List Json) :
    titlesOf (before ++ (rs ++ after)) = titlesOf (before ++ after) := by
  have hcustom : ∀ r ∈ rs, ¬r.HasType "custom-title" := fun r hr => (not_or.mp (h r hr)).1
  have hagent : ∀ r ∈ rs, ¬r.HasType "agent-name" := fun r hr => (not_or.mp (h r hr)).2
  rw [titlesOf, lastField_insert hcustom, lastField_insert hagent]
  rfl

section Logs

variable [Crates]

def lineRecord (line : String) : Option Json :=
  if (trim line).isEmpty || line.toList.all (fun c => c.toNat == 0) then none
  else Crates.serdeJson line

def recordsOf (log : Bytes) : List Json :=
  (byteLines log).filterMap fun line => (fromUtf8 line).bind lineRecord

theorem foldl_readTitle (ls : List String) :
    ls.foldl readTitle ⟨none, none⟩ = titlesOf (ls.filterMap lineRecord) := by
  induction ls using List.reverseRecOn with
  | nil => rfl
  | append_singleton ls line ih =>
    rw [List.foldl_append, ih, List.filterMap_append, List.foldl_cons, List.foldl_nil, readTitle,
      List.filterMap_cons, lineRecord]
    split
    · simp
    · cases Crates.serdeJson line with
      | none => simp
      | some record =>
        simp only [List.filterMap_nil, titlesOf, lastField_concat]
        by_cases hcustom : record.HasType "custom-title"
        · have hagent : ¬record.HasType "agent-name" := by
            rw [Json.HasType, hcustom]
            decide
          rw [if_pos hcustom, if_neg hagent]
          exact if_pos hcustom
        · by_cases hagent : record.HasType "agent-name"
          · rw [if_neg hcustom, if_pos hagent]
            exact (if_neg hcustom).trans (if_pos hagent)
          · rw [if_neg hcustom, if_neg hagent]
            exact (if_neg hcustom).trans (if_neg hagent)

theorem claudeEffectiveTitle_asBytes (s : String) :
    claudeEffectiveTitle (.ok (asBytes s)) = .ok (titlesOf (recordsOf (asBytes s))).effective := by
  have hrecords : recordsOf (asBytes s) = (lines s).filterMap lineRecord := by
    rw [recordsOf, byteLines_asBytes, List.filterMap_map]
    congr 1
    funext line
    rw [Function.comp_apply, fromUtf8_asBytes, Option.bind_some]
  have hread : ofIo (readToString (.ok (asBytes s))) = .ok s := by
    rw [readToString_asBytes]
    rfl
  rw [claudeEffectiveTitle, hread, hrecords, ← foldl_readTitle]
  rfl

theorem claudeEffectiveTitle_eq_ok {log : Bytes} {title : Option String} :
    claudeEffectiveTitle (.ok log) = .ok title ↔
      (fromUtf8 log).isSome ∧ title = (titlesOf (recordsOf log)).effective := by
  cases h : fromUtf8 log with
  | none => simp [claudeEffectiveTitle, readToString, h, ofIo, bind, Except.bind]
  | some s =>
    rw [fromUtf8_eq_some_iff.mp h, claudeEffectiveTitle_asBytes, Except.ok.injEq]
    simp [eq_comm]

theorem recordsOf_newline (xs ys : Bytes) :
    recordsOf (xs ++ 10 :: ys) = recordsOf (xs ++ [10]) ++ recordsOf ys := by
  rw [recordsOf, byteLines_append, List.filterMap_append]
  rfl

/-- Behind these bytes a line may be inserted. -/
def LineEnd (pre : Bytes) : Prop := pre = [] ∨ [10] <:+ pre

def NoTitle (line : Bytes) : Prop := ∀ r ∈ recordsOf (line ++ [10]), ¬IsTitle r

variable {pre line post : Bytes}

theorem LineEnd.recordsOf (h : LineEnd pre) (post : Bytes) :
    recordsOf (pre ++ post) = Orchestrator.recordsOf pre ++ Orchestrator.recordsOf post := by
  obtain rfl | ⟨xs, rfl⟩ := h
  · rfl
  · rw [List.append_assoc, List.singleton_append, recordsOf_newline]

omit [Crates] in
theorem LineEnd.isSome_fromUtf8 (h : LineEnd pre) (post : Bytes) :
    (fromUtf8 (pre ++ post)).isSome ↔ (fromUtf8 pre).isSome ∧ (fromUtf8 post).isSome := by
  have hnil : (fromUtf8 []).isSome := rfl
  obtain rfl | ⟨xs, rfl⟩ := h
  · simp [hnil]
  · rw [List.append_assoc, List.singleton_append, isSome_fromUtf8_newline, isSome_fromUtf8_newline]
    simp [hnil]

theorem titlesOf_recordsOf_insert (hpre : LineEnd pre) (hline : NoTitle line) :
    titlesOf (recordsOf (pre ++ (line ++ 10 :: post))) = titlesOf (recordsOf (pre ++ post)) := by
  rw [hpre.recordsOf, hpre.recordsOf, recordsOf_newline, titlesOf_insert hline]

variable [SessionFormats]

def LogFile.withText (file : LogFile) (log : Bytes) : LogFile := { file with text := .ok log }

def ProviderState.withProject (state : ProviderState) (key : String)
    (entries : List (IoResult LogFile)) : ProviderState :=
  { state with claudeProject := fun k => if k = key then .ok entries else state.claudeProject k }

omit [SessionFormats] in
theorem claudeCandidatesIn_congr {log log' : Bytes}
    (h : claudeEffectiveTitle (.ok log) = claudeEffectiveTitle (.ok log')) (dir : String)
    (role : AgentRole) (threadName : String) (before : List (IoResult LogFile)) (file : LogFile)
    (after : List (IoResult LogFile)) :
    claudeCandidatesIn dir role threadName (before ++ .ok (file.withText log) :: after) =
      claudeCandidatesIn dir role threadName (before ++ .ok (file.withText log') :: after) := by
  induction before with
  | nil =>
    have hcandidate : claudeCandidate dir role threadName (file.withText log) =
        claudeCandidate dir role threadName (file.withText log') := by
      simp only [claudeCandidate, LogFile.withText, LogFile.sessionId, h]
      rfl
    have hentry : ∀ text, claudeCandidatesIn dir role threadName
        (.ok (file.withText text) :: after) =
        (do
          let candidate ← claudeCandidate dir role threadName (file.withText text)
          let candidates ← claudeCandidatesIn dir role threadName after
          return candidate.toList ++ candidates) := fun _ => rfl
    rw [List.nil_append, List.nil_append, hentry, hentry, hcandidate]
  | cons entry before ih => simp only [List.cons_append, claudeCandidatesIn, ih]

theorem discoverSession_congr {log log' : Bytes}
    (h : claudeEffectiveTitle (.ok log) = claudeEffectiveTitle (.ok log')) (state : ProviderState)
    (key : String) (before : List (IoResult LogFile)) (file : LogFile)
    (after : List (IoResult LogFile)) (repo threadName : String) (role : AgentRole) :
    discoverSession (state.withProject key (before ++ .ok (file.withText log) :: after)) repo
        threadName role .claude =
      discoverSession (state.withProject key (before ++ .ok (file.withText log') :: after)) repo
        threadName role .claude := by
  have hcandidates : ∀ dir, claudeCandidatesIn dir role threadName _ = _ :=
    fun dir => claudeCandidatesIn_congr h dir role threadName before file after
  simp only [discoverSession, candidates, claudeCandidates, ProviderState.withProject]
  cases state.home with
  | none => rfl
  | some home =>
    by_cases hkey : claudeProjectKey repo = key
    · simp only [hkey, if_true, hcandidates]
    · simp only [hkey, if_false]

/-- What the insertion of a line into a log leaves as it was, and what the title of the log is. -/
structure Tolerates (pre line post : Bytes) : Prop where
  title : claudeEffectiveTitle (.ok (pre ++ (line ++ 10 :: post))) =
    claudeEffectiveTitle (.ok (pre ++ post))
  discovered : ∀ (state : ProviderState) (key : String) (before : List (IoResult LogFile))
    (file : LogFile) (after : List (IoResult LogFile)) (repo threadName : String)
    (role : AgentRole),
    discoverSession (state.withProject key
        (before ++ .ok (file.withText (pre ++ (line ++ 10 :: post))) :: after))
        repo threadName role .claude =
      discoverSession (state.withProject key
        (before ++ .ok (file.withText (pre ++ post)) :: after)) repo threadName role .claude
  last : claudeEffectiveTitle (.ok (pre ++ post)) =
    .ok (titlesOf (recordsOf (pre ++ post))).effective

/-- A log tolerates a line that is text among lines that are. -/
theorem tolerates_iff (hpre : LineEnd pre) (hline : NoTitle line) :
    Tolerates pre line post ↔ (fromUtf8 (pre ++ post)).isSome ∧ (fromUtf8 line).isSome := by
  have hdecodes : (fromUtf8 (pre ++ (line ++ 10 :: post))).isSome ↔
      (fromUtf8 (pre ++ post)).isSome ∧ (fromUtf8 line).isSome := by
    rw [hpre.isSome_fromUtf8, hpre.isSome_fromUtf8, isSome_fromUtf8_newline]
    tauto
  constructor
  · intro h
    exact hdecodes.mp (claudeEffectiveTitle_eq_ok.mp (h.title.trans h.last)).1
  · intro h
    have hlast : claudeEffectiveTitle (.ok (pre ++ post)) =
        .ok (titlesOf (recordsOf (pre ++ post))).effective :=
      claudeEffectiveTitle_eq_ok.mpr ⟨h.1, rfl⟩
    have htitle : claudeEffectiveTitle (.ok (pre ++ (line ++ 10 :: post))) =
        claudeEffectiveTitle (.ok (pre ++ post)) := by
      rw [hlast, claudeEffectiveTitle_eq_ok, titlesOf_recordsOf_insert hpre hline]
      exact ⟨hdecodes.mpr h, rfl⟩
    exact ⟨htitle, discoverSession_congr htitle, hlast⟩

end Logs

namespace Sample.Named

def titled : Bytes := asBytes titleLine ++ [10]

def garbage : Bytes := asBytes "\x7bnot valid json\x7d"

def titleLog (log : Bytes) : LogFile := ⟨some "s-1", some "jsonl", .ok 0, .ok log⟩

def logged (log : Bytes) : ProviderState := state.withProject "-w" [.ok (titleLog log)]

theorem noTitle_stray : NoTitle [0xFF] := by
  have hrecords : recordsOf ([0xFF] ++ [10]) = [] := rfl
  rw [NoTitle, hrecords]
  simp

theorem noTitle_garbage : NoTitle garbage := by
  have hrecords : recordsOf (garbage ++ [10]) = [] := by decide +kernel
  rw [NoTitle, hrecords]
  simp

theorem logged_title {log : Bytes} {id : String}
    (h : discoverSession (logged log) "/w" "TASK-1" .executor .claude = .ok id) :
    ∃ title, claudeEffectiveTitle (.ok log) = .ok title := by
  have hcandidates : claudeCandidatesIn "/home/u/.claude/projects/-w" .executor "TASK-1"
      [.ok (titleLog log)] = .ok [id] := discoverSession_eq_ok.mp h
  obtain ⟨file, hfile, hscanned⟩ :=
    (claudeCandidatesIn_ok hcandidates).1 (.ok (titleLog log)) (List.mem_singleton.mpr rfl)
  obtain rfl : titleLog log = file := Except.ok.inj hfile
  exact hscanned rfl

end Sample.Named

open Sample.Named in
theorem stray_hides_title :
    LineEnd [] ∧ NoTitle [0xFF] ∧
      claudeEffectiveTitle (.ok titled) = .ok (some "TASK-1") ∧
      discoverSession (logged titled) "/w" "TASK-1" .executor .claude = .ok "s-1" ∧
      (∀ title, claudeEffectiveTitle (.ok ([0xFF] ++ 10 :: titled)) ≠ .ok title) ∧
      (∀ id, discoverSession (logged ([0xFF] ++ 10 :: titled)) "/w" "TASK-1" .executor .claude ≠
        .ok id) ∧
      ¬Tolerates [] [0xFF] titled := by
  have hstray : ¬(fromUtf8 ([0xFF] ++ 10 :: titled)).isSome := by
    rw [isSome_fromUtf8_newline]
    decide
  have hnone : ∀ title, claudeEffectiveTitle (.ok ([0xFF] ++ 10 :: titled)) ≠ .ok title :=
    fun title h => hstray (claudeEffectiveTitle_eq_ok.mp h).1
  have hdiscovered : discoverSession (logged titled) "/w" "TASK-1" .executor .claude =
      .ok "s-1" := by
    decide +kernel
  refine ⟨.inl rfl, noTitle_stray, by decide +kernel, hdiscovered, hnone, ?_, ?_⟩
  · intro id h
    obtain ⟨title, htitle⟩ := logged_title h
    exact hnone title htitle
  · exact fun h => hnone _ (h.title.trans h.last)

open Sample.Named in
theorem tolerates_garbage : Tolerates titled garbage titled :=
  (tolerates_iff (.inr (List.suffix_append _ _)) noTitle_garbage).mpr
    ⟨by decide +kernel, by decide +kernel⟩

end Orchestrator

import Orchestrator.Sessions

namespace Orchestrator

open Rust

/-- An entry or a directory that cannot be read, or a log file. -/
inductive Visit
  | entry (e : IoError)
  | dir (e : IoError)
  | file (log : LogFile)

def Visit.isRollout (sessionId : String) : Visit → Bool
  | .entry _ | .dir _ => false
  | .file log => log.isRollout sessionId

section Visits

variable {α β : Type}

def visitsIn (visits : α → List Visit) (dir : Listing α) : List Visit :=
  match dir with
  | .error e => [.dir e]
  | .ok entries => entries.flatMap fun entry =>
    match entry with
    | .error e => [.entry e]
    | .ok a => visits a

def rolloutVisits (sessions : CodexSessions) : List Visit :=
  visitsIn (visitsIn (visitsIn (visitsIn fun log => [.file log]))) sessions

theorem searchIn_eq {search : α → Option (Option String)} {visits : α → List Visit}
    {stop : Visit → Option (Option String)} (hentry : ∀ e, stop (.entry e) = none)
    (hdir : ∀ e, stop (.dir e) = some none) (h : ∀ a, search a = (visits a).findSome? stop)
    (dir : Listing α) : searchIn search dir = (visitsIn visits dir).findSome? stop := by
  cases dir with
  | error e => simp [searchIn, visitsIn, hdir]
  | ok entries =>
    simp only [searchIn, visitsIn]
    induction entries with
    | nil => rfl
    | cons entry entries ih =>
      rw [List.flatMap_cons, List.findSome?_append, ← ih, List.findSome?_cons]
      cases entry with
      | error e => simp [hentry, Except.toOption]
      | ok a =>
        simp only [Except.toOption, Option.bind_some, h]
        cases (visits a).findSome? stop <;> rfl

def searched : Option (IoResult β) → IoResult (Option β)
  | none => .ok none
  | some (.ok b) => .ok (some b)
  | some (.error e) => .error e

theorem findIn_eq {find : α → IoResult (Option β)} {visits : α → List Visit}
    {stop : Visit → Option (IoResult β)} (hentry : ∀ e, stop (.entry e) = some (.error e))
    (hdir : ∀ e, stop (.dir e) = some (.error e))
    (h : ∀ a, find a = searched ((visits a).findSome? stop)) (dir : Listing α) :
    findIn find dir = searched ((visitsIn visits dir).findSome? stop) := by
  cases dir with
  | error e => simp [findIn, visitsIn, hdir, searched, bind, Except.bind]
  | ok entries =>
    simp only [findIn, visitsIn, bind, Except.bind]
    induction entries with
    | nil => rfl
    | cons entry entries ih =>
      rw [List.flatMap_cons, List.findSome?_append]
      cases entry with
      | error e => simp [findEntry, bind, Except.bind, hentry, searched]
      | ok a =>
        simp only [findEntry, bind, Except.bind, h]
        cases (visits a).findSome? stop with
        | none => exact ih
        | some r => cases r <;> rfl

end Visits

section Mtime

variable {sessionId : String} {sessions : CodexSessions}

def mtimeStop (sessionId : String) : Visit → Option (IoResult Int)
  | .entry e | .dir e => some (.error e)
  | .file log => if log.isRollout sessionId then some log.mtime else none

def PassedForMtime (sessionId : String) : Visit → Prop
  | .entry _ | .dir _ => False
  | .file log => log.isRollout sessionId = false

theorem mtimeStop_eq_none {visit : Visit} :
    mtimeStop sessionId visit = none ↔ PassedForMtime sessionId visit := by
  cases visit <;> simp [mtimeStop, PassedForMtime]

theorem mtimeStop_eq_some {visit : Visit} {t : Int} :
    mtimeStop sessionId visit = some (.ok t) ↔
      ∃ log, visit = .file log ∧ log.isRollout sessionId = true ∧ log.mtime = .ok t := by
  cases visit <;> simp [mtimeStop]

theorem rolloutMtime_eq (log : LogFile) :
    rolloutMtime sessionId log = searched ([Visit.file log].findSome? (mtimeStop sessionId)) := by
  cases h : log.isRollout sessionId
  · simp [rolloutMtime, mtimeStop, searched, h]
  · cases ht : log.mtime <;> simp [rolloutMtime, mtimeStop, searched, h, ht, Except.map]

theorem searched_eq_some {α : Type} {r : Option (IoResult α)} {a : α} :
    searched r = .ok (some a) ↔ r = some (.ok a) := by
  match r with
  | none => simp [searched]
  | some (.ok _) => simp [searched]
  | some (.error _) => simp [searched]

theorem searched_eq_none {α : Type} {r : Option (IoResult α)} :
    searched r = .ok none ↔ r = none := by
  match r with
  | none => simp [searched]
  | some (.ok _) => simp [searched]
  | some (.error _) => simp [searched]

theorem codexSessionJsonlMtime_searched {home : String} (h : ¬Missing sessions) :
    codexSessionJsonlMtime (some home) sessions sessionId =
      ofIo (searched ((rolloutVisits sessions).findSome? (mtimeStop sessionId))) := by
  have hwalk : findIn (findIn (findIn (findIn (rolloutMtime sessionId)))) sessions =
      searched ((rolloutVisits sessions).findSome? (mtimeStop sessionId)) :=
    findIn_eq (fun _ => rfl) (fun _ => rfl) (findIn_eq (fun _ => rfl) (fun _ => rfl)
      (findIn_eq (fun _ => rfl) (fun _ => rfl)
        (findIn_eq (fun _ => rfl) (fun _ => rfl) rolloutMtime_eq))) sessions
  rw [← hwalk]
  cases sessions with
  | error e =>
    have he : e.kind ≠ .notFound := fun he => h ⟨e, rfl, he⟩
    simp [codexSessionJsonlMtime, noneIfMissing, he, findIn, bind, Except.bind, ofIo]
  | ok years => rfl

theorem codexSessionJsonlMtime_eq_some {home : String} {t : Int} :
    codexSessionJsonlMtime (some home) sessions sessionId = .ok (some t) ↔
      (rolloutVisits sessions).findSome? (mtimeStop sessionId) = some (.ok t) := by
  by_cases h : Missing sessions
  · rw [codexSessionJsonlMtime, noneIfMissing_missing h]
    obtain ⟨e, rfl, -⟩ := h
    simp [rolloutVisits, visitsIn, mtimeStop]
  · rw [codexSessionJsonlMtime_searched h, ofIo_ok, searched_eq_some]

theorem codexSessionJsonlMtime_eq_none {home : Option String} :
    codexSessionJsonlMtime home sessions sessionId = .ok none ↔
      home.isSome ∧
        (Missing sessions ∨ ∀ visit ∈ rolloutVisits sessions, PassedForMtime sessionId visit) := by
  cases home with
  | none => simp [codexSessionJsonlMtime]
  | some home =>
    by_cases h : Missing sessions
    · simp [codexSessionJsonlMtime, noneIfMissing_missing h, h]
    · rw [codexSessionJsonlMtime_searched h, ofIo_ok, searched_eq_none,
        List.findSome?_eq_none_iff]
      simp [h, mtimeStop_eq_none]

end Mtime

section Cwd

variable [Crates] {sessionId : String} {sessions : CodexSessions}

def LogFile.firstRecord (log : LogFile) : Option Json :=
  (readToString log.text).toOption.bind fun content => (lines content).head?.bind Crates.serdeJson

def IsSessionMeta (obj : Json) : Prop := (obj.get "type" >>= Json.asStr) = some "session_meta"

instance (obj : Json) : Decidable (IsSessionMeta obj) := inferInstanceAs (Decidable (_ = _))

def LogFile.RecordsCwd (log : LogFile) (cwd : String) : Prop :=
  ∃ obj, log.firstRecord = some obj ∧ IsSessionMeta obj ∧
    (obj.get "payload" >>= Json.get "cwd" >>= Json.asStr) = some cwd

def cwdStop (sessionId : String) : Visit → Option (Option String)
  | .entry _ => none
  | .dir _ => some none
  | .file log => rolloutCwd sessionId log

def PassedForCwd (sessionId : String) : Visit → Prop
  | .entry _ => True
  | .dir _ => False
  | .file log => log.isRollout sessionId = true →
    ∃ obj, log.firstRecord = some obj ∧ ¬IsSessionMeta obj

theorem rolloutCwd_eq {log : LogFile} (h : log.isRollout sessionId = true) :
    rolloutCwd sessionId log =
      match log.firstRecord with
      | none => some none
      | some obj =>
        if IsSessionMeta obj then some (obj.get "payload" >>= Json.get "cwd" >>= Json.asStr)
        else none := by
  rw [rolloutCwd, if_pos h, LogFile.firstRecord]
  cases readToString log.text with
  | error e => rfl
  | ok content => rfl

theorem cwdStop_eq_none {visit : Visit} :
    cwdStop sessionId visit = none ↔ PassedForCwd sessionId visit := by
  cases visit with
  | entry e => simp [cwdStop, PassedForCwd]
  | dir e => simp [cwdStop, PassedForCwd]
  | file log =>
    simp only [cwdStop, PassedForCwd]
    cases h : log.isRollout sessionId with
    | false => simp [rolloutCwd, h]
    | true =>
      rw [rolloutCwd_eq h]
      cases log.firstRecord with
      | none => simp
      | some obj =>
        by_cases hmeta : IsSessionMeta obj
        · simp [hmeta]
        · simp [hmeta]

theorem cwdStop_eq_some {visit : Visit} {cwd : String} :
    cwdStop sessionId visit = some (some cwd) ↔
      ∃ log, visit = .file log ∧ log.isRollout sessionId = true ∧ log.RecordsCwd cwd := by
  cases visit with
  | entry e => simp [cwdStop]
  | dir e => simp [cwdStop]
  | file log =>
    simp only [cwdStop, LogFile.RecordsCwd, Visit.file.injEq, exists_eq_left']
    cases h : log.isRollout sessionId with
    | false => simp [rolloutCwd, h]
    | true =>
      rw [rolloutCwd_eq h]
      cases log.firstRecord with
      | none => simp
      | some obj =>
        by_cases hmeta : IsSessionMeta obj
        · simp [hmeta]
        · simp [hmeta]

theorem codexSessionCwd_eq_some {home cwd : String} :
    codexSessionCwd (some home) sessions sessionId = some cwd ↔
      (rolloutVisits sessions).findSome? (cwdStop sessionId) = some (some cwd) := by
  have hwalk : searchIn (searchIn (searchIn (searchIn (rolloutCwd sessionId)))) sessions =
      (rolloutVisits sessions).findSome? (cwdStop sessionId) :=
    searchIn_eq (fun _ => rfl) (fun _ => rfl) (searchIn_eq (fun _ => rfl) (fun _ => rfl)
      (searchIn_eq (fun _ => rfl) (fun _ => rfl)
        (searchIn_eq (fun _ => rfl) (fun _ => rfl) fun log => by simp [cwdStop]))) sessions
  rw [codexSessionCwd, Option.bind_some, hwalk, Option.join_eq_some_iff]

end Cwd

/-- The rollouts of exactly one session, whose names end in its id. -/
structure RolloutsOf (sessionId : String) where
  own : LogFile → Prop
  named : ∀ log, own log → log.extension = some "jsonl" ∧
    ∃ date, log.stem = some ("rollout-" ++ date ++ "-" ++ sessionId)

theorem RolloutsOf.isRollout {sessionId : String} (rollouts : RolloutsOf sessionId) {log : LogFile}
    (h : rollouts.own log) : log.isRollout sessionId = true := by
  obtain ⟨hext, date, hstem⟩ := rollouts.named log h
  have hsuffix : sessionId.toList <:+ ("rollout-" ++ date ++ "-" ++ sessionId).toList := by
    rw [String.toList_append]
    exact List.suffix_append _ _
  rw [LogFile.isRollout, hext, hstem, Option.getD_some, decide_eq_true hsuffix]
  rfl

def RolloutsOf.glob (sessionId : String) : RolloutsOf sessionId where
  own log := log.extension = some "jsonl" ∧
    ∃ date, log.stem = some ("rollout-" ++ date ++ "-" ++ sessionId)
  named _ h := h

/-- What a search does not pass over is first a log that ends in the session's id, of which `P`
holds. -/
def ComesTo (sessionId : String) (sessions : CodexSessions) (Passed : Visit → Prop)
    (P : LogFile → Prop) : Prop :=
  ∃ passed log rest, rolloutVisits sessions = passed ++ .file log :: rest ∧
    (∀ visit ∈ passed, Passed visit) ∧ log.isRollout sessionId = true ∧ P log

section ComesTo

variable {β : Type} {sessionId home : String} {sessions : CodexSessions} {Passed : Visit → Prop}

theorem findSome?_iff_comesTo {stop : Visit → Option β} {P : LogFile → Prop} {b : β}
    (hnone : ∀ visit, stop visit = none ↔ Passed visit)
    (hsome : ∀ visit, stop visit = some b ↔
      ∃ log, visit = .file log ∧ log.isRollout sessionId = true ∧ P log) :
    (rolloutVisits sessions).findSome? stop = some b ↔ ComesTo sessionId sessions Passed P := by
  simp only [List.findSome?_eq_some_iff, hnone, hsome, ComesTo]
  constructor
  · rintro ⟨passed, _, rest, heq, ⟨log, rfl, hlog, hP⟩, hpassed⟩
    exact ⟨passed, log, rest, heq, hpassed, hlog, hP⟩
  · rintro ⟨passed, log, rest, heq, hpassed, hlog, hP⟩
    exact ⟨passed, _, rest, heq, ⟨log, rfl, hlog, hP⟩, hpassed⟩

theorem comesTo_exists {Own : LogFile → Prop} {Says : LogFile → β → Prop} :
    (ComesTo sessionId sessions Passed fun log => ∃ own b, Own own ∧ Says own b ∧ Says log b) ↔
      ∃ own b, Own own ∧ Says own b ∧
        ComesTo sessionId sessions Passed fun log => Says log b := by
  constructor
  · rintro ⟨passed, log, rest, heq, hpassed, hlog, own, b, hown, hsays, hlogsays⟩
    exact ⟨own, b, hown, hsays, passed, log, rest, heq, hpassed, hlog, hlogsays⟩
  · rintro ⟨own, b, hown, hsays, passed, log, rest, heq, hpassed, hlog, hlogsays⟩
    exact ⟨passed, log, rest, heq, hpassed, hlog, own, b, hown, hsays, hlogsays⟩

theorem codexSessionJsonlMtime_iff {t : Int} :
    codexSessionJsonlMtime (some home) sessions sessionId = .ok (some t) ↔
      ComesTo sessionId sessions (PassedForMtime sessionId) fun log => log.mtime = .ok t :=
  codexSessionJsonlMtime_eq_some.trans
    (findSome?_iff_comesTo (fun _ => mtimeStop_eq_none) fun _ => mtimeStop_eq_some)

theorem codexSessionCwd_iff [Crates] {cwd : String} :
    codexSessionCwd (some home) sessions sessionId = some cwd ↔
      ComesTo sessionId sessions (PassedForCwd sessionId) fun log => log.RecordsCwd cwd :=
  codexSessionCwd_eq_some.trans
    (findSome?_iff_comesTo (fun _ => cwdStop_eq_none) fun _ => cwdStop_eq_some)

end ComesTo

section Lookup

variable [Crates] {sessionId : String} {rollouts : RolloutsOf sessionId} {home : String}
  {sessions : CodexSessions}

def Stores (rollouts : RolloutsOf sessionId) (sessions : CodexSessions) (log : LogFile) : Prop :=
  .file log ∈ rolloutVisits sessions ∧ rollouts.own log

def HasRollout (rollouts : RolloutsOf sessionId) (sessions : CodexSessions) : Prop :=
  ∃ log cwd, Stores rollouts sessions log ∧ log.RecordsCwd cwd

structure Found (rollouts : RolloutsOf sessionId) (home : String) (sessions : CodexSessions) :
    Prop where
  cwd : ∃ log cwd, Stores rollouts sessions log ∧ log.RecordsCwd cwd ∧
    codexSessionCwd (some home) sessions sessionId = some cwd
  mtime : ∃ log t, Stores rollouts sessions log ∧ log.mtime = .ok t ∧
    codexSessionJsonlMtime (some home) sessions sessionId = .ok (some t)

structure Reached (rollouts : RolloutsOf sessionId) (sessions : CodexSessions) : Prop where
  cwd : ComesTo sessionId sessions (PassedForCwd sessionId) fun log =>
    ∃ own cwd, Stores rollouts sessions own ∧ own.RecordsCwd cwd ∧ log.RecordsCwd cwd
  mtime : ComesTo sessionId sessions (PassedForMtime sessionId) fun log =>
    ∃ own t, Stores rollouts sessions own ∧ own.mtime = .ok t ∧ log.mtime = .ok t

theorem found_iff_reached : Found rollouts home sessions ↔ Reached rollouts sessions := by
  constructor
  · rintro ⟨⟨own, cwd, hown, hcwd, hlookup⟩, own', t, hown', ht, hmtime⟩
    exact ⟨comesTo_exists.mpr ⟨own, cwd, hown, hcwd, codexSessionCwd_iff.mp hlookup⟩,
      comesTo_exists.mpr ⟨own', t, hown', ht, codexSessionJsonlMtime_iff.mp hmtime⟩⟩
  · rintro ⟨hcwd, hmtime⟩
    obtain ⟨own, cwd, hown, hrecords, hcomes⟩ := comesTo_exists.mp hcwd
    obtain ⟨own', t, hown', ht, hcomes'⟩ := comesTo_exists.mp hmtime
    exact ⟨⟨own, cwd, hown, hrecords, codexSessionCwd_iff.mpr hcomes⟩,
      own', t, hown', ht, codexSessionJsonlMtime_iff.mpr hcomes'⟩

/-- A session with a rollout is found if and only if nothing comes before that ends a search. -/
theorem rollout_lookup : (HasRollout rollouts sessions → Found rollouts home sessions) ↔
    (HasRollout rollouts sessions → Reached rollouts sessions) := by
  rw [found_iff_reached]

structure Clean (rollouts : RolloutsOf sessionId) (sessions : CodexSessions) : Prop where
  readable : ∀ visit ∈ rolloutVisits sessions, ∃ log, visit = .file log
  exact : ∀ log, .file log ∈ rolloutVisits sessions → log.isRollout sessionId = true →
    rollouts.own log ∧ (∃ cwd, log.RecordsCwd cwd) ∧ ∃ t, log.mtime = .ok t

theorem Clean.comesTo {Passed : Visit → Prop} {P : LogFile → Prop}
    (hclean : Clean rollouts sessions) (h : HasRollout rollouts sessions)
    (hpassed : ∀ log, log.isRollout sessionId = false → Passed (.file log))
    (hP : ∀ log, .file log ∈ rolloutVisits sessions → log.isRollout sessionId = true → P log) :
    ComesTo sessionId sessions Passed P := by
  obtain ⟨own, -, ⟨hmem, hown⟩, -⟩ := h
  have hfirst : ((rolloutVisits sessions).find? (Visit.isRollout sessionId)).isSome := by
    rw [List.find?_isSome]
    exact ⟨.file own, hmem, rollouts.isRollout hown⟩
  obtain ⟨visit, hvisit⟩ := Option.isSome_iff_exists.mp hfirst
  obtain ⟨hrollout, passed, rest, heq, hbefore⟩ := List.find?_eq_some_iff_append.mp hvisit
  obtain ⟨log, rfl⟩ := hclean.readable visit (by simp [heq])
  refine ⟨passed, log, rest, heq, fun v hv => ?_, hrollout, hP log (by simp [heq]) hrollout⟩
  obtain ⟨log', rfl⟩ := hclean.readable v (by simp [heq, hv])
  exact hpassed log' ((Bool.not_eq_true' _).mp (hbefore _ hv))

theorem Clean.reached (hclean : Clean rollouts sessions) (h : HasRollout rollouts sessions) :
    Reached rollouts sessions := by
  constructor
  · refine hclean.comesTo h (fun log hlog hrollout => ?_) fun log hmem hrollout => ?_
    · simp [hlog] at hrollout
    · obtain ⟨hown, ⟨cwd, hcwd⟩, -⟩ := hclean.exact log hmem hrollout
      exact ⟨log, cwd, ⟨hmem, hown⟩, hcwd, hcwd⟩
  · refine hclean.comesTo h (fun log hlog => hlog) fun log hmem hrollout => ?_
    obtain ⟨hown, -, t, ht⟩ := hclean.exact log hmem hrollout
    exact ⟨log, t, ⟨hmem, hown⟩, ht, ht⟩

theorem Clean.found (hclean : Clean rollouts sessions) (h : HasRollout rollouts sessions) :
    Found rollouts home sessions :=
  found_iff_reached.mpr (hclean.reached h)

end Lookup

namespace Sample.Rollouts

def metaLine : String := "\x7b\"type\":\"session_meta\",\"payload\":\x7b\"cwd\":\"/w\"\x7d\x7d"

scoped instance crates : Crates :=
  { Sample.crates with
    serdeJson := fun text =>
      if text = metaLine then
        some (.object [("type", .string "session_meta"),
          ("payload", .object [("cwd", .string "/w")])])
      else none }

def rollout : LogFile := ⟨some "rollout-x-s-1", some "jsonl", .ok 7, .ok (asBytes metaLine)⟩

def notes : LogFile := ⟨some "notes", some "txt", .ok 8, .ok []⟩

def year : Listing (Listing (Listing LogFile)) :=
  .ok [.ok (.ok [.ok (.ok [.ok notes, .ok rollout])])]

def notADirectory : IoError := ⟨.other, "Not a directory (os error 20)"⟩

def sessions : CodexSessions := .ok [.ok year]

def straySessions : CodexSessions := .ok [.ok (.error notADirectory), .ok year]

theorem own_rollout : (RolloutsOf.glob "s-1").own rollout := ⟨rfl, "x", rfl⟩

theorem recordsCwd_rollout : rollout.RecordsCwd "/w" := by
  obtain ⟨hread, hlines⟩ : readToString rollout.text = .ok metaLine ∧
      lines metaLine = [metaLine] := by
    decide +kernel
  refine ⟨.object [("type", .string "session_meta"), ("payload", .object [("cwd", .string "/w")])],
    ?_, rfl, rfl⟩
  rw [LogFile.firstRecord, hread]
  simp only [Except.toOption, Option.bind_some, hlines, List.head?_cons]
  exact if_pos rfl

theorem clean_sessions : Clean (RolloutsOf.glob "s-1") sessions := by
  have hvisits : rolloutVisits sessions = [.file notes, .file rollout] := rfl
  have hnotes : notes.isRollout "s-1" = false := rfl
  constructor
  · simp [hvisits]
  · intro log hmem hlog
    rw [hvisits] at hmem
    obtain rfl | rfl : log = notes ∨ log = rollout := by simpa using hmem
    · rw [hnotes] at hlog
      cases hlog
    · exact ⟨own_rollout, ⟨"/w", recordsCwd_rollout⟩, 7, rfl⟩

end Sample.Rollouts

open Sample.Rollouts in
theorem rollout_lookup_notes : HasRollout (RolloutsOf.glob "s-1") sessions ∧
    Found (RolloutsOf.glob "s-1") "/home/u" sessions := by
  have hhas : HasRollout (RolloutsOf.glob "s-1") sessions :=
    ⟨rollout, "/w", ⟨.tail _ (.head _), own_rollout⟩, recordsCwd_rollout⟩
  exact ⟨hhas, rollout_lookup.mpr clean_sessions.reached hhas⟩

open Sample.Rollouts in
/-- A file among the years ends both searches. -/
theorem stray_file_ends :
    HasRollout (RolloutsOf.glob "s-1") straySessions ∧
      codexSessionCwd (some "/home/u") straySessions "s-1" = none ∧
      codexSessionJsonlMtime (some "/home/u") straySessions "s-1" = .error (.io notADirectory) ∧
      ¬Found (RolloutsOf.glob "s-1") "/home/u" straySessions := by
  have hcwd : codexSessionCwd (some "/home/u") straySessions "s-1" = none := rfl
  refine ⟨⟨rollout, "/w", ⟨.tail _ (.tail _ (.head _)), own_rollout⟩, recordsCwd_rollout⟩, hcwd,
    rfl, ?_⟩
  rintro ⟨⟨log, cwd, -, -, hlookup⟩, -⟩
  rw [hcwd] at hlookup
  cases hlookup

end Orchestrator

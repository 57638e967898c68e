import Orchestrator.Phases.Prologue

namespace Orchestrator

open Rust

abbrev Listing (α : Type) := IoResult (List (IoResult α))

/-- A file of a log directory; the parts of its name are `none` where they are no Unicode. -/
structure LogFile where
  stem : Option String
  extension : Option String
  mtime : IoResult Int
  text : IoResult Bytes

structure CodexSessionIndexRow where
  id : String
  threadName : String
  updatedAt : String
  deriving DecidableEq

structure OpenCodeSessionRow where
  id : String
  title : String
  directory : String
  updated : Int
  deriving DecidableEq

/-- The years, months and days under `~/.codex/sessions`. -/
abbrev CodexSessions := Listing (Listing (Listing (Listing LogFile)))

/-- `claudeProject key` is `~/.claude/projects/<key>`, `opencodeSessions repo` the session list
that OpenCode prints when it runs in `repo`. -/
structure ProviderState where
  home : Option String
  claudeProject : String → Listing LogFile
  codexIndex : IoResult Bytes
  codexSessions : CodexSessions
  opencodeSessions : String → IoResult CommandOutput

class SessionFormats where
  codexRow : String → Except String CodexSessionIndexRow
  opencodeRows : Bytes → Except String (List OpenCodeSessionRow)

def Missing {α : Type} (r : IoResult α) : Prop := ∃ e, r = .error e ∧ e.kind = .notFound

theorem noneIfMissing_missing {α : Type} {r : IoResult α} (h : Missing r) :
    noneIfMissing r = .ok none := by
  obtain ⟨e, rfl, he⟩ := h
  simp [noneIfMissing, he]

section Walk

variable {α β : Type}

def findEntry (find : α → IoResult (Option β)) : List (IoResult α) → IoResult (Option β)
  | [] => .ok none
  | entry :: entries => do
    match ← find (← entry) with
    | some b => return some b
    | none => findEntry find entries

def findIn (find : α → IoResult (Option β)) (dir : Listing α) : IoResult (Option β) := do
  findEntry find (← dir)

end Walk

def LogFile.isRollout (sessionId : String) (file : LogFile) : Bool :=
  decide (file.extension = some "jsonl") &&
    decide (sessionId.toList <:+ (file.stem.getD "").toList)

def rolloutMtime (sessionId : String) (file : LogFile) : IoResult (Option Int) :=
  if file.isRollout sessionId then file.mtime.map some else .ok none

/-- `codex::session_jsonl_mtime`. -/
def codexSessionJsonlMtime (home : Option String) (sessions : CodexSessions)
    (sessionId : String) : OrchestratorResult (Option Int) :=
  match home with
  | none => .error (.invalidInput "HOME" "HOME is not set; cannot locate Codex session logs")
  | some _ =>
    match noneIfMissing sessions with
    | .error e => .error (.io e)
    | .ok none => .ok none
    | .ok (some years) =>
      ofIo (findEntry (findIn (findIn (findIn (rolloutMtime sessionId)))) years)

section OpenCode

variable [SessionFormats]

def isAsciiWhitespace (b : UInt8) : Bool :=
  b == 0x20 || b == 0x09 || b == 0x0A || b == 0x0C || b == 0x0D

def parseSessionRows (json : Bytes) : OrchestratorResult (List OpenCodeSessionRow) :=
  if json.all isAsciiWhitespace then .ok []
  else
    match SessionFormats.opencodeRows json with
    | .ok rows => .ok rows
    | .error e => .error (.json e)

def parseSessionUpdatedBytes (json : Bytes) (sessionId : String) :
    OrchestratorResult (Option Int) :=
  (parseSessionRows json).map fun rows =>
    (rows.find? fun r => r.id == sessionId).bind fun row =>
      if row.updated < 0 then none else some row.updated

/-- `opencode::session_mtime`. -/
def opencodeSessionMtime (list : IoResult CommandOutput) (sessionId : String) :
    OrchestratorResult (Option Int) :=
  match list with
  | .error e => .error (.io e)
  | .ok out =>
    if out.success then parseSessionUpdatedBytes out.stdout sessionId
    else .error (.commandFailed "opencode session list --format json" out.status)

end OpenCode

end Orchestrator

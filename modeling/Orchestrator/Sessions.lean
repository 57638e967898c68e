import Orchestrator.Providers
import Orchestrator.Run
import Mathlib.Data.List.Forall2

namespace Orchestrator

open Rust Exec

def bindFailed {α : Type} (role : AgentRole) (provider : ProviderKind) (reason : String) :
    OrchestratorResult α := .error (.sessionBindFailed role provider reason)

def bindOnly (role : AgentRole) (provider : ProviderKind) (threadName : String) :
    List String → OrchestratorResult String
  | [] => bindFailed role provider ("no session with thread name '" ++ threadName ++ "' found")
  | [id] => .ok id
  | ids => bindFailed role provider (toString ids.length ++ " sessions share thread name '" ++
      threadName ++ "' — rename or delete all but one (see stderr for session list)")

def CliArgs.threadName (args : CliArgs) : AgentRole → String
  | .executor => args.executorThreadName
  | .reviewer => args.reviewerThreadName

theorem bindOnly_eq_ok {role : AgentRole} {provider : ProviderKind} {threadName id : String}
    {ids : List String} : bindOnly role provider threadName ids = .ok id ↔ ids = [id] := by
  match ids with
  | [] => simp [bindOnly, bindFailed]
  | [_] => simp [bindOnly]
  | _ :: _ :: _ => simp [bindOnly, bindFailed]

section Claude

variable [Crates]

structure Titles where
  customTitle : Option String
  agentName : Option String

def readTitle (titles : Titles) (line : String) : Titles :=
  if (trim line).isEmpty || line.toList.all (fun c => c.toNat == 0) then titles
  else
    match Crates.serdeJson line with
    | none => titles
    | some obj =>
      let type := obj.get "type" >>= Json.asStr
      if type = some "custom-title" then
        { titles with customTitle := obj.get "customTitle" >>= Json.asStr }
      else if type = some "agent-name" then
        { titles with agentName := obj.get "agentName" >>= Json.asStr }
      else titles

def claudeEffectiveTitle (text : IoResult Bytes) : OrchestratorResult (Option String) := do
  let content ← ofIo (readToString text)
  let titles := (lines content).foldl readTitle ⟨none, none⟩
  return titles.customTitle.or titles.agentName

def LogFile.sessionId (file : LogFile) : Option String :=
  if file.extension = some "jsonl" then file.stem else none

def claudeCandidate (dir : String) (role : AgentRole) (threadName : String) (file : LogFile) :
    OrchestratorResult (Option String) :=
  match file.sessionId with
  | none => .ok none
  | some id =>
    match claudeEffectiveTitle file.text with
    | .ok title => .ok (if title = some threadName then some id else none)
    | .error e => bindFailed role .claude
        ("failed to parse session log " ++ dir ++ "/" ++ id ++ ".jsonl: " ++ e.display)

def claudeCandidatesIn (dir : String) (role : AgentRole) (threadName : String) :
    List (IoResult LogFile) → OrchestratorResult (List String)
  | [] => .ok []
  | entry :: entries => do
    let candidate ← claudeCandidate dir role threadName (← ofIo entry)
    let candidates ← claudeCandidatesIn dir role threadName entries
    return candidate.toList ++ candidates

section Candidates

variable {role : AgentRole} {threadName : String}

def LogFile.Scanned (file : LogFile) : Prop :=
  file.sessionId.isSome → ∃ title, claudeEffectiveTitle file.text = .ok title

def LogFile.Named (threadName id : String) (file : LogFile) : Prop :=
  file.sessionId = some id ∧ claudeEffectiveTitle file.text = .ok (some threadName)

def OffersSession (dir : Listing LogFile) : Prop :=
  ∃ entries, dir = .ok entries ∧ (∀ entry ∈ entries, ∃ file, entry = .ok file ∧ file.Scanned) ∧
    ∃ file threadName id, .ok file ∈ entries ∧ file.Named threadName id

theorem claudeCandidate_ok {dir : String} {file : LogFile} {candidate : Option String}
    (h : claudeCandidate dir role threadName file = .ok candidate) :
    file.Scanned ∧ ∀ id, candidate = some id ↔ file.Named threadName id := by
  revert h
  simp only [claudeCandidate, LogFile.Scanned, LogFile.Named]
  cases file.sessionId with
  | none => simp +contextual [eq_comm]
  | some id =>
    cases claudeEffectiveTitle file.text with
    | error e => simp [bindFailed]
    | ok title =>
      simp only [Except.ok.injEq]
      rintro rfl
      by_cases h : title = some threadName <;> simp [h]

theorem claudeCandidate_scanned {file : LogFile} (dir : String) (h : file.Scanned) :
    ∃ candidate, claudeCandidate dir role threadName file = .ok candidate := by
  simp only [claudeCandidate]
  cases hid : file.sessionId with
  | none => exact ⟨none, rfl⟩
  | some id =>
    obtain ⟨title, htitle⟩ := h (by simp [hid])
    exact ⟨if title = some threadName then some id else none, by simp only [htitle]⟩

theorem claudeCandidatesIn_ok {dir : String} {entries : List (IoResult LogFile)}
    {ids : List String} (h : claudeCandidatesIn dir role threadName entries = .ok ids) :
    (∀ entry ∈ entries, ∃ file, entry = .ok file ∧ file.Scanned) ∧
      ∀ id, id ∈ ids ↔ ∃ file, .ok file ∈ entries ∧ file.Named threadName id := by
  induction entries generalizing ids with
  | nil => simp_all [claudeCandidatesIn]
  | cons entry entries ih =>
    simp only [claudeCandidatesIn, except_bind_eq_ok] at h
    obtain ⟨file, hfile, candidate, hcandidate, rest, hrest, hids⟩ := h
    obtain rfl : entry = .ok file := by cases entry <;> simp_all [ofIo]
    obtain ⟨hscanned, hnamed⟩ := claudeCandidate_ok hcandidate
    obtain ⟨hall, hmem⟩ := ih hrest
    obtain rfl : candidate.toList ++ rest = ids := Except.ok.inj hids
    refine ⟨by simpa using ⟨hscanned, hall⟩, fun id => ?_⟩
    simp only [List.mem_append, Option.mem_toList, hnamed, hmem, List.mem_cons, Except.ok.injEq,
      or_and_right, exists_or, exists_eq_left]

theorem claudeCandidatesIn_scanned {entries : List (IoResult LogFile)} (dir : String)
    (h : ∀ entry ∈ entries, ∃ file, entry = .ok file ∧ file.Scanned) :
    ∃ ids, claudeCandidatesIn dir role threadName entries = .ok ids := by
  induction entries with
  | nil => exact ⟨[], rfl⟩
  | cons entry entries ih =>
    obtain ⟨⟨file, rfl, hfile⟩, hentries⟩ := List.forall_mem_cons.mp h
    obtain ⟨candidate, hcandidate⟩ := claudeCandidate_scanned dir hfile
    obtain ⟨rest, hrest⟩ := ih hentries
    refine ⟨candidate.toList ++ rest, ?_⟩
    simp only [claudeCandidatesIn, except_bind_eq_ok]
    exact ⟨file, rfl, candidate, hcandidate, rest, hrest, rfl⟩

end Candidates

def claudeCandidates (state : ProviderState) (repo threadName : String) (role : AgentRole) :
    OrchestratorResult (List String) :=
  match state.home with
  | none => invalidInput "HOME" "HOME environment variable is not set"
  | some home =>
    let key := claudeProjectKey repo
    let dir := joinPath (joinPath (joinPath home ".claude") "projects") key
    match state.claudeProject key with
    | .error _ => bindFailed role .claude ("Claude project dir not found: " ++ dir)
    | .ok entries => claudeCandidatesIn dir role threadName entries

end Claude

section Codex

variable [Crates] [SessionFormats]

/-- What the first entry that settles the search says; an entry that cannot be read is skipped,
a directory that cannot be read ends it. -/
def searchIn {α : Type} (search : α → Option (Option String)) (dir : Listing α) :
    Option (Option String) :=
  match dir with
  | .error _ => some none
  | .ok entries => entries.findSome? fun entry => entry.toOption.bind search

def rolloutCwd (sessionId : String) (file : LogFile) : Option (Option String) :=
  if file.isRollout sessionId then
    match readToString file.text with
    | .error _ => some none
    | .ok content =>
      match (lines content).head?.bind Crates.serdeJson with
      | none => some none
      | some obj =>
        if (obj.get "type" >>= Json.asStr) = some "session_meta" then
          some (obj.get "payload" >>= Json.get "cwd" >>= Json.asStr)
        else none
  else none

def codexSessionCwd (home : Option String) (sessions : CodexSessions) (sessionId : String) :
    Option String :=
  home.bind fun _ =>
    (searchIn (searchIn (searchIn (searchIn (rolloutCwd sessionId)))) sessions).join

def insertRow (row : CodexSessionIndexRow) :
    List CodexSessionIndexRow → List CodexSessionIndexRow
  | [] => [row]
  | prev :: rows =>
    if prev.id = row.id then (if prev.updatedAt < row.updatedAt then row else prev) :: rows
    else prev :: insertRow row rows

def readIndex (role : AgentRole) :
    List (String × Nat) → List CodexSessionIndexRow → OrchestratorResult (List CodexSessionIndexRow)
  | [], rows => .ok rows
  | (line, n) :: rest, rows =>
    if (trim line).isEmpty then readIndex role rest rows
    else
      match SessionFormats.codexRow line with
      | .error e => bindFailed role .codex
          ("failed to parse codex session_index.jsonl line " ++ toString (n + 1) ++ ": " ++ e)
      | .ok row => readIndex role rest (insertRow row rows)

def codexCandidates (state : ProviderState) (repo threadName : String) (role : AgentRole) :
    OrchestratorResult (List String) :=
  match state.home with
  | none => invalidInput "HOME" "HOME is not set; cannot locate ~/.codex/session_index.jsonl"
  | some _ =>
    match readToString state.codexIndex with
    | .error e =>
      if e.kind = .notFound then bindFailed role .codex
        "~/.codex/session_index.jsonl not found; create a Codex session first"
      else bindFailed role .codex
        ("failed to read ~/.codex/session_index.jsonl: " ++ e.message)
    | .ok content => do
      let rows ← readIndex role (lines content).zipIdx []
      return (rows.filter fun row => row.threadName = threadName ∧
        codexSessionCwd state.home state.codexSessions row.id = some repo).map (·.id)

end Codex

section OpenCode

variable [SessionFormats]

def parseSessionRowsForBind (json : Bytes) (role : AgentRole) :
    OrchestratorResult (List OpenCodeSessionRow) :=
  match parseSessionRows json with
  | .ok rows => .ok rows
  | .error e =>
    bindFailed role .opencode ("failed to parse opencode session list JSON: " ++ e.display)

def opencodeCandidates (state : ProviderState) (repo threadName : String) (role : AgentRole) :
    OrchestratorResult (List String) := do
  let out ← ofIo (state.opencodeSessions repo)
  if !out.success then
    bindFailed role .opencode ("opencode session list failed (exit " ++ out.status ++ "): " ++
      trim (fromUtf8Lossy out.stderr))
  else
    let rows ← parseSessionRowsForBind out.stdout role
    if rows.isEmpty then
      bindFailed role .opencode "no OpenCode sessions found for workspace (empty session list)"
    else
      return (rows.filter fun row => row.directory = repo ∧ row.title = threadName).map (·.id)

end OpenCode

section Discovery

variable [Crates] [SessionFormats]

def candidates (state : ProviderState) (repo threadName : String) (role : AgentRole) :
    ProviderKind → OrchestratorResult (List String)
  | .claude => claudeCandidates state repo threadName role
  | .opencode => opencodeCandidates state repo threadName role
  | .codex => codexCandidates state repo threadName role

/-- `discover_by_thread` of each provider. -/
def discoverSession (state : ProviderState) (repo threadName : String) (role : AgentRole)
    (provider : ProviderKind) : OrchestratorResult String := do
  bindOnly role provider threadName (← candidates state repo threadName role provider)

def discovery (state : ProviderState) (args : CliArgs) : BindObs where
  discovered role :=
    discoverSession state args.workspaceRoot (args.threadName role) role (args.provider role)

theorem discoverSession_eq_ok {state : ProviderState} {repo threadName id : String}
    {role : AgentRole} {provider : ProviderKind} :
    discoverSession state repo threadName role provider = .ok id ↔
      candidates state repo threadName role provider = .ok [id] := by
  simp only [discoverSession, bind, Except.bind]
  cases candidates state repo threadName role provider with
  | error e => simp
  | ok ids => simp [bindOnly_eq_ok]

end Discovery

/-- Codex and OpenCode find a session by its id alone, Claude among those of a project. -/
inductive Session
  | claude (project id : String)
  | codex (id : String)
  | opencode (id : String)
  deriving DecidableEq

def sessionOf (repo id : String) : ProviderKind → Session
  | .claude => .claude (claudeProjectKey repo) id
  | .codex => .codex id
  | .opencode => .opencode id

/-- Two characters that a project key does not tell apart. -/
def Confused (c d : Char) : Prop := c = d ∨ (c = '/' ∨ c = '-') ∧ (d = '/' ∨ d = '-')

instance (c d : Char) : Decidable (Confused c d) :=
  inferInstanceAs (Decidable (_ ∨ _ ∧ _))

theorem confused_iff {c d : Char} :
    ((if c = '/' then '-' else c) = if d = '/' then '-' else d) ↔ Confused c d := by
  unfold Confused
  by_cases hc : c = '/' <;> by_cases hd : d = '/' <;> simp only [hc, hd, if_true, if_false] <;>
    grind

theorem claudeProjectKey_eq_iff {repo repo' : String} :
    claudeProjectKey repo = claudeProjectKey repo' ↔
      List.Forall₂ Confused repo.toList repo'.toList := by
  rw [claudeProjectKey, claudeProjectKey, String.ofList_inj]
  generalize repo.toList = cs
  generalize repo'.toList = ds
  induction cs generalizing ds with
  | nil => cases ds <;> simp
  | cons c cs ih =>
    cases ds with
    | nil => simp
    | cons d ds =>
      rw [List.map_cons, List.map_cons, List.cons.injEq, List.forall₂_cons, ih, confused_iff]

section Isolation

variable [Crates] [SessionFormats] {state : ProviderState} {provider : ProviderKind}
  {repo repo' threadName : String} {role : AgentRole}

def IsCandidate (state : ProviderState) (provider : ProviderKind) (repo : String)
    (session : Session) : Prop :=
  ∃ threadName role ids id, candidates state repo threadName role provider = .ok ids ∧
    id ∈ ids ∧ session = sessionOf repo id provider

structure Isolated (state : ProviderState) (provider : ProviderKind) (repo repo' : String) :
    Prop where
  candidate : ∀ session, IsCandidate state provider repo session →
    ¬IsCandidate state provider repo' session
  bound : ∀ threadName role id, discoverSession state repo threadName role provider = .ok id →
    ¬IsCandidate state provider repo' (sessionOf repo id provider)

def Lists (state : ProviderState) (repo : String) (row : OpenCodeSessionRow) : Prop :=
  ∃ out rows, state.opencodeSessions repo = .ok out ∧ parseSessionRows out.stdout = .ok rows ∧
    row ∈ rows

/-- The id of an OpenCode session stands for one session, which has one directory. -/
def OneDirectory (state : ProviderState) : Prop :=
  ∀ repo repo' row row', Lists state repo row → Lists state repo' row' → row.id = row'.id →
    row.directory = row'.directory

theorem isCandidate_claude {session : Session} (h : IsCandidate state .claude repo session) :
    state.home.isSome ∧ OffersSession (state.claudeProject (claudeProjectKey repo)) ∧
      ∃ id, session = .claude (claudeProjectKey repo) id := by
  obtain ⟨threadName, role, ids, id, hids, hmem, rfl⟩ := h
  revert hids
  simp only [candidates, claudeCandidates]
  cases state.home with
  | none => simp [invalidInput]
  | some home =>
    cases state.claudeProject (claudeProjectKey repo) with
    | error e => simp [bindFailed]
    | ok entries =>
      intro hids
      obtain ⟨hscanned, hnamed⟩ := claudeCandidatesIn_ok hids
      obtain ⟨file, hfile, hname⟩ := (hnamed id).mp hmem
      exact ⟨rfl, ⟨entries, rfl, hscanned, file, threadName, id, hfile, hname⟩, id, rfl⟩

theorem claude_offers (hhome : state.home.isSome)
    (h : OffersSession (state.claudeProject (claudeProjectKey repo))) :
    ∃ id, IsCandidate state .claude repo (.claude (claudeProjectKey repo) id) := by
  obtain ⟨home, hhome⟩ := Option.isSome_iff_exists.mp hhome
  obtain ⟨entries, hdir, hscanned, file, threadName, id, hfile, hname⟩ := h
  let dir := joinPath (joinPath (joinPath home ".claude") "projects") (claudeProjectKey repo)
  obtain ⟨ids, hids⟩ : ∃ ids, claudeCandidatesIn dir .executor threadName entries = .ok ids :=
    claudeCandidatesIn_scanned dir hscanned
  refine ⟨id, threadName, .executor, ids, id, ?_, ?_, rfl⟩
  · simpa only [candidates, claudeCandidates, hhome, hdir] using hids
  · exact ((claudeCandidatesIn_ok hids).2 id).mpr ⟨file, hfile, hname⟩

theorem IsCandidate.same_key {session : Session} (h : IsCandidate state .claude repo session)
    (hkey : claudeProjectKey repo = claudeProjectKey repo') :
    IsCandidate state .claude repo' session := by
  simpa only [IsCandidate, candidates, claudeCandidates, sessionOf, hkey] using h

theorem isCandidate_codex {session : Session} (h : IsCandidate state .codex repo session) :
    ∃ id, session = .codex id ∧
      codexSessionCwd state.home state.codexSessions id = some repo := by
  obtain ⟨threadName, role, ids, id, hids, hmem, rfl⟩ := h
  refine ⟨id, rfl, ?_⟩
  revert hids
  simp only [candidates, codexCandidates]
  cases hhome : state.home with
  | none => simp [invalidInput]
  | some home =>
    cases readToString state.codexIndex with
    | error e => by_cases he : e.kind = .notFound <;> simp [he, bindFailed]
    | ok content =>
      simp only [except_bind_eq_ok]
      rintro ⟨rows, -, hids⟩
      obtain rfl := Except.ok.inj hids
      obtain ⟨row, hrow, rfl⟩ := List.mem_map.mp hmem
      exact (of_decide_eq_true (List.mem_filter.mp hrow).2).2

theorem isCandidate_opencode {session : Session} (h : IsCandidate state .opencode repo session) :
    ∃ row, Lists state repo row ∧ session = .opencode row.id ∧ row.directory = repo := by
  obtain ⟨threadName, role, ids, id, hids, hmem, rfl⟩ := h
  simp only [candidates, opencodeCandidates, except_bind_eq_ok] at hids
  obtain ⟨out, hout, hids⟩ := hids
  have hout : state.opencodeSessions repo = .ok out := by
    cases hlist : state.opencodeSessions repo <;> simp_all [ofIo]
  split at hids
  · simp [bindFailed] at hids
  · simp only [except_bind_eq_ok] at hids
    obtain ⟨rows, hrows, hids⟩ := hids
    have hrows : parseSessionRows out.stdout = .ok rows := by
      revert hrows
      simp only [parseSessionRowsForBind]
      cases parseSessionRows out.stdout <;> simp [bindFailed]
    split at hids
    · simp [bindFailed] at hids
    · obtain rfl := Except.ok.inj hids
      obtain ⟨row, hrow, rfl⟩ := List.mem_map.mp hmem
      obtain ⟨hlisted, hkept⟩ := List.mem_filter.mp hrow
      exact ⟨row, ⟨out, rows, hout, hrows, hlisted⟩, rfl, (of_decide_eq_true hkept).1⟩

theorem isCandidate_of_discovered {id : String}
    (h : discoverSession state repo threadName role provider = .ok id) :
    IsCandidate state provider repo (sessionOf repo id provider) :=
  ⟨threadName, role, [id], id, discoverSession_eq_ok.mp h, by simp, rfl⟩

theorem doSessionBind_candidates (s : Orch) :
    wp (doSessionBind (discovery state s.ctx.args))
      (fun _ t => ∀ role, ∃ id, t.ctx.sessionId role = some id ∧
        IsCandidate state (s.ctx.args.provider role) s.ctx.args.workspaceRoot
          (sessionOf s.ctx.args.workspaceRoot id (s.ctx.args.provider role)))
      (fun _ t => t = s) s := by
  simp only [doSessionBind, wp_bind, OrchM.wp_ctx, OrchM.wp_ofResult, OrchM.wp_modifyCtx,
    implies_true, and_true]
  intro executorId hexecutor reviewerId hreviewer _ _ role
  cases role with
  | executor => exact ⟨executorId, rfl, isCandidate_of_discovered hexecutor⟩
  | reviewer => exact ⟨reviewerId, rfl, isCandidate_of_discovered hreviewer⟩

/-- Two workspaces share no session, unless it is one of Claude's and they share its project. -/
theorem isolated_iff (hdir : OneDirectory state) (hne : repo ≠ repo') :
    Isolated state provider repo repo' ↔
      (provider = .claude → List.Forall₂ Confused repo.toList repo'.toList → state.home.isSome →
        ¬OffersSession (state.claudeProject (claudeProjectKey repo))) := by
  constructor
  · rintro hisolated rfl hconfused hhome hoffers
    obtain ⟨id, hcandidate⟩ := claude_offers hhome hoffers
    have hkey := claudeProjectKey_eq_iff.mpr hconfused
    exact hisolated.candidate _ hcandidate (hcandidate.same_key hkey)
  · intro h
    have hdisjoint : ∀ session, IsCandidate state provider repo session →
        ¬IsCandidate state provider repo' session := by
      intro session hsession hsession'
      cases provider with
      | claude =>
        obtain ⟨hhome, hoffers, id, rfl⟩ := isCandidate_claude hsession
        obtain ⟨-, -, id', heq⟩ := isCandidate_claude hsession'
        simp only [Session.claude.injEq] at heq
        exact h rfl (claudeProjectKey_eq_iff.mp heq.1) hhome hoffers
      | codex =>
        obtain ⟨id, rfl, hcwd⟩ := isCandidate_codex hsession
        obtain ⟨id', heq, hcwd'⟩ := isCandidate_codex hsession'
        obtain rfl := Session.codex.inj heq
        exact hne (Option.some.inj (hcwd.symm.trans hcwd'))
      | opencode =>
        obtain ⟨row, hrow, rfl, hrepo⟩ := isCandidate_opencode hsession
        obtain ⟨row', hrow', heq, hrepo'⟩ := isCandidate_opencode hsession'
        have hsame := hdir repo repo' row row' hrow hrow' (Session.opencode.inj heq)
        exact hne (hrepo.symm.trans (hsame.trans hrepo'))
    exact ⟨hdisjoint, fun _ _ _ hbound => hdisjoint _ (isCandidate_of_discovered hbound)⟩

end Isolation

namespace Sample.Named

def titleLine : String := "\x7b\"type\":\"custom-title\",\"customTitle\":\"TASK-1\"\x7d"

def project : Listing LogFile :=
  .ok [.ok ⟨some "s-1", some "jsonl", .ok 0, .ok (asBytes titleLine)⟩]

def state : ProviderState where
  home := some "/home/u"
  claudeProject key := if key = "-work-a-b" then project else absent
  codexIndex := absent
  codexSessions := absent
  opencodeSessions _ := absent

scoped instance crates : Crates :=
  { Sample.crates with
    serdeJson := fun text =>
      if text = titleLine then
        some (.object [("type", .string "custom-title"), ("customTitle", .string "TASK-1")])
      else none }

scoped instance : SessionFormats where
  codexRow _ := .error "not a sample row"
  opencodeRows _ := .error "not a sample list"

theorem oneDirectory : OneDirectory state := by
  rintro _ _ _ _ ⟨_, _, hlist, -, -⟩ _ _
  simp [state, absent] at hlist

end Sample.Named

open Sample.Named in
theorem project_shared :
    OneDirectory state ∧ "/work/a-b" ≠ "/work/a/b" ∧
      discoverSession state "/work/a-b" "TASK-1" .executor .claude = .ok "s-1" ∧
      discoverSession state "/work/a/b" "TASK-1" .executor .claude = .ok "s-1" ∧
      ¬Isolated state .claude "/work/a-b" "/work/a/b" := by
  have hab : discoverSession state "/work/a-b" "TASK-1" .executor .claude = .ok "s-1" := by
    decide +kernel
  refine ⟨oneDirectory, by decide, hab, by decide +kernel, ?_⟩
  intro hisolated
  have hcandidate := isCandidate_of_discovered hab
  exact hisolated.candidate _ hcandidate (hcandidate.same_key (by decide))

open Sample.Named in
theorem isolated_apart :
    "/work/a-b" ≠ "/work/a_b" ∧ Isolated state .claude "/work/a-b" "/work/a_b" := by
  have hne : "/work/a-b" ≠ "/work/a_b" := by decide
  exact ⟨hne, (isolated_iff oneDirectory hne).mpr fun _ h => absurd h (by decide +kernel)⟩

end Orchestrator

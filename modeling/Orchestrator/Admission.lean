import Orchestrator.Lib.Throws
import Orchestrator.Persistence
import Orchestrator.Sessions
import Orchestrator.Transport
import Mathlib.Data.List.DropRight

namespace Orchestrator

open Rust Exec Trace

/-- An entry that a directory lists: one that cannot be read, one that is no directory, or a
directory, `closed` where it cannot be opened. -/
inductive DirEntry
  | failed (e : IoError)
  | file (name : String)
  | closed (name : String) (e : IoError)
  | dir (name : String) (entries : List DirEntry)

/-- `Path::extension` of a file name: what follows its last dot, unless that is its first
character. -/
def pathExtension (name : String) : Option String :=
  match name.toList.reverse.span (· ≠ '.') with
  | (suffix, _ :: _ :: _) => some (String.ofList suffix.reverse)
  | _ => none

mutual

def lockAt (path : String) : DirEntry → IoResult (Option String)
  | .failed e => .error e
  | .file name =>
    .ok (if pathExtension name = some "lock" then some (joinPath path name) else none)
  | .closed _ e => .error e
  | .dir name entries => findLockIn (joinPath path name) entries

def findLockIn (path : String) : List DirEntry → IoResult (Option String)
  | [] => .ok none
  | entry :: entries =>
    match lockAt path entry with
    | .ok none => findLockIn path entries
    | found => found

end

def findLockFile (path : String) : Option (IoResult (List DirEntry)) → IoResult (Option String)
  | none => .ok none
  | some (.error e) => .error e
  | some (.ok entries) => findLockIn path entries

inductive Below (e : DirEntry) : List DirEntry → Prop
  | here {entries} : e ∈ entries → Below e entries
  | inside {name sub entries} : .dir name sub ∈ entries → Below e sub → Below e entries

def DirEntry.IsLock (e : DirEntry) : Prop :=
  ∃ name, e = .file name ∧ pathExtension name = some "lock"

def DirEntry.Unread (e : DirEntry) : Prop :=
  (∃ err, e = .failed err) ∨ ∃ name err, e = .closed name err

section Walk

variable {e entry : DirEntry} {entries : List DirEntry} {path : String}

theorem below_nil : ¬Below e [] := by
  rintro (h | ⟨h, -⟩)
  · cases h
  · cases h

theorem below_cons : Below e (entry :: entries) ↔
    e = entry ∨ (∃ name sub, entry = .dir name sub ∧ Below e sub) ∨ Below e entries := by
  constructor
  · rintro (h | ⟨h, hsub⟩)
    · obtain rfl | h := List.mem_cons.mp h
      · exact .inl rfl
      · exact .inr (.inr (.here h))
    · obtain rfl | h := List.mem_cons.mp h
      · exact .inr (.inl ⟨_, _, rfl, hsub⟩)
      · exact .inr (.inr (.inside h hsub))
  · rintro (rfl | ⟨name, sub, rfl, hsub⟩ | h)
    · exact .here List.mem_cons_self
    · exact .inside List.mem_cons_self hsub
    · cases h with
      | here h => exact .here (List.mem_cons_of_mem _ h)
      | inside h hsub => exact .inside (List.mem_cons_of_mem _ h) hsub

def Answers (P : DirEntry → Prop) : IoResult (Option String) → Prop
  | .ok none => ∀ e, P e → ¬e.IsLock ∧ ¬e.Unread
  | .ok (some _) => ∃ e, P e ∧ e.IsLock
  | .error _ => ∃ e, P e ∧ e.Unread

theorem Answers.mono {P Q : DirEntry → Prop} {r : IoResult (Option String)} (h : Answers P r)
    (hr : r ≠ .ok none) (hPQ : ∀ e, P e → Q e) : Answers Q r := by
  match r with
  | .ok none => exact absurd rfl hr
  | .ok (some _) =>
    obtain ⟨e, he, hlock⟩ := h
    exact ⟨e, hPQ e he, hlock⟩
  | .error _ =>
    obtain ⟨e, he, hunread⟩ := h
    exact ⟨e, hPQ e he, hunread⟩

def Covers (entry e : DirEntry) : Prop :=
  e = entry ∨ ∃ name sub, entry = .dir name sub ∧ Below e sub

mutual

theorem lockAt_answers (path : String) (entry : DirEntry) :
    Answers (Covers entry) (lockAt path entry) := by
  match entry with
  | .failed e => exact ⟨_, .inl rfl, .inl ⟨e, rfl⟩⟩
  | .closed name e => exact ⟨_, .inl rfl, .inr ⟨name, e, rfl⟩⟩
  | .file name =>
    simp only [lockAt]
    split
    · exact ⟨_, .inl rfl, name, rfl, ‹_›⟩
    · rename_i hlock
      rintro e (rfl | ⟨_, _, h, -⟩)
      · exact ⟨by simpa [DirEntry.IsLock] using hlock, by simp [DirEntry.Unread]⟩
      · cases h
  | .dir name entries =>
    have hfound := findLockIn_answers (joinPath path name) entries
    simp only [lockAt]
    by_cases hnone : findLockIn (joinPath path name) entries = .ok none
    · rw [hnone] at hfound ⊢
      rintro e (rfl | ⟨_, _, h, hsub⟩)
      · simp [DirEntry.IsLock, DirEntry.Unread]
      · cases h
        exact hfound e hsub
    · exact hfound.mono hnone fun e he => .inr ⟨name, entries, rfl, he⟩

theorem findLockIn_answers (path : String) (entries : List DirEntry) :
    Answers (Below · entries) (findLockIn path entries) := by
  match entries with
  | [] => exact fun e he => absurd he below_nil
  | entry :: entries =>
    have hfirst := lockAt_answers path entry
    have hrest := findLockIn_answers path entries
    simp only [findLockIn]
    by_cases hnone : lockAt path entry = .ok none
    · rw [hnone] at hfirst ⊢
      simp only
      by_cases hrestNone : findLockIn path entries = .ok none
      · rw [hrestNone] at hrest ⊢
        intro e he
        obtain h | h | h := below_cons.mp he
        · exact hfirst e (.inl h)
        · exact hfirst e (.inr h)
        · exact hrest e h
      · exact hrest.mono hrestNone fun e he => below_cons.mpr (.inr (.inr he))
    · have heq : (match lockAt path entry with
          | .ok none => findLockIn path entries
          | found => found) = lockAt path entry := by
        split
        · contradiction
        · rfl
      rw [heq]
      refine hfirst.mono hnone fun e he => below_cons.mpr ?_
      exact he.imp_right .inl

end

end Walk

theorem findLockFile_answers (path : String) (refs : IoResult (List DirEntry)) :
    findLockFile path (some refs) = .ok none ↔
      ∃ entries, refs = .ok entries ∧ ∀ e, Below e entries → ¬e.IsLock ∧ ¬e.Unread := by
  cases refs with
  | error e => simp [findLockFile]
  | ok entries =>
    have hanswers := findLockIn_answers path entries
    simp only [findLockFile, Except.ok.injEq, exists_eq_left']
    constructor
    · intro hnone
      rwa [hnone] at hanswers
    · intro hfree
      match hfound : findLockIn path entries with
      | .ok none => rfl
      | .ok (some _) =>
        rw [hfound] at hanswers
        obtain ⟨e, he, hlock⟩ := hanswers
        exact absurd hlock (hfree e he).1
      | .error _ =>
        rw [hfound] at hanswers
        obtain ⟨e, he, hunread⟩ := hanswers
        exact absurd hunread (hfree e he).2

def Prints (out : IoResult CommandOutput) (text : String) : Prop :=
  ∃ c, out = .ok c ∧ c.success = true ∧ fromUtf8Lossy c.stdout = text

def Vacant (repo : String) (o : PrepObs) (name : String) : Prop :=
  ∃ text, Prints (o.gitPath name) text ∧ o.pathExists (joinPath repo (trim text)) = false

def gitMarkers : List String :=
  ["index.lock", "HEAD.lock", "packed-refs.lock", "MERGE_HEAD", "rebase-merge", "rebase-apply",
    "CHERRY_PICK_HEAD", "REVERT_HEAD", "sequencer", "BISECT_LOG"]

structure Fit (repo : String) (o : PrepObs) (branch head : String) : Prop where
  worktree : ∃ text, Prints o.insideWorkTree text ∧ trim text = "true"
  topLevel : ∃ text root, Prints o.topLevel text ∧ o.canonicalize (trim text) = .ok root ∧
    o.canonicalize repo = .ok root
  unmarked : ∀ name ∈ gitMarkers, Vacant repo o name
  unlocked : ∀ path refs, o.refsLock = findLockFile path (some refs) →
    ∃ entries, refs = .ok entries ∧ ∀ e, Below e entries → ¬e.IsLock ∧ ¬e.Unread
  merged : ∃ text, Prints o.unmerged text ∧ trim text = ""
  clean : ∃ text, Prints o.gitStatusAll text ∧ trim text = ""
  branch : ∃ text, Prints o.symbolicRef text ∧ trim text = branch ∧ branch ≠ ""
  head : ∃ text, Prints o.verifyHead text ∧ trim text = head ∧ head ≠ ""

section Fit

variable {o : PrepObs} {repo text : String} {out : IoResult CommandOutput}

theorem runGit_ok {args : List String} : runGit args out = .ok text ↔ Prints out text := by
  cases out with
  | error e => simp [runGit, Prints]
  | ok c =>
    cases hc : c.success <;> simp [runGit, Prints, hc]

theorem validateGitWorktree_ok : validateGitWorktree o = .ok () ↔
    ∃ text, Prints o.insideWorkTree text ∧ trim text = "true" := by
  rw [validateGitWorktree, except_bind_eq_ok]
  constructor
  · rintro ⟨c, hc, h⟩
    rw [invalidInput, ite_error_eq_ok] at h
    simp only [Bool.or_eq_true, Bool.not_eq_true', bne_iff_ne, not_or, not_not,
      Bool.not_eq_false] at h
    exact ⟨_, ⟨c, ofIo_ok.mp hc, h.1.1, rfl⟩, h.1.2⟩
  · rintro ⟨_, ⟨c, hc, hsuccess, rfl⟩, htrue⟩
    exact ⟨c, ofIo_ok.mpr hc, by simp [hsuccess, htrue]; rfl⟩

theorem canonicalizeExistingPath_ok {field path root : String} :
    canonicalizeExistingPath field path o = .ok root ↔ o.canonicalize path = .ok root := by
  rw [canonicalizeExistingPath]
  cases o.canonicalize path <;> simp [invalidInput]

theorem validateGitTopLevel_ok : validateGitTopLevel repo o = .ok () ↔
    ∃ text root, Prints o.topLevel text ∧ o.canonicalize (trim text) = .ok root ∧
      o.canonicalize repo = .ok root := by
  simp only [validateGitTopLevel, except_bind_eq_ok, runGit_ok, canonicalizeExistingPath_ok,
    invalidInput, ite_error_eq_ok, not_not]
  constructor
  · rintro ⟨text, htext, root, hroot, _, hrepo, rfl, -⟩
    exact ⟨text, _, htext, hroot, hrepo⟩
  · rintro ⟨text, root, htext, hroot, hrepo⟩
    exact ⟨text, htext, root, hroot, root, hrepo, rfl, rfl⟩

theorem rejectExisting_ok {reason : String → String → String} {markers : List (String × String)} :
    rejectExisting repo o reason markers = .ok () ↔ ∀ m ∈ markers, Vacant repo o m.2 := by
  induction markers with
  | nil => simp [rejectExisting]
  | cons marker markers ih =>
    obtain ⟨label, name⟩ := marker
    rw [List.forall_mem_cons, ← ih, rejectExisting, except_bind_eq_ok]
    simp only [resolveGitPath, except_map_eq_ok, runGit_ok, gitStateInvalid, invalidInput,
      ite_error_eq_ok, Vacant, Bool.not_eq_true]
    constructor
    · rintro ⟨_, ⟨text, htext, rfl⟩, habsent, hrest⟩
      exact ⟨⟨text, htext, habsent⟩, hrest⟩
    · rintro ⟨⟨text, htext, habsent⟩, hrest⟩
      exact ⟨_, ⟨text, htext, rfl⟩, habsent, hrest⟩

theorem validateNoGitLocks_ok (h : validateNoGitLocks repo o = .ok ()) :
    (∀ name ∈ ["index.lock", "HEAD.lock", "packed-refs.lock"], Vacant repo o name) ∧
      o.refsLock = .ok none := by
  simp only [validateNoGitLocks, except_bind_eq_ok] at h
  obtain ⟨⟨⟩, hmarkers, _, _, found, hfound, h⟩ := h
  cases found with
  | some path => cases h
  | none => exact ⟨by simpa using rejectExisting_ok.mp hmarkers, ofIo_ok.mp hfound⟩

theorem validateNoUnmergedIndex_ok : validateNoUnmergedIndex o = .ok () ↔
    ∃ text, Prints o.unmerged text ∧ trim text = "" := by
  simp only [validateNoUnmergedIndex, except_bind_eq_ok, runGit_ok]
  constructor
  · rintro ⟨text, htext, h⟩
    refine ⟨text, htext, ?_⟩
    by_cases hempty : (trim text).isEmpty = true
    · exact String.isEmpty_iff.mp hempty
    · rw [if_neg hempty] at h
      cases h
  · rintro ⟨text, htext, hempty⟩
    exact ⟨text, htext, by rw [if_pos (String.isEmpty_iff.mpr hempty)]; rfl⟩

theorem currentBranchName_ok {branch : String} (h : currentBranchName o = .ok branch) :
    ∃ text, Prints o.symbolicRef text ∧ trim text = branch ∧ branch ≠ "" := by
  rw [currentBranchName, except_bind_eq_ok] at h
  obtain ⟨c, hc, h⟩ := h
  by_cases hnamed : (c.success && !(trim (fromUtf8Lossy c.stdout)).isEmpty) = true
  · simp only [hnamed, if_true] at h
    obtain rfl := Except.ok.inj h
    rw [Bool.and_eq_true, Bool.not_eq_true', ← Bool.not_eq_true, String.isEmpty_iff] at hnamed
    exact ⟨_, ⟨c, ofIo_ok.mp hc, hnamed.1, rfl⟩, rfl, hnamed.2⟩
  · simp only [hnamed] at h
    cases h

theorem currentHeadRequired_ok {head : String} (h : currentHeadRequired o = .ok head) :
    ∃ text, Prints o.verifyHead text ∧ trim text = head ∧ head ≠ "" := by
  rw [currentHeadRequired, except_bind_eq_ok] at h
  obtain ⟨c, hc, h⟩ := h
  cases hsuccess : c.success with
  | true =>
    simp only [hsuccess, if_true] at h
    by_cases hempty : (trim (fromUtf8Lossy c.stdout)).isEmpty = true
    · rw [if_pos hempty] at h
      cases h
    · rw [if_neg hempty] at h
      obtain rfl := Except.ok.inj h
      exact ⟨_, ⟨c, ofIo_ok.mp hc, hsuccess, rfl⟩, rfl, mt String.isEmpty_iff.mpr hempty⟩
  | false =>
    simp only [hsuccess, gitStateInvalid, invalidInput] at h
    split at h
    · contradiction
    · split at h <;> cases h

theorem doContextPrep_fit (o : PrepObs) (s : Orch) :
    wp (doContextPrep o)
      (fun _ t => ∃ head, t.ctx.initialGitHead = some head ∧
        Fit s.ctx.args.workspaceRoot o t.ctx.branch head)
      (fun _ _ => True) s := by
  simp only [doContextPrep, wp_bind, OrchM.wp_ctx, OrchM.wp_ofResult, implies_true, and_true]
  rintro ⟨⟩ hworktree ⟨⟩ htop ⟨⟩ hlocks ⟨⟩ hmerged ⟨⟩ hidle
  apply wp_mono (ensureAgentIoExcluded_spec s.ctx.args.workspaceRoot o s) _ fun _ _ _ => trivial
  rintro _ t ⟨hctx, -⟩
  simp only [OrchM.wp_modifyCtx]
  intro status hstatus _ hclean branch hbranch head hhead
  obtain ⟨hunlocked, hrefs⟩ := validateNoGitLocks_ok hlocks
  refine ⟨head, rfl, ?_⟩
  constructor
  · exact validateGitWorktree_ok.mp hworktree
  · exact validateGitTopLevel_ok.mp htop
  · have hunmarked := rejectExisting_ok.mp hidle
    simp only [List.forall_mem_cons, List.not_mem_nil, false_imp_iff, implies_true, and_true]
      at hunlocked hunmarked
    simp [gitMarkers, hunlocked, hunmarked]
  · intro path refs hfound
    exact (findLockFile_answers path refs).mp (hfound ▸ hrefs)
  · exact validateNoUnmergedIndex_ok.mp hmerged
  · refine ⟨status, runGit_ok.mp hstatus, ?_⟩
    by_contra hdirty
    rw [if_neg (mt String.isEmpty_iff.mp hdirty)] at hclean
    cases hclean
  · exact currentBranchName_ok hbranch
  · exact currentHeadRequired_ok hhead

end Fit

theorem trimChars_trimChars (cs : List Char) : trimChars (trimChars cs) = trimChars cs := by
  show List.rdropWhile isWhitespace (List.dropWhile isWhitespace
    (List.rdropWhile isWhitespace (List.dropWhile isWhitespace cs))) = _
  have hfront : List.dropWhile isWhitespace
      (List.rdropWhile isWhitespace (List.dropWhile isWhitespace cs)) =
        List.rdropWhile isWhitespace (List.dropWhile isWhitespace cs) := by
    rw [List.dropWhile_eq_self_iff]
    intro hlen
    have hfront := List.rdropWhile_prefix isWhitespace (l := List.dropWhile isWhitespace cs)
    have hself := List.dropWhile_eq_self_iff.mp (List.dropWhile_idempotent isWhitespace cs)
    have hlong := hfront.length_le
    rw [hfront.getElem hlen]
    exact hself (by omega)
  rw [hfront, List.rdropWhile_idempotent]
  rfl

theorem trim_trim (s : String) : trim (trim s) = trim s := by
  simp [trim, trimChars_trimChars]

theorem splitOnce_some {sep : Char} {s a b : String} (h : splitOnce sep s = some (a, b)) :
    s.toList = a.toList ++ sep :: b.toList ∧ sep ∉ a.toList := by
  rw [splitOnce, List.span_eq_takeWhile_dropWhile] at h
  have hsplit := List.takeWhile_append_dropWhile (p := (decide <| · ≠ sep)) (l := s.toList)
  have hbefore : sep ∉ List.takeWhile (decide <| · ≠ sep) s.toList :=
    fun hmem => by simpa using List.mem_takeWhile_imp hmem
  cases hrest : List.dropWhile (decide <| · ≠ sep) s.toList with
  | nil =>
    rw [hrest] at h
    cases h
  | cons c rest =>
    have hhead := List.head?_dropWhile_not (decide <| · ≠ sep) s.toList
    rw [hrest] at hhead
    have hc : c = sep := by simpa using hhead
    simp only [hrest, Option.some.injEq, Prod.mk.injEq] at h
    obtain ⟨rfl, rfl⟩ := h
    rw [hrest, hc] at hsplit
    simp only [String.toList_ofList]
    exact ⟨hsplit.symm, hbefore⟩

def PrologueObs.models (o : PrologueObs) : AgentRole → IoResult CommandOutput
  | .executor => o.executorModels
  | .reviewer => o.reviewerModels

structure Offered (model : String) (listing : IoResult CommandOutput) : Prop where
  form : ∃ provider name : String, model = provider ++ "/" ++ name ∧ provider ≠ "" ∧ name ≠ "" ∧
    '/' ∉ provider.toList ∧ '/' ∉ name.toList
  listed : ∃ text, Prints listing text ∧ ∃ line ∈ lines text, trim line = model

structure Validated (args : CliArgs) (o : PrologueObs) : Prop where
  prompt : trim args.prompt ≠ ""
  threadName : ∀ role, trim (args.threadName role) ≠ ""
  apart : (args.executorProvider, args.executorThreadName) ≠
    (args.reviewerProvider, args.reviewerThreadName)
  model : ∀ role model, args.model role = some model →
    args.provider role = .opencode ∧ Offered model (o.models role)
  root : o.canonicalRoot = .ok args.workspaceRoot
  directory : o.rootIsDir = true

theorem modelProvider_ok {field model provider : String}
    (h : modelProvider field model = .ok provider) (htrim : trim model = model) :
    ∃ provider name : String, model = provider ++ "/" ++ name ∧ provider ≠ "" ∧ name ≠ "" ∧
      '/' ∉ provider.toList ∧ '/' ∉ name.toList := by
  rw [modelProvider, parseModelProvider, htrim] at h
  cases hsplit : splitOnce '/' model with
  | none => simp [hsplit, invalidInput] at h
  | some parts =>
    obtain ⟨a, b⟩ := parts
    obtain ⟨htext, ha⟩ := splitOnce_some hsplit
    by_cases hbad : (a.isEmpty || b.isEmpty || contains b "/") = true
    · simp [hsplit, hbad, invalidInput] at h
    · simp only [Bool.or_eq_true, not_or, String.isEmpty_iff, contains, decide_eq_true_eq] at hbad
      refine ⟨a, b, ?_, hbad.1.1, hbad.1.2, ha, ?_⟩
      · rw [← String.toList_inj, htext]
        simp
      · rw [← List.singleton_infix_iff]
        exact hbad.2

theorem ensureModelAvailable_ok {model field : String} {out : IoResult CommandOutput}
    (h : ensureModelAvailable model field out = .ok ()) : Offered model out := by
  simp only [ensureModelAvailable, except_bind_eq_ok] at h
  obtain ⟨provider, hprovider, c, hc, h⟩ := h
  cases hsuccess : c.success with
  | false => simp [hsuccess, invalidInput] at h
  | true =>
    by_cases hlisted : modelListContains (fromUtf8Lossy c.stdout) model = true
    · rw [modelListContains, List.any_eq_true] at hlisted
      obtain ⟨line, hline, htrim⟩ := hlisted
      rw [beq_iff_eq] at htrim
      constructor
      · exact modelProvider_ok hprovider (by rw [← htrim, trim_trim])
      · exact ⟨_, ⟨c, ofIo_ok.mp hc, hsuccess, rfl⟩, line, hline, htrim⟩
    · simp [hsuccess, hlisted, invalidInput] at h

theorem requireNonEmpty_ok {field value : String} (h : requireNonEmpty field value = .ok ()) :
    trim value ≠ "" := by
  intro hblank
  rw [requireNonEmpty, if_pos (String.isEmpty_iff.mpr hblank)] at h
  cases h

theorem validateModelOption_ok {field model : String} {provider : ProviderKind}
    (h : validateModelOption field (some model) provider = .ok ()) : provider = .opencode := by
  by_contra hne
  simp only [validateModelOption, if_pos hne] at h
  split at h <;> cases h

theorem validateProviderModels_ok {ctx : OrchestratorCtx} {o : PrologueObs}
    (h : validateProviderModels ctx o = .ok ()) {role : AgentRole} {model : String}
    (hm : ctx.args.model role = some model) : Offered model (o.models role) := by
  rw [validateProviderModels] at h
  cases he : ctx.args.executorModel with
  | none =>
    rw [he] at h
    cases role with
    | executor => exact absurd (he.symm.trans hm) (by simp)
    | reviewer =>
      rw [show ctx.args.reviewerModel = some model from hm] at h
      exact ensureModelAvailable_ok h
  | some _ =>
    simp only [he, except_bind_eq_ok] at h
    obtain ⟨⟨⟩, havailable, h⟩ := h
    cases role with
    | executor =>
      obtain rfl := Option.some.inj (he.symm.trans hm)
      exact ensureModelAvailable_ok havailable
    | reviewer =>
      rw [show ctx.args.reviewerModel = some model from hm] at h
      exact ensureModelAvailable_ok h

theorem prologue_validated (o : PrologueObs) (s : Orch) :
    wp (prologue o) (fun _ t => Validated t.ctx.args o) (fun _ _ => True) s := by
  simp only [prologue, validateInputs, wp_bind, OrchM.wp_ctx, OrchM.wp_ofResult,
    OrchM.wp_modifyCtx, implies_true, and_true]
  rintro ⟨⟩ hprompt ⟨⟩ hexecutor ⟨⟩ hreviewer ⟨⟩ hexecutorModel ⟨⟩ hreviewerModel ⟨⟩ hapart
    root hroot ⟨⟩ hdir ⟨⟩ hmodels
  constructor
  · exact requireNonEmpty_ok hprompt
  · intro role
    cases role with
    | executor => exact requireNonEmpty_ok hexecutor
    | reviewer => exact requireNonEmpty_ok hreviewer
  · intro heq
    rw [if_pos (Prod.mk.injEq .. ▸ heq)] at hapart
    cases hapart
  · intro role model hm
    refine ⟨?_, validateProviderModels_ok hmodels hm⟩
    cases role with
    | executor =>
      simp only [CliArgs.model] at hm
      rw [hm] at hexecutorModel
      exact validateModelOption_ok hexecutorModel
    | reviewer =>
      simp only [CliArgs.model] at hm
      rw [hm] at hreviewerModel
      exact validateModelOption_ok hreviewerModel
  · cases hcanonical : o.canonicalRoot with
    | ok path =>
      rw [hcanonical] at hroot
      obtain rfl := Except.ok.inj hroot
      rfl
    | error e => simp [hcanonical, invalidInput] at hroot
  · by_contra hnot
    rw [if_neg hnot] at hdir
    cases hdir

def Turn.Admits (e : Turn) (args : CliArgs) : Prop :=
  ∃ c o, e.input = .tick c o ∧ e.pre.pc = .start ∧ Validated args o.prologue

/-- The turn finds the repository of `ctx` fit, on the branch and at the commit that `ctx`
remembers, and no provider has been started before it. -/
def Turn.Readies (e : Turn) (ctx : OrchestratorCtx) : Prop :=
  ∃ c o head, e.input = .tick c o ∧ e.pre.ctx.runState = .contextPrep ∧
    e.pre.world.children = [] ∧ ctx.initialGitHead = some head ∧
    Fit ctx.args.workspaceRoot o.prep ctx.branch head

theorem Turn.Readies.keeps {e : Turn} {c d : OrchestratorCtx} (he : Turn.Readies e c)
    (h : Keeps c d) (hstage : 2 ≤ c.runState.stage) : Turn.Readies e d := by
  obtain ⟨b, o, head, hi, hr, hnone, hhead, hfit⟩ := he
  refine ⟨b, o, head, hi, hr, hnone, (h.initialGitHead hstage).trans hhead, ?_⟩
  rw [h.args (Nat.le_of_succ_le hstage), h.branch hstage]
  exact hfit

section Run

variable [Crates] {m m' : Machine} {i : Input} {h : History Machine Input}

theorem start_admits {c : Bool} {o : StepObs} (hpc : m.pc = .start)
    (ha : (m.next (.tick c o)).Active) : Validated (m.next (.tick c o)).ctx.args o.prologue := by
  have hvalidated := prologue_validated o.prologue m.toOrch
  simp only [Machine.next, hpc] at ha ⊢
  cases hresult : prologue o.prologue m.toOrch with
  | ok _ s =>
    have hargs := wp_of_ok hvalidated hresult
    exact hargs
  | error f s =>
    rw [hresult] at ha
    cases f with
    | error e => exact absurd ha.2 (by simp [RunState.isTerminal])
    | panic => exact absurd rfl ha.1

theorem prepared_readies {c : Bool} {o : StepObs} (hs : m.Steps c)
    (hr : m.ctx.runState = .contextPrep) (ha : (m.next (.tick c o)).Active) :
    ∃ head, (m.next (.tick c o)).ctx.initialGitHead = some head ∧
      Fit m.ctx.args.workspaceRoot o.prep (m.next (.tick c o)).ctx.branch head := by
  have hfit : wp (step o) (fun _ t => ∃ head, t.ctx.initialGitHead = some head ∧
      Fit m.ctx.args.workspaceRoot o.prep t.ctx.branch head) (fun _ _ => True) m.toOrch := by
    rw [step, wp_bind, OrchM.wp_ctx, hr]
    simp only [wp_map]
    exact doContextPrep_fit o.prep m.toOrch
  rw [next_of_steps hs] at ha ⊢
  cases hresult : step o m.toOrch with
  | ok flow t =>
    have ht := wp_of_ok hfit hresult
    cases flow <;> exact ht
  | error f t =>
    rw [hresult] at ha
    cases f with
    | error e => exact absurd ha.2 (by simp [Machine.settle, Machine.fail_terminal])
    | panic => exact absurd rfl ha.1

theorem launch_stage (hmove : Move m i m') (hm : m.Placed) (hnone : m.world.children = [])
    (hsome : m'.world.children ≠ []) : m.Active ∧ m.ctx.runState.stage = 3 := by
  have hlaunch : launches ⟨m, i, m'⟩ = true := by
    by_contra hnot
    have hprocesses := hmove.processes
    rw [tally_of_false (by simpa using hnot), processes, processes, hnone] at hprocesses
    exact hsome (List.length_eq_zero_iff.mp hprocesses)
  simp only [launches, dispatches, Bool.and_eq_true, decide_eq_true_eq] at hlaunch
  obtain ⟨⟨hstep, hdispatch⟩, -⟩ := hlaunch
  cases i with
  | exit child => cases hstep
  | tick c o =>
    refine ⟨(of_decide_eq_true hstep).active hm, ?_⟩
    have stage (role : AgentRole) (hr : m.ctx.runState = .dispatch role) :
        m.ctx.runState.stage = 3 := stage_of_dispatch hr
    exact hdispatch.elim (stage .executor) (stage .reviewer)

theorem Stepped.early {o : StepObs} {s t : Orch} {flow : Flow} (h : Stepped o s flow t)
    (hold : s.ctx.runState.stage < 2) :
    s.ctx.runState = .contextPrep ∨ t = s ∧ s.ctx.runState = .runInit := by
  cases h with
  | prepared hr _ _ => exact .inl hr
  | skipped hr =>
    obtain hr | hr := hr
    · exact .inr ⟨rfl, hr⟩
    · exact absurd hold (by simp [stage_of_terminal hr])
  | bound hr _ | retried hr | surveyed hr _ | verified hr | collected hr _ | gated hr
    | fedBack hr => exact absurd hold (by simp [hr, RunState.stage])
  | dispatched hr _ => exact absurd hold (by simp [stage_of_dispatch hr])
  | probed hr _ => exact absurd hold (by simp [stage_of_monitor hr])

theorem ActiveMove.admits (h : ActiveMove m i m') (hold : m.ctx.runState.stage = 0)
    (hstage : 1 ≤ m'.ctx.runState.stage) : ∃ c o, i = .tick c o ∧ m.pc = .start := by
  cases h with
  | exit => exact absurd hstage (by simp [hold])
  | admitted hpc _ => exact ⟨_, _, rfl, hpc⟩
  | stepped _ hst =>
    obtain hr | ⟨rfl, hr⟩ := hst.early (by omega)
    · exact absurd hold (by simp [hr, RunState.stage])
    · exact absurd hstage (by simp [hr, RunState.stage])

theorem ActiveMove.prepares (h : ActiveMove m i m') (hold : m.ctx.runState.stage < 2)
    (hstage : 2 ≤ m'.ctx.runState.stage) :
    ∃ c o, i = .tick c o ∧ m.Steps c ∧ m.ctx.runState = .contextPrep := by
  cases h with
  | exit =>
    simp only at hstage
    omega
  | admitted _ _ => exact absurd hstage (by simp [withState, RunState.stage])
  | stepped hs hst =>
    obtain hr | ⟨rfl, hr⟩ := hst.early hold
    · exact ⟨_, _, rfl, hs, hr⟩
    · exact absurd hstage (by simp [hr, RunState.stage])

structure Checked (h : History Machine Input) (m : Machine) : Prop where
  admitted : m.Active → 1 ≤ m.ctx.runState.stage → ∃ e ∈ h, Turn.Admits e m.ctx.args
  readied : m.Active → 2 ≤ m.ctx.runState.stage → ∃ e ∈ h, Turn.Readies e m.ctx
  started : m.world.children ≠ [] → 2 ≤ m.ctx.runState.stage ∧
    (∃ e ∈ h, Turn.Admits e m.ctx.args) ∧ ∃ e ∈ h, Turn.Readies e m.ctx

theorem Checked.next (hinv : Checked h m) (hm : m.Placed) (i : Input) :
    Checked (⟨m, i, m.next i⟩ :: h) (m.next i) := by
  have hmove := next_move m i
  have hkeeps := hmove.keeps hm
  have hactive (ha : (m.next i).Active) : m.Active := by
    by_contra hnot
    exact (hmove.ended hm hnot).1 ha
  have hadmitted : 1 ≤ m.ctx.runState.stage → (∃ e ∈ h, Turn.Admits e m.ctx.args) →
      ∃ e ∈ ⟨m, i, m.next i⟩ :: h, Turn.Admits e (m.next i).ctx.args := by
    rintro hstage ⟨e, he, hadmits⟩
    exact ⟨e, List.mem_cons_of_mem _ he, hkeeps.args hstage ▸ hadmits⟩
  have hreadied : 2 ≤ m.ctx.runState.stage → (∃ e ∈ h, Turn.Readies e m.ctx) →
      ∃ e ∈ ⟨m, i, m.next i⟩ :: h, Turn.Readies e (m.next i).ctx := by
    rintro hstage ⟨e, he, hreadies⟩
    exact ⟨e, List.mem_cons_of_mem _ he, hreadies.keeps hkeeps hstage⟩
  constructor
  · intro ha hstage
    by_cases hold : 1 ≤ m.ctx.runState.stage
    · exact hadmitted hold (hinv.admitted (hactive ha) hold)
    · obtain ⟨c, o, rfl, hpc⟩ := (hmove.active ha).admits (by omega) hstage
      exact ⟨_, List.mem_cons_self, c, o, rfl, hpc, start_admits hpc ha⟩
  · intro ha hstage
    by_cases hold : 2 ≤ m.ctx.runState.stage
    · exact hreadied hold (hinv.readied (hactive ha) hold)
    · obtain ⟨c, o, rfl, hs, hr⟩ := (hmove.active ha).prepares (by omega) hstage
      obtain ⟨head, hhead, hfit⟩ := prepared_readies hs hr ha
      refine ⟨_, List.mem_cons_self, c, o, head, rfl, hr, ?_, hhead, ?_⟩
      · by_contra hsome
        exact hold (hinv.started hsome).1
      · rw [hkeeps.args (by rw [hr]; decide)]
        exact hfit
  · intro hsome
    by_cases hnone : m.world.children = []
    · obtain ⟨ha, hstage⟩ := launch_stage hmove hm hnone hsome
      refine ⟨Nat.le_trans (by rw [hstage]; decide) hkeeps.stage, ?_, ?_⟩
      · exact hadmitted (by omega) (hinv.admitted ha (by omega))
      · exact hreadied (by omega) (hinv.readied ha (by omega))
    · obtain ⟨hstage, hadmits, hreadies⟩ := hinv.started hnone
      refine ⟨hstage.trans hkeeps.stage, ?_, hreadied hstage hreadies⟩
      exact hadmitted (Nat.le_of_succ_le hstage) hadmits

theorem Run.checked (hr : Run h m) : Checked h m := by
  apply Trace.Run.invariant (P := Checked) hr
  · rintro _ ⟨args, rfl⟩
    refine ⟨fun _ hstage => ?_, fun _ hstage => ?_, fun hsome => ?_⟩
    · exact absurd hstage (by simp [Machine.init, OrchestratorCtx.new, RunState.stage])
    · exact absurd hstage (by simp [Machine.init, OrchestratorCtx.new, RunState.stage])
    · exact absurd rfl hsome
  · exact fun h m i hr hinv => hinv.next (Run.placed hr) i

/-- No provider process is started before the arguments are validated and the repository is found
fit, on the branch and at the commit that the run then works from. -/
theorem started_checked (hr : Run h m) (hsome : m.world.children ≠ []) :
    (∃ e ∈ h, Turn.Admits e m.ctx.args) ∧ ∃ e ∈ h, Turn.Readies e m.ctx :=
  ((Run.checked hr).started hsome).2

end Run

open Sample in
theorem started_checked_executed :
    (run executed).2.world.children ≠ [] ∧
      (∃ e ∈ (run executed).1, Turn.Admits e (run executed).2.ctx.args) ∧
      ∃ e ∈ (run executed).1, Turn.Readies e (run executed).2.ctx := by
  have hsome : (run executed).2.world.children ≠ [] := by
    intro hnone
    have hlength : (run executed).2.world.children.length = 1 := by decide +kernel
    simp [hnone] at hlength
  exact ⟨hsome, started_checked (run_run executed) hsome⟩

end Orchestrator

import Orchestrator.Run
import Orchestrator.Lib.Utf8

namespace Orchestrator

open Rust Exec

def excludeFile (repo : String) (o : PrepObs) : OrchestratorResult String :=
  (runGit ["rev-parse", "--git-path", "info/exclude"] o.excludePath).map fun relative =>
    joinPath repo (trim relative)

def Listed (text : String) : Prop := ∃ line ∈ lines text, trim line = excludeEntry

instance (text : String) : Decidable (Listed text) := inferInstanceAs (Decidable (∃ _ ∈ _, _))

/-- Reading a file shows this content; `none` is a file that does not exist. -/
def ReadsAs (text : IoResult Bytes) : Option String → Prop
  | some content => text = .ok (asBytes content)
  | none => ∃ message, text = .error ⟨.notFound, message⟩

namespace Orch

def opened (path : String) (content : Option String) (s : Orch) : Orch :=
  { s with world := if content.isNone then s.world.record (.created path) else s.world }

def excluded (path : String) (content : Option String) (s : Orch) : Orch :=
  { s with world := (s.opened path content).world.record (.appended path excludeEntry) }

end Orch

section Run

variable {repo path : String} {o : PrepObs} {content : Option String} {s t : Orch}

theorem ReadsAs.read {text : IoResult Bytes} (h : ReadsAs text content) :
    noneIfMissing (readToString text) = .ok content := by
  cases content with
  | none =>
    obtain ⟨message, rfl⟩ := h
    rfl
  | some content =>
    obtain rfl : text = .ok (asBytes content) := h
    rw [readToString_asBytes]
    rfl

theorem listed_iff_any {text : String} :
    ((lines text).any fun line => trim line == excludeEntry) = true ↔ Listed text := by
  simp [Listed]

theorem wp_ensureAgentIoExcluded (hpath : excludeFile repo o = .ok path)
    (hcontent : noneIfMissing (readToString o.excludeText) = .ok content)
    {Q : Unit → Orch → Prop} {E : Fault → Orch → Prop} :
    wp (ensureAgentIoExcluded repo o) Q E s ↔
      (Listed (content.getD "") → Q () s) ∧
      (¬Listed (content.getD "") →
        (∀ e, o.excludeOpen = .error e → E (.error (.io e)) s) ∧
        (o.excludeOpen = .ok () → Q () (s.excluded path content))) := by
  obtain ⟨relative, hrelative, rfl⟩ : ∃ relative,
      runGit ["rev-parse", "--git-path", "info/exclude"] o.excludePath = .ok relative ∧
      joinPath repo (trim relative) = path := by
    revert hpath
    rw [excludeFile]
    cases runGit ["rev-parse", "--git-path", "info/exclude"] o.excludePath <;>
      simp [Except.map]
  simp only [ensureAgentIoExcluded, wp_bind, OrchM.wp_ofResult, hrelative, hcontent, wp_ite,
    listed_iff_any, wp_pure, OrchM.wp_modifyWorld, Except.ok.injEq, reduceCtorEq, ofIo,
    forall_eq', IsEmpty.forall_iff, implies_true, and_true]
  cases o.excludeOpen with
  | error e => simp
  | ok _ => simp [Orch.opened, Orch.excluded]

end Run

def FileWrite.pending : FileWrite → Bool
  | .appended _ _ => true
  | .truncated _ | .request _ _ _ | .created _ => false

/-- The writes that have reached their files at some moment; `landed n` says of a pending write
behind `n` others whether it has. -/
def effects (landed : Nat → Bool) : List FileWrite → List FileWrite
  | [] => []
  | f :: older =>
    if f.pending && !landed older.length then effects landed older else f :: effects landed older

section File

variable (render : TemplateId → TemplateValues → String) (path : String) (origin : Option String)
  (landed : Nat → Bool)

def FileWrite.apply : FileWrite → Option String → Option String
  | .truncated p, text => if p = path then some "" else text
  | .request p template values, text => if p = path then some (render template values) else text
  | .created p, text => if p = path then some (text.getD "") else text
  | .appended p line, text => if p = path then some (text.getD "" ++ line ++ "\n") else text

def fileText (s : Orch) : Option String :=
  (effects landed s.world.writes).foldr (FileWrite.apply render path) origin

/-- The entry that is issued in `s` has landed. -/
def Orch.Lands (content : Option String) (s : Orch) : Prop :=
  landed (s.opened path content).world.writes.length = true

theorem fileText_opened (content : Option String) (s : Orch) :
    (fileText render path origin landed (s.opened path content)).getD "" =
      (fileText render path origin landed s).getD "" := by
  cases content <;>
    simp [fileText, Orch.opened, World.record, effects, FileWrite.pending, FileWrite.apply]

theorem fileText_excluded {content : Option String} {s : Orch} (h : s.Lands path landed content) :
    fileText render path origin landed (s.excluded path content) =
      some ((fileText render path origin landed s).getD "" ++ excludeEntry ++ "\n") := by
  rw [← fileText_opened render path origin landed content s]
  rw [Orch.Lands] at h
  simp [fileText, Orch.excluded, World.record, effects, FileWrite.apply, h]

theorem fileText_unlanded {content : Option String} {s : Orch}
    (h : ¬s.Lands path landed content) :
    (fileText render path origin landed (s.excluded path content)).getD "" =
      (fileText render path origin landed s).getD "" := by
  rw [← fileText_opened render path origin landed content s]
  rw [Orch.Lands, Bool.not_eq_true] at h
  simp [fileText, Orch.excluded, World.record, effects, FileWrite.pending, h]

structure Excludes (repo : String) (o : PrepObs) (s t : Orch) : Prop where
  kept : (lines ((fileText render path origin landed s).getD "")).Sublist
    (lines ((fileText render path origin landed t).getD ""))
  listed : Listed ((fileText render path origin landed t).getD "")
  again : ∀ o', o'.excludePath = o.excludePath →
    ReadsAs o'.excludeText (fileText render path origin landed t) →
    wp (ensureAgentIoExcluded repo o')
      (fun _ u => fileText render path origin landed u = fileText render path origin landed t)
      (fun _ u => fileText render path origin landed u = fileText render path origin landed t) t

variable {render path origin landed} {repo : String} {o : PrepObs} {s t : Orch}

theorem ensureAgentIoExcluded_eq_ok {content : Option String}
    (hpath : excludeFile repo o = .ok path) (hread : ReadsAs o.excludeText content)
    (h : ensureAgentIoExcluded repo o s = .ok () t) :
    Listed (content.getD "") ∧ t = s ∨
      ¬Listed (content.getD "") ∧ t = s.excluded path content := by
  have hwp : wp (ensureAgentIoExcluded repo o)
      (fun _ t => Listed (content.getD "") ∧ t = s ∨
        ¬Listed (content.getD "") ∧ t = s.excluded path content) (fun _ _ => True) s := by
    rw [wp_ensureAgentIoExcluded hpath hread.read]
    exact ⟨fun hlisted => .inl ⟨hlisted, rfl⟩, fun hlisted =>
      ⟨fun _ _ => trivial, fun _ => .inr ⟨hlisted, rfl⟩⟩⟩
  exact (wp_iff_of_ok h).mp hwp

theorem ensureAgentIoExcluded_appends {content : Option String}
    (hpath : excludeFile repo o = .ok path) (hread : ReadsAs o.excludeText content)
    (hlisted : ¬Listed (content.getD "")) (hopen : o.excludeOpen = .ok ()) :
    ensureAgentIoExcluded repo o s = .ok () (s.excluded path content) := by
  apply eq_ok_of_wp
  rw [wp_ensureAgentIoExcluded hpath hread.read, hopen]
  exact ⟨fun h => absurd h hlisted, fun _ => ⟨nofun, fun _ => ⟨rfl, rfl⟩⟩⟩

theorem ensureAgentIoExcluded_listed {content : Option String}
    (hpath : excludeFile repo o = .ok path) (hread : ReadsAs o.excludeText content)
    (hlisted : Listed (content.getD "")) :
    wp (ensureAgentIoExcluded repo o) (fun _ t => t = s) (fun _ t => t = s) s := by
  rw [wp_ensureAgentIoExcluded hpath hread.read]
  exact ⟨fun _ => rfl, fun hnot => absurd hlisted hnot⟩

theorem Listed.again (h : Listed ((fileText render path origin landed t).getD ""))
    (hpath : excludeFile repo o = .ok path) {o' : PrepObs} (hsame : o'.excludePath = o.excludePath)
    (hread : ReadsAs o'.excludeText (fileText render path origin landed t)) :
    wp (ensureAgentIoExcluded repo o')
      (fun _ u => fileText render path origin landed u = fileText render path origin landed t)
      (fun _ u => fileText render path origin landed u = fileText render path origin landed t)
      t := by
  have hpath' : excludeFile repo o' = .ok path := by rwa [excludeFile, hsame]
  apply wp_mono (ensureAgentIoExcluded_listed hpath' hread h)
  · rintro _ _ rfl
    rfl
  · rintro _ _ rfl
    rfl

/-- A call that succeeds excludes the transport directory exactly when the file listed it before, or
the new line stands on its own and has reached the file. -/
theorem excludes_iff (hpath : excludeFile repo o = .ok path)
    (hread : ReadsAs o.excludeText (fileText render path origin landed s))
    (h : ensureAgentIoExcluded repo o s = .ok () t) :
    Excludes render path origin landed repo o s t ↔
      Listed ((fileText render path origin landed s).getD "") ∨
        Terminated ((fileText render path origin landed s).getD "").toList ∧
          s.Lands path landed (fileText render path origin landed s) := by
  obtain ⟨hlisted, rfl⟩ | ⟨hlisted, rfl⟩ := ensureAgentIoExcluded_eq_ok hpath hread h
  · exact iff_of_true ⟨List.Sublist.refl _, hlisted, fun _ => hlisted.again hpath⟩ (.inl hlisted)
  have hnew : '\n' ∉ excludeEntry.toList := by decide
  have hend : excludeEntry.toList.getLast? ≠ some '\r' := by decide
  have hkept : ∀ text, (lines text).Sublist (lines (text ++ excludeEntry ++ "\n")) ↔
      Terminated text.toList :=
    fun text => lines_appended_iff hnew hend (by decide)
  by_cases hlands : s.Lands path landed (fileText render path origin landed s)
  · have hafter := fileText_excluded render path origin landed hlands
    constructor
    · intro hexcludes
      have hsublist := hexcludes.kept
      rw [hafter, Option.getD_some] at hsublist
      exact .inr ⟨(hkept _).mp hsublist, hlands⟩
    · intro hcase
      obtain ⟨hterminated, -⟩ := hcase.resolve_left hlisted
      have hnow : Listed ((fileText render path origin landed
          (s.excluded path (fileText render path origin landed s))).getD "") := by
        rw [hafter]
        exact ⟨excludeEntry, mem_lines_appended hnew hend hterminated, by decide⟩
      refine ⟨?_, hnow, fun _ => hnow.again hpath⟩
      rw [hafter]
      exact (hkept _).mpr hterminated
  · refine iff_of_false (fun hexcludes => ?_) fun hcase => ?_
    · have hnow := hexcludes.listed
      rw [fileText_unlanded render path origin landed hlands] at hnow
      exact hlisted hnow
    · exact hlands (hcase.resolve_left hlisted).2

end File

namespace Sample.Excluded

def prep (text : IoResult Bytes) (status : String) : PrepObs :=
  { (obsAt 0).prep with excludeText := text, gitStatusAll := git status }

def file : String := "/work/.git/info/exclude"

def start : Orch := ⟨{ OrchestratorCtx.new args with runState := .contextPrep }, .empty⟩

def render : TemplateId → TemplateValues → String := fun _ _ => ""

def written : Nat → Bool := fun _ => true

theorem file_prep (text : IoResult Bytes) (status : String) :
    excludeFile "/work" (prep text status) = .ok file := by
  have h : excludeFile "/work" (prep (.ok []) "") = .ok file := by decide +kernel
  exact h

end Sample.Excluded

open Sample Sample.Excluded in
theorem rule_merged :
    ∃ t, ensureAgentIoExcluded "/work" (prep (.ok (asBytes "target/")) "") start = .ok () t ∧
      fileText render file (some "target/") written start = some "target/" ∧
      fileText render file (some "target/") written t = some "target/.agent-io/\n" ∧
      ¬Excludes render file (some "target/") written "/work"
        (prep (.ok (asBytes "target/")) "") start t := by
  have hlisted : ¬Listed "target/" := by decide +kernel
  have hread : ReadsAs (prep (.ok (asBytes "target/")) "").excludeText (some "target/") := rfl
  have hlands : start.Lands file written (some "target/") := rfl
  have hafter : fileText render file (some "target/") written
      (start.excluded file (some "target/")) = some "target/.agent-io/\n" :=
    fileText_excluded render file (some "target/") written hlands
  refine ⟨_, ensureAgentIoExcluded_appends (file_prep _ _) hread hlisted rfl, rfl, hafter, ?_⟩
  intro h
  have hkept := h.kept
  rw [hafter] at hkept
  exact absurd hkept (by decide +kernel)

open Sample Sample.Excluded in
theorem excludes_missing :
    ∃ t, ensureAgentIoExcluded "/work" (prep absent "") start = .ok () t ∧
      Excludes render file none written "/work" (prep absent "") start t := by
  have hread : ReadsAs (prep absent "").excludeText (fileText render file none written start) :=
    ⟨_, rfl⟩
  have hlisted : ¬Listed "" := by decide +kernel
  have hdone : ensureAgentIoExcluded "/work" (prep absent "") start =
      .ok () (start.excluded file none) :=
    ensureAgentIoExcluded_appends (file_prep _ _) hread hlisted rfl
  exact ⟨_, hdone, (excludes_iff (file_prep _ _) hread hdone).mpr (.inr ⟨.inl rfl, rfl⟩)⟩

section Rejection

/-- The context and the files are as they were, as far as the writes have landed. -/
structure Untouched (landed : Nat → Bool) (s t : Orch) : Prop where
  ctx : t.ctx = s.ctx
  children : t.world.children = s.world.children
  files : effects landed t.world.writes = effects landed s.world.writes

/-- The step gets as far as the exclude file, and changes it. -/
structure Touches (landed : Nat → Bool) (o : PrepObs) (s : Orch) : Prop where
  worktree : validateGitWorktree o = .ok ()
  topLevel : validateGitTopLevel s.ctx.args.workspaceRoot o = .ok ()
  unlocked : validateNoGitLocks s.ctx.args.workspaceRoot o = .ok ()
  merged : validateNoUnmergedIndex o = .ok ()
  idle : validateNoGitOperationInProgress s.ctx.args.workspaceRoot o = .ok ()
  changed : ∃ path content, excludeFile s.ctx.args.workspaceRoot o = .ok path ∧
    noneIfMissing (readToString o.excludeText) = .ok content ∧ ¬Listed (content.getD "") ∧
    o.excludeOpen = .ok () ∧ (content = none ∨ landed s.world.writes.length = true)

structure Cleared (o : PrepObs) : Prop where
  clean : ∃ status, runGit ["status", "--short", "--untracked-files=all"] o.gitStatusAll =
    .ok status ∧ (trim status).isEmpty
  branch : ∃ branch, currentBranchName o = .ok branch
  head : ∃ head, currentHeadRequired o = .ok head

variable {repo : String} {o : PrepObs} {s : Orch} {landed : Nat → Bool}

theorem untouched_refl (s : Orch) : Untouched landed s s := ⟨rfl, rfl, rfl⟩

theorem untouched_excluded_iff {path : String} {content : Option String} :
    Untouched landed s (s.excluded path content) ↔
      ¬(content = none ∨ landed s.world.writes.length = true) := by
  have hfiles : Untouched landed s (s.excluded path content) ↔
      effects landed (s.excluded path content).world.writes = effects landed s.world.writes := by
    refine ⟨fun h => h.files, fun h => ⟨rfl, ?_, h⟩⟩
    cases content <;> rfl
  rw [hfiles]
  cases content with
  | none =>
    refine iff_of_false (fun h => ?_) (by simp)
    have hlen := congrArg List.length h
    cases hland : landed (s.world.writes.length + 1) <;>
      simp [Orch.excluded, Orch.opened, World.record, effects, FileWrite.pending, hland] at hlen
    omega
  | some text =>
    cases hland : landed s.world.writes.length <;>
      simp [Orch.excluded, Orch.opened, World.record, effects, FileWrite.pending, hland]

theorem wp_ensureAgentIoExcluded_iff {Q : Unit → Orch → Prop} {E : Fault → Orch → Prop}
    (hQ : Q () s) (hE : ∀ e, E e s) :
    wp (ensureAgentIoExcluded repo o) Q E s ↔
      ∀ path content, excludeFile repo o = .ok path →
        noneIfMissing (readToString o.excludeText) = .ok content → ¬Listed (content.getD "") →
        o.excludeOpen = .ok () → Q () (s.excluded path content) := by
  cases hpath : excludeFile repo o with
  | error e =>
    obtain ⟨e, hgit⟩ : ∃ e,
        runGit ["rev-parse", "--git-path", "info/exclude"] o.excludePath = .error e := by
      revert hpath
      rw [excludeFile]
      cases runGit ["rev-parse", "--git-path", "info/exclude"] o.excludePath <;>
        simp [Except.map]
    simp [ensureAgentIoExcluded, hgit, hE]
  | ok path =>
    cases hcontent : noneIfMissing (readToString o.excludeText) with
    | error e =>
      have hread : ∀ e', ofIo (noneIfMissing (readToString o.excludeText)) ≠ .ok e' := by
        simp [hcontent, ofIo]
      simp [ensureAgentIoExcluded, hread, hE]
    | ok content =>
      rw [wp_ensureAgentIoExcluded hpath hcontent]
      simp [hQ, hE]

theorem cleared_or_iff {P : Prop} :
    ((∀ status, runGit ["status", "--short", "--untracked-files=all"] o.gitStatusAll = .ok status →
      (∀ x : Unit, (if (trim status).isEmpty then .ok () else .error (.dirtyWorktree status)) =
          (.ok x : OrchestratorResult Unit) →
        (∀ branch, currentBranchName o = .ok branch → ∀ e, currentHeadRequired o = .error e → P) ∧
        ∀ e, currentBranchName o = .error e → P) ∧
      ∀ e, (if (trim status).isEmpty then .ok () else .error (.dirtyWorktree status)) =
        (.error e : OrchestratorResult Unit) → P) ∧
      ∀ e, runGit ["status", "--short", "--untracked-files=all"] o.gitStatusAll = .error e → P) ↔
      Cleared o ∨ P := by
  have hcleared : Cleared o ↔ (∃ status, runGit ["status", "--short", "--untracked-files=all"]
      o.gitStatusAll = .ok status ∧ (trim status).isEmpty) ∧
      (∃ branch, currentBranchName o = .ok branch) ∧ ∃ head, currentHeadRequired o = .ok head :=
    ⟨fun h => ⟨h.clean, h.branch, h.head⟩, fun h => ⟨h.1, h.2.1, h.2.2⟩⟩
  rw [hcleared]
  cases runGit ["status", "--short", "--untracked-files=all"] o.gitStatusAll with
  | error e => simp
  | ok status =>
    simp only [Except.ok.injEq, forall_eq', exists_eq_left', reduceCtorEq, IsEmpty.forall_iff,
      implies_true, and_true]
    generalize (trim status).isEmpty = clean
    cases clean with
    | false => simp
    | true =>
      cases currentBranchName o with
      | error e => simp
      | ok branch => cases currentHeadRequired o <;> simp

/-- A step that is rejected leaves everything as it was, unless it has changed the exclude file and
then fails. -/
theorem rejected_unchanged_iff :
    (∀ e t, doContextPrep o s = .error e t → Untouched landed s t) ↔
      (Touches landed o s → Cleared o) := by
  have hwp : (∀ e t, doContextPrep o s = .error e t → Untouched landed s t) ↔
      wp (doContextPrep o) (fun _ _ => True) (fun _ t => Untouched landed s t) s := by
    simp only [wp]
    cases doContextPrep o s <;> simp
  rw [hwp]
  simp only [doContextPrep, wp_bind, OrchM.wp_ctx, OrchM.wp_ofResult, OrchM.wp_modifyCtx,
    implies_true, and_true, true_and, cleared_or_iff, untouched_refl]
  have hensure : wp (ensureAgentIoExcluded s.ctx.args.workspaceRoot o)
      (fun _ t => Cleared o ∨ Untouched landed s t) (fun _ t => Untouched landed s t) s ↔ _ :=
    wp_ensureAgentIoExcluded_iff (.inr (untouched_refl s)) fun _ => untouched_refl s
  simp only [hensure, untouched_excluded_iff]
  constructor
  · intro h htouches
    obtain ⟨path, content, hpath, hcontent, hlisted, hopen, hchanged⟩ := htouches.changed
    have hcleared := h () htouches.worktree () htouches.topLevel () htouches.unlocked ()
      htouches.merged () htouches.idle path content hpath hcontent hlisted hopen
    exact hcleared.resolve_right (not_not_intro hchanged)
  · intro h _ hworktree _ htop _ hlocks _ hmerged _ hidle path content hpath hcontent hlisted hopen
    refine or_iff_not_imp_right.mpr fun hchanged => ?_
    exact h ⟨hworktree, htop, hlocks, hmerged, hidle, path, content, hpath, hcontent, hlisted,
      hopen, not_not.mp hchanged⟩

end Rejection

theorem doContextPrep_dirty {o : PrepObs} {s t : Orch} {status : String}
    (hworktree : validateGitWorktree o = .ok ())
    (htop : validateGitTopLevel s.ctx.args.workspaceRoot o = .ok ())
    (hlocks : validateNoGitLocks s.ctx.args.workspaceRoot o = .ok ())
    (hmerged : validateNoUnmergedIndex o = .ok ())
    (hidle : validateNoGitOperationInProgress s.ctx.args.workspaceRoot o = .ok ())
    (hexclude : ensureAgentIoExcluded s.ctx.args.workspaceRoot o s = .ok () t)
    (hstatus : runGit ["status", "--short", "--untracked-files=all"] o.gitStatusAll = .ok status)
    (hdirty : (trim status).isEmpty = false) :
    doContextPrep o s = .error (.error (.dirtyWorktree status)) t := by
  apply eq_error_of_wp
  simp only [doContextPrep, wp_bind, OrchM.wp_ctx, OrchM.wp_ofResult, hworktree, htop, hlocks,
    hmerged, hidle, wp_iff_of_ok hexclude, hstatus, hdirty, Except.ok.injEq, forall_eq',
    reduceCtorEq, IsEmpty.forall_iff, implies_true, and_true, true_and, forall_const,
    Bool.false_eq_true, if_false, Except.error.injEq]

open Sample Sample.Excluded in
theorem dirty_touched :
    ∃ t, doContextPrep (prep (.ok (asBytes "target/\n")) "?? notes.txt\n") start =
        .error (.error (.dirtyWorktree "?? notes.txt\n")) t ∧
      fileText render file (some "target/\n") written t = some "target/\n.agent-io/\n" ∧
      ¬Untouched written start t := by
  let o := prep (.ok (asBytes "target/\n")) "?? notes.txt\n"
  have hlisted : ¬Listed "target/\n" := by decide +kernel
  have hread : ReadsAs o.excludeText (some "target/\n") := rfl
  have hdone : ensureAgentIoExcluded "/work" o start =
      .ok () (start.excluded file (some "target/\n")) :=
    ensureAgentIoExcluded_appends (file_prep _ _) hread hlisted rfl
  have hworktree : validateGitWorktree o = .ok () := by decide +kernel
  have htop : validateGitTopLevel "/work" o = .ok () := by decide +kernel
  have hlocks : validateNoGitLocks "/work" o = .ok () := by decide +kernel
  have hmerged : validateNoUnmergedIndex o = .ok () := by decide +kernel
  have hidle : validateNoGitOperationInProgress "/work" o = .ok () := by decide +kernel
  have hstatus : runGit ["status", "--short", "--untracked-files=all"] o.gitStatusAll =
      .ok "?? notes.txt\n" := by decide +kernel
  have hdirty : (trim "?? notes.txt\n").isEmpty = false := by decide +kernel
  have hroot : start.ctx.args.workspaceRoot = "/work" := rfl
  exact ⟨_, doContextPrep_dirty hworktree htop hlocks hmerged hidle hdone hstatus hdirty,
    fileText_excluded render file (some "target/\n") written rfl,
    fun h => untouched_excluded_iff.mp h (.inr rfl)⟩

end Orchestrator

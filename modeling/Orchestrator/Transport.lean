import Orchestrator.Conversation
import Orchestrator.Exclude
import Orchestrator.Inbox

/-! The writes of a whole run. -/

namespace Orchestrator

open Rust Exec Trace

def truncations (ctx : OrchestratorCtx) : AgentRole → List FileWrite
  | .executor =>
    [.truncated (ctx.transportPath outboxFile), .truncated (ctx.transportPath inboxFile)]
  | .reviewer => [.truncated (ctx.transportPath inboxFile)]

def dispatchWrites (ctx : OrchestratorCtx) (role : AgentRole) (template : TemplateId)
    (values : TemplateValues) : List FileWrite :=
  .request (ctx.transportPath inboxFile) template values :: truncations ctx role

/-- The writes of a preparation in which git resolves an exclude file that is `found`: the entry
that excludes the transport directory, unless the file lists it, behind a file created for it. -/
inductive Excluding (found : String → Prop) : List FileWrite → Prop
  | listed : Excluding found []
  | appended {path} : found path → Excluding found [.appended path excludeEntry]
  | created {path} : found path →
      Excluding found [.appended path excludeEntry, .created path]

inductive WriteLog (found : String → Prop) (ctx : OrchestratorCtx) :
    List AgentRole → List FileWrite → Prop
  | prepared {ws} : Excluding found ws → WriteLog found ctx [] ws
  | dispatched {role roles ws template values} : WriteLog found ctx roles ws →
      WriteLog found ctx (role :: roles) (dispatchWrites ctx role template values ++ ws)

def Requested (ctx : OrchestratorCtx) (role : AgentRole) (ws : List FileWrite) : Prop :=
  ∃ template values, ws = dispatchWrites ctx role template values

def Torn (ctx : OrchestratorCtx) (role : AgentRole) (ws : List FileWrite) : Prop :=
  ∃ template values, ws <:+ dispatchWrites ctx role template values

theorem Torn.of_truncations {ctx : OrchestratorCtx} {role : AgentRole} {ws : List FileWrite}
    (h : ws <:+ truncations ctx role) (template : TemplateId) (values : TemplateValues) :
    Torn ctx role ws := ⟨template, values, h.trans (List.suffix_cons _ _)⟩

theorem Torn.of_request {ctx : OrchestratorCtx} {role : AgentRole} (ws : List FileWrite)
    (h : Requested ctx role ws) : Torn ctx role ws := by
  obtain ⟨template, values, rfl⟩ := h
  exact ⟨template, values, List.suffix_rfl⟩

section Dispatch

variable {role : AgentRole} {s t : Orch}

structure Added (p : List FileWrite → Prop) (s t : Orch) : Prop where
  args : t.ctx.args = s.ctx.args
  writes : ∃ new, t.world.writes = new ++ s.world.writes ∧ p new

def Adds {α : Type} (x : OrchM α) (done torn : List FileWrite → Prop) (s : Orch) : Prop :=
  wp x (fun _ t => Added done s t) (fun _ t => Added torn s t) s

theorem Added.trans {p q r : List FileWrite → Prop} {u : Orch} (h : Added p s t)
    (h' : Added q t u) (hr : ∀ ws new, p ws → q new → r (new ++ ws)) : Added r s u := by
  obtain ⟨hargs, ws, hw, hp⟩ := h
  obtain ⟨hargs', new, hw', hq⟩ := h'
  exact ⟨hargs'.trans hargs, new ++ ws, by rw [hw', hw, List.append_assoc], hr ws new hp hq⟩

theorem Added.mono {p q : List FileWrite → Prop} (h : Added p s t) (hpq : ∀ ws, p ws → q ws) :
    Added q s t := by
  obtain ⟨hargs, ws, hw, hp⟩ := h
  exact ⟨hargs, ws, hw, hpq ws hp⟩

theorem Added.nothing {p : List FileWrite → Prop} (hargs : t.ctx.args = s.ctx.args)
    (hw : t.world.writes = s.world.writes) (hp : p []) : Added p s t := ⟨hargs, [], hw, hp⟩

theorem adds_truncateFile (path : String) (opened : IoResult Unit) (len : IoResult Nat) :
    Adds (truncateFile path opened len) (fun ws => ws = [.truncated path])
      (fun ws => ws <:+ [.truncated path]) s := by
  simp only [Adds, truncateFile, wp_bind, OrchM.wp_ofResult, OrchM.wp_modifyWorld]
  refine ⟨fun _ _ => ⟨fun _ _ => ⟨fun _ _ => ?_, fun _ _ => ?_⟩, fun _ _ => ?_⟩, fun _ _ => ?_⟩
  · exact ⟨rfl, _, rfl, rfl⟩
  · exact ⟨rfl, [.truncated path], rfl, List.suffix_rfl⟩
  · exact ⟨rfl, [.truncated path], rfl, List.suffix_rfl⟩
  · exact .nothing rfl rfl List.nil_suffix

theorem adds_resetTransport (o : ResetObs) :
    Adds (resetTransport (s.ctx.transportPath inboxFile) (s.ctx.transportPath outboxFile) role o)
      (fun ws => ws = truncations s.ctx role) (fun ws => ws <:+ truncations s.ctx role) s := by
  simp only [Adds, resetTransport, wp_bind, OrchM.wp_ofResult]
  refine ⟨fun _ _ => ?_, fun _ _ => .nothing rfl rfl List.nil_suffix⟩
  apply wp_mono (adds_truncateFile (s.ctx.transportPath inboxFile) o.openInbox o.inboxLen)
  · intro _ t ht
    cases role with
    | reviewer => exact ht
    | executor =>
      apply wp_mono (adds_truncateFile (s.ctx.transportPath outboxFile) o.openOutbox o.outboxLen)
      · intro _ u hu
        apply ht.trans hu
        rintro _ _ rfl rfl
        rfl
      · intro _ u hu
        apply ht.trans hu
        rintro _ new rfl ⟨front, hfront⟩
        exact ⟨front, by rw [← List.append_assoc, hfront]; rfl⟩
  · intro _ t ht
    apply ht.mono
    intro ws hws
    cases role with
    | reviewer => exact hws
    | executor => exact hws.trans (List.suffix_cons _ _)

variable [Crates]

theorem adds_prepareDispatch (id : String) (o : DispatchObs) :
    Adds (prepareDispatch role id o)
      (Requested s.ctx role) (Torn s.ctx role) s := by
  have hnil : Torn s.ctx role [] :=
    ⟨templateFor s.ctx role, templateValues s.ctx role "" "", List.nil_suffix⟩
  have htorn {t : Orch} (ht : Added (fun ws => ws <:+ truncations s.ctx role) s t) :
      Added (Torn s.ctx role) s t :=
    ht.mono fun ws hws => .of_truncations hws (templateFor s.ctx role)
      (templateValues s.ctx role "" "")
  simp only [Adds, prepareDispatch, wp_bind, OrchM.wp_ctx, OrchM.wp_ofResult]
  refine ⟨fun _ _ => ⟨fun status _ => ⟨fun head _ => ?_, ?_⟩, ?_⟩, ?_⟩
  · apply wp_mono (adds_resetTransport o.reset)
    · intro _ t ht
      have hfailed {u : Orch} (hargs : u.ctx.args = t.ctx.args) (hw : u.world = t.world) :
          Added (Torn s.ctx role) s u := by
        obtain ⟨ws, hwrites, rfl⟩ := ht.writes
        apply htorn
        exact ⟨hargs.trans ht.args, _, by rw [hw, hwrites], List.suffix_rfl⟩
      have hrequest {u : Orch} {template : TemplateId} {values : TemplateValues}
          (hargs : u.ctx.args = t.ctx.args) (hw : u.world = t.world.record
            (.request (s.ctx.transportPath inboxFile) template values)) :
          Added (Requested s.ctx role) s u := by
        obtain ⟨ws, hwrites, rfl⟩ := ht.writes
        refine ⟨hargs.trans ht.args, dispatchWrites s.ctx role template values, ?_, _, _, rfl⟩
        rw [hw]
        exact congrArg (_ :: ·) hwrites
      apply wp_mono (captureReviewerBaseline_spec role o t)
      · rintro mtime _ ⟨baseline, -, rfl⟩
        simp only [writeRequest, wp_bind, OrchM.wp_ofResult, OrchM.wp_modifyWorld,
          OrchM.wp_modifyCtx, wp_pure]
        refine ⟨fun facts _ => ⟨fun _ _ => ⟨fun bytes _ => ⟨fun snapshot _ => ?_, ?_⟩, ?_⟩, ?_⟩, ?_⟩
        · exact hrequest rfl rfl
        · exact fun _ _ => Added.mono (hrequest rfl rfl) Torn.of_request
        · exact fun _ _ => Added.mono (hrequest rfl rfl) Torn.of_request
        · exact fun _ _ => hfailed rfl rfl
        · exact fun _ _ => hfailed rfl rfl
      · rintro _ _ rfl
        exact hfailed rfl rfl
    · exact fun _ t ht => htorn ht
  all_goals exact fun _ _ => .nothing rfl rfl hnil

theorem adds_doDispatch (o : DispatchObs) :
    Adds (doDispatch role o) (Requested s.ctx role) (Torn s.ctx role) s := by
  have hnil : Torn s.ctx role [] :=
    ⟨templateFor s.ctx role, templateValues s.ctx role "" "", List.nil_suffix⟩
  simp only [Adds, doDispatch, dispatchRole, wp_bind, OrchM.wp_ctx, OrchM.wp_ofResult,
    OrchM.wp_modifyCtx, wp_modify]
  refine ⟨fun id _ => ⟨fun lock _ => ?_, ?_⟩, ?_⟩
  · apply wp_mono (adds_prepareDispatch (s := s.withLock role (some lock)) id o)
    · intro p t ht
      refine ⟨fun pid _ => ⟨ht.args, ht.writes⟩, fun _ _ => ?_⟩
      exact ⟨ht.args, (ht.mono Torn.of_request).writes⟩
    · exact fun _ t ht => ⟨ht.args, ht.writes⟩
  all_goals exact fun _ _ => .nothing rfl rfl hnil

end Dispatch

def Resolves (repo : String) (o : PrepObs) (path : String) : Prop := excludeFile repo o = .ok path

theorem adds_ensureAgentIoExcluded (repo : String) (o : PrepObs) (s : Orch) :
    Adds (ensureAgentIoExcluded repo o) (Excluding (Resolves repo o)) (fun ws => ws = []) s := by
  have hnil : Added (fun ws => ws = []) s s := .nothing rfl rfl rfl
  simp only [Adds, ensureAgentIoExcluded, wp_bind, OrchM.wp_ofResult, OrchM.wp_modifyWorld, wp_ite,
    wp_pure]
  refine ⟨fun relative hgit => ⟨fun content _ => ⟨fun _ => .nothing rfl rfl .listed,
    fun _ => ⟨fun _ _ => ?_, ?_⟩⟩, ?_⟩, ?_⟩
  · have hfound : Resolves repo o (joinPath repo (trim relative)) := by
      rw [Resolves, excludeFile, hgit]
      rfl
    cases content with
    | none => exact ⟨rfl, [.appended _ _, .created _], rfl, .created hfound⟩
    | some text => exact ⟨rfl, [.appended _ _], rfl, .appended hfound⟩
  all_goals exact fun _ _ => hnil

theorem adds_doContextPrep (o : PrepObs) (s : Orch) :
    Adds (doContextPrep o) (Excluding (Resolves s.ctx.args.workspaceRoot o))
      (Excluding (Resolves s.ctx.args.workspaceRoot o)) s := by
  have hnil : Added (Excluding (Resolves s.ctx.args.workspaceRoot o)) s s :=
    .nothing rfl rfl .listed
  simp only [Adds, doContextPrep, wp_bind, OrchM.wp_ctx, OrchM.wp_ofResult, OrchM.wp_modifyCtx]
  refine ⟨fun _ _ => ⟨fun _ _ => ⟨fun _ _ => ⟨fun _ _ => ⟨fun _ _ => ?_, ?_⟩, ?_⟩, ?_⟩, ?_⟩, ?_⟩
  · apply wp_mono (adds_ensureAgentIoExcluded s.ctx.args.workspaceRoot o s)
    · intro _ t ht
      refine ⟨fun _ _ => ⟨fun _ _ => ⟨fun _ _ => ⟨fun _ _ => ?_, ?_⟩, ?_⟩, ?_⟩, ?_⟩
      · exact ⟨ht.args, ht.writes⟩
      all_goals exact fun _ _ => ht
    · intro _ t ht
      apply ht.mono
      rintro _ rfl
      exact .listed
  all_goals exact fun _ _ => hnil

def StepWrites (o : StepObs) (ctx : OrchestratorCtx) (done : Bool) (ws : List FileWrite) : Prop :=
  match ctx.runState with
  | .contextPrep => Excluding (Resolves ctx.args.workspaceRoot o.prep) ws
  | .executorDispatch => if done then Requested ctx .executor ws else Torn ctx .executor ws
  | .reviewerDispatch => if done then Requested ctx .reviewer ws else Torn ctx .reviewer ws
  | _ => ws = []

theorem stepWrites_nil {o : StepObs} {ctx : OrchestratorCtx} {done : Bool}
    (hd : ∀ r, ctx.runState ≠ .dispatch r) : StepWrites o ctx done [] := by
  have he := hd .executor
  have hr := hd .reviewer
  revert he hr
  simp only [StepWrites]
  cases ctx.runState <;> simp [RunState.dispatch, Excluding.listed]

section Step

variable [Crates]

theorem adds_step (o : StepObs) (s : Orch) :
    Adds (step o) (StepWrites o s.ctx true) (StepWrites o s.ctx false) s := by
  by_cases hprep : s.ctx.runState = .contextPrep
  · have hw : ∀ done ws, StepWrites o s.ctx done ws ↔
        Excluding (Resolves s.ctx.args.workspaceRoot o.prep) ws := by
      simp [StepWrites, hprep]
    have hstep : step o s = ((fun _ => Flow.done) <$> doContextPrep o.prep : OrchM Flow) s := by
      simp only [step, bind, EStateM.bind, OrchM.ctx, hprep]
    rw [Adds, wp, hstep, ← wp, wp_map]
    apply wp_mono (adds_doContextPrep o.prep s)
    · exact fun _ t ht => ht.mono fun ws => (hw true ws).mpr
    · exact fun _ t ht => ht.mono fun ws => (hw false ws).mpr
  by_cases hdispatch : ∃ r, s.ctx.runState = .dispatch r
  · obtain ⟨role, hr⟩ := hdispatch
    rw [Adds, wp, step_dispatch hr, ← wp, wp_map]
    apply wp_mono (adds_doDispatch o.dispatch)
    · intro _ t ht
      apply ht.mono
      intro ws hws
      cases role <;> simpa [StepWrites, hr, RunState.dispatch] using hws
    · intro _ t ht
      apply ht.mono
      intro ws hws
      cases role <;> simpa [StepWrites, hr, RunState.dispatch] using hws
  have hd : ∀ r, s.ctx.runState ≠ .dispatch r := fun r hr => hdispatch ⟨r, hr⟩
  have hsame {t : Orch} {done : Bool} (hargs : t.ctx.args = s.ctx.args)
      (hw : t.world.writes = s.world.writes) : Added (StepWrites o s.ctx done) s t :=
    .nothing hargs hw (stepWrites_nil hd)
  cases hpre : s.ctx.runState.prelude with
  | false =>
    apply wp_mono (step_spec o s)
    · intro flow t ht
      have hs := ht.sameRequest hd hprep
      exact hsame hs.args hs.writes
    · exact fun _ t ht => hsame ht.kept.args (ht.writes hd hpre)
  | true =>
    obtain hinit | hbind : s.ctx.runState = .runInit ∨ s.ctx.runState = .sessionBind := by
      revert hpre hprep
      cases s.ctx.runState <;> simp [RunState.prelude]
    · have hstep : step o s = .ok .done s := by
        simp only [step, bind, EStateM.bind, OrchM.ctx, hinit]
        rfl
      rw [Adds, wp, hstep]
      exact hsame rfl rfl
    · have hstep : step o s = ((fun _ => Flow.done) <$> doSessionBind o.bind : OrchM Flow) s := by
        simp only [step, bind, EStateM.bind, OrchM.ctx, hbind]
      rw [Adds, wp, hstep, ← wp, wp_map]
      apply wp_mono (doSessionBind_spec o.bind s)
      · rintro _ _ ⟨x, y, -, rfl⟩
        exact hsame rfl rfl
      · rintro _ _ rfl
        exact hsame rfl rfl

end Step

def launchedRole (e : Turn) : Option AgentRole :=
  if launches e then
    if e.pre.ctx.runState = .executorDispatch then some .executor else some .reviewer
  else none

abbrev launchedRoles (h : History Machine Input) : List AgentRole := h.filterMap launchedRole

def resolvedPath (e : Turn) : Option String :=
  match e.input with
  | .tick _ o =>
    if takesStep e ∧ e.pre.ctx.runState = .contextPrep then
      (excludeFile e.pre.ctx.args.workspaceRoot o.prep).toOption
    else none
  | .exit _ => none

abbrev Resolved (h : History Machine Input) (path : String) : Prop :=
  ∃ e ∈ h, resolvedPath e = some path

def RunState.unprepared (r : RunState) : Prop := r = .runInit ∨ r = .contextPrep

/-- The writes of a run: those of its launches, and of a dispatch that ended it. -/
structure Logged (h : History Machine Input) (m : Machine) : Prop where
  log : ∃ torn ws, m.world.writes = torn ++ ws ∧ WriteLog (Resolved h) m.ctx (launchedRoles h) ws ∧
    (torn = [] ∨ ¬m.Active ∧ ∃ role, Torn m.ctx role torn)
  prelude : m.ctx.runState.prelude = true → launchedRoles h = []
  unwritten : m.Active → m.ctx.runState.unprepared → m.world.writes = []

section Log

variable {c d : OrchestratorCtx} {role : AgentRole} {roles : List AgentRole} {ws : List FileWrite}

theorem dispatchWrites_congr (h : d.args = c.args) : dispatchWrites d = dispatchWrites c := by
  funext role template values
  cases role <;> simp [dispatchWrites, truncations, OrchestratorCtx.transportPath, h]

theorem Excluding.mono {found found' : String → Prop} (h : Excluding found ws)
    (hfound : ∀ path, found path → found' path) : Excluding found' ws := by
  cases h with
  | listed => exact .listed
  | appended hpath => exact .appended (hfound _ hpath)
  | created hpath => exact .created (hfound _ hpath)

theorem WriteLog.congr {found found' : String → Prop} (h : WriteLog found c roles ws)
    (hargs : d.args = c.args) (hfound : ∀ path, found path → found' path) :
    WriteLog found' d roles ws := by
  induction h with
  | prepared hws => exact .prepared (hws.mono hfound)
  | dispatched _ ih =>
    rw [← dispatchWrites_congr hargs]
    exact .dispatched ih

theorem Torn.congr (h : Torn c role ws) (hargs : d.args = c.args) : Torn d role ws := by
  obtain ⟨template, values, hws⟩ := h
  exact ⟨template, values, by rwa [dispatchWrites_congr hargs]⟩

theorem stepWrites_cases {o : StepObs} {done : Bool} (h : StepWrites o c done ws) :
    c.runState = .contextPrep ∧ Excluding (Resolves c.args.workspaceRoot o.prep) ws ∨
      (∃ r, c.runState = .dispatch r ∧ if done then Requested c r ws else Torn c r ws) ∨
      c.runState ≠ .contextPrep ∧ (∀ r, c.runState ≠ .dispatch r) ∧ ws = [] := by
  revert h
  simp only [StepWrites]
  cases hr : c.runState
  case contextPrep => exact fun h => .inl ⟨rfl, h⟩
  case executorDispatch => exact fun h => .inr (.inl ⟨.executor, rfl, h⟩)
  case reviewerDispatch => exact fun h => .inr (.inl ⟨.reviewer, rfl, h⟩)
  all_goals
    exact fun h => .inr (.inr ⟨by simp, fun r => by cases r <;> simp [RunState.dispatch], h⟩)

end Log

theorem launchedRoles_none {h : History Machine Input} {e : Turn} (he : launches e = false) :
    launchedRoles (e :: h) = launchedRoles h := by
  simp [launchedRoles, launchedRole, he]

theorem launchedRoles_some {h : History Machine Input} {e : Turn} {role : AgentRole}
    (he : launches e = true) (hr : e.pre.ctx.runState = .dispatch role) :
    launchedRoles (e :: h) = role :: launchedRoles h := by
  cases role <;> simp [launchedRoles, launchedRole, he, hr, RunState.dispatch]

theorem launchedRoles_length (e : Turn) (h : History Machine Input) :
    (launchedRoles (e :: h)).length = (launchedRoles h).length + tally launches e := by
  simp only [launchedRoles, List.filterMap_cons, launchedRole, tally]
  cases launches e
  · rfl
  · by_cases he : e.pre.ctx.runState = .executorDispatch <;> simp [he]

theorem launches_of_not_step {e : Turn} (he : takesStep e = false) : launches e = false := by
  simp [launches, dispatches, he]

theorem launches_of_not_monitor {e : Turn} (he : ∀ r, e.post.ctx.runState ≠ .monitor r) :
    launches e = false := by
  have hexecutor := he .executor
  have hreviewer := he .reviewer
  simp only [RunState.monitor] at hexecutor hreviewer
  simp [launches, hexecutor, hreviewer]

theorem launches_of_kept {e : Turn} (he : e.post.ctx.runState = e.pre.ctx.runState) :
    launches e = false := by
  simp only [launches, dispatches, he]
  cases e.pre.ctx.runState <;> simp

section Logged

variable {h : History Machine Input} {m m' : Machine} {i : Input} {c : Bool} {o : StepObs}
  {t : Orch} {flow : Flow}

theorem Resolved.cons {path : String} (hp : Resolved h path) (e : Turn) :
    Resolved (e :: h) path := by
  obtain ⟨e', he, hpath⟩ := hp
  exact ⟨e', List.mem_cons_of_mem e he, hpath⟩

theorem resolved_of_prepares (hs : m.Steps c) (hr : m.ctx.runState = .contextPrep) {path : String}
    (hpath : Resolves m.ctx.args.workspaceRoot o.prep path) :
    Resolved (⟨m, .tick c o, m'⟩ :: h) path := by
  refine ⟨_, List.mem_cons_self .., ?_⟩
  rw [Resolves] at hpath
  simp [resolvedPath, takesStep, hs, hr, hpath, Except.toOption]

theorem Logged.quiet (hinv : Logged h m) (hl : launches ⟨m, i, m'⟩ = false)
    (hargs : m'.ctx.args = m.ctx.args) (hw : m'.world.writes = m.world.writes)
    (hactive : m'.Active → m.Active)
    (hp : m'.ctx.runState.prelude = true → m.ctx.runState.prelude = true)
    (hu : m'.ctx.runState.unprepared → m.ctx.runState.unprepared) :
    Logged (⟨m, i, m'⟩ :: h) m' := by
  obtain ⟨⟨torn, ws, hwrites, hlog, htorn⟩, hprelude, hunwritten⟩ := hinv
  rw [← launchedRoles_none hl] at hlog hprelude
  refine ⟨⟨torn, ws, hw.trans hwrites, hlog.congr hargs fun _ hp => hp.cons _, ?_⟩,
    fun h => hprelude (hp h), fun ha h => hw.trans (hunwritten (hactive ha) (hu h))⟩
  obtain htorn | ⟨hm, role, htorn⟩ := htorn
  · exact .inl htorn
  · exact .inr ⟨fun h => hm (hactive h), role, htorn.congr hargs⟩

theorem Logged.active (hinv : Logged h m) (hm : m.Active) :
    WriteLog (Resolved h) m.ctx (launchedRoles h) m.world.writes := by
  obtain ⟨torn, ws, hw, hlog, rfl | ⟨hm', -⟩⟩ := hinv.log
  · exact hw ▸ hlog
  · exact absurd hm hm'

theorem Logged.rerooted (hinv : Logged h m) (hl : launches ⟨m, i, m'⟩ = false) (hm : m.Placed)
    (hpc : m.pc = .start) (ht : Rerooted m.toOrch t) (hw : m'.world = t.world) :
    Logged (⟨m, i, m'⟩ :: h) m' := by
  obtain ⟨root, rfl⟩ := ht
  have hinit := hm.start hpc
  have hroles := hinv.prelude (by rw [hinit]; rfl)
  have hempty : m'.world.writes = [] := by
    rw [hw]
    exact hinv.unwritten ⟨by simp [hpc], by simp [hinit, RunState.isTerminal]⟩ (.inl hinit)
  rw [← launchedRoles_none (h := h) hl] at hroles
  refine ⟨⟨[], [], hempty, ?_, .inl rfl⟩, fun _ => hroles, fun _ _ => hempty⟩
  rw [hroles]
  exact .prepared .listed

theorem Logged.prepared (hinv : Logged h m) (hs : m.Steps c) (hm : m.Active)
    (hr : m.ctx.runState = .contextPrep) {new : List FileWrite}
    (hwrites : m'.world.writes = new ++ m.world.writes)
    (hex : Excluding (Resolves m.ctx.args.workspaceRoot o.prep) new) :
    WriteLog (Resolved (⟨m, .tick c o, m'⟩ :: h)) m'.ctx [] m'.world.writes := by
  rw [hwrites, hinv.unwritten hm (.inr hr), List.append_nil]
  exact .prepared (hex.mono fun _ => resolved_of_prepares hs hr)

theorem Logged.ended (hinv : Logged h m) (hs : m.Steps c) (hm : m.Active) (hm' : ¬m'.Active)
    (hl : launches ⟨m, .tick c o, m'⟩ = false)
    (hp : m'.ctx.runState.prelude = true → m.ctx.runState.prelude = true)
    (hw : Added (StepWrites o m.ctx false) m.toOrch m'.toOrch) :
    Logged (⟨m, .tick c o, m'⟩ :: h) m' := by
  obtain ⟨hargs, new, hwrites, hnew⟩ := hw
  have hlog := (hinv.active hm).congr hargs fun _ (hp : Resolved h _) => hp.cons ⟨m, .tick c o, m'⟩
  have hprelude := hinv.prelude
  rw [← launchedRoles_none (h := h) hl] at hlog hprelude
  refine ⟨?_, fun h => hprelude (hp h), fun ha => absurd ha hm'⟩
  obtain ⟨hr, hex⟩ | ⟨r, hr, htorn⟩ | ⟨-, -, rfl⟩ := stepWrites_cases hnew
  · refine ⟨[], _, rfl, ?_, .inl rfl⟩
    rw [hprelude (by rw [hr]; rfl)]
    exact hinv.prepared hs hm hr hwrites hex
  · exact ⟨new, _, hwrites, hlog, .inr ⟨hm', r, Torn.congr htorn hargs⟩⟩
  · exact ⟨[], _, hwrites, hlog, .inl rfl⟩

variable [Crates]

theorem Stepped.unprepared {s : Orch} (hst : Stepped o s flow t)
    (ht : t.ctx.runState.unprepared) : t = s := by
  have hprelude : t.ctx.runState.prelude = true := by
    obtain ht | ht := ht <;> rw [ht] <;> rfl
  have hp := hst.prelude hprelude
  cases hst with
  | prepared _ hc _ => simp [RunState.unprepared, hc] at ht
  | bound _ _ => simp [RunState.unprepared] at ht
  | @dispatched role _ hr _ => cases role <;> simp [hr, RunState.dispatch, RunState.prelude] at hp
  | @probed role _ _ hr _ => cases role <;> simp [hr, RunState.monitor, RunState.prelude] at hp
  | retried hr | surveyed hr _ | verified hr | collected hr _ | gated hr | fedBack hr =>
    simp [hr, RunState.prelude] at hp
  | skipped _ => rfl

theorem Logged.stepped (hinv : Logged h m) (hs : m.Steps c) (hm : m.Placed) {pc : Pc}
    (hst : Stepped o m.toOrch flow t) (hw : Added (StepWrites o m.ctx true) m.toOrch t) :
    Logged (⟨m, .tick c o, ⟨t, pc⟩⟩ :: h) ⟨t, pc⟩ := by
  obtain ⟨hargs, new, hwrites, hnew⟩ := hw
  have hactive := hs.active hm
  have hlog := hinv.active hactive
  have hp := hst.prelude
  have hunwritten : t.ctx.runState.unprepared → t.world.writes = [] := by
    intro ht
    obtain rfl := hst.unprepared ht
    exact hinv.unwritten hactive ht
  obtain ⟨hr, hex⟩ | ⟨r, hr, template, values, rfl⟩ | ⟨hprep, hd, rfl⟩ := stepWrites_cases hnew
  · have hl : launches ⟨m, .tick c o, ⟨t, pc⟩⟩ = false := by
      simp [launches, dispatches, hr]
    have hroles := hinv.prelude (by rw [hr]; rfl)
    refine ⟨⟨[], _, rfl, ?_, .inl rfl⟩, fun _ => ?_, fun _ => hunwritten⟩
    · rw [launchedRoles_none hl, hroles]
      exact hinv.prepared hs hactive hr hwrites hex
    · rw [launchedRoles_none hl, hroles]
  · have hl : launches ⟨m, .tick c o, ⟨t, pc⟩⟩ = true := hst.launches hs hr
    refine ⟨⟨[], _, hwrites, ?_, .inl rfl⟩, fun h => ?_, fun _ => hunwritten⟩
    · rw [launchedRoles_some hl hr]
      exact (WriteLog.dispatched hlog).congr hargs fun _ hp => hp.cons _
    · have hpre := hp h
      cases r <;> simp [hr, RunState.dispatch, RunState.prelude] at hpre
  · have hexecutor := hd .executor
    have hreviewer := hd .reviewer
    simp only [RunState.dispatch] at hexecutor hreviewer
    apply hinv.quiet _ hargs hwrites (fun _ => hactive) hp
    · intro ht
      obtain rfl := hst.unprepared ht
      exact ht
    · simp [launches, dispatches, hexecutor, hreviewer]

theorem Run.logged (hr : Run h m) : Logged h m := by
  apply Trace.Run.invariant (P := Logged) hr
  · rintro _ ⟨args, rfl⟩
    exact ⟨⟨[], [], rfl, .prepared .listed, .inl rfl⟩, fun _ => rfl, fun _ _ => rfl⟩
  · intro h m i hr hinv
    have hm := Run.placed hr
    have hmove := next_move m i
    have hp := hmove.prelude hm
    cases i with
    | exit child => exact hinv.quiet rfl rfl rfl id id id
    | tick c o =>
      by_cases hs : m.Steps c
      · have hwp := wp_and (adds_step o m.toOrch) (step_spec o m.toOrch)
        obtain ⟨flow, hw, hst⟩ | ⟨e, t, ⟨hw, hi⟩, hnext⟩ | ⟨t, ⟨hw, hi⟩, hnext⟩ := next_of_wp hs hwp
        · exact hinv.stepped hs hm hst hw
        · rw [hnext] at hp ⊢
          have hterminal := Machine.fail_terminal e t.ctx
          apply hinv.ended hs (hs.active hm) _ _ hp ⟨hw.args, hw.writes⟩
          · exact fun ha => absurd ha.2 (by simp [hterminal])
          · apply launches_of_not_monitor
            intro r hr
            rw [show (Machine.fail e t.ctx).runState = .monitor r from hr,
              monitor_not_terminal r] at hterminal
            cases hterminal
        · rw [hnext] at hp ⊢
          apply hinv.ended hs (hs.active hm) _ _ hp ⟨hw.args, hw.writes⟩
          · exact fun ha => ha.1 rfl
          · exact launches_of_kept hi.kept.runState
      · have hl : launches ⟨m, .tick c o, m.next (.tick c o)⟩ = false :=
          launches_of_not_step (by simp [takesStep, hs])
        revert hl hp
        generalize m.next (.tick c o) = m' at hmove
        intro hp hl
        cases hmove with
        | idle _ => exact hinv.quiet hl rfl rfl id id id
        | cancelled hpc ht =>
          apply hinv.quiet hl rfl rfl (fun _ => ⟨by simp [hpc], ht⟩) hp
          simp [RunState.unprepared, withState]
        | admitted hpc hs => exact hinv.rerooted hl hm hpc hs rfl
        | rejected hpc hs => exact hinv.rerooted hl hm hpc hs rfl
        | stepped hs' _ | failed hs' _ => exact absurd hs' hs
        | panicked hpanic =>
          obtain ⟨hpc, hs⟩ | ⟨hs', -⟩ := hpanic
          · exact hinv.rerooted hl hm hpc hs rfl
          · exact absurd hs' hs

theorem Stepped.length (hst : Stepped o m.toOrch flow t) (hd : ∀ r, m.ctx.runState ≠ .dispatch r) :
    t.world.children.length = m.world.children.length := by
  cases hst with
  | prepared _ _ hw => rw [hw]
  | dispatched hr _ => exact absurd hr (hd _)
  | probed _ hp => exact hp.outcome.length
  | surveyed _ hs =>
    obtain ⟨_, _, _, _, rfl⟩ := hs
    rfl
  | collected _ hc => rw [hc.same.2]
  | bound _ _ | retried _ | verified _ | gated _ | fedBack _ | skipped _ => rfl

theorem Dispatched.length {role : AgentRole} {o : DispatchObs} {s : Orch}
    (h : Dispatched role o s t) : t.world.children.length = s.world.children.length + 1 := by
  cases h with
  | launched _ _ hp _ _ => simp [launch, World.spawn, hp.children, Orch.withLock]

theorem Move.processes (hmove : Move m i m') :
    processes m' = processes m + tally launches ⟨m, i, m'⟩ := by
  cases hmove with
  | exit => rw [tally_of_false (launches_of_not_step rfl)]; exact length_bury _ _
  | idle hidle =>
    rw [tally_of_false (launches_of_kept rfl)]
    rfl
  | admitted hpc hs | rejected hpc hs =>
    obtain ⟨root, rfl⟩ := hs
    rw [tally_of_false (launches_of_not_step (by simp [takesStep, Machine.Steps, hpc]))]
    rfl
  | cancelled hpc _ =>
    rw [tally_of_false (launches_of_not_step (by simp [takesStep, Machine.Steps, hpc]))]
    rfl
  | @stepped c o flow s hs hst =>
    by_cases hd : ∃ r, m.ctx.runState = .dispatch r
    · obtain ⟨r, hr⟩ := hd
      rw [tally_of_true (hst.launches hs hr)]
      obtain ⟨r', hr', -⟩ | ⟨role, u, -, hdispatched, rfl⟩ | ⟨-, hother⟩ := hst.kind
      · exact absurd (hr.symm.trans hr') (dispatch_ne_monitor r r')
      · exact hdispatched.length
      · exact absurd hr (hother r)
    · have hd : ∀ r, m.ctx.runState ≠ .dispatch r := fun r hr => hd ⟨r, hr⟩
      have hexecutor := hd .executor
      have hreviewer := hd .reviewer
      simp only [RunState.dispatch] at hexecutor hreviewer
      rw [tally_of_false (by simp [launches, dispatches, hexecutor, hreviewer])]
      exact hst.length hd
  | @failed c o s e hs hi =>
    rw [tally_of_false]
    · exact hi.length
    · apply launches_of_not_monitor
      intro r hr
      have hterminal := Machine.fail_terminal e s.ctx
      rw [show (Machine.fail e s.ctx).runState = .monitor r from hr,
        monitor_not_terminal r] at hterminal
      cases hterminal
  | panicked hp =>
    obtain ⟨hpc, root, rfl⟩ | ⟨hs, hi⟩ := hp
    · rw [tally_of_false (launches_of_kept rfl)]
      rfl
    · rw [tally_of_false (launches_of_kept hi.kept.runState)]
      exact hi.length

theorem Run.processes_launched (hr : Run h m) : processes m = (launchedRoles h).length := by
  apply Trace.Run.invariant (P := fun h m => processes m = (launchedRoles h).length) hr
  · rintro _ ⟨args, rfl⟩
    rfl
  · intro h m i _ hinv
    rw [launchedRoles_length, (next_move m i).processes, hinv]

end Logged

def FileWrite.truncates (path : String) : FileWrite → Bool
  | .truncated p => p = path
  | _ => false

def FileWrite.requests (path : String) : FileWrite → Bool
  | .request p _ _ => p = path
  | _ => false

section Writes

variable {path p : String} {template : TemplateId} {values : TemplateValues}

@[simp] theorem truncates_truncated :
    (FileWrite.truncated p).truncates path = decide (p = path) := rfl

@[simp] theorem truncates_request : (FileWrite.request p template values).truncates path = false :=
  rfl

@[simp] theorem requests_truncated : (FileWrite.truncated p).requests path = false := rfl

@[simp] theorem requests_request :
    (FileWrite.request p template values).requests path = decide (p = path) := rfl

end Writes

theorem inbox_ne_outbox (ctx : OrchestratorCtx) :
    ctx.transportPath inboxFile ≠ ctx.transportPath outboxFile := by
  intro h
  have hlen := congrArg String.length h
  simp only [OrchestratorCtx.transportPath, inboxFile, outboxFile, String.length_append,
    Nat.add_left_cancel_iff] at hlen
  exact absurd hlen (by decide)

section Counts

variable {found : String → Prop} {c : OrchestratorCtx} {roles : List AgentRole}
  {ws : List FileWrite}

theorem Excluding.countP {p : FileWrite → Bool} (h : Excluding found ws)
    (hcreated : ∀ path, p (.created path) = false)
    (happended : ∀ path line, p (.appended path line) = false) : ws.countP p = 0 := by
  cases h <;> simp [hcreated, happended]

theorem WriteLog.count_outbox (h : WriteLog found c roles ws) :
    ws.countP (·.truncates (c.transportPath outboxFile)) = roles.count .executor := by
  have hne := inbox_ne_outbox c
  induction h with
  | prepared hws =>
    exact hws.countP (fun _ => rfl) fun _ _ => rfl
  | @dispatched role _ _ _ _ _ ih =>
    cases role <;>
      simp [dispatchWrites, truncations, ih, hne]

theorem WriteLog.count_inbox (h : WriteLog found c roles ws) :
    ws.countP (·.truncates (c.transportPath inboxFile)) = roles.length := by
  have hne := (inbox_ne_outbox c).symm
  induction h with
  | prepared hws =>
    exact hws.countP (fun _ => rfl) fun _ _ => rfl
  | @dispatched role _ _ _ _ _ ih =>
    cases role <;>
      simp [dispatchWrites, truncations, ih, hne]

theorem WriteLog.count_requests (h : WriteLog found c roles ws) :
    ws.countP (·.requests (c.transportPath inboxFile)) = roles.length := by
  induction h with
  | prepared hws =>
    exact hws.countP (fun _ => rfl) fun _ _ => rfl
  | @dispatched role _ _ _ _ _ ih =>
    cases role <;>
      simp [dispatchWrites, truncations, ih]

end Counts

/-- All that a run writes are at most one entry in the exclude file that git resolves when the
repository is prepared and, for each process started, the transport files emptied and then its
request; a dispatch that fails writes the first part of this, and nothing is written after it. While
the run goes on, the outbox has been emptied once for each process of the executor, and for nothing
else. -/
theorem write_log [Crates] {h : History Machine Input} {m : Machine} (hr : Run h m) :
    (∃ torn ws, m.world.writes = torn ++ ws ∧ WriteLog (Resolved h) m.ctx (launchedRoles h) ws ∧
        (torn = [] ∨ ¬m.Active ∧ ∃ role, Torn m.ctx role torn)) ∧
      processes m = (launchedRoles h).length ∧
      (m.Active →
        m.world.writes.countP (·.truncates (m.ctx.transportPath outboxFile)) =
            (launchedRoles h).count .executor ∧
          m.world.writes.countP (·.truncates (m.ctx.transportPath inboxFile)) = processes m ∧
          m.world.writes.countP (·.requests (m.ctx.transportPath inboxFile)) = processes m) := by
  have hlogged := Run.logged hr
  have hprocesses := Run.processes_launched hr
  refine ⟨hlogged.log, hprocesses, fun ha => ?_⟩
  have hlog := hlogged.active ha
  rw [hprocesses]
  exact ⟨hlog.count_outbox, hlog.count_inbox, hlog.count_requests⟩

open Sample in
theorem write_log_silentOnce :
    launchedRoles (run silentOnce).1 = [.executor, .executor] ∧
      WriteLog (Resolved (run silentOnce).1) (run silentOnce).2.ctx
        (launchedRoles (run silentOnce).1) (run silentOnce).2.world.writes ∧
      (run silentOnce).2.world.writes.countP
        (·.truncates ((run silentOnce).2.ctx.transportPath outboxFile)) = 2 := by
  have hroles : launchedRoles (run silentOnce).1 = [.executor, .executor] := by decide +kernel
  have hstate : (run silentOnce).2.ctx.runState = .executorMonitor := by decide +kernel
  have hpc : (run silentOnce).2.pc ≠ .panicked := by decide +kernel
  have hactive : (run silentOnce).2.Active := ⟨hpc, by rw [hstate]; rfl⟩
  obtain ⟨⟨torn, ws, hwrites, hlog, htorn⟩, -, hcounts⟩ := write_log (run_run silentOnce)
  have hall : torn = [] := htorn.resolve_right fun h => h.1 hactive
  subst hall
  refine ⟨hroles, ?_, ?_⟩
  · rw [hwrites]
    exact hlog
  · rw [(hcounts hactive).1, hroles]
    rfl

end Orchestrator

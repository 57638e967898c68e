import Orchestrator.Lib.Trace
import Orchestrator.Phases.Prologue
import Orchestrator.Phases.Collect
import Orchestrator.Monitor

/-! One step of the run loop, the machine that takes it, and a sample run. -/

namespace Orchestrator

open Rust Exec

def RunState.dispatch : AgentRole → RunState
  | .executor => .executorDispatch
  | .reviewer => .reviewerDispatch

def RunState.monitor : AgentRole → RunState
  | .executor => .executorMonitor
  | .reviewer => .reviewerMonitor

theorem monitor_not_terminal (r : AgentRole) : (RunState.monitor r).isTerminal = false := by
  cases r <;> rfl

theorem monitor_injective {r r' : AgentRole} (h : RunState.monitor r = .monitor r') : r = r' := by
  cases r <;> cases r' <;> simp [RunState.monitor] at h ⊢

theorem dispatch_injective {r r' : AgentRole} (h : RunState.dispatch r = .dispatch r') :
    r = r' := by
  cases r <;> cases r' <;> simp [RunState.dispatch] at h ⊢

theorem dispatch_ne_monitor (r r' : AgentRole) : RunState.dispatch r ≠ .monitor r' := by
  cases r <;> cases r' <;> simp [RunState.dispatch, RunState.monitor]

/-- What one step observes; each step reads the part that is about its state. -/
structure StepObs where
  prologue : PrologueObs
  prep : PrepObs
  bind : BindObs
  dispatch : DispatchObs
  probe : ProbeObs
  executorOutput : ExecutorCollectObs
  reviewerOutput : CollectObs

def errorToRunState : OrchestratorError → RunState
  | .invalidInput .. => .runFailedInvalidInput
  | .dirtyWorktree .. => .runFailedDirtyWorktree
  | .sessionBindFailed .. => .runFailedSessionBind
  | .sessionLocked .. => .runFailedSessionLocked
  | .artifactContract .. => .runFailedProtocol
  | _ => .runFailedInternal

theorem RunState.ne_retry_of_terminal {r : RunState} (h : r.isTerminal = true) :
    r ≠ .roundRetryDecide := by
  rintro rfl
  exact absurd h (by decide)

theorem errorToRunState_terminal (e : OrchestratorError) :
    (errorToRunState e).isTerminal = true := by
  cases e <;> rfl

def withState (r : RunState) (ctx : OrchestratorCtx) : OrchestratorCtx :=
  { ctx with runState := r }

section Step

variable [Crates]

def doDispatch (role : AgentRole) (o : DispatchObs) : OrchM Unit := do
  dispatchRole role o
  OrchM.modifyCtx (withState (.monitor role))

def step (o : StepObs) : OrchM Flow := do
  let once (x : OrchM Unit) : OrchM Flow := (fun _ => .done) <$> x
  match (← OrchM.ctx).runState with
  | .contextPrep => once (doContextPrep o.prep)
  | .sessionBind => once (doSessionBind o.bind)
  | .executorDispatch => once (doDispatch .executor o.dispatch)
  | .executorMonitor => doMonitorProbe .executor o.probe
  | .roundRetryDecide => once (OrchM.modifyCtx doRoundRetryDecide)
  | .executorOutputCollect => once (doExecutorOutputCollect o.executorOutput)
  | .orchVerify => once (OrchM.modifyCtx doOrchVerify)
  | .reviewerDispatch => once (doDispatch .reviewer o.dispatch)
  | .reviewerMonitor => doMonitorProbe .reviewer o.probe
  | .reviewerOutputCollect => once (doReviewerOutputCollect o.reviewerOutput)
  | .qualityGate => once (OrchM.modifyCtx doQualityGate)
  | .roundFeedbackPrep => once (OrchM.modifyCtx doRoundFeedbackPrep)
  | _ => return .done

theorem step_monitor {role : AgentRole} {o : StepObs} {s : Orch}
    (hr : s.ctx.runState = .monitor role) : step o s = doMonitorProbe role o.probe s := by
  cases role <;> simp only [step, bind, EStateM.bind, OrchM.ctx, hr, RunState.monitor]

theorem step_dispatch {role : AgentRole} {o : StepObs} {s : Orch}
    (hr : s.ctx.runState = .dispatch role) :
    step o s = ((fun _ => Flow.done) <$> doDispatch role o.dispatch : OrchM Flow) s := by
  cases role <;> simp only [step, bind, EStateM.bind, OrchM.ctx, hr, RunState.dispatch]

inductive Stepped (o : StepObs) (s : Orch) : Flow → Orch → Prop
  | prepared {branch head key t} : s.ctx.runState = .contextPrep →
      t.ctx = { s.ctx with
        branch := branch, initialGitHead := some head, claudeProjectKey := key,
        runState := .sessionBind } →
      t.world.children = s.world.children → Stepped o s .done t
  | bound {x y} : s.ctx.runState = .sessionBind →
      (s.ctx.args.executorProvider, x) ≠ (s.ctx.args.reviewerProvider, y) →
      Stepped o s .done { s with ctx := { s.ctx with
        executorSessionId := some x, reviewerSessionId := some y,
        runState := .executorDispatch } }
  | dispatched {role t} : s.ctx.runState = .dispatch role → Dispatched role o.dispatch s t →
      Stepped o s .done (t.mapCtx (withState (.monitor role)))
  | probed {role flow t} : s.ctx.runState = .monitor role → Probed role o.probe s flow t →
      Stepped o s flow t
  | retried : s.ctx.runState = .roundRetryDecide → Stepped o s .done (s.mapCtx doRoundRetryDecide)
  | surveyed {t} : s.ctx.runState = .executorOutputCollect → Surveyed s t →
      Stepped o s .done (t.mapCtx (withState .orchVerify))
  | verified : s.ctx.runState = .orchVerify → Stepped o s .done (s.mapCtx doOrchVerify)
  | collected {t} : s.ctx.runState = .reviewerOutputCollect → Collected o.reviewerOutput s t →
      Stepped o s .done t
  | gated : s.ctx.runState = .qualityGate → Stepped o s .done (s.mapCtx doQualityGate)
  | fedBack : s.ctx.runState = .roundFeedbackPrep →
      Stepped o s .done (s.mapCtx doRoundFeedbackPrep)
  | skipped : s.ctx.runState = .runInit ∨ s.ctx.runState.isTerminal = true →
      Stepped o s .done s

inductive Interrupted (o : StepObs) (s : Orch) : Orch → Prop
  | preparing {t} : s.ctx.runState = .contextPrep ∨ s.ctx.runState = .sessionBind →
      t.ctx = s.ctx → t.world.children = s.world.children → Interrupted o s t
  | dispatching {role t} : s.ctx.runState = .dispatch role → Refused role o.dispatch s t →
      Interrupted o s t
  | probing {role t} : s.ctx.runState = .monitor role → Unobserved (s.pollChild o.probe) t →
      Interrupted o s t
  | surveying {t} : s.ctx.runState = .executorOutputCollect → Surveyed s t → Interrupted o s t
  | collecting {t} : s.ctx.runState = .reviewerOutputCollect →
      Uncollected o.reviewerOutput s t → Interrupted o s t

theorem doDispatch_spec {role : AgentRole} {o : StepObs} {s : Orch}
    (h : s.ctx.runState = .dispatch role) :
    wp (doDispatch role o.dispatch) (fun _ t => Stepped o s .done t)
      (fun _ t => Interrupted o s t) s := by
  rw [doDispatch, wp_bind]
  apply wp_mono (dispatchRole_spec role o.dispatch s)
  · exact fun _ t ht => .dispatched h ht
  · exact fun _ t ht => .dispatching h ht

theorem monitor_spec {role : AgentRole} {o : StepObs} {s : Orch}
    (h : s.ctx.runState = .monitor role) :
    wp (doMonitorProbe role o.probe) (fun flow t => Stepped o s flow t)
      (fun _ t => Interrupted o s t) s := by
  apply wp_mono (doMonitorProbe_spec role o.probe s)
  · exact fun flow t ht => .probed h ht
  · exact fun _ t ht => .probing h ht

theorem step_spec (o : StepObs) (s : Orch) :
    wp (step o) (fun flow t => Stepped o s flow t) (fun _ t => Interrupted o s t) s := by
  rw [step, wp_bind, OrchM.wp_ctx]
  cases h : s.ctx.runState
  case contextPrep =>
    rw [wp_map]
    apply wp_mono (doContextPrep_spec o.prep s)
    · rintro _ t ⟨⟨branch, head, key, hc⟩, hw⟩
      exact .prepared h hc hw
    · exact fun _ t ht => .preparing (.inl h) ht.1 ht.2
  case sessionBind =>
    rw [wp_map]
    apply wp_mono (doSessionBind_spec o.bind s)
    · rintro _ t ⟨x, y, hne, rfl⟩
      exact .bound h hne
    · rintro _ t rfl
      exact .preparing (.inr h) rfl rfl
  case executorDispatch => rw [wp_map]; exact doDispatch_spec h
  case reviewerDispatch => rw [wp_map]; exact doDispatch_spec h
  case executorMonitor => exact monitor_spec h
  case reviewerMonitor => exact monitor_spec h
  case roundRetryDecide => exact .retried h
  case executorOutputCollect =>
    rw [wp_map, doExecutorOutputCollect, wp_bind]
    apply wp_mono (surveyExecutor_frame o.executorOutput s)
    · exact fun _ t ht => .surveyed h ht
    · exact fun _ t ht => .surveying h ht
  case orchVerify => exact .verified h
  case reviewerOutputCollect =>
    rw [wp_map]
    apply wp_mono (doReviewerOutputCollect_spec o.reviewerOutput s)
    · exact fun _ t ht => .collected h ht
    · exact fun _ t ht => .collecting h ht
  case qualityGate => exact .gated h
  case roundFeedbackPrep => exact .fedBack h
  all_goals exact .skipped (by simp [h, RunState.isTerminal])

end Step

/-- Where the run stands: before the loop, at its head, between two probes of one monitor
step, or dead from a panic. -/
inductive Pc
  | start | head | monitor | panicked
  deriving DecidableEq

structure Machine extends Orch where
  pc : Pc

namespace Machine

def init (args : CliArgs) : Machine where
  ctx := .new args
  world := .empty
  pc := .start

def fail (e : OrchestratorError) (ctx : OrchestratorCtx) : OrchestratorCtx :=
  { ctx with
    failures := ctx.failures ++ [e.display]
    runState := if ctx.runState.isTerminal then ctx.runState else errorToRunState e }

theorem fail_terminal (e : OrchestratorError) (ctx : OrchestratorCtx) :
    (fail e ctx).runState.isTerminal = true := by
  simp only [fail]
  split
  · assumption
  · exact errorToRunState_terminal e

def settle : EStateM.Result Fault Orch Flow → Machine
  | .ok .again s => ⟨s, .monitor⟩
  | .ok .done s => ⟨s, .head⟩
  | .error (.error e) s => ⟨s.mapCtx (fail e), .head⟩
  | .error .panic s => ⟨s, .panicked⟩

end Machine

def Machine.Steps (m : Machine) (cancelled : Bool) : Prop :=
  m.pc = .monitor ∨ m.pc = .head ∧ m.ctx.runState.isTerminal = false ∧ cancelled = false

instance (m : Machine) (c : Bool) : Decidable (m.Steps c) :=
  inferInstanceAs (Decidable (_ ∨ _ ∧ _ ∧ _))

structure Machine.Placed (m : Machine) : Prop where
  start : m.pc = .start → m.ctx.runState = .runInit
  monitor : m.pc = .monitor → ∃ r, m.ctx.runState = .monitor r

def Machine.Active (m : Machine) : Prop :=
  m.pc ≠ .panicked ∧ m.ctx.runState.isTerminal = false

theorem Machine.Steps.active {m : Machine} {c : Bool} (hs : m.Steps c) (hm : m.Placed) :
    m.Active := by
  obtain hpc | ⟨hpc, ht, -⟩ := hs
  · obtain ⟨r, hr⟩ := hm.monitor hpc
    exact ⟨by simp [hpc], by rw [hr]; exact monitor_not_terminal r⟩
  · exact ⟨by simp [hpc], ht⟩

instance (m : Machine) : Decidable m.Active := inferInstanceAs (Decidable (_ ∧ _))

/-- A turn of the orchestrator, or a child that exits on its own. -/
inductive Input
  | tick (cancelled : Bool) (o : StepObs)
  | exit (child : Nat)

variable [Crates]

/-- The run up to the end of its loop; `Scope.next` goes on to the drop of the context. -/
def Machine.next (m : Machine) : Input → Machine
  | .exit child => { m with world := m.world.bury child }
  | .tick cancelled o =>
    match m.pc with
    | .start =>
      match prologue o.prologue m.toOrch with
      | .ok _ s => ⟨s.mapCtx (withState .contextPrep), .head⟩
      | .error (.error e) s =>
        ⟨s.mapCtx fun ctx => { ctx with
          runState := .runFailedInvalidInput, failures := ctx.failures ++ [e.display] }, .head⟩
      | .error .panic s => ⟨s, .panicked⟩
    | .head =>
      if m.ctx.runState.isTerminal then m
      else if cancelled then ⟨m.toOrch.mapCtx (withState .runAborted), .head⟩
      else settle (step o m.toOrch)
    | .monitor => settle (step o m.toOrch)
    | .panicked => m

abbrev Run : Trace.History Machine Input → Machine → Prop :=
  Trace.Run (fun m => ∃ args, m = .init args) Machine.next

inductive Local
  | lock (role : AgentRole)
  | activeProcess
  deriving DecidableEq

/-- In the order of their declaration, which is that of their drop. -/
def OrchestratorCtx.locals : List Local := [.lock .executor, .lock .reviewer, .activeProcess]

def Orch.drop (s : Orch) : Local → Orch
  | .lock role => s.withLock role none
  -- `kill_on_drop`: the handle takes its child with it
  | .activeProcess => s.terminateActiveChild.mapCtx fun ctx => { ctx with activeProcess := none }

structure Scope extends Machine where
  locals : List Local

def Scope.init (args : CliArgs) : Scope := ⟨.init args, OrchestratorCtx.locals⟩

/-- Once the loop is over, returned from or unwound, each turn drops one field. -/
def Scope.next (m : Scope) : Input → Scope
  | .exit child => { m with toMachine := m.toMachine.next (.exit child) }
  | .tick cancelled o =>
    if m.Active then { m with toMachine := m.toMachine.next (.tick cancelled o) }
    else match m.locals with
      | [] => m
      | field :: rest => ⟨{ m.toMachine with toOrch := m.toOrch.drop field }, rest⟩

abbrev ScopeRun : Trace.History Scope Input → Scope → Prop :=
  Trace.Run (fun m => ∃ args, m = .init args) Scope.next

inductive Move (m : Machine) : Input → Machine → Prop
  | exit {child} : Move m (.exit child) { m with world := m.world.bury child }
  | idle {c o} : m.pc = .head ∧ m.ctx.runState.isTerminal = true ∨ m.pc = .panicked →
      Move m (.tick c o) m
  | admitted {c o s} : m.pc = .start → Rerooted m.toOrch s →
      Move m (.tick c o) ⟨s.mapCtx (withState .contextPrep), .head⟩
  | rejected {c o s e} : m.pc = .start → Rerooted m.toOrch s →
      Move m (.tick c o) ⟨s.mapCtx fun ctx => { ctx with
        runState := .runFailedInvalidInput, failures := ctx.failures ++ [e] }, .head⟩
  | cancelled {o} : m.pc = .head → m.ctx.runState.isTerminal = false →
      Move m (.tick true o) ⟨m.toOrch.mapCtx (withState .runAborted), .head⟩
  | stepped {c o flow s} : m.Steps c → Stepped o m.toOrch flow s →
      Move m (.tick c o) ⟨s, if flow = .again then .monitor else .head⟩
  | failed {c o s e} : m.Steps c → Interrupted o m.toOrch s →
      Move m (.tick c o) ⟨s.mapCtx (Machine.fail e), .head⟩
  | panicked {c o s} :
      m.pc = .start ∧ Rerooted m.toOrch s ∨ m.Steps c ∧ Interrupted o m.toOrch s →
      Move m (.tick c o) ⟨s, .panicked⟩

theorem next_of_steps {m : Machine} {c : Bool} {o : StepObs} (h : m.Steps c) :
    m.next (.tick c o) = Machine.settle (step o m.toOrch) := by
  obtain hpc | ⟨hpc, ht, rfl⟩ := h
  · simp [Machine.next, hpc]
  · simp [Machine.next, hpc, ht]

theorem next_of_probe {m : Machine} {c : Bool} {o : StepObs} {role : AgentRole} {flow : Flow}
    {t : Orch} (h : m.Steps c) (hr : m.ctx.runState = .monitor role)
    (hprobe : doMonitorProbe role o.probe m.toOrch = .ok flow t) :
    (m.next (.tick c o)).toOrch = t := by
  rw [next_of_steps h, step_monitor hr, hprobe]
  cases flow <;> rfl

theorem next_of_wp {m : Machine} {c : Bool} {o : StepObs} {Q : Flow → Orch → Prop}
    {E : Fault → Orch → Prop} (hs : m.Steps c) (h : wp (step o) Q E m.toOrch) :
    (∃ flow, Q flow (m.next (.tick c o)).toOrch) ∨
      (∃ e t, E (.error e) t ∧ m.next (.tick c o) = ⟨t.mapCtx (Machine.fail e), .head⟩) ∨
      ∃ t, E .panic t ∧ m.next (.tick c o) = ⟨t, .panicked⟩ := by
  rw [next_of_steps hs]
  cases hr : step o m.toOrch with
  | ok flow t =>
    refine .inl ⟨flow, ?_⟩
    have ht := wp_of_ok h hr
    cases flow <;> exact ht
  | error e t =>
    have ht := wp_of_error h hr
    cases e with
    | error e => exact .inr (.inl ⟨e, t, ht, rfl⟩)
    | panic => exact .inr (.inr ⟨t, ht, rfl⟩)

theorem settle_step {m : Machine} {c : Bool} {o : StepObs} (h : m.Steps c) :
    Move m (.tick c o) (Machine.settle (step o m.toOrch)) := by
  have hstep := step_spec o m.toOrch
  cases hr : step o m.toOrch with
  | ok flow s =>
    have hs := wp_of_ok hstep hr
    cases flow with
    | again => exact .stepped h hs
    | done => exact .stepped h hs
  | error e s =>
    have hs := wp_of_error hstep hr
    cases e with
    | error e => exact .failed h hs
    | panic => exact .panicked (.inr ⟨h, hs⟩)

theorem next_move (m : Machine) (i : Input) : Move m i (m.next i) := by
  cases i with
  | exit child => exact .exit
  | tick c o =>
    cases hpc : m.pc with
    | start =>
      simp only [Machine.next, hpc]
      have hprologue := prologue_frame o.prologue m.toOrch
      cases hr : prologue o.prologue m.toOrch with
      | ok _ s =>
        have hs := wp_of_ok hprologue hr
        exact .admitted hpc hs
      | error e s =>
        have hs := wp_of_error hprologue hr
        cases e with
        | error e => exact .rejected hpc hs
        | panic => exact .panicked (.inl ⟨hpc, hs⟩)
    | head =>
      simp only [Machine.next, hpc]
      cases ht : m.ctx.runState.isTerminal with
      | true => exact .idle (.inl ⟨hpc, ht⟩)
      | false =>
        cases c with
        | true => exact .cancelled hpc ht
        | false => exact settle_step (.inr ⟨hpc, ht, rfl⟩)
    | monitor =>
      simp only [Machine.next, hpc]
      exact settle_step (.inl hpc)
    | panicked =>
      simp only [Machine.next, hpc]
      exact .idle (.inr hpc)

theorem Stepped.again {o : StepObs} {s t : Orch} (h : Stepped o s .again t) :
    ∃ r, t.ctx.runState = .monitor r := by
  cases h with
  | @probed role _ _ hr hp =>
    obtain ⟨-, ⟨-, ht⟩ | ⟨hf, -⟩⟩ | ⟨-, hf, -⟩ := hp.outcome.target
    · exact ⟨role, ht.trans hr⟩
    · exact absurd hf (by simp)
    · exact absurd hf (by simp)

theorem Move.placed {m m' : Machine} {i : Input} (h : Move m i m') (hm : m.Placed) :
    m'.Placed := by
  cases h with
  | exit => exact ⟨hm.start, hm.monitor⟩
  | idle _ => exact hm
  | admitted _ _ | rejected _ _ | cancelled _ _ | failed _ _ | panicked _ =>
    exact ⟨fun h => absurd h (by simp), fun h => absurd h (by simp)⟩
  | @stepped c o flow s _ hs =>
    cases flow with
    | again => exact ⟨fun h => absurd h (by simp), fun _ => hs.again⟩
    | done => exact ⟨fun h => absurd h (by simp), fun h => absurd h (by simp)⟩

inductive ActiveMove (m : Machine) : Input → Machine → Prop
  | exit {child} : m.Active → ActiveMove m (.exit child) { m with world := m.world.bury child }
  | admitted {c o s} : m.pc = .start → Rerooted m.toOrch s →
      ActiveMove m (.tick c o) ⟨s.mapCtx (withState .contextPrep), .head⟩
  | stepped {c o flow s} : m.Steps c → Stepped o m.toOrch flow s →
      ActiveMove m (.tick c o) ⟨s, if flow = .again then .monitor else .head⟩

theorem Move.active {m m' : Machine} {i : Input} (h : Move m i m') (ha : m'.Active) :
    ActiveMove m i m' := by
  cases h with
  | exit => exact .exit ha
  | idle hidle =>
    obtain ⟨-, ht⟩ | hpc := hidle
    · exact absurd ha.2 (by simp [ht])
    · exact absurd hpc ha.1
  | admitted hpc hs => exact .admitted hpc hs
  | rejected _ _ => exact absurd ha.2 (by simp [RunState.isTerminal])
  | cancelled _ _ => exact absurd ha.2 (by simp [withState, RunState.isTerminal])
  | stepped hs hst => exact .stepped hs hst
  | @failed c o s e _ _ => exact absurd ha.2 (by simp [Machine.fail_terminal])
  | panicked _ => exact absurd rfl ha.1

theorem Run.placed {h : Trace.History Machine Input} {m : Machine} (hr : Run h m) :
    m.Placed := by
  apply Trace.Run.invariant (P := fun _ m => m.Placed) hr
  · rintro _ ⟨args, rfl⟩
    exact ⟨fun _ => rfl, fun h => absurd h (by simp [Machine.init])⟩
  · exact fun _ m i _ hm => (next_move m i).placed hm

structure Kept (c d : OrchestratorCtx) : Prop where
  args : d.args = c.args
  runState : d.runState = c.runState
  count : d.consecutiveFailureCount = c.consecutiveFailureCount
  executorSessionId : d.executorSessionId = c.executorSessionId
  reviewerSessionId : d.reviewerSessionId = c.reviewerSessionId

theorem Stepped.kind {o : StepObs} {s t : Orch} {flow : Flow} (h : Stepped o s flow t) :
    (∃ role, s.ctx.runState = .monitor role ∧ Outcome role o.probe s flow t) ∨
    (∃ role u, s.ctx.runState = .dispatch role ∧ Dispatched role o.dispatch s u ∧
      t = u.mapCtx (withState (.monitor role))) ∨
    ((∀ r, s.ctx.runState ≠ .monitor r) ∧ ∀ r, s.ctx.runState ≠ .dispatch r) := by
  cases h with
  | @probed role _ _ hr hp => exact .inl ⟨role, hr, hp.outcome⟩
  | @dispatched role u hr hd => exact .inr (.inl ⟨role, u, hr, hd, rfl⟩)
  | skipped hr =>
    refine .inr (.inr ⟨fun r h => ?_, fun r h => ?_⟩)
    · cases r <;> simp [h, RunState.monitor, RunState.isTerminal] at hr
    · cases r <;> simp [h, RunState.dispatch, RunState.isTerminal] at hr
  | prepared hr _ _ | bound hr _ | retried hr | surveyed hr _ | verified hr | collected hr _
  | gated hr | fedBack hr =>
    refine .inr (.inr ⟨fun r h => ?_, fun r h => ?_⟩)
    · cases r <;> simp [hr, RunState.monitor] at h
    · cases r <;> simp [hr, RunState.dispatch] at h

theorem Interrupted.source {o : StepObs} {s t : Orch} (h : Interrupted o s t) :
    s.ctx.runState ≠ .roundRetryDecide ∧ s.ctx.runState ≠ .qualityGate := by
  cases h with
  | preparing h _ _ => obtain h | h := h <;> simp [h]
  | @dispatching role _ h _ => cases role <;> simp [h, RunState.dispatch]
  | @probing role _ h _ => cases role <;> simp [h, RunState.monitor]
  | surveying h _ => simp [h]
  | collecting h _ => simp [h]

theorem Interrupted.refused {o : StepObs} {s t : Orch} (h : Interrupted o s t)
    {role : AgentRole} (hr : s.ctx.runState = .dispatch role) : Refused role o.dispatch s t := by
  cases h with
  | dispatching hr' h => exact dispatch_injective (hr'.symm.trans hr) ▸ h
  | preparing hr' _ _ =>
    obtain hr' | hr' := hr' <;> cases role <;> simp [hr', RunState.dispatch] at hr
  | probing hr' _ => exact absurd (hr.symm.trans hr') (dispatch_ne_monitor role _)
  | surveying hr' _ | collecting hr' _ => cases role <;> simp [hr', RunState.dispatch] at hr

theorem Interrupted.kept {o : StepObs} {s t : Orch} (h : Interrupted o s t) :
    Kept s.ctx t.ctx := by
  cases h with
  | preparing _ hc _ => rw [hc]; constructor <;> rfl
  | dispatching _ h =>
    cases h with
    | unlocked => constructor <;> rfl
    | locked _ _ hp =>
      obtain ⟨baseline, inbox, hc⟩ := hp.ctx
      rw [hc]
      constructor <;> rfl
  | probing _ h =>
    obtain ⟨_, _, _, rfl⟩ := h
    obtain ⟨a, ha⟩ := pollChild_ctx o.probe s
    simp only [ha]
    constructor <;> rfl
  | surveying _ h =>
    obtain ⟨_, _, _, _, rfl⟩ := h
    constructor <;> rfl
  | collecting _ h =>
    cases h with
    | unread => constructor <;> rfl
    | judged _ h => cases h <;> constructor <;> rfl

namespace Sample

def acceptText : String :=
  "\x7bquality_score: 9, decision: accept, rationale: ok, contract_satisfied: true, " ++
  "hard_blockers_present: false, feedback_for_executor: []\x7d"

def acceptYaml : ReviewerYaml where
  qualityScore := .finite 9
  decision := .accept
  rationale := "ok"
  contractSatisfied := true
  hardBlockersPresent := false
  notionRequirementsSatisfied := none
  feedbackForExecutor := []
  checksPerformed := none
  findings := none
  verificationCommands := none
  blockingReason := none
  irreconcilableReason := none
  poisonedSessionReason := none

scoped instance crates : Crates where
  sha256Hex bs :=
    if bs = [] then "e3b0c44298fc1c149afbf4c8996fb92427ae41e4649b934ca495991b7852b855"
    else if bs = asBytes "codex:exec-1" then
      "813ed9254248ac4b01be1209ef3d06a1b0110cad4017582ba972e5463f618c69"
    else if bs = asBytes "opencode:review-1" then
      "d62241405c257a5b28a3dd9df97a177b2f2498fc70cfa2cdfdc5c08a8a589ccb"
    else if bs = asBytes "request" then
      "1f58b9145b24d108d7ac38887338b3ea3229833b9c1e418250343f907bfd1047"
    else if bs = asBytes "?? notes.txt\n" then
      "765831de32edd1f745f3dadda2ce96540800357df339567d60a8a9f5ae1e7c1a"
    else if bs = asBytes acceptText then
      "d2004c24489c5fc66d9a383543a867b196183258ac67dd0b668ec449bc4ecfbf"
    else ""
  regexIsMatch pattern text :=
    pattern = "(?i)usage limit (reached|exceeded|hit)" && contains text "usage limit reached"
  regexFind pattern text :=
    if pattern = "(?i)usage limit (reached|exceeded|hit)" ∧
        contains text "usage limit reached" then some "usage limit reached"
    else none
  yamlLoad _ := .ok 1
  serdeYaml text := if text = acceptText then .ok acceptYaml else .error "not a sample text"
  serdeJson _ := none
  jsonToString _ := ""
  parseRfc3339 _ := none
  displayF64 _ := ""

def args : CliArgs where
  workflowType := .implement
  notionPolicy := .optional
  remoteNetworkPolicy := .forbidden
  workspaceRoot := "/work"
  executorThreadName := "exec"
  reviewerThreadName := "review"
  prompt := "do the work"
  executorProvider := .codex
  reviewerProvider := .opencode
  executorModel := none
  reviewerModel := none

def time (n : Nat) : Int := seconds (1700000000 + n)

def git (stdout : String) : IoResult CommandOutput :=
  .ok ⟨true, "exit status: 0", asBytes stdout, []⟩

def absent {α : Type} : IoResult α := .error ⟨.notFound, "No such file or directory (os error 2)"⟩

def dispatchAt (n : Nat) : DispatchObs where
  lock := ⟨some "/run/user/1000", .ok (), .ok (), false, .ok (), .ok (), .ok ()⟩
  inboxBytes := .ok (asBytes "request")
  gitStatus := git ""
  gitHead := git "c0ffee\n"
  reset := ⟨.ok (), .ok (), .ok 0, .ok (), .ok 0⟩
  outboxMtime := absent
  gitStatusAll := git ""
  factsStatus := git ""
  factsHead := git "c0ffee start\n"
  factsLog := git ""
  docsDir := "/opt/docs"
  writeInbox := .ok ()
  readBack := .ok (asBytes "request")
  inboxSnapshot := ⟨.ok (asBytes "request"), .ok (time n)⟩
  spawn := .ok 4242
  now := time n

def probeAt (n : Nat) : ProbeObs where
  cancelledAtTop := false
  cancelledAfterWait := false
  cancelledAtSnapshot := false
  now := time n
  logClock := time n
  tryWait := none
  procExists := true
  liveChildren := false
  outboxMeta := absent
  gitStatus := git ""
  gitHead := git "c0ffee\n"
  artifactLen := fun _ => absent
  home := some "/home/user"
  claudeLogMtime := absent
  codexLogMtime := .ok none
  opencodeLogMtime := .ok none
  gitDiff := git ""
  stdoutTail := .ok []
  stderrTail := .ok []
  jsonlTail := absent
  outboxText := absent

def obsAt (n : Nat) : StepObs where
  prologue := ⟨.ok "/work", true, absent, absent⟩
  prep := {
    insideWorkTree := git "true\n"
    topLevel := git "/work\n"
    canonicalize := .ok
    gitPath := fun path => git (".git/" ++ path ++ "\n")
    pathExists := fun _ => false
    refsLock := .ok none
    unmerged := git ""
    excludePath := git ".git/info/exclude\n"
    excludeText := .ok (asBytes ".agent-io/\n")
    excludeOpen := .ok ()
    gitStatusAll := git ""
    symbolicRef := git "main\n"
    verifyHead := git "c0ffee\n" }
  bind := ⟨fun role => match role with
    | .executor => .ok "exec-1"
    | .reviewer => .ok "review-1"⟩
  dispatch := dispatchAt n
  probe := probeAt n
  executorOutput := ⟨⟨absent, absent⟩, fun _ => absent, git ""⟩
  reviewerOutput := ⟨absent, absent, ⟨absent, absent⟩, git ""⟩

def exitedAt (n size : Nat) (mtime : Int) : ProbeObs :=
  { probeAt n with
    tryWait := some (some 0)
    procExists := false
    outboxMeta := .ok ⟨size, mtime⟩ }

def executed : List Input :=
  [.tick false (obsAt 0), .tick false (obsAt 0), .tick false (obsAt 0), .tick false (obsAt 0),
    .exit 0,
    .tick false { obsAt 30 with probe := exitedAt 30 64 (time 20) },
    .tick false (obsAt 30), .tick false (obsAt 30)]

def run (is : List Input) : Trace.History Machine Input × Machine :=
  Trace.exec Machine.next is [] (.init args)

def scope (is : List Input) : Trace.History Scope Input × Scope :=
  Trace.exec Scope.next is [] (.init args)

theorem scope_run (is : List Input) : ScopeRun (scope is).1 (scope is).2 :=
  Trace.Run.exec (.start ⟨args, rfl⟩) is

theorem run_run (is : List Input) : Run (run is).1 (run is).2 :=
  Trace.Run.exec (.start ⟨args, rfl⟩) is

theorem run_snoc (is : List Input) (i : Input) : run (is ++ [i]) =
    (⟨(run is).2, i, (run is).2.next i⟩ :: (run is).1, (run is).2.next i) :=
  Trace.exec_snoc is i

theorem run_input {is : List Input} {e : Trace.Step Machine Input} (he : e ∈ (run is).1) :
    e.input ∈ is := by
  have hinputs : (run is).1.map Trace.Step.input = is.reverse := by simp [run, Trace.exec_inputs]
  have hmem := List.mem_map_of_mem (f := Trace.Step.input) he
  rw [hinputs] at hmem
  exact List.mem_reverse.mp hmem

end Sample

end Orchestrator

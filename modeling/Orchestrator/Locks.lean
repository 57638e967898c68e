import Orchestrator.Retries

namespace Orchestrator

open Rust Exec Trace

def World.Dead (w : World) : Prop := ∀ c ∈ w.children, c.alive = false

structure Idle (s : Orch) : Prop where
  unlocked : ∀ r, s.ctx.lock r = none
  dead : s.world.Dead

/-- During an attempt of `role` its lock alone is held and its child alone may run. -/
structure Attending (role : AgentRole) (s : Orch) : Prop where
  held : (s.ctx.lock role).isSome
  other : ∀ r, r ≠ role → s.ctx.lock r = none
  attempt : ∃ a, s.ctx.attempt = some a ∧ (a.pid = none → s.world.Dead)
  process : ∃ proc, s.ctx.activeProcess = some proc ∧
    ∀ c ∈ s.world.children, c.alive = true → c.id = proc.child ∧ c.role = role

def OneLock (ctx : OrchestratorCtx) : Prop :=
  ∀ r r', (ctx.lock r).isSome → (ctx.lock r').isSome → r = r'

structure Machine.Shaped (m : Machine) : Prop where
  attending : m.Active → ∀ r, m.ctx.runState = .monitor r → Attending r m.toOrch
  idle : m.Active → (∀ r, m.ctx.runState ≠ .monitor r) → Idle m.toOrch
  oneLock : OneLock m.ctx

section Bury

variable {w : World} {role : AgentRole} {s : Orch} {id : Nat}

theorem World.Dead.bury (h : w.Dead) : (w.bury id).Dead := by
  intro c hc
  obtain ⟨d, hd, -, -, halive⟩ := World.mem_bury hc
  cases hca : c.alive with
  | false => rfl
  | true => exact absurd (halive hca).1 (by simp [h d hd])

theorem World.dead_bury (h : ∀ c ∈ w.children, c.alive = true → c.id = id) :
    (w.bury id).Dead := by
  intro c hc
  obtain ⟨d, hd, hid, -, halive⟩ := World.mem_bury hc
  cases hca : c.alive with
  | false => rfl
  | true => exact absurd (h d hd (halive hca).1) (halive hca).2

theorem Idle.bury (h : Idle s) : Idle { s with world := s.world.bury id } :=
  ⟨h.unlocked, h.dead.bury⟩

theorem Attending.bury (h : Attending role s) :
    Attending role { s with world := s.world.bury id } := by
  obtain ⟨a, ha, hdead⟩ := h.attempt
  obtain ⟨proc, hproc, honly⟩ := h.process
  refine ⟨h.held, h.other, ⟨a, ha, fun hpid => (hdead hpid).bury⟩, proc, hproc, ?_⟩
  intro c hc hca
  obtain ⟨d, hd, hid, hrole, halive⟩ := World.mem_bury hc
  rw [← hid, ← hrole]
  exact honly d hd (halive hca).1

theorem Attending.oneLock (h : Attending role s) : OneLock s.ctx := by
  intro r r' hr hr'
  have heq : ∀ x, (s.ctx.lock x).isSome → x = role := by
    intro x hx
    apply Decidable.by_contra
    intro hne
    simp [h.other x hne] at hx
  rw [heq r hr, heq r' hr']

theorem OneLock.of_lock {c d : OrchestratorCtx} (h : OneLock c) (heq : ∀ r, d.lock r = c.lock r) :
    OneLock d := by
  intro r r' hr hr'
  rw [heq] at hr hr'
  exact h r r' hr hr'

theorem Attending.terminated (h : Attending role s) : s.terminateActiveChild.world.Dead := by
  obtain ⟨proc, hproc, honly⟩ := h.process
  simp only [Orch.terminateActiveChild, hproc]
  exact World.dead_bury fun c hc hca => (honly c hc hca).1

theorem Attending.poll (h : Attending role s) (o : ProbeObs) : Attending role (s.pollChild o) := by
  obtain ⟨a, ha, hdead⟩ := h.attempt
  obtain ⟨proc, hproc, honly⟩ := h.process
  cases hw : o.tryWait with
  | none =>
    have heq : s.pollChild o = s := by simp [Orch.pollChild, hw]
    rwa [heq]
  | some code =>
    have heq : s.pollChild o = ⟨{ s.ctx with
        attempt := some { a with exitCode := code, pid := none } }, s.world.bury proc.child⟩ := by
      simp [Orch.pollChild, hw, hproc, ha]
    have hburied : (s.world.bury proc.child).Dead :=
      World.dead_bury fun c hc hca => (honly c hc hca).1
    rw [heq]
    refine ⟨h.held, h.other, ⟨_, rfl, fun _ => hburied⟩, proc, hproc, ?_⟩
    intro c hc hca
    exact absurd hca (by simp [hburied c hc])

end Bury

theorem Attending.stopped {role : AgentRole} {v : Orch} (h : Attending role v) :
    Attending role (v.terminateActiveChild.mapCtx withoutProcess) := by
  have hdead := h.terminated
  obtain ⟨a, ha, -⟩ := h.attempt
  obtain ⟨proc, hproc, -⟩ := h.process
  have hctx := v.terminateActiveChild_ctx
  refine ⟨?_, ?_, ⟨{ a with pid := none }, ?_, fun _ => hdead⟩, proc, ?_, ?_⟩
  · rw [Orch.mapCtx_ctx, hctx]
    exact h.held
  · rw [Orch.mapCtx_ctx, hctx]
    exact h.other
  · rw [Orch.mapCtx_ctx, hctx]
    simp [withoutProcess, ha]
  · rw [Orch.mapCtx_ctx, hctx]
    exact hproc
  · intro c hc hca
    exact absurd hca (by simp [hdead c hc])

theorem Attending.stale {role : AgentRole} {v : Orch} (h : Attending role v) :
    Attending role (v.mapCtx terminatingStale) := by
  obtain ⟨held, other, ⟨a, hattempt, hdead⟩, process⟩ := h
  refine ⟨held, other, ⟨{ a with state := .terminatingStale }, ?_, hdead⟩, process⟩
  simp [terminatingStale, hattempt]

theorem releaseLock_unlocked {role : AgentRole} {ctx : OrchestratorCtx}
    (h : ∀ r, r ≠ role → ctx.lock r = none) (r : AgentRole) :
    (releaseLock role ctx).lock r = none := by
  rw [releaseLock, OrchestratorCtx.lock_setLock]
  split
  · rfl
  · exact h r ‹_›

theorem OneLock.of_unlocked {ctx : OrchestratorCtx} (h : ∀ r, ctx.lock r = none) :
    OneLock ctx := by
  intro r _ hr
  simp [h r] at hr

theorem Prepares.lock {role : AgentRole} {s t : Orch} {c : OrchestratorCtx}
    (h : Prepares role c s t) (r : AgentRole) :
    t.ctx.lock r = s.ctx.lock r := by
  obtain ⟨baseline, inbox, hc⟩ := h.ctx
  rw [hc]
  cases r <;> rfl

theorem Idle.of_same {s t : Orch} (h : Idle s) (hlock : ∀ r, t.ctx.lock r = s.ctx.lock r)
    (hchildren : t.world.children = s.world.children) : Idle t := by
  refine ⟨fun r => (hlock r).trans (h.unlocked r), ?_⟩
  intro c hc
  rw [hchildren] at hc
  exact h.dead c hc

theorem doRoundRetryDecide_lock (ctx : OrchestratorCtx) (r : AgentRole) :
    (doRoundRetryDecide ctx).lock r = ctx.lock r := by
  simp only [doRoundRetryDecide]
  split <;> cases r <;> rfl

theorem doQualityGate_lock (ctx : OrchestratorCtx) (r : AgentRole) :
    (doQualityGate ctx).lock r = ctx.lock r := by
  simp only [doQualityGate]
  split
  · cases r <;> rfl
  · split <;> cases r <;> rfl

theorem Machine.Shaped.of_idle {s : Orch} (h : Idle s)
    (hm : ∀ r, s.ctx.runState ≠ .monitor r) (pc : Pc) :
    Machine.Shaped ⟨s, pc⟩ :=
  ⟨fun _ r hr => absurd hr (hm r), fun _ _ => h, .of_unlocked h.unlocked⟩

theorem Machine.Shaped.of_attending {role : AgentRole} {s : Orch} (h : Attending role s)
    (hr : s.ctx.runState = .monitor role)
    (pc : Pc) : Machine.Shaped ⟨s, pc⟩ := by
  refine ⟨fun _ r hr' => ?_, fun _ hm => absurd hr (hm role), h.oneLock⟩
  rw [monitor_injective (hr'.symm.trans hr)]
  exact h

theorem Machine.Shaped.of_over {m : Machine} (h : ¬m.Active) (hone : OneLock m.ctx) : m.Shaped :=
  ⟨fun ha => absurd ha h, fun ha => absurd ha h, hone⟩

section Probe

variable [Crates] {role : AgentRole} {o : ProbeObs} {s t v : Orch} {p : Probe}
  {state : AttemptState} {flow : Flow}

theorem Classified.attending (h : Classified role o s p state v) (ha : Attending role s) :
    Attending role v ∧ (p.attempt.pid = none → v.world.Dead) := by
  obtain ⟨held, other, ⟨a, hattempt, hdead⟩, process⟩ := ha.poll o
  obtain ⟨a', ha', hp, -, -⟩ := h.attempt
  obtain ⟨warnings, rfl⟩ := h.after
  rw [hattempt, Option.some.injEq] at ha'
  subst ha'
  have hpid : p.attempt.pid = a.pid := by rw [hp, attemptAfter_pid]
  refine ⟨⟨held, other, ⟨_, rfl, fun hnone => hdead ?_⟩, process⟩, fun hnone => hdead ?_⟩
  · rw [← hpid]
    exact hnone
  · rw [← hpid]
    exact hnone

theorem Outcome.shaped (h : Outcome role o s flow t) (ha : Attending role s) :
    (flow = .again → Attending role t) ∧
      (flow = .done → t.ctx.runState.isTerminal = false → Idle t) ∧ OneLock t.ctx := by
  cases h with
  | aborted =>
    refine ⟨fun h => absurd h (by simp), fun _ h => ?_, ?_⟩
    · simp [Orch.abort, RunState.isTerminal] at h
    · apply ha.oneLock.of_lock
      intro r
      cases r <;> simp [Orch.abort, OrchestratorCtx.lock]
  | watched h =>
    have hv := (h.attending ha).1
    exact ⟨fun _ => hv, fun h => absurd h (by simp), hv.oneLock⟩
  | stopped h _ =>
    have hv := (h.attending ha).1.stopped
    exact ⟨fun _ => hv, fun h => absurd h (by simp), hv.oneLock⟩
  | @finished p state v allowed h hpid _ =>
    obtain ⟨hv, hdead⟩ := h.attending ha
    refine ⟨fun h => absurd h (by simp), fun _ ht => ?_, ?_⟩
    · cases allowed with
      | false => simp [routeResult, RunState.isTerminal] at ht
      | true => exact ⟨releaseLock_unlocked hv.other, hdead hpid⟩
    · cases allowed with
      | false => exact hv.oneLock
      | true => exact .of_unlocked (releaseLock_unlocked hv.other)
  | capped h _ _ =>
    have hv := (h.attending ha).1
    refine ⟨fun h => absurd h (by simp), fun _ h => ?_, ?_⟩
    · simp [RunState.isTerminal] at h
    · exact .of_unlocked (releaseLock_unlocked hv.other)
  | failed h hpid =>
    obtain ⟨hv, hdead⟩ := h.attending ha
    have hunlocked := releaseLock_unlocked hv.other
    exact ⟨fun h => absurd h (by simp), fun _ _ => ⟨hunlocked, hdead hpid⟩, .of_unlocked hunlocked⟩
  | @hung p v h =>
    have hv := (h.attending ha).1
    have hstale := hv.stale
    have hunlocked : ∀ r, (retryAttempt role (v.mapCtx terminatingStale).ctx).lock r = none :=
      releaseLock_unlocked hstale.other
    refine ⟨fun h => absurd h (by simp), fun _ _ => ⟨?_, hstale.terminated⟩, ?_⟩
    · simpa using hunlocked
    · exact .of_unlocked (by simpa using hunlocked)
  | @cancelled p v h =>
    have hv := (h.attending ha).1
    refine ⟨fun h => absurd h (by simp), fun _ h => ?_, ?_⟩
    · simp [RunState.isTerminal] at h
    · apply OneLock.of_unlocked
      intro r
      rw [Orch.mapCtx_ctx, v.terminateActiveChild_ctx]
      exact releaseLock_unlocked hv.other r

theorem Dispatched.attending {o : DispatchObs} (h : Dispatched role o s t) (hs : Idle s)
    (r : RunState) : Attending role (t.mapCtx (withState r)) := by
  cases h with
  | @launched id lock u p pid _ _ hp _ _ =>
    have hlock : ∀ r, u.ctx.lock r = if r = role then some lock else none := by
      intro r
      rw [hp.lock, Orch.withLock, OrchestratorCtx.lock_setLock, hs.unlocked]
    have hdead : u.world.Dead := by
      intro c hc
      rw [hp.children] at hc
      exact hs.dead c hc
    refine ⟨?_, ?_, ⟨_, rfl, fun h => absurd h (by simp [freshAttempt])⟩, _, rfl, ?_⟩
    · show (u.ctx.lock role).isSome
      simp [hlock]
    · intro x hx
      show u.ctx.lock x = none
      simp [hlock, hx]
    · intro c hc hca
      obtain rfl | hc := List.mem_cons.mp hc
      · exact ⟨rfl, rfl⟩
      · exact absurd hca (by simp [hdead c hc])

theorem Refused.oneLock {o : DispatchObs} (h : Refused role o s t) (hs : Idle s) :
    OneLock t.ctx := by
  cases h with
  | unlocked => exact .of_unlocked hs.unlocked
  | @locked id lock u _ _ hp =>
    have hlock : ∀ r, t.ctx.lock r = if r = role then some lock else none := by
      intro r
      rw [hp.lock, Orch.withLock, OrchestratorCtx.lock_setLock, hs.unlocked]
    intro r r' hr hr'
    rw [hlock] at hr hr'
    by_cases h : r = role
    · by_cases h' : r' = role
      · rw [h, h']
      · simp [h'] at hr'
    · simp [h] at hr

theorem Collected.same {o : CollectObs} (h : Collected o s t) :
    (∀ r, t.ctx.lock r = s.ctx.lock r) ∧ t.world = s.world := by
  cases h with
  | unchanged _ | unreadable _ _ _ | rejected _ _ _ _ =>
    exact ⟨fun r => by cases r <;> rfl, rfl⟩
  | dirty _ hv _ _ | clean _ hv _ _ => cases hv <;> exact ⟨fun r => by cases r <;> rfl, rfl⟩

theorem Stepped.idle {o : StepObs} (h : Stepped o s flow t) (hs : Idle s)
    (hm : ∀ r, s.ctx.runState ≠ .monitor r) (hd : ∀ r, s.ctx.runState ≠ .dispatch r) :
    Idle t := by
  cases h with
  | dispatched hr _ => exact absurd hr (hd _)
  | probed hr _ => exact absurd hr (hm _)
  | prepared _ hc hw =>
    apply hs.of_same _ hw
    intro r
    rw [hc]
    cases r <;> rfl
  | bound _ _ | verified _ | fedBack _ | skipped _ =>
    exact hs.of_same (fun r => by cases r <;> rfl) rfl
  | surveyed _ h =>
    obtain ⟨_, _, _, _, rfl⟩ := h
    exact hs.of_same (fun r => by cases r <;> rfl) rfl
  | retried _ => exact hs.of_same (doRoundRetryDecide_lock s.ctx) rfl
  | gated _ => exact hs.of_same (doQualityGate_lock s.ctx) rfl
  | collected _ h => exact hs.of_same h.same.1 (congrArg World.children h.same.2)

theorem Outcome.not_monitor (h : Outcome role o s .done t) (r : AgentRole) :
    t.ctx.runState ≠ .monitor r := by
  obtain ⟨-, ⟨hf, -⟩ | ⟨-, ht | ht⟩⟩ | ⟨-, -, ht⟩ := h.target
  · exact absurd hf (by simp)
  · rw [ht]
    cases role <;> cases r <;> simp [RunState.outputCollect, RunState.monitor]
  · intro hr
    rw [hr] at ht
    exact absurd ht (by simp [monitor_not_terminal])
  · rw [ht]
    cases r <;> simp [RunState.monitor]

theorem Stepped.not_monitor {o : StepObs} (h : Stepped o s flow t)
    (hm : ∀ r, s.ctx.runState ≠ .monitor r) (hd : ∀ r, s.ctx.runState ≠ .dispatch r)
    (r : AgentRole) : t.ctx.runState ≠ .monitor r := by
  cases h with
  | dispatched hr _ => exact absurd hr (hd _)
  | probed hr _ => exact absurd hr (hm _)
  | prepared _ hc _ => cases r <;> simp [hc, RunState.monitor]
  | bound _ _ | surveyed _ _ => cases r <;> simp [withState, RunState.monitor]
  | verified _ => cases r <;> simp [doOrchVerify, RunState.monitor]
  | fedBack _ => cases r <;> simp [doRoundFeedbackPrep, RunState.monitor]
  | skipped _ => exact hm r
  | retried _ =>
    simp only [Orch.mapCtx_ctx, doRoundRetryDecide]
    split
    · cases r <;> simp [RunState.monitor]
    · cases s.ctx.currentRole.getD .executor <;> cases r <;> simp [RunState.monitor]
  | gated _ =>
    simp only [Orch.mapCtx_ctx, doQualityGate]
    split
    · cases r <;> simp [RunState.monitor]
    · split <;> cases r <;> simp [RunState.monitor]
  | collected _ h =>
    obtain ⟨-, ⟨-, ht⟩ | ⟨-, ht, -⟩⟩ := h.target
    · cases r <;> simp [ht, RunState.monitor]
    · cases r <;> simp [ht, RunState.monitor]

theorem Machine.Shaped.stepped {m : Machine} {c : Bool} {o : StepObs} (hshaped : m.Shaped)
    (hs : m.Steps c) (hm : m.Placed) (h : Stepped o m.toOrch flow s) (pc : Pc) :
    Machine.Shaped ⟨s, pc⟩ := by
  have hactive := hs.active hm
  obtain ⟨role, hr, hp⟩ | ⟨role, t, hr, hd, rfl⟩ | ⟨hmonitor, hdispatch⟩ := h.kind
  · obtain ⟨hagain, hdone, hone⟩ := hp.shaped (hshaped.attending hactive role hr)
    cases flow with
    | again =>
      obtain ⟨-, ⟨-, ht⟩ | ⟨hf, -⟩⟩ | ⟨-, hf, -⟩ := hp.target
      · exact .of_attending (hagain rfl) (ht.trans hr) pc
      · exact absurd hf (by simp)
      · exact absurd hf (by simp)
    | done =>
      cases hterminal : s.ctx.runState.isTerminal with
      | true => exact .of_over (fun ha => absurd ha.2 (by simp [hterminal])) hone
      | false => exact .of_idle (hdone rfl hterminal) hp.not_monitor pc
  · have hidle := hshaped.idle hactive fun r => hr ▸ (dispatch_ne_monitor role r)
    exact .of_attending (hd.attending hidle _) rfl pc
  · have hidle := hshaped.idle hactive hmonitor
    exact .of_idle (h.idle hidle hmonitor hdispatch) (h.not_monitor hmonitor hdispatch) pc

theorem Interrupted.lock {o : StepObs} (h : Interrupted o s t)
    (hd : ∀ r, s.ctx.runState ≠ .dispatch r) (r : AgentRole) : t.ctx.lock r = s.ctx.lock r := by
  cases h with
  | preparing _ hc _ => rw [hc]
  | dispatching hr _ => exact absurd hr (hd _)
  | probing _ h =>
    obtain ⟨_, _, _, rfl⟩ := h
    obtain ⟨a, ha⟩ := pollChild_ctx o.probe s
    simp only [ha]
    cases r <;> rfl
  | surveying _ h =>
    obtain ⟨_, _, _, _, rfl⟩ := h
    cases r <;> rfl
  | collecting _ h =>
    cases h with
    | unread => cases r <;> rfl
    | judged _ hv => cases hv <;> cases r <;> rfl

theorem Machine.Shaped.interrupted {m : Machine} {c : Bool} {o : StepObs} (hshaped : m.Shaped)
    (hs : m.Steps c) (hm : m.Placed) (h : Interrupted o m.toOrch s) : OneLock s.ctx := by
  by_cases hdispatch : ∃ role, m.ctx.runState = .dispatch role
  · obtain ⟨role, hr⟩ := hdispatch
    have hidle := hshaped.idle (hs.active hm) fun r => hr ▸ (dispatch_ne_monitor role r)
    exact (h.refused hr).oneLock hidle
  · exact hshaped.oneLock.of_lock (h.lock fun r hr => hdispatch ⟨r, hr⟩)

theorem Machine.Shaped.move {m m' : Machine} {i : Input} (hshaped : m.Shaped) (hm : m.Placed)
    (h : Move m i m') : m'.Shaped := by
  cases h with
  | exit =>
    exact ⟨fun ha r hr => (hshaped.attending ha r hr).bury,
      fun ha hr => (hshaped.idle ha hr).bury, hshaped.oneLock⟩
  | idle _ => exact hshaped
  | admitted hpc hr =>
    obtain ⟨root, rfl⟩ := hr
    have hinit := hm.start hpc
    have hidle := hshaped.idle ⟨by simp [hpc], by simp [hinit, RunState.isTerminal]⟩
      fun r => by cases r <;> simp [hinit, RunState.monitor]
    apply Machine.Shaped.of_idle
    · exact hidle.of_same (fun r => by cases r <;> rfl) rfl
    · intro r
      cases r <;> simp [withState, RunState.monitor]
  | rejected hpc hr =>
    obtain ⟨root, rfl⟩ := hr
    apply Machine.Shaped.of_over
    · exact fun ha => absurd ha.2 (by simp [RunState.isTerminal])
    · exact hshaped.oneLock.of_lock fun r => by cases r <;> rfl
  | cancelled hpc ht =>
    apply Machine.Shaped.of_over
    · exact fun ha => absurd ha.2 (by simp [withState, RunState.isTerminal])
    · exact hshaped.oneLock.of_lock fun r => by cases r <;> rfl
  | stepped hs hst => exact hshaped.stepped hs hm hst _
  | @failed c o s e hs hi =>
    apply Machine.Shaped.of_over
    · exact fun ha => absurd ha.2 (by simp [Machine.fail_terminal])
    · exact (hshaped.interrupted hs hm hi).of_lock fun r => by cases r <;> rfl
  | panicked hp =>
    apply Machine.Shaped.of_over fun ha => absurd rfl ha.1
    obtain ⟨hpc, root, rfl⟩ | ⟨hs, hi⟩ := hp
    · exact hshaped.oneLock.of_lock fun r => by cases r <;> rfl
    · exact hshaped.interrupted hs hm hi

theorem Run.shaped {h : History Machine Input} {m : Machine} (hr : Run h m) : m.Shaped := by
  apply Trace.Run.invariant (P := fun _ m => m.Shaped) hr
  · rintro _ ⟨args, rfl⟩
    apply Machine.Shaped.of_idle
    · exact ⟨fun r => by cases r <;> rfl, by simp [World.Dead, World.empty]⟩
    · intro r
      cases r <;> simp [OrchestratorCtx.new, RunState.monitor]
  · exact fun h m i hr hinv => hinv.move (Run.placed hr) (next_move m i)

end Probe

theorem holds_of_unlocked {ctx : OrchestratorCtx} (h : ∀ r, ctx.lock r = none) (path : String) :
    ctx.holds path = false := by
  have hexecutor : ctx.executorLock = none := h .executor
  have hreviewer : ctx.reviewerLock = none := h .reviewer
  simp [OrchestratorCtx.holds, hexecutor, hreviewer]

structure SameSessions (c d : OrchestratorCtx) : Prop where
  executorProvider : d.args.executorProvider = c.args.executorProvider
  reviewerProvider : d.args.reviewerProvider = c.args.reviewerProvider
  executorSessionId : d.executorSessionId = c.executorSessionId
  reviewerSessionId : d.reviewerSessionId = c.reviewerSessionId

def Bound (ctx : OrchestratorCtx) : Prop :=
  ∃ x y, ctx.executorSessionId = some x ∧ ctx.reviewerSessionId = some y ∧
    (ctx.args.executorProvider, x) ≠ (ctx.args.reviewerProvider, y)

theorem Bound.of_same {c d : OrchestratorCtx} (h : Bound c) (hs : SameSessions c d) : Bound d := by
  obtain ⟨x, y, hx, hy, hne⟩ := h
  refine ⟨x, y, hs.executorSessionId.trans hx, hs.reviewerSessionId.trans hy, ?_⟩
  rw [hs.executorProvider, hs.reviewerProvider]
  exact hne

theorem Kept.sameSessions {c d : OrchestratorCtx} (h : Kept c d) : SameSessions c d :=
  ⟨by rw [h.args], by rw [h.args], h.executorSessionId, h.reviewerSessionId⟩

def RunState.prelude : RunState → Bool
  | .runInit | .contextPrep | .sessionBind => true
  | _ => false

section Sessions

variable [Crates] {o : StepObs} {s t : Orch} {flow : Flow}

theorem Dispatched.sameSessions {role : AgentRole} {o : DispatchObs} (h : Dispatched role o s t) :
    SameSessions s.ctx t.ctx := by
  cases h with
  | launched _ _ hp _ _ =>
    obtain ⟨baseline, inbox, hc⟩ := hp.ctx
    constructor <;> simp [launch, hc, Orch.withLock, OrchestratorCtx.setLock]

theorem Stepped.sessions (h : Stepped o s flow t) :
    SameSessions s.ctx t.ctx ∧
        (s.ctx.runState.prelude = true → t.ctx.runState.prelude = true) ∨
      s.ctx.runState = .sessionBind ∧ Bound t.ctx := by
  cases h with
  | bound hr hne => exact .inr ⟨hr, _, _, rfl, rfl, hne⟩
  | prepared _ hc _ =>
    refine .inl ⟨?_, fun _ => by simp [hc, RunState.prelude]⟩
    rw [hc]
    constructor <;> rfl
  | @dispatched role u hr hd =>
    refine .inl ⟨?_, fun h => ?_⟩
    · obtain ⟨h₁, h₂, h₃, h₄⟩ := hd.sameSessions
      exact ⟨h₁, h₂, h₃, h₄⟩
    · cases role <;> simp [hr, RunState.dispatch, RunState.prelude] at h
  | @probed role _ _ hr hp =>
    have hround := hp.outcome.sameRound
    refine .inl ⟨⟨by rw [hround.args], by rw [hround.args], hround.executorSessionId,
      hround.reviewerSessionId⟩, fun h => ?_⟩
    cases role <;> simp [hr, RunState.monitor, RunState.prelude] at h
  | retried hr =>
    refine .inl ⟨?_, fun h => by simp [hr, RunState.prelude] at h⟩
    simp only [Orch.mapCtx_ctx, doRoundRetryDecide]
    split <;> constructor <;> rfl
  | surveyed hr h =>
    obtain ⟨_, _, _, _, rfl⟩ := h
    exact .inl ⟨by constructor <;> rfl, fun h => by simp [hr, RunState.prelude] at h⟩
  | verified hr | fedBack hr =>
    exact .inl ⟨by constructor <;> rfl, fun h => by simp [hr, RunState.prelude] at h⟩
  | collected hr h =>
    refine .inl ⟨?_, fun h => by simp [hr, RunState.prelude] at h⟩
    cases h with
    | unchanged _ | unreadable _ _ _ | rejected _ _ _ _ => constructor <;> rfl
    | dirty _ hv _ _ | clean _ hv _ _ => cases hv <;> constructor <;> rfl
  | gated hr =>
    refine .inl ⟨?_, fun h => by simp [hr, RunState.prelude] at h⟩
    simp only [Orch.mapCtx_ctx, doQualityGate]
    split
    · constructor <;> rfl
    · split <;> constructor <;> rfl
  | skipped _ => exact .inl ⟨by constructor <;> rfl, fun h => h⟩

theorem Move.sessions {m m' : Machine} {i : Input} (h : Move m i m') :
    SameSessions m.ctx m'.ctx ∧ (m.ctx.runState.prelude = true →
        m'.ctx.runState.prelude = true ∨ m'.ctx.runState.isTerminal = true) ∨
      m.ctx.runState = .sessionBind ∧ Bound m'.ctx := by
  cases h with
  | exit | idle _ => exact .inl ⟨by constructor <;> rfl, .inl⟩
  | admitted _ hr =>
    obtain ⟨root, rfl⟩ := hr
    exact .inl ⟨by constructor <;> rfl, fun _ => .inl (by simp [withState, RunState.prelude])⟩
  | rejected _ hr =>
    obtain ⟨root, rfl⟩ := hr
    exact .inl ⟨by constructor <;> rfl, fun _ => .inr (by simp [RunState.isTerminal])⟩
  | cancelled _ _ =>
    exact .inl ⟨by constructor <;> rfl, fun _ => .inr (by simp [withState, RunState.isTerminal])⟩
  | stepped _ hst =>
    obtain ⟨hsame, hp⟩ | ⟨hr, hb⟩ := hst.sessions
    · exact .inl ⟨hsame, fun h => .inl (hp h)⟩
    · exact .inr ⟨hr, hb⟩
  | @failed c o s e _ hi =>
    obtain ⟨h₁, h₂, h₃, h₄⟩ := hi.kept.sameSessions
    exact .inl ⟨⟨h₁, h₂, h₃, h₄⟩, fun _ => .inr (Machine.fail_terminal e s.ctx)⟩
  | panicked hp =>
    obtain ⟨_, root, rfl⟩ | ⟨_, hi⟩ := hp
    · exact .inl ⟨by constructor <;> rfl, .inl⟩
    · refine .inl ⟨hi.kept.sameSessions, fun h => .inl ?_⟩
      rw [hi.kept.runState]
      exact h

theorem Move.terminal {m m' : Machine} {i : Input} (h : Move m i m') (hm : m.Placed)
    (ht : m.ctx.runState.isTerminal = true) : m'.ctx.runState.isTerminal = true := by
  cases h with
  | exit | idle _ => exact ht
  | admitted hpc _ => simp [hm.start hpc, RunState.isTerminal] at ht
  | rejected _ _ => rfl
  | cancelled _ h => simp [h] at ht
  | stepped hs _ => simp [(hs.active hm).2] at ht
  | failed hs _ => simp [(hs.active hm).2] at ht
  | panicked hp =>
    obtain ⟨hpc, -⟩ | ⟨hs, -⟩ := hp
    · simp [hm.start hpc, RunState.isTerminal] at ht
    · simp [(hs.active hm).2] at ht

def Dispatching (h : History Machine Input) (m : Machine) : Prop :=
  m.ctx.runState = .executorDispatch ∨ ∃ e ∈ h, e.pre.ctx.runState = .executorDispatch

structure Sessions (h : History Machine Input) (m : Machine) : Prop where
  bound : m.ctx.runState.prelude = false → m.ctx.runState.isTerminal = false → Bound m.ctx
  visited : Dispatching h m → Bound m.ctx

theorem Run.sessions {h : History Machine Input} {m : Machine} (hr : Run h m) :
    Sessions h m := by
  apply Trace.Run.invariant (P := Sessions) hr
  · rintro _ ⟨args, rfl⟩
    refine ⟨fun h => absurd h (by simp [Machine.init, OrchestratorCtx.new, RunState.prelude]), ?_⟩
    rintro (h | ⟨e, he, -⟩)
    · simp [Machine.init, OrchestratorCtx.new] at h
    · simp at he
  · intro h m i hr hinv
    have hmove := next_move m i
    generalize m.next i = m' at hmove
    have hbound : m'.ctx.runState.prelude = false → m'.ctx.runState.isTerminal = false →
        Bound m'.ctx := by
      intro hp ht
      obtain ⟨hsame, hprelude⟩ | ⟨-, hb⟩ := hmove.sessions
      · apply (hinv.bound _ _).of_same hsame
        · apply Bool.eq_false_of_not_eq_true
          intro h
          simpa [hp, ht] using hprelude h
        · apply Bool.eq_false_of_not_eq_true
          intro h
          simp [hmove.terminal (Run.placed hr) h] at ht
      · exact hb
    refine ⟨hbound, ?_⟩
    rintro (h' | ⟨e, he, h'⟩)
    · exact hbound (by simp [h', RunState.prelude]) (by simp [h', RunState.isTerminal])
    · have hvisited : Dispatching h m := by
        obtain rfl | he := List.mem_cons.mp he
        · exact .inl h'
        · exact .inr ⟨e, he, h'⟩
      obtain ⟨hsame, -⟩ | ⟨-, hb⟩ := hmove.sessions
      · exact (hinv.visited hvisited).of_same hsame
      · exact hb

/-- Somebody else holds the lock, as far as the operating system tells. -/
def LockObs.Contended (o : LockObs) : Prop :=
  o.heldElsewhere = true ∨ ∃ e, o.tryLock = .error e ∧ e.kind = .wouldBlock

theorem contended_of_sessionLocked {holds : String → Bool} {p q : ProviderKind}
    {id i : String} {o : LockObs} (hfree : ∀ path, holds path = false)
    (h : acquireSessionLock holds p id o = .error (.sessionLocked q i)) : o.Contended := by
  revert h
  simp only [acquireSessionLock, bind, Except.bind, hfree, Bool.false_or]
  cases hbase : o.base with
  | none => simp [lockFilePath]
  | some base =>
    simp only [lockFilePath]
    cases o.createDir with
    | error e => simp [ofIo]
    | ok _ =>
      cases o.openFile with
      | error e => simp [ofIo]
      | ok _ =>
        cases hheld : o.heldElsewhere with
        | true => exact fun _ => .inl hheld
        | false =>
          cases hlock : o.tryLock with
          | ok _ =>
            cases o.setLen with
            | error e => simp [ofIo]
            | ok _ => cases o.writePid <;> simp [ofIo, pure, Except.pure]
          | error e =>
            by_cases hblock : e.kind = .wouldBlock
            · exact fun _ => .inr ⟨e, hlock, hblock⟩
            · simp [ofIo, hblock]

/-- From the first executor dispatch on the two sessions differ; never are two locks held; and
every dispatch finds the run without a lock and without a live child, so that only somebody
else can make it fail on a lock. -/
theorem sessions_exclusive {h : History Machine Input} {m : Machine} (hr : Run h m) :
    (Dispatching h m → Bound m.ctx) ∧ OneLock m.ctx ∧
      ∀ c role, m.Steps c → m.ctx.runState = .dispatch role →
        (∀ path, m.ctx.holds path = false) ∧ m.world.Dead ∧
          ∀ p id q i o, acquireSessionLock m.ctx.holds p id o = .error (.sessionLocked q i) →
            o.Contended := by
  have hshaped := Run.shaped hr
  refine ⟨(Run.sessions hr).visited, hshaped.oneLock, ?_⟩
  intro c role hs hdispatch
  have hidle : Idle m.toOrch := by
    apply hshaped.idle (hs.active (Run.placed hr))
    intro r
    rw [hdispatch]
    exact dispatch_ne_monitor role r
  have hfree := holds_of_unlocked hidle.unlocked
  exact ⟨hfree, hidle.dead, fun p id q i o => contended_of_sessionLocked hfree⟩

end Sessions

open Sample in
theorem sessions_exclusive_executed :
    (run executed).2.ctx.runState = .reviewerDispatch ∧ Bound (run executed).2.ctx ∧
      OneLock (run executed).2.ctx ∧ (run executed).2.world.Dead ∧
      (run executed).2.world.children.length = 1 := by
  have h := sessions_exclusive (run_run executed)
  have hdispatch : (run executed).2.ctx.runState = .dispatch .reviewer := by decide +kernel
  have hvisited : (run executed).1.any
      (fun e => decide (e.pre.ctx.runState = .executorDispatch)) = true := by decide +kernel
  obtain ⟨e, he, hrun⟩ := List.any_eq_true.mp hvisited
  refine ⟨hdispatch, h.1 (.inr ⟨e, he, of_decide_eq_true hrun⟩), h.2.1, ?_, by decide +kernel⟩
  exact (h.2.2 false .reviewer (by decide +kernel) hdispatch).2.1

end Orchestrator

import Orchestrator.Locks

namespace Orchestrator

open Rust Exec Trace

section Probe

variable [Crates] {role : AgentRole} {o : ProbeObs} {s t : Orch} {flow : Flow}

structure FindsCap (role : AgentRole) (o : ProbeObs) (s : Orch) (a : AttemptStateData)
    (signals : ProbeSignals) (combined : String) : Prop where
  session : ∃ id, sessionIdOf s.ctx role = .ok id
  attempt : s.ctx.attempt = some a
  signals_ok : collectProbeSignals a.pid (workflowArtifacts s.ctx.args.workflowType)
    (s.ctx.args.provider role) o = .ok signals
  diff : gitCommitted a signals = true → ∃ diff, runGit ["diff", "--name-status",
    a.prevProbeGitHeadHash ++ ".." ++ signals.gitHeadHash] o.gitDiff = .ok diff
  diagnostics : readProviderDiagnostics s.ctx.activeProcess o = .ok combined
  cap : ∃ warnings m, detectProviderError s.ctx combined o = .ok (warnings, some m)

theorem detectProviderError_attempt {ctx : OrchestratorCtx} {a : AttemptStateData}
    (ha : ctx.attempt = some a) (role : AgentRole) (signals : ProbeSignals) (now : Int)
    (combined : String) (o : ProbeObs) :
    detectProviderError { ctx with attempt := some (attemptAfter role signals now a) } combined o =
      detectProviderError ctx combined o := by
  simp only [detectProviderError, ha, attemptAfter_role, attemptAfter_dispatchTs]
  rfl

theorem findsCap_of_error : wp (observeProbe role o)
    (fun p _ => p.error.isSome = true → ∃ a signals combined,
      FindsCap role o s a signals combined) (fun _ _ => True) s := by
  simp only [observeProbe, wp_bind, OrchM.wp_ctx, OrchM.wp_ofResult, OrchM.wp_modifyCtx,
    OrchM.wp_unwrap, wp_pure, implies_true, and_true]
  intro id hid signals hsignals a ha _ hdiff combined hcombined found hfound herror
  obtain ⟨warnings, error⟩ := found
  obtain ⟨m, rfl⟩ := Option.isSome_iff_exists.mp herror
  rw [detectProviderError_attempt ha] at hfound
  refine ⟨a, signals, combined, ⟨id, hid⟩, ha, ?_, fun hcommitted => ?_, hcombined, _, m, hfound⟩
  · simpa [ha] using hsignals
  · rw [if_pos hcommitted] at hdiff
    cases hrun : runGit ["diff", "--name-status",
        a.prevProbeGitHeadHash ++ ".." ++ signals.gitHeadHash] o.gitDiff with
    | ok diff => exact ⟨diff, rfl⟩
    | error e => simp [hrun, Except.map] at hdiff

theorem error_of_findsCap {a : AttemptStateData} {signals : ProbeSignals} {combined : String}
    (h : FindsCap role o s a signals combined) :
    wp (observeProbe role o) (fun p _ => p.error.isSome = true) (fun _ _ => False) s := by
  obtain ⟨⟨id, hid⟩, ha, hsignals, hdiff, hcombined, warnings, m, hcap⟩ := h
  have hdiff : (if gitCommitted a signals = true then (runGit ["diff", "--name-status",
      a.prevProbeGitHeadHash ++ ".." ++ signals.gitHeadHash] o.gitDiff).map fun _ => ()
      else .ok ()) = .ok () := by
    split
    · obtain ⟨diff, hd⟩ := hdiff ‹_›
      simp [hd, Except.map]
    · rfl
  rw [← detectProviderError_attempt ha role signals o.now] at hcap
  simp only [observeProbe, wp_bind, OrchM.wp_ctx, OrchM.wp_ofResult, OrchM.wp_modifyCtx,
    OrchM.wp_unwrap, wp_pure, hid, ha, Option.bind_some, hsignals, hcombined]
  simp [hdiff, hcap]

structure Caps (role : AgentRole) (o : ProbeObs) (s : Orch) : Prop where
  uncancelled : (o.cancelledAtTop || o.cancelledAfterWait || o.cancelledAtSnapshot) = false
  finds : ∃ a signals combined, FindsCap role o (s.pollChild o) a signals combined

theorem Outcome.caps (h : Outcome role o s flow t) (hr : s.ctx.runState = .monitor role)
    (ht : t.ctx.runState = .runFailedServiceCap) :
    Caps role o s ∧ t.world = (s.pollChild o).world ∧ t.ctx.lock role = none := by
  have hne : s.ctx.runState ≠ .runFailedServiceCap := by
    rw [hr]
    cases role <;> simp [RunState.monitor]
  have htarget := h.target
  cases h with
  | aborted => simp [Orch.abort] at ht
  | @finished p state v allowed _ _ _ =>
    cases allowed <;> cases role <;> simp [routeResult, RunState.outputCollect] at ht
  | failed _ _ | hung _ | cancelled _ => simp [retryAttempt] at ht
  | watched h | stopped h _ =>
    obtain ⟨-, ⟨-, heq⟩ | ⟨hf, -⟩⟩ | ⟨-, hf, -⟩ := htarget
    · exact absurd (heq.symm.trans ht) hne
    · simp at hf
    · simp at hf
  | @capped p v h herror hcancelled =>
    obtain ⟨u, hu⟩ := h.observed
    have hcaps : Caps role o s :=
      ⟨by simp [h.uncancelled, hcancelled], wp_of_ok findsCap_of_error hu herror⟩
    obtain ⟨warnings, rfl⟩ := h.after
    exact ⟨hcaps, rfl, by cases role <;> rfl⟩

theorem capped_of_caps (h : Caps role o s) :
    wp (doMonitorProbe role o) (fun _ t => t.ctx.runState = .runFailedServiceCap)
      (fun _ _ => False) s := by
  obtain ⟨huncancelled, a, signals, combined, hfinds⟩ := h
  simp only [Bool.or_eq_false_iff] at huncancelled
  obtain ⟨⟨htop, hwait⟩, hsnapshot⟩ := huncancelled
  simp only [doMonitorProbe, htop, hwait, wp_bind, wp_modify, wp_ite, wp_pure]
  refine ⟨by simp, fun _ => ?_⟩
  apply wp_mono (wp_and (error_of_findsCap hfinds) (observeProbe_spec role o _))
  · rintro p u ⟨herror, hobserved⟩
    obtain ⟨m, hm⟩ := Option.isSome_iff_exists.mp herror
    have hclass : p.classify u.ctx.args.workflowType role o = .failedServiceCap := by
      apply classify_serviceCap
      · exact hsnapshot
      · simp [probeSnapshot, hm, hobserved.error m hm]
    simp [hclass, route]
  · exact fun _ _ h => h.1

end Probe

def ReleasesAlive (s t : Orch) : Prop :=
  ∃ role, (s.ctx.lock role).isSome ∧ t.ctx.lock role = none ∧
    ∃ child ∈ t.world.children, child.role = role ∧ child.alive = true

theorem World.not_dead {w : World} {role : AgentRole}
    (h : ∃ child ∈ w.children, child.role = role ∧ child.alive = true) : ¬w.Dead := by
  obtain ⟨child, hmem, -, halive⟩ := h
  intro hdead
  simp [hdead child hmem] at halive

section Turn

variable [Crates]

/-- A turn whose probe finds a service cap while the child has not been seen to exit. -/
def CapsAlive (m : Machine) (i : Input) : Prop :=
  ∃ role c o, i = .tick c o ∧ m.Steps c ∧ m.ctx.runState = .monitor role ∧
    Caps role o.probe m.toOrch ∧
    ∃ child ∈ (m.toOrch.pollChild o.probe).world.children,
      child.role = role ∧ child.alive = true

/-- The run is over, and comes to the drop of a lock while a child of its role is alive. -/
def LeavesAlive (m : Scope) (i : Input) : Prop :=
  ∃ role rest c o, i = .tick c o ∧ ¬m.Active ∧ m.locals = .lock role :: rest ∧
    ∃ child ∈ m.world.children, child.role = role ∧ child.alive = true

variable {m m' : Machine} {c : Bool} {o : StepObs} {role : AgentRole} {s t : Orch} {i : Input}
  {child : Child}

theorem Outcome.releases {r : AgentRole} {s t : Orch} {flow : Flow}
    (h : Outcome role o.probe s flow t) (ha : Attending role s) (hheld : (s.ctx.lock r).isSome)
    (hnone : t.ctx.lock r = none) (halive : ¬t.world.Dead) :
    r = role ∧ t.ctx.runState = .runFailedServiceCap := by
  have heq : r = role := by
    apply Decidable.by_contra
    intro hne
    simp [ha.other r hne] at hheld
  subst heq
  refine ⟨rfl, ?_⟩
  obtain ⟨hagain, hdone, -⟩ := h.shaped ha
  cases h with
  | aborted =>
    have hlock : s.abort.ctx.lock r = s.ctx.lock r := by cases r <;> simp [Orch.abort] <;> rfl
    simp [← hlock, hnone] at hheld
  | watched _ | stopped _ _ =>
    have hlock := (hagain rfl).held
    rw [hnone] at hlock
    simp at hlock
  | @finished p state v allowed h _ _ =>
    cases allowed with
    | true =>
      have hidle := hdone rfl (by cases r <;> rfl)
      exact absurd hidle.dead halive
    | false =>
      have hlock := (h.attending ha).1.held
      have hsame : v.ctx.lock r = none := by
        rw [← hnone]
        cases r <;> rfl
      simp [hsame] at hlock
  | capped _ _ _ => rfl
  | failed _ _ => exact absurd (hdone rfl rfl).dead halive
  | hung _ => exact absurd (hdone rfl rfl).dead halive
  | cancelled h => exact absurd (h.attending ha).1.terminated halive

theorem Interrupted.lock_monitor (h : Interrupted o s t) (hr : s.ctx.runState = .monitor role)
    (r : AgentRole) : t.ctx.lock r = s.ctx.lock r :=
  h.lock (fun r' hr' => dispatch_ne_monitor r' role (hr'.symm.trans hr)) r

theorem ReleasesAlive.caps (h : ReleasesAlive m.toOrch (m.next i).toOrch) (hshaped : m.Shaped)
    (hm : m.Placed) : CapsAlive m i := by
  obtain ⟨r, hheld, hnone, halive⟩ := h
  have hne : m.ctx.lock r ≠ none := Option.isSome_iff_ne_none.mp hheld
  have hmonitor : m.Active → ∃ role, m.ctx.runState = .monitor role := by
    intro hactive
    apply Classical.byContradiction
    intro h
    exact hne ((hshaped.idle hactive fun r hr => h ⟨r, hr⟩).unlocked r)
  have hmove := next_move m i
  generalize m.next i = m' at hmove hnone halive
  cases hmove with
  | exit | idle _ => exact absurd hnone hne
  | admitted _ hr | rejected _ hr =>
    obtain ⟨root, rfl⟩ := hr
    cases r <;> exact absurd hnone hne
  | cancelled _ _ => cases r <;> exact absurd hnone hne
  | @stepped c o flow s hs hst =>
    have hactive := hs.active hm
    obtain ⟨role, hr⟩ := hmonitor hactive
    obtain ⟨role, hr, hp⟩ | ⟨_, _, hdispatch, -, -⟩ | ⟨hother, -⟩ := hst.kind
    · have ha := hshaped.attending hactive role hr
      obtain ⟨rfl, hcap⟩ := hp.releases ha hheld hnone (World.not_dead halive)
      obtain ⟨hcaps, hw, -⟩ := hp.caps hr hcap
      rw [hw] at halive
      exact ⟨_, c, o, rfl, hs, hr, hcaps, halive⟩
    · exact absurd (hdispatch.symm.trans hr) (dispatch_ne_monitor _ _)
    · exact absurd hr (hother role)
  | @failed c o s e hs hi =>
    obtain ⟨role, hr⟩ := hmonitor (hs.active hm)
    rw [← hi.lock_monitor hr r] at hne
    cases r <;> exact absurd hnone hne
  | panicked hp =>
    obtain ⟨_, root, rfl⟩ | ⟨hs, hi⟩ := hp
    · cases r <;> exact absurd hnone hne
    · obtain ⟨role, hr⟩ := hmonitor (hs.active hm)
      rw [← hi.lock_monitor hr r] at hne
      exact absurd hnone hne

theorem CapsAlive.releases (h : CapsAlive m i) (hshaped : m.Shaped) (hm : m.Placed) :
    ReleasesAlive m.toOrch (m.next i).toOrch := by
  obtain ⟨role, c, o, rfl, hs, hr, hcaps, halive⟩ := h
  have hheld := (hshaped.attending (hs.active hm) role hr).held
  cases hres : doMonitorProbe role o.probe m.toOrch with
  | error e t => exact (wp_of_error (capped_of_caps hcaps) hres).elim
  | ok flow t =>
    have ht := wp_of_ok (capped_of_caps hcaps) hres
    have hp := (wp_of_ok (doMonitorProbe_spec role o.probe m.toOrch) hres).outcome
    obtain ⟨-, hw, hnone⟩ := hp.caps hr ht
    rw [← hw, ← next_of_probe hs hr hres] at halive
    rw [← next_of_probe hs hr hres] at hnone
    exact ⟨role, hheld, hnone, halive⟩

omit [Crates] in
theorem Attending.role_eq (h : Attending role s) (hmem : child ∈ s.world.children)
    (halive : child.alive = true) : child.role = role := by
  obtain ⟨proc, -, honly⟩ := h.process
  exact (honly child hmem halive).2

omit [Crates] in
theorem World.Dead.elim {w : World} {P : Prop} (h : w.Dead) (hmem : child ∈ w.children)
    (halive : child.alive = true) : P := by
  simp [h child hmem] at halive

theorem Outcome.role_eq {o : ProbeObs} {flow : Flow} (h : Outcome role o s flow t)
    (ha : Attending role s) (hmem : child ∈ t.world.children) (halive : child.alive = true) :
    child.role = role := by
  cases h with
  | aborted =>
    have hrun : Attending role (s.mapCtx (withState .runAborted)) := by
      refine ⟨?_, fun r hr => ?_, ha.attempt, ha.process⟩
      · cases role <;> exact ha.held
      · cases r <;> exact ha.other _ hr
    exact hrun.terminated.elim hmem halive
  | watched h | finished h _ _ | capped h _ _ | failed h _ =>
    exact (h.attending ha).1.role_eq hmem halive
  | stopped h _ => exact (h.attending ha).1.terminated.elim hmem halive
  | hung h => exact (h.attending ha).1.stale.terminated.elim hmem halive
  | cancelled h => exact (h.attending ha).1.terminated.elim hmem halive

theorem Interrupted.role_eq (h : Interrupted o s t) (hr : s.ctx.runState = .monitor role)
    (ha : Attending role s) (hmem : child ∈ t.world.children) (halive : child.alive = true) :
    child.role = role := by
  cases h with
  | preparing _ _ hw => exact ha.role_eq (hw ▸ hmem) halive
  | dispatching hr' _ => exact absurd (hr'.symm.trans hr) (dispatch_ne_monitor _ _)
  | probing _ h =>
    obtain ⟨_, _, _, rfl⟩ := h
    exact (ha.poll o.probe).role_eq hmem halive
  | surveying _ h =>
    obtain ⟨_, _, _, _, rfl⟩ := h
    exact ha.role_eq hmem halive
  | collecting _ h =>
    cases h with
    | unread => exact ha.role_eq hmem halive
    | judged _ hv => cases hv <;> exact ha.role_eq hmem halive

theorem Interrupted.dead (h : Interrupted o s t) (hm : ∀ r, s.ctx.runState ≠ .monitor r)
    (hs : s.world.Dead) : t.world.Dead := by
  cases h with
  | preparing _ _ hw =>
    intro c hc
    exact hs c (hw ▸ hc)
  | dispatching _ h =>
    cases h with
    | unlocked => exact hs
    | locked _ _ hp =>
      intro c hc
      rw [hp.children] at hc
      exact hs c hc
  | probing hr _ => exact absurd hr (hm _)
  | surveying _ h =>
    obtain ⟨_, _, _, _, rfl⟩ := h
    exact hs
  | collecting _ h =>
    cases h with
    | unread => exact hs
    | judged _ hv => cases hv <;> exact hs

theorem Move.held (h : Move m i m') (hshaped : m.Shaped) (ha : m.Active)
    (hmem : child ∈ m'.world.children) (halive : child.alive = true) :
    (m.ctx.lock child.role).isSome ∨ (m'.ctx.lock child.role).isSome := by
  by_cases hmonitor : ∃ role, m.ctx.runState = .monitor role
  · obtain ⟨role, hr⟩ := hmonitor
    have hattending := hshaped.attending ha role hr
    suffices hrole : child.role = role from .inl (hrole ▸ hattending.held)
    cases h with
    | exit => exact hattending.bury.role_eq hmem halive
    | idle _ => exact hattending.role_eq hmem halive
    | admitted _ hs | rejected _ hs =>
      obtain ⟨root, rfl⟩ := hs
      exact hattending.role_eq hmem halive
    | cancelled _ _ => exact hattending.role_eq hmem halive
    | stepped _ hst =>
      obtain ⟨role', hr', hp⟩ | ⟨_, _, hdispatch, -, -⟩ | ⟨hother, -⟩ := hst.kind
      · rw [monitor_injective (hr.symm.trans hr')]
        exact hp.role_eq (hshaped.attending ha role' hr') hmem halive
      · exact absurd (hdispatch.symm.trans hr) (dispatch_ne_monitor _ _)
      · exact absurd hr (hother role)
    | failed _ hi => exact hi.role_eq hr hattending hmem halive
    | panicked hp =>
      obtain ⟨_, root, rfl⟩ | ⟨_, hi⟩ := hp
      · exact hattending.role_eq hmem halive
      · exact hi.role_eq hr hattending hmem halive
  · have hm' : ∀ r, m.ctx.runState ≠ .monitor r := fun r hr => hmonitor ⟨r, hr⟩
    have hidle := hshaped.idle ha hm'
    cases h with
    | exit => exact hidle.bury.dead.elim hmem halive
    | idle _ => exact hidle.dead.elim hmem halive
    | admitted _ hs | rejected _ hs =>
      obtain ⟨root, rfl⟩ := hs
      exact hidle.dead.elim hmem halive
    | cancelled _ _ => exact hidle.dead.elim hmem halive
    | stepped _ hst =>
      obtain ⟨role, hr, -⟩ | ⟨role, u, -, hd, rfl⟩ | ⟨-, hdispatch⟩ := hst.kind
      · exact absurd hr (hm' role)
      · have hattending := hd.attending hidle (.monitor role)
        exact .inr (hattending.role_eq hmem halive ▸ hattending.held)
      · exact (hst.idle hidle hm' hdispatch).dead.elim hmem halive
    | failed _ hi => exact (hi.dead hm' hidle.dead).elim hmem halive
    | panicked hp =>
      obtain ⟨_, root, rfl⟩ | ⟨_, hi⟩ := hp
      · exact hidle.dead.elim hmem halive
      · exact (hi.dead hm' hidle.dead).elim hmem halive

theorem CapsAlive.active (h : CapsAlive m i) : m.Active := by
  obtain ⟨role, c, o, -, hs, hr, -⟩ := h
  refine ⟨?_, by rw [hr]; exact monitor_not_terminal role⟩
  obtain hpc | ⟨hpc, -⟩ := hs <;> simp [hpc]

theorem Scope.next_active {n : Scope} (ha : n.Active) (i : Input) :
    n.next i = { n with toMachine := n.toMachine.next i } := by
  cases i with
  | exit child => rfl
  | tick c o => exact if_pos ha

inductive Dropped (n : Scope) : Input → Scope → Prop
  | exit {id : Nat} : Dropped n (.exit id) { n with toMachine := n.toMachine.next (.exit id) }
  | empty {c : Bool} {o : StepObs} : Dropped n (.tick c o) n
  | field {c : Bool} {o : StepObs} {field : Local} {rest : List Local} :
      n.locals = field :: rest → Dropped n (.tick c o) ⟨⟨n.toOrch.drop field, n.pc⟩, rest⟩

theorem Scope.next_dropped {n : Scope} (ha : ¬n.Active) (i : Input) : Dropped n i (n.next i) := by
  cases i with
  | exit child => exact .exit
  | tick c o =>
    rw [Scope.next, if_neg ha]
    split
    · exact .empty
    · exact .field ‹_›

omit [Crates] in
@[simp] theorem Orch.drop_runState (s : Orch) (field : Local) :
    (s.drop field).ctx.runState = s.ctx.runState := by
  cases field <;> simp [Orch.drop, Orch.withLock, OrchestratorCtx.setLock]

omit [Crates] in
@[simp] theorem Orch.drop_lock (s : Orch) (field : Local) (role : AgentRole) :
    (s.drop field).ctx.lock role = if field = .lock role then none else s.ctx.lock role := by
  cases field with
  | lock r => simp [Orch.drop, Orch.withLock, eq_comm]
  | activeProcess => cases role <;> simp [Orch.drop, OrchestratorCtx.lock]

omit [Crates] in
theorem Orch.mem_drop {field : Local} (hmem : child ∈ (s.drop field).world.children)
    (halive : child.alive = true) :
    ∃ d ∈ s.world.children, d.role = child.role ∧ d.alive = true := by
  cases field with
  | lock role => exact ⟨child, hmem, rfl, halive⟩
  | activeProcess =>
    simp only [Orch.drop, Orch.mapCtx_world, Orch.terminateActiveChild] at hmem
    split at hmem
    · obtain ⟨d, hd, -, hrole, hlive⟩ := World.mem_bury hmem
      exact ⟨d, hd, hrole, (hlive halive).1⟩
    · exact ⟨child, hmem, rfl, halive⟩

theorem Scope.active_of_next {n : Scope} {i : Input} (ha : (n.next i).Active) : n.Active := by
  apply Classical.byContradiction
  intro hpre
  have hdropped := next_dropped hpre i
  generalize n.next i = n' at hdropped ha
  cases hdropped with
  | exit | empty => exact hpre ha
  | field _ => exact hpre ⟨ha.1, by simpa [Orch.drop_runState] using ha.2⟩

theorem ScopeRun.active {h : History Scope Input} {n : Scope} (hr : ScopeRun h n) (ha : n.Active) :
    n.toMachine.Shaped ∧ n.toMachine.Placed := by
  suffices hrun : ∃ past, Run past n.toMachine by
    obtain ⟨past, hpast⟩ := hrun
    exact ⟨Run.shaped hpast, Run.placed hpast⟩
  revert ha
  apply Trace.Run.invariant (P := fun _ n => n.Active → ∃ past, Run past n.toMachine) hr
  · rintro _ ⟨args, rfl⟩ -
    exact ⟨[], .start ⟨args, rfl⟩⟩
  · intro _ n i _ ih hnext
    have hpre := Scope.active_of_next hnext
    obtain ⟨past, hpast⟩ := ih hpre
    rw [Scope.next_active hpre]
    exact ⟨_, .tick i hpast⟩

theorem ScopeRun.locals {h : History Scope Input} {n : Scope} (hr : ScopeRun h n) :
    n.locals <:+ OrchestratorCtx.locals := by
  apply Trace.Run.invariant (P := fun _ n => n.locals <:+ OrchestratorCtx.locals) hr
  · rintro _ ⟨args, rfl⟩
    exact List.suffix_refl _
  · intro _ n i _ ih
    by_cases ha : n.Active
    · rw [Scope.next_active ha]
      exact ih
    · have hdropped := Scope.next_dropped ha i
      generalize n.next i = n' at hdropped ⊢
      cases hdropped with
      | exit | empty => exact ih
      | field hlocals => exact (hlocals ▸ List.suffix_cons _ _).trans ih

def Scope.Guarded (n : Scope) : Prop :=
  ∀ child ∈ n.world.children, child.alive = true → .lock child.role ∈ n.locals →
    (n.ctx.lock child.role).isSome

theorem Scope.Guarded.active {n : Scope} {i : Input} (ha : n.Active)
    (hshaped : n.toMachine.Shaped) (hkept : ¬ReleasesAlive n.toOrch (n.next i).toOrch) :
    (n.next i).Guarded := by
  rw [next_active ha] at hkept ⊢
  intro child hmem halive _
  obtain hheld | hheld := (next_move n.toMachine i).held hshaped ha hmem halive
  · apply Option.isSome_iff_ne_none.mpr
    intro hnone
    exact hkept ⟨child.role, hheld, hnone, child, hmem, rfl, halive⟩
  · exact hheld

theorem Scope.Guarded.dropped {n n' : Scope} (hg : n.Guarded) (hdistinct : n.locals.Nodup)
    (h : Dropped n i n') : n'.Guarded := by
  intro child hmem halive hlocal
  cases h with
  | exit =>
    obtain ⟨d, hd, -, hrole, hlive⟩ := World.mem_bury hmem
    rw [← hrole] at hlocal ⊢
    exact hg d hd (hlive halive).1 hlocal
  | empty => exact hg child hmem halive hlocal
  | field hlocals =>
    rw [hlocals, List.nodup_cons] at hdistinct
    obtain ⟨d, hd, hrole, hlive⟩ := Orch.mem_drop hmem halive
    rw [← hrole] at hlocal ⊢
    rw [Orch.drop_lock, if_neg]
    · exact hg d hd hlive (hlocals ▸ List.mem_cons_of_mem _ hlocal)
    · rintro rfl
      exact hdistinct.1 hlocal

theorem ScopeRun.guarded {h : History Scope Input} {n : Scope} (hr : ScopeRun h n)
    (hkept : ∀ e ∈ h, ¬ReleasesAlive e.pre.toOrch e.post.toOrch) : n.Guarded := by
  revert hkept
  apply Trace.Run.invariant (P := fun h n =>
    (∀ e ∈ h, ¬ReleasesAlive e.pre.toOrch e.post.toOrch) → n.Guarded) hr
  · rintro _ ⟨args, rfl⟩ - child hmem
    exact absurd hmem (by simp [Scope.init, Machine.init, World.empty])
  · intro h n i hr ih hkept
    by_cases ha : n.Active
    · exact .active ha (ScopeRun.active hr ha).1 (hkept _ (List.mem_cons_self ..))
    · have hg := ih fun e he => hkept e (List.mem_cons_of_mem _ he)
      have hdistinct := (ScopeRun.locals hr).sublist.nodup (by decide)
      exact hg.dropped hdistinct (Scope.next_dropped ha i)

theorem caps_or_leaves {h : History Scope Input} {n : Scope} {i : Input} (hr : ScopeRun h n)
    (hreleases : ReleasesAlive n.toOrch (n.next i).toOrch) :
    CapsAlive n.toMachine i ∨ LeavesAlive n i := by
  by_cases ha : n.Active
  · obtain ⟨hshaped, hm⟩ := ScopeRun.active hr ha
    rw [Scope.next_active ha] at hreleases
    exact .inl (hreleases.caps hshaped hm)
  · right
    have hdropped := Scope.next_dropped ha i
    generalize n.next i = n' at hdropped hreleases
    obtain ⟨role, hheld, hnone, child, hmem, hrole, halive⟩ := hreleases
    have hne : n.ctx.lock role ≠ none := Option.isSome_iff_ne_none.mp hheld
    cases hdropped with
    | exit | empty => exact absurd hnone hne
    | @field c o field rest hlocals =>
      rw [Orch.drop_lock] at hnone
      split at hnone
      · obtain ⟨d, hd, hsame, hlive⟩ := Orch.mem_drop hmem halive
        subst field
        exact ⟨role, rest, c, o, rfl, ha, hlocals, d, hd, hsame.trans hrole, hlive⟩
      · exact absurd hnone hne

theorem releases_of_caps {h : History Scope Input} {n : Scope} {i : Input} (hr : ScopeRun h n)
    (hcaps : CapsAlive n.toMachine i) : ReleasesAlive n.toOrch (n.next i).toOrch := by
  have ha := hcaps.active
  obtain ⟨hshaped, hm⟩ := ScopeRun.active hr ha
  rw [Scope.next_active ha]
  exact hcaps.releases hshaped hm

theorem releases_of_leaves {n : Scope} {i : Input} (hg : n.Guarded) (hleaves : LeavesAlive n i) :
    ReleasesAlive n.toOrch (n.next i).toOrch := by
  obtain ⟨role, rest, c, o, rfl, ha, hlocals, child, hmem, rfl, halive⟩ := hleaves
  have hheld := hg child hmem halive (hlocals ▸ List.mem_cons_self ..)
  have hnext : n.next (.tick c o) = ⟨⟨n.toOrch.drop (.lock child.role), n.pc⟩, rest⟩ := by
    simp only [Scope.next, if_neg ha, hlocals]
  rw [hnext]
  exact ⟨child.role, hheld, by simp, child, hmem, rfl, halive⟩

end Turn

namespace Sample

def capped : List Input :=
  executed.take 4 ++ [.tick false { obsAt 5 with
    probe := { probeAt 5 with stdoutTail := .ok (asBytes "usage limit reached") } }]

def left : List Input := executed.take 4 ++ [.tick true (obsAt 5), .tick true (obsAt 5)]

theorem releases_of_any {h : History Scope Input} (role : AgentRole)
    (hany : h.any (fun e => (e.pre.ctx.lock role).isSome &&
      decide (e.post.ctx.lock role = none) && e.post.world.children.any
        (fun c => decide (c.role = role ∧ c.alive = true))) = true) :
    ∃ e ∈ h, ReleasesAlive e.pre.toOrch e.post.toOrch := by
  obtain ⟨e, he, hlock⟩ := List.any_eq_true.mp hany
  simp only [Bool.and_eq_true, decide_eq_true_eq, List.any_eq_true] at hlock
  obtain ⟨⟨hheld, hnone⟩, halive⟩ := hlock
  exact ⟨e, he, role, hheld, hnone, halive⟩

theorem capped_releases :
    ∃ e ∈ (scope capped).1, ReleasesAlive e.pre.toOrch e.post.toOrch :=
  releases_of_any .executor (by decide +kernel)

theorem left_releases : ∃ e ∈ (scope left).1, ReleasesAlive e.pre.toOrch e.post.toOrch :=
  releases_of_any .executor (by decide +kernel)

end Sample

end Orchestrator

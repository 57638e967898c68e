import Orchestrator.Lib.Loop
import Orchestrator.Run

namespace Orchestrator

open Rust Exec Trace

/-- While the process runs, a log is stale once it has vanished or grown old. -/
def logStale (a : AttemptStateData) (sig : ProbeSignals) (o : ProbeObs) : Bool :=
  a.providerLogEverSeen && sig.providerLogMtime.isNone || logOld sig.providerLogMtime o.logClock

def hangDue (a : AttemptStateData) (sig : ProbeSignals) (o : ProbeObs) : Bool :=
  logStale a sig o &&
    (sig.processAlive && workStale a.lastWorkSignalTs o.now || hangMaxExceeded a o.now)

section Snapshot

variable {role : AgentRole} {w : WorkflowType} {a : AttemptStateData} {sig : ProbeSignals}
  {o : ProbeObs} {p : Probe}

theorem providerStale_running (hpid : a.pid.isSome) :
    providerStale (attemptAfter role sig o.now a) sig o.logClock = logStale a sig o := by
  have hpid : (attemptAfter role sig o.now a).pid.isNone = false := by
    rw [attemptAfter_pid]
    simpa using hpid
  simp only [providerStale, logStale, hpid, attemptAfter_logSeen]
  cases sig.providerLogMtime <;> simp

variable [Crates]

theorem hangRule_running (hpid : a.pid.isSome) (changed : Bool)
    (error : Option ProviderErrorClass) :
    (probeSnapshot w role (attemptAfter role sig o.now a) sig changed error o).hangRule o.now =
      hangDue a sig o := by
  rw [ProbeSnapshot.hangRule_eq]
  simp only [probeSnapshot, providerStale_running hpid, hangDue, attemptAfter_lastWork,
    hangMaxExceeded, attemptAfter_dispatchTs]

structure Probe.Plain (p : Probe) (o : ProbeObs) : Prop where
  uncancelled : o.cancelledAtSnapshot = false
  error : p.error = none

theorem classify_running (hp : p.Plain o) (ha : p.attempt = attemptAfter role p.signals o.now a)
    (hpid : a.pid.isSome) :
    p.classify w role o =
      if graceActive (graceDeadline p.attempt) o.now then .waitingOutput
      else if hangDue a p.signals o then .hangConfirmed
      else if p.signals.processAlive && outboxPresentRecent p.attempt p.signals.outboxMeta then
        .finalizing
      else if p.changed then .running
      else if p.signals.processAlive then .waitingOutput
      else .unknown := by
  have hpid' : p.attempt.pid.isSome := by rwa [ha, attemptAfter_pid]
  have hundecided : (probeSnapshot w role p.attempt p.signals p.changed
      (p.error.map ProviderErrorMatch.errorClass) o).Undecided := by
    refine ⟨hp.uncancelled, by simp [probeSnapshot, hp.error], ?_, ?_, ?_, ?_⟩
    · simp [probeSnapshot, checkSuccessContract, hpid']
    · simp [probeSnapshot, checkSoftSuccessContract, hpid']
    · simp [probeSnapshot, checkProtocolInvalid, hpid']
    · simpa [probeSnapshot] using hpid'
  rw [Probe.classify, classify_undecided hundecided, ha, hangRule_running hpid]
  rfl

theorem classify_exited (hp : p.Plain o) (hpid : p.attempt.pid = none)
    (houtbox : nonEmptyOutbox p.signals.outboxMeta = true) :
    p.classify w role o = .success := by
  apply classify_success
  · exact hp.uncancelled
  · simp [probeSnapshot, hp.error]
  · simp [probeSnapshot, checkSuccessContract, hpid, houtbox]

end Snapshot

structure Launched (role : AgentRole) (ts : Int) (s : Orch) : Prop where
  attempt : ∃ pid fingerprint statusHash headHash mtime, s.ctx.attempt =
    some (freshAttempt role ts pid fingerprint statusHash headHash mtime)
  process : s.ctx.activeProcess.isSome

def AttemptStateData.polled (o : ProbeObs) (a : AttemptStateData) : AttemptStateData :=
  match o.tryWait with
  | some code => { a with exitCode := code, pid := none }
  | none => a

theorem polled_pid (o : ProbeObs) (a : AttemptStateData) :
    (a.polled o).pid = if o.tryWait.isSome then none else a.pid := by
  cases hwait : o.tryWait <;> simp [AttemptStateData.polled, hwait]

theorem pollChild_polled {o : ProbeObs} {s : Orch} {a : AttemptStateData}
    (hprocess : s.ctx.activeProcess.isSome) (ha : s.ctx.attempt = some a) :
    (s.pollChild o).ctx.attempt = some (a.polled o) := by
  obtain ⟨proc, hproc⟩ := Option.isSome_iff_exists.mp hprocess
  cases hwait : o.tryWait with
  | none => simpa [Orch.pollChild, AttemptStateData.polled, hproc, hwait] using ha
  | some code => simp [Orch.pollChild, AttemptStateData.polled, hproc, hwait, ha]

structure Onward (role : AgentRole) (o : ProbeObs) (p : Probe) (a b : AttemptStateData) : Prop where
  dispatchTs : b.dispatchTs = a.dispatchTs
  pid : b.pid = a.pid ∨ nonEmptyOutbox p.signals.outboxMeta = true
  graceUntilCommit : b.graceUntilCommit = p.attempt.graceUntilCommit
  graceUntilOutbox : b.graceUntilOutbox = p.attempt.graceUntilOutbox
  lastWork : b.lastWorkSignalTs = if p.changed then some o.now else a.lastWorkSignalTs
  logSeen : b.providerLogEverSeen = (p.signals.providerLogMtime.isSome || a.providerLogEverSeen)

theorem onward_recordProbe {role : AgentRole} {o : ProbeObs} {p : Probe} {a : AttemptStateData}
    (hp : p.attempt = attemptAfter role p.signals o.now a) (state : AttemptState) :
    Onward role o p a (recordProbe state p.changed o.now p.attempt) where
  dispatchTs := by simp only [recordProbe, hp, attemptAfter_dispatchTs]
  pid := .inl (by simp only [recordProbe, hp, attemptAfter_pid])
  graceUntilCommit := rfl
  graceUntilOutbox := rfl
  lastWork := by simp only [recordProbe, hp, attemptAfter_lastWork]
  logSeen := by simp only [recordProbe, hp, attemptAfter_logSeen]

theorem Onward.stopped {role : AgentRole} {o : ProbeObs} {p : Probe} {a b : AttemptStateData}
    (h : Onward role o p a b) (houtbox : nonEmptyOutbox p.signals.outboxMeta = true) :
    Onward role o p a { b with pid := none } :=
  ⟨h.dispatchTs, .inr houtbox, h.graceUntilCommit, h.graceUntilOutbox, h.lastWork, h.logSeen⟩

section Probes

variable [Crates] {role : AgentRole} {ts : Int} {o : ProbeObs} {s t u v : Orch} {p q : Probe}
  {obs : Nat → ProbeObs} {n k : Nat} {a b : AttemptStateData}

theorem launched_of_dispatched {o : DispatchObs} (h : Dispatched role o s t) (r : RunState) :
    Launched role o.now (t.mapCtx (withState r)) := by
  cases h with
  | launched _ _ _ _ _ => exact ⟨⟨_, _, _, _, _, rfl⟩, rfl⟩

theorem launched_of_next {m : Machine} {o : StepObs} (hs : m.Steps false)
    (hr : m.ctx.runState = .dispatch role)
    (hnext : (m.next (.tick false o)).Active) :
    Launched role o.dispatch.now (m.next (.tick false o)).toOrch := by
  have hdispatch : wp (step o) (fun _ t => Launched role o.dispatch.now t) (fun _ _ => True)
      m.toOrch := by
    rw [wp, step_dispatch hr, ← wp, wp_map, doDispatch, wp_bind]
    apply wp_mono (dispatchRole_spec role o.dispatch m.toOrch)
    · exact fun _ t ht => launched_of_dispatched ht _
    · exact fun _ _ _ => trivial
  obtain ⟨_, h⟩ | ⟨e, t, -, h⟩ | ⟨t, -, h⟩ := next_of_wp hs hdispatch
  · exact h
  · rw [h] at hnext
    cases (Machine.fail_terminal e t.ctx).symm.trans hnext.2
  · rw [h] at hnext
    exact absurd rfl hnext.1

/-- `do_monitor` over the first `n` probes of a trace. -/
def watch (role : AgentRole) (obs : Nat → ProbeObs) (s : Orch) (n : Nat) :
    EStateM.Result Fault Orch Flow :=
  loop (fun n => doMonitorProbe role (obs n)) s n

def Reaches (role : AgentRole) (obs : Nat → ProbeObs) (s : Orch) (n : Nat) (t : Orch) : Prop :=
  watch role obs s n = .ok .again t

/-- Probe `n` finds the attempt `a`, its child polled, and sees `p`. -/
def Finds (role : AgentRole) (obs : Nat → ProbeObs) (s : Orch) (n : Nat) (a : AttemptStateData)
    (p : Probe) : Prop :=
  ∃ t u, Reaches role obs s n t ∧ (t.pollChild (obs n)).ctx.attempt = some a ∧
    observeProbe role (obs n) (t.pollChild (obs n)) = .ok p u

def ChangedAt (role : AgentRole) (obs : Nat → ProbeObs) (s : Orch) (n : Nat) : Prop :=
  ∃ a p, Finds role obs s n a p ∧ p.changed = true

def LogSeenAt (role : AgentRole) (obs : Nat → ProbeObs) (s : Orch) (n : Nat) : Prop :=
  ∃ a p, Finds role obs s n a p ∧ p.signals.providerLogMtime.isSome = true

theorem Reaches.unique (h : Reaches role obs s n t) (h' : Reaches role obs s n u) : t = u := by
  rw [Reaches, h] at h'
  cases h'
  rfl

theorem Finds.unique (h : Finds role obs s n a p) (h' : Finds role obs s n b q) :
    a = b ∧ p = q := by
  obtain ⟨t, u, ht, ha, hu⟩ := h
  obtain ⟨t', v, ht', hb, hv⟩ := h'
  cases ht.unique ht'
  rw [ha] at hb
  rw [hu] at hv
  cases hb
  cases hv
  exact ⟨rfl, rfl⟩

theorem Finds.changedAt_iff (h : Finds role obs s n a p) :
    ChangedAt role obs s n ↔ p.changed = true := by
  constructor
  · rintro ⟨b, q, hq, hchanged⟩
    rwa [(h.unique hq).2]
  · intro hchanged
    exact ⟨a, p, h, hchanged⟩

theorem Finds.logSeenAt_iff (h : Finds role obs s n a p) :
    LogSeenAt role obs s n ↔ p.signals.providerLogMtime.isSome = true := by
  constructor
  · rintro ⟨b, q, hq, hseen⟩
    rwa [(h.unique hq).2]
  · intro hseen
    exact ⟨a, p, h, hseen⟩

theorem Classified.outbox (h : Classified role o t p .finalizing u) :
    nonEmptyOutbox p.signals.outboxMeta = true := by
  have hj := classify_justified (probeSnapshot t.ctx.args.workflowType role p.attempt p.signals
    p.changed (p.error.map ProviderErrorMatch.errorClass) o) o.now
  rw [show classify _ o.now = .finalizing from h.state_eq] at hj
  have hpresent := hj.2
  simp only [probeSnapshot, outboxPresentRecent, Bool.and_eq_true] at hpresent
  exact hpresent.2

theorem again_onward (h : doMonitorProbe role o t = .ok .again u) :
    ∃ p a b v, observeProbe role o (t.pollChild o) = .ok p v ∧
      (t.pollChild o).ctx.attempt = some a ∧ p.attempt = attemptAfter role p.signals o.now a ∧
      u.ctx.attempt = some b ∧ Onward role o p a b := by
  cases (wp_of_ok (doMonitorProbe_spec role o t) h).outcome with
  | @watched p state _ hc =>
    obtain ⟨a, ha, hp, -, -⟩ := hc.attempt
    obtain ⟨v, hv⟩ := hc.observed
    obtain ⟨w, hw⟩ := hc.ctx
    exact ⟨p, a, _, v, hv, ha, hp, by rw [hw], onward_recordProbe hp state⟩
  | @stopped p _ hc _ =>
    obtain ⟨a, ha, hp, -, -⟩ := hc.attempt
    obtain ⟨v, hv⟩ := hc.observed
    obtain ⟨w, hw⟩ := hc.ctx
    have honward := (onward_recordProbe hp .finalizing).stopped hc.outbox
    exact ⟨p, a, _, v, hv, ha, hp, by simp [withoutProcess, hw], honward⟩

structure Watched (role : AgentRole) (ts : Int) (obs : Nat → ProbeObs) (s : Orch) (n : Nat)
    (a : AttemptStateData) : Prop where
  dispatchTs : a.dispatchTs = ts
  grace : role = .reviewer → graceDeadline a = none
  lastWork : ∃ last, a.lastWorkSignalTs = some last ∧
    ∀ i < n, ChangedAt role obs s i → ∃ j, i ≤ j ∧ j < n ∧ last = (obs j).now
  logSeen : a.providerLogEverSeen = true ↔ ∃ i < n, LogSeenAt role obs s i

theorem Watched.polled (h : Watched role ts obs s n a) (o : ProbeObs) :
    Watched role ts obs s n (a.polled o) := by
  simp only [AttemptStateData.polled]
  split
  · exact ⟨h.dispatchTs, h.grace, h.lastWork, h.logSeen⟩
  · exact h

theorem watched_fresh {pid : Nat} {fingerprint statusHash headHash : String} {mtime : Option Int} :
    Watched role ts obs s 0 (freshAttempt role ts pid fingerprint statusHash headHash mtime) := by
  refine ⟨rfl, fun _ => rfl, ⟨ts, rfl, ?_⟩, ?_⟩
  · intro i hi
    omega
  · simp [freshAttempt]

theorem Watched.onward (h : Watched role ts obs s n a) (hf : Finds role obs s n a p)
    (hp : p.attempt = attemptAfter role p.signals (obs n).now a)
    (hb : Onward role (obs n) p a b) : Watched role ts obs s (n + 1) b := by
  constructor
  case dispatchTs => rw [hb.dispatchTs, h.dispatchTs]
  case grace =>
    rintro rfl
    have hgrace := h.grace rfl
    simp only [graceDeadline, hb.graceUntilCommit, hb.graceUntilOutbox, hp] at hgrace ⊢
    exact hgrace
  case lastWork =>
    obtain ⟨last, hlast, hbefore⟩ := h.lastWork
    by_cases hc : p.changed = true
    · refine ⟨(obs n).now, by rw [hb.lastWork, if_pos hc], ?_⟩
      intro i hi _
      exact ⟨n, by omega, by omega, rfl⟩
    · refine ⟨last, by rw [hb.lastWork, if_neg hc, hlast], ?_⟩
      intro i hi hchanged
      have hne : i ≠ n := by
        rintro rfl
        exact hc (hf.changedAt_iff.mp hchanged)
      obtain ⟨j, hij, hj, hlast⟩ := hbefore i (by omega) hchanged
      exact ⟨j, hij, by omega, hlast⟩
  case logSeen =>
    rw [hb.logSeen, Bool.or_eq_true, h.logSeen, ← hf.logSeenAt_iff]
    constructor
    · rintro (hn | ⟨i, hi, hseen⟩)
      · exact ⟨n, by omega, hn⟩
      · exact ⟨i, by omega, hseen⟩
    · rintro ⟨i, hi, hseen⟩
      obtain hi | rfl := Nat.lt_succ_iff_lt_or_eq.mp hi
      · exact .inr ⟨i, hi, hseen⟩
      · exact .inl hseen

structure SameRun (s t : Orch) : Prop where
  args : t.ctx.args = s.ctx.args
  runState : t.ctx.runState = s.ctx.runState
  activeProcess : t.ctx.activeProcess = s.ctx.activeProcess

theorem sameRun_of_again (h : doMonitorProbe role o t = .ok .again u) : SameRun t u := by
  have hout := (wp_of_ok (doMonitorProbe_spec role o t) h).outcome
  refine ⟨hout.sameRound.args, ?_, hout.sameRound.activeProcess⟩
  obtain ⟨-, ⟨-, hr⟩ | ⟨hflow, -⟩⟩ | ⟨-, hflow, -⟩ := hout.target
  · exact hr
  · cases hflow
  · cases hflow

theorem Reaches.sameRun (h : Reaches role obs s n t) : SameRun s t := by
  apply loop_invariant (P := fun _ t => SameRun s t) ⟨rfl, rfl, rfl⟩ ?_ h
  intro n u v _ hu hv
  have huv := sameRun_of_again hv
  exact ⟨huv.args.trans hu.args, huv.runState.trans hu.runState,
    huv.activeProcess.trans hu.activeProcess⟩

theorem watched_of_reaches (hs : Launched role ts s) (h : Reaches role obs s n t) :
    ∃ a, t.ctx.attempt = some a ∧ Watched role ts obs s n a := by
  apply loop_invariant (P := fun n t => ∃ a, t.ctx.attempt = some a ∧
    Watched role ts obs s n a) ?_ ?_ h
  · obtain ⟨pid, fingerprint, statusHash, headHash, mtime, ha⟩ := hs.attempt
    exact ⟨_, ha, watched_fresh⟩
  · intro n u v hu ⟨a, ha, hw⟩ hv
    obtain ⟨p, a', b, w, hobserved, ha', hp, hb, honward⟩ := again_onward hv
    have hpolled : (u.pollChild (obs n)).ctx.attempt = some (a.polled (obs n)) := by
      apply pollChild_polled _ ha
      rw [Reaches.sameRun hu |>.activeProcess]
      exact hs.process
    rw [hpolled, Option.some.injEq] at ha'
    subst ha'
    exact ⟨b, hb, (hw.polled _).onward ⟨u, w, hu, hpolled, hobserved⟩ hp honward⟩

theorem Finds.polled (hs : Launched role ts s) (h : Finds role obs s n a p) :
    ∃ t u b, Reaches role obs s n t ∧ t.ctx.attempt = some b ∧ a = b.polled (obs n) ∧
      Watched role ts obs s n b ∧ observeProbe role (obs n) (t.pollChild (obs n)) = .ok p u := by
  obtain ⟨t, u, ht, ha, hu⟩ := h
  obtain ⟨b, hb, hw⟩ := watched_of_reaches hs ht
  have hprocess : t.ctx.activeProcess.isSome := by
    rw [ht.sameRun.activeProcess]
    exact hs.process
  rw [pollChild_polled hprocess hb, Option.some.injEq] at ha
  exact ⟨t, u, b, ht, hb, ha.symm, hw, hu⟩

theorem watched_of_finds (hs : Launched role ts s) (h : Finds role obs s n a p) :
    Watched role ts obs s n a := by
  obtain ⟨t, u, b, -, -, rfl, hw, -⟩ := h.polled hs
  exact hw.polled _

theorem observed_of_finds (h : Finds role obs s n a p) :
    p.attempt = attemptAfter role p.signals (obs n).now a ∧
      p.changed = workSignalsChanged a p.signals ∧
      collectProbeSignals a.pid (workflowArtifacts s.ctx.args.workflowType)
        (s.ctx.args.provider role) (obs n) = .ok p.signals := by
  obtain ⟨t, u, ht, ha, hu⟩ := h
  obtain ⟨b, hb, hp, hchanged, hsignals⟩ :=
    (wp_of_ok (observeProbe_spec role (obs n) (t.pollChild (obs n))) hu).attempt
  rw [ha, Option.some.injEq] at hb
  subst hb
  rw [pollChild_args, ht.sameRun.args] at hsignals
  exact ⟨hp, hchanged, hsignals⟩

def Machine.ticks (o : Nat → StepObs) (m : Machine) : Nat → Machine
  | 0 => m
  | n + 1 => (m.ticks o n).next (.tick false (o n))

theorem ticks_watch {m : Machine} {o : Nat → StepObs} (hm : m.Steps false)
    (hr : m.ctx.runState = .monitor role)
    (h : Reaches role (fun i => (o i).probe) m.toOrch n t) :
    m.ticks o (n + 1) = Machine.settle (watch role (fun i => (o i).probe) m.toOrch (n + 1)) := by
  induction n generalizing t with
  | zero =>
    rw [Machine.ticks, Machine.ticks, next_of_steps hm, step_monitor hr]
    rfl
  | succ n ih =>
    obtain ⟨u, hu⟩ := again_of_le h (Nat.le_succ n)
    have hn := ih hu
    rw [show watch role (fun i => (o i).probe) m.toOrch (n + 1) = .ok .again t from h] at hn
    have hsteps : (Machine.settle (.ok .again t)).Steps false := .inl rfl
    have hstate : (Machine.settle (.ok .again t)).ctx.runState = .monitor role :=
      h.sameRun.runState.trans hr
    rw [Machine.ticks, hn, next_of_steps hsteps, step_monitor hstate]
    exact congrArg Machine.settle (loop_succ h).symm

end Probes

namespace Sample

def launched : Orch := ((run (executed.take 3)).2.next (.tick false (obsAt 0))).toOrch

theorem launched_launched : Launched .executor (time 0) launched :=
  launched_of_next (o := obsAt 0) (by decide +kernel) (by decide +kernel)
    ⟨by decide +kernel, by decide +kernel⟩

def sees (obs : Nat → ProbeObs) (n : Nat) (test : AttemptStateData → Probe → Bool) : Bool :=
  match watch .executor obs launched n with
  | .ok .again t =>
    let polled := t.pollChild (obs n)
    match polled.ctx.attempt, observeProbe .executor (obs n) polled with
    | some a, .ok p _ => test a p
    | _, _ => false
  | _ => false

def leavesFor (obs : Nat → ProbeObs) (n : Nat) (r : RunState) : Bool :=
  match watch .executor obs launched n with
  | .ok .done t => t.ctx.runState = r
  | _ => false

theorem exists_of_sees (obs : Nat → ProbeObs) (n : Nat) (test : AttemptStateData → Probe → Bool)
    (h : sees obs n test = true) :
    ∃ a p, Finds .executor obs launched n a p ∧ test a p = true := by
  simp only [sees] at h
  split at h
  · rename_i t ht
    split at h
    · rename_i a p u ha hu
      exact ⟨a, p, ⟨t, u, ht, ha, hu⟩, h⟩
    · cases h
  · cases h

theorem test_of_sees {obs : Nat → ProbeObs} {n : Nat} {test : AttemptStateData → Probe → Bool}
    {a : AttemptStateData} {p : Probe} (h : sees obs n test = true)
    (hf : Finds .executor obs launched n a p) : test a p = true := by
  obtain ⟨b, q, hq, htest⟩ := exists_of_sees obs n test h
  obtain ⟨rfl, rfl⟩ := hf.unique hq
  exact htest

theorem done_of_leavesFor {obs : Nat → ProbeObs} {n : Nat} {r : RunState}
    (h : leavesFor obs n r = true) :
    ∃ u, watch .executor obs launched n = .ok .done u ∧ u.ctx.runState = r := by
  simp only [leavesFor] at h
  split at h
  · rename_i u hu
    exact ⟨u, hu, by simpa using h⟩
  · cases h

theorem lt_of_leavesFor {obs : Nat → ProbeObs} {n k : Nat} {r : RunState} {a : AttemptStateData}
    {p : Probe} (h : leavesFor obs n r = true) (hf : Finds .executor obs launched k a p) :
    k < n := by
  obtain ⟨u, hu, -⟩ := done_of_leavesFor h
  obtain ⟨t, -, ht, -, -⟩ := hf
  by_contra hlt
  have hdone := loop_of_le hu (by simp) (Nat.le_of_not_lt hlt)
  rw [Reaches, watch, hdone] at ht
  cases ht

end Sample

end Orchestrator

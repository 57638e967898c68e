import Orchestrator.Locks
import Orchestrator.Order

namespace Orchestrator

open Rust Exec Trace

def flagUp : Input → Bool
  | .exit _ => true
  | .tick cancelled o => cancelled && o.probe.cancelledAtTop && o.probe.cancelledAfterWait &&
      o.probe.cancelledAtSnapshot

def isTick : Input → Bool
  | .exit _ => false
  | .tick _ _ => true

def Aborts (e : Turn) : Prop :=
  e.pre.ctx.runState ≠ .runAborted ∧ e.post.ctx.runState = .runAborted

/-- The turn finds the flag at the head of the loop just after a dispatch, the child alive. -/
def Abandons (e : Turn) : Prop :=
  e.pre.pc = .head ∧ (∃ r, e.pre.ctx.runState = .monitor r) ∧ (∃ o, e.input = .tick true o) ∧
    ¬e.pre.world.Dead

/-- From `m` on the flag is up: at most the monitor step in flight goes on, to its end, and the
run is aborted, unless it is over; the inputs are validated first. -/
structure Halts (m : Machine) (is : List Input) (r : History Machine Input × Machine) :
    Prop where
  steps : r.1.countP takesStep ≤ 1
  inFlight : ∀ e ∈ r.1, takesStep e = true → m.pc = .monitor ∧ e.post.ctx.runState = .runAborted
  aborted : m.Active → (if m.pc = .start then 1 else 0) < is.countP isTick →
    r.2.ctx.runState = .runAborted ∨
      m.pc = .start ∧ r.2.ctx.runState = .runFailedInvalidInput

theorem inactive_of_terminal {m : Machine} (ht : m.ctx.runState.isTerminal = true) : ¬m.Active :=
  fun ha => by simp [ha.2] at ht

section Halt

variable [Crates] {h : History Machine Input} {m : Machine} {i : Input} {is : List Input}
  {c : Bool} {o : StepObs}

theorem next_inactive (hm : m.Placed) (ha : ¬m.Active) :
    takesStep ⟨m, i, m.next i⟩ = false ∧ (m.next i).ctx = m.ctx ∧ (m.next i).pc = m.pc := by
  cases i with
  | exit child => exact ⟨rfl, rfl, rfl⟩
  | tick c o =>
    have hno : ¬m.Steps c := fun hs => ha (hs.active hm)
    refine ⟨by simp [takesStep, hno], ?_⟩
    cases hpc : m.pc with
    | start => exact absurd ⟨by simp [hpc], by simp [hm.start hpc, RunState.isTerminal]⟩ ha
    | monitor => exact absurd (.inl hpc) hno
    | panicked => simp [Machine.next, hpc]
    | head =>
      have ht : m.ctx.runState.isTerminal = true := by
        simpa [Machine.Active, hpc] using ha
      simp [Machine.next, hpc, ht]

theorem exec_inactive (hm : m.Placed) (ha : ¬m.Active) :
    (∀ e ∈ (Trace.exec Machine.next is [] m).1, takesStep e = false) ∧
      (Trace.exec Machine.next is [] m).2.ctx = m.ctx := by
  induction is generalizing m with
  | nil => exact ⟨by simp [Trace.exec], rfl⟩
  | cons i is ih =>
    obtain ⟨hstep, hctx, hpc⟩ := next_inactive (i := i) hm ha
    have hnext : ¬(m.next i).Active := by simpa [Machine.Active, hctx, hpc] using ha
    obtain ⟨hsteps, hend⟩ := ih ((next_move m i).placed hm) hnext
    rw [Trace.exec, exec_history]
    refine ⟨?_, hend.trans hctx⟩
    simp only [List.mem_append, List.mem_singleton]
    rintro e (he | rfl)
    · exact hsteps e he
    · exact hstep

theorem next_head (hpc : m.pc = .head) (ht : m.ctx.runState.isTerminal = false) :
    m.next (.tick true o) = ⟨m.toOrch.mapCtx (withState .runAborted), .head⟩ := by
  simp [Machine.next, hpc, ht]

theorem next_monitor (hm : m.Placed) (hpc : m.pc = .monitor)
    (hup : o.probe.cancelledAtTop = true) :
    m.next (.tick c o) = ⟨m.toOrch.abort, .head⟩ := by
  obtain ⟨role, hr⟩ := hm.monitor hpc
  rw [next_of_steps (.inl hpc), step_monitor hr]
  simp only [doMonitorProbe, hup, Bool.true_or, if_true]
  rfl

theorem next_start (hpc : m.pc = .start) : (m.next (.tick c o)).pc = .head ∧
    ((m.next (.tick c o)).ctx.runState = .contextPrep ∨
      (m.next (.tick c o)).ctx.runState = .runFailedInvalidInput) := by
  have hsafe : Unpanicked (prologue o.prologue) m.toOrch := unpanicked_prologue _
  simp only [Machine.next, hpc]
  cases hres : prologue o.prologue m.toOrch with
  | ok _ s => exact ⟨rfl, .inl rfl⟩
  | error e s =>
    cases e with
    | error e => exact ⟨rfl, .inr rfl⟩
    | panic => exact absurd rfl (wp_of_error hsafe hres)

theorem halts_inactive (hm : m.Placed) (ha : ¬m.Active) :
    Halts m is (Trace.exec Machine.next is [] m) := by
  have hsteps : ∀ e ∈ (Trace.exec Machine.next is [] m).1, takesStep e = false :=
    (exec_inactive hm ha).1
  refine ⟨?_, fun e he hs => ?_, fun h => absurd h ha⟩
  · rw [List.countP_eq_zero.mpr fun e he => by simp [hsteps e he]]
    exact Nat.zero_le 1
  · rw [hsteps e he] at hs
    exact absurd hs (by simp)

theorem halts_of_aborted (hm : m.Placed) (hr : (m.next i).ctx.runState = .runAborted)
    (hstep : takesStep ⟨m, i, m.next i⟩ = true → m.pc = .monitor) :
    Halts m (i :: is) (Trace.exec Machine.next (i :: is) [] m) := by
  have hover : ¬(m.next i).Active := inactive_of_terminal (by simp [hr, RunState.isTerminal])
  obtain ⟨hsteps, hend⟩ : (∀ e ∈ (Trace.exec Machine.next is [] (m.next i)).1,
      takesStep e = false) ∧ (Trace.exec Machine.next is [] (m.next i)).2.ctx = (m.next i).ctx :=
    exec_inactive ((next_move m i).placed hm) hover
  rw [Trace.exec, exec_history]
  refine ⟨?_, ?_, fun _ _ => .inl (by rw [hend, hr])⟩
  · rw [List.countP_append, List.countP_eq_zero.mpr fun e he => by simp [hsteps e he], Nat.zero_add]
    exact List.countP_le_length
  · simp only [List.mem_append, List.mem_singleton]
    rintro e (he | rfl) hs
    · rw [hsteps e he] at hs
      exact absurd hs (by simp)
    · exact ⟨hstep hs, hr⟩

theorem Halts.cons (hrest : Halts (m.next i) is (Trace.exec Machine.next is [] (m.next i)))
    (hstep : takesStep ⟨m, i, m.next i⟩ = false) (hpc : (m.next i).pc = .monitor → m.pc = .monitor)
    (haborted : m.Active → (if m.pc = .start then 1 else 0) < (i :: is).countP isTick →
      (Trace.exec Machine.next is [] (m.next i)).2.ctx.runState = .runAborted ∨
        m.pc = .start ∧ (Trace.exec Machine.next is [] (m.next i)).2.ctx.runState =
          .runFailedInvalidInput) :
    Halts m (i :: is) (Trace.exec Machine.next (i :: is) [] m) := by
  rw [Trace.exec, exec_history]
  refine ⟨?_, ?_, haborted⟩
  · simpa [List.countP_append, hstep] using hrest.steps
  · simp only [List.mem_append, List.mem_singleton]
    rintro e (he | rfl) hs
    · obtain ⟨hmonitor, hr⟩ := hrest.inFlight e he hs
      exact ⟨hpc hmonitor, hr⟩
    · rw [hstep] at hs
      exact absurd hs (by simp)

theorem halts (hm : m.Placed) (hup : ∀ i ∈ is, flagUp i = true) :
    Halts m is (Trace.exec Machine.next is [] m) := by
  induction is generalizing m with
  | nil => exact ⟨by simp [Trace.exec], by simp [Trace.exec], by simp⟩
  | cons i is ih =>
    by_cases ha : m.Active
    case neg => exact halts_inactive hm ha
    obtain ⟨hi, his⟩ := List.forall_mem_cons.mp hup
    have hplaced := (next_move m i).placed hm
    have hrest := ih hplaced his
    cases i with
    | exit child =>
      apply hrest.cons rfl
      · exact fun h => h
      · intro _ hticks
        have hpc : (m.next (.exit child)).pc = m.pc := rfl
        exact hrest.aborted ha (by simpa [isTick, hpc] using hticks)
    | tick c o =>
      simp only [flagUp, Bool.and_eq_true] at hi
      obtain ⟨⟨⟨rfl, htop⟩, -⟩, -⟩ := hi
      cases hpc : m.pc with
      | start =>
        obtain ⟨hnext, hstate⟩ := next_start (c := true) (o := o) hpc
        apply hrest.cons
        · simp [takesStep, Machine.Steps, hpc]
        · simp [hnext]
        · intro _ hticks
          obtain hstate | hstate := hstate
          · have hactive : (m.next (.tick true o)).Active := by
              simp [Machine.Active, hnext, hstate, RunState.isTerminal]
            have hmore : 0 < is.countP isTick := by
              simpa [hpc, isTick, List.countP_cons] using hticks
            obtain h | h := hrest.aborted hactive (by simpa [hnext] using hmore)
            · exact .inl h
            · simp [hnext] at h
          · have hover : ¬(m.next (.tick true o)).Active :=
              inactive_of_terminal (by simp [hstate, RunState.isTerminal])
            rw [(exec_inactive hplaced hover).2]
            exact .inr ⟨hpc, hstate⟩
      | head =>
        have hnext := next_head (o := o) hpc ha.2
        apply halts_of_aborted hm
        · rw [hnext]
          rfl
        · simp [takesStep, Machine.Steps, hpc]
      | monitor =>
        apply halts_of_aborted hm
        · rw [next_monitor hm hpc htop]
          simp [Orch.abort]
        · exact fun _ => hpc
      | panicked => exact absurd hpc ha.1

theorem Outcome.aborted_dead {role : AgentRole} {o : ProbeObs} {s t : Orch} {flow : Flow}
    (h : Outcome role o s flow t) (ha : Attending role s)
    (hr : s.ctx.runState = .monitor role) (ht : t.ctx.runState = .runAborted) : t.world.Dead := by
  cases h with
  | aborted =>
    have habort : Attending role { s with ctx := { s.ctx with runState := .runAborted } } :=
      ⟨ha.held, ha.other, ha.attempt, ha.process⟩
    exact habort.terminated
  | cancelled h => exact (h.attending ha).1.terminated
  | watched h | stopped h _ =>
    obtain ⟨w, hw⟩ := h.ctx
    cases role <;> simp [withoutProcess, hw, hr, RunState.monitor] at ht
  | @finished p state v allowed _ _ _ =>
    cases allowed <;> cases role <;> simp [routeResult, RunState.outputCollect] at ht
  | capped _ _ _ | failed _ _ | hung _ => simp [retryAttempt] at ht

theorem Stepped.aborted_dead {s t : Orch} {flow : Flow} (hst : Stepped o s flow t)
    (hattending : ∀ r, s.ctx.runState = .monitor r → Attending r s)
    (ht : t.ctx.runState = .runAborted) (hs : s.ctx.runState ≠ .runAborted) : t.world.Dead := by
  cases hst with
  | @probed role _ _ hr hp => exact hp.outcome.aborted_dead (hattending role hr) hr ht
  | @dispatched role _ _ _ => cases role <;> simp [withState, RunState.monitor] at ht
  | retried _ =>
    have htarget := doRoundRetryDecide_target s.ctx
    rw [Orch.mapCtx_ctx] at ht
    rw [ht] at htarget
    split at htarget
    · simp at htarget
    · cases hrole : s.ctx.currentRole.getD .executor <;> simp [hrole, RunState.dispatch] at htarget
  | collected _ hc =>
    cases hc with
    | unchanged _ | unreadable _ _ _ | rejected _ _ _ _ => simp [retryReviewerOutputFailure] at ht
    | dirty _ _ _ _ | clean _ _ _ _ => simp [retryReviewerOutputFailure] at ht
  | gated _ =>
    revert ht
    simp only [Orch.mapCtx_ctx, doQualityGate]
    cases s.ctx.reviewResult with
    | none => simp
    | some v => cases hd : v.decision <;> simp [hd]
  | prepared _ hc _ => simp [hc] at ht
  | bound _ _ | surveyed _ _ | verified _ | fedBack _ =>
    simp [withState, doOrchVerify, doRoundFeedbackPrep] at ht
  | skipped _ => exact absurd ht hs

theorem aborts_dead (hr : Run h m) (ha : Aborts ⟨m, i, m.next i⟩)
    (hno : ¬Abandons ⟨m, i, m.next i⟩) : (m.next i).world.Dead := by
  obtain ⟨hpre, hpost⟩ := ha
  have hshaped := Run.shaped hr
  have hm := Run.placed hr
  have hmove := next_move m i
  simp only [Abandons] at hpre hpost hno
  generalize m.next i = m' at hmove hpost
  cases hmove with
  | exit | idle _ => exact absurd hpost hpre
  | admitted _ _ => simp [withState] at hpost
  | rejected _ _ => simp at hpost
  | @cancelled o hpc ht =>
    by_contra halive
    by_cases hmonitor : ∃ r, m.ctx.runState = .monitor r
    · exact hno ⟨hpc, hmonitor, ⟨o, rfl⟩, halive⟩
    · have hactive : m.Active := ⟨by simp [hpc], ht⟩
      exact halive (hshaped.idle hactive fun r hr => hmonitor ⟨r, hr⟩).dead
  | stepped hs hst => exact hst.aborted_dead (hshaped.attending (hs.active hm)) hpost hpre
  | @failed c o s e hs hi =>
    have hactive := hs.active hm
    simp only [Orch.mapCtx_ctx, Machine.fail, hi.kept.runState, hactive.2] at hpost
    cases e <;> simp [errorToRunState] at hpost
  | panicked hp =>
    obtain ⟨hpc, root, rfl⟩ | ⟨-, hi⟩ := hp
    · exact absurd hpost hpre
    · exact absurd (hi.kept.runState.symm.trans hpost) hpre

theorem abandons_alive (ha : Abandons ⟨m, i, m.next i⟩) :
    Aborts ⟨m, i, m.next i⟩ ∧ ¬(m.next i).world.Dead := by
  obtain ⟨hpc, ⟨r, hr⟩, ⟨o, rfl⟩, halive⟩ := ha
  simp only at hpc hr halive
  have ht : m.ctx.runState.isTerminal = false := by
    rw [hr]
    exact monitor_not_terminal r
  rw [next_head hpc ht]
  refine ⟨⟨?_, rfl⟩, halive⟩
  cases r <;> simp [hr, RunState.monitor]

/-- A run with the flag up halts at once, and a child that is alive when it is aborted is
stopped, exactly if the flag is never found at the head of the loop just after a dispatch. -/
theorem cancellation_iff (hr : Run h m) :
    ((∀ is, (∀ i ∈ is, flagUp i = true) → Halts m is (Trace.exec Machine.next is [] m)) ∧
      ∀ e ∈ h, Aborts e → e.post.world.Dead) ↔ ∀ e ∈ h, ¬Abandons e := by
  constructor
  · rintro ⟨-, hdead⟩ ⟨pre, i, post⟩ he ha
    obtain ⟨older, hpre, hpost⟩ := Trace.Run.of_mem hr he
    simp only at hpre hpost
    subst hpost
    obtain ⟨haborts, halive⟩ := abandons_alive ha
    exact halive (hdead _ he haborts)
  · intro hno
    refine ⟨fun is hup => halts (Run.placed hr) hup, ?_⟩
    rintro ⟨pre, i, post⟩ he haborts
    obtain ⟨older, hpre, hpost⟩ := Trace.Run.of_mem hr he
    simp only at hpre hpost
    subst hpost
    exact aborts_dead hpre haborts (hno _ he)

end Halt

namespace Sample

def raised : StepObs :=
  { obsAt 5 with
    probe := { probeAt 5 with
      cancelledAtTop := true, cancelledAfterWait := true, cancelledAtSnapshot := true } }

def interrupted : List Input := executed.take 4 ++ [.tick true raised]

def stopped : List Input :=
  executed.take 4 ++
    [.tick false { obsAt 5 with probe := { probeAt 5 with cancelledAtTop := true } }]

theorem stopped_uncancelled {o : StepObs} : .tick true o ∉ stopped := by
  simp [stopped, executed]

end Sample

open Sample in
theorem child_abandoned :
    Run (run interrupted).1 (run interrupted).2 ∧ flagUp (.tick true raised) = true ∧
      (run (executed.take 4)).2.ctx.runState = .executorMonitor ∧
      (run interrupted).2.ctx.runState = .runAborted ∧ ¬(run interrupted).2.world.Dead := by
  have hchild : ⟨0, .executor, true⟩ ∈ (run interrupted).2.world.children := by decide +kernel
  refine ⟨run_run interrupted, rfl, by decide +kernel, by decide +kernel, fun hdead => ?_⟩
  exact absurd (hdead _ hchild) (by simp)

open Sample in
theorem cancellation_iff_stopped :
    (run stopped).2.ctx.runState = .runAborted ∧
      (∀ is, (∀ i ∈ is, flagUp i = true) →
        Halts (run stopped).2 is (Trace.exec Machine.next is [] (run stopped).2)) ∧
      ∀ e ∈ (run stopped).1, Aborts e → e.post.world.Dead := by
  refine ⟨by decide +kernel, (cancellation_iff (run_run stopped)).mpr ?_⟩
  rintro e he ⟨-, -, ⟨o, ho⟩, -⟩
  exact stopped_uncancelled (ho ▸ run_input he)

end Orchestrator

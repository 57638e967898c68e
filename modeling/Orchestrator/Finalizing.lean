import Orchestrator.Hang

namespace Orchestrator

open Rust Exec Trace

def overdue (p : Probe) (o : ProbeObs) : Bool :=
  p.signals.processAlive && finalizingTimeout p o.now

theorem fileMeta_of_ok {m : FileMeta} {om : Option FileMeta} (h : fileMeta (.ok m) = .ok om) :
    om = some m := by
  simpa [fileMeta, noneIfMissing, ofIo, eq_comm] using h

theorem graceActive_of_outbox {role : AgentRole} {a : AttemptStateData} {sig : ProbeSignals}
    {now : Int} (hgrace : role = .reviewer → graceDeadline a = none)
    (houtbox : nonEmptyOutbox sig.outboxMeta = true) :
    graceActive (graceDeadline (attemptAfter role sig now a)) now = false := by
  cases role with
  | executor =>
    simp [attemptAfter, updateGracePeriods, applyGraceTransitions, houtbox, graceDeadline,
      graceActive]
  | reviewer =>
    have hnone : graceDeadline (attemptAfter .reviewer sig now a) = none := hgrace rfl
    rw [hnone]
    rfl

theorem outboxPresent_of_timeout {p : Probe} {now : Int} (h : finalizingTimeout p now = true)
    (houtbox : nonEmptyOutbox p.signals.outboxMeta = true) :
    outboxPresentRecent p.attempt p.signals.outboxMeta = true := by
  revert h
  simp only [finalizingTimeout, outboxPresentRecent, houtbox, Bool.and_true]
  cases p.signals.outboxMeta with
  | none => simp
  | some m =>
    simp only [Option.map_some, Option.getD_some, Bool.and_eq_true]
    exact And.left

theorem route_onward {role : AgentRole} {o : ProbeObs} {p : Probe} {s : Orch}
    (hover : overdue p o = false) :
    route role o.now p
      (if p.signals.processAlive && outboxPresentRecent p.attempt p.signals.outboxMeta then
        .finalizing
      else if p.changed then .running
      else if p.signals.processAlive then .waitingOutput
      else .unknown) s = (.again, s) := by
  split
  · rename_i hpresent
    simp only [Bool.and_eq_true] at hpresent
    have htimeout : finalizingTimeout p o.now = false := by
      simpa [overdue, hpresent.1] using hover
    simp [route, htimeout]
  · split
    · rfl
    · split <;> rfl

section Probes

variable [Crates] {role : AgentRole} {ts : Int} {s t u : Orch} {p : Probe}
  {obs : Nat → ProbeObs} {i j k : Nat} {a : AttemptStateData}

structure Collects (role : AgentRole) (obs : Nat → ProbeObs) (s : Orch) : Prop where
  collected : ∃ n u, watch role obs s n = .ok .done u ∧ u.ctx.runState = .outputCollect role
  kept : ∀ n u, watch role obs s n = .ok .done u → u.ctx.runState ≠ .roundRetryDecide

/-- Probe `k` finds a live process and its outbox, and from then on there is an outbox, no
cancellation and no service cap. -/
structure Written (role : AgentRole) (obs : Nat → ProbeObs) (s : Orch) (k : Nat) : Prop where
  found : ∃ a p, Finds role obs s k a p ∧ p.signals.processAlive = true ∧
    outboxPresentRecent p.attempt p.signals.outboxMeta = true
  outbox : ∀ i ≥ k, ∃ m, (obs i).outboxMeta = .ok m ∧ 0 < m.size
  uncancelled : ∀ i ≥ k, (obs i).cancelledAtTop = false ∧ (obs i).cancelledAfterWait = false ∧
    (obs i).cancelledAtSnapshot = false
  uncapped : ∀ i ≥ k, ∀ a p, Finds role obs s i a p → p.error = none

/-- The monitor comes to probe `i` with the process not known to have ended. -/
def Held (role : AgentRole) (obs : Nat → ProbeObs) (s : Orch) (i : Nat) : Prop :=
  ∃ t a, Reaches role obs s i t ∧ t.ctx.attempt = some a ∧ a.pid.isSome

theorem Written.nonEmpty (h : Written role obs s k) (hi : k ≤ i) (hf : Finds role obs s i a p) :
    nonEmptyOutbox p.signals.outboxMeta = true := by
  obtain ⟨m, hm, hsize⟩ := h.outbox i hi
  have hmeta := (collectProbeSignals_ok (observed_of_finds hf).2.2).2.2.1
  rw [hm] at hmeta
  rw [fileMeta_of_ok hmeta]
  simpa [nonEmptyOutbox] using hsize

theorem Written.plain (h : Written role obs s k) (hi : k ≤ i) (hf : Finds role obs s i a p) :
    p.Plain (obs i) :=
  ⟨(h.uncancelled i hi).2.2, h.uncapped i hi a p hf⟩

inductive Turned (role : AgentRole) (obs : Nat → ProbeObs) (s : Orch) (i : Nat)
    (a : AttemptStateData) (p : Probe) : Prop
  | collected {u : Orch} : a.pid = none → watch role obs s (i + 1) = .ok .done u →
      u.ctx.runState = .outputCollect role → Turned role obs s i a p
  | discarded {u : Orch} : a.pid.isSome → hangDue a p.signals (obs i) = true →
      watch role obs s (i + 1) = .ok .done u → u.ctx.runState = .roundRetryDecide →
      Turned role obs s i a p
  | stopped {u : Orch} {b : AttemptStateData} : a.pid.isSome → hangDue a p.signals (obs i) = false →
      overdue p (obs i) = true → Reaches role obs s (i + 1) u → u.ctx.attempt = some b →
      b.pid = none → Turned role obs s i a p
  | held : a.pid.isSome → hangDue a p.signals (obs i) = false → overdue p (obs i) = false →
      Held role obs s (i + 1) → Turned role obs s i a p

theorem Written.turned (h : Written role obs s k) (hs : Launched role ts s) (hi : k ≤ i)
    (hf : Finds role obs s i a p) : Turned role obs s i a p := by
  obtain ⟨t, u, ht, ha, hu⟩ := hf
  have hf : Finds role obs s i a p := ⟨t, u, ht, ha, hu⟩
  have hnext : watch role obs s (i + 1) = doMonitorProbe role (obs i) t := loop_succ ht
  obtain ⟨hp, -, -⟩ := observed_of_finds hf
  have hpid : p.attempt.pid = a.pid := by rw [hp, attemptAfter_pid]
  have hplain := h.plain hi hf
  have houtbox := h.nonEmpty hi hf
  have hgrace : graceActive (graceDeadline p.attempt) (obs i).now = false := by
    rw [hp]
    exact graceActive_of_outbox (watched_of_finds hs hf).grace houtbox
  obtain ⟨v, hc, hrouted⟩ := doMonitorProbe_routed
    (by rw [(h.uncancelled i hi).1, (h.uncancelled i hi).2.1]; rfl) hu
  obtain ⟨w, hw⟩ := hc.ctx
  cases hrunning : a.pid with
  | none =>
    rw [classify_exited hplain (hpid.trans hrunning) houtbox] at hrouted
    exact .collected hrunning (hnext.trans hrouted) rfl
  | some pid =>
    have hsome : a.pid.isSome := by rw [hrunning]; rfl
    have hclassify := classify_running (w := t.ctx.args.workflowType) hplain hp hsome
    rw [hgrace] at hclassify
    by_cases hdue : hangDue a p.signals (obs i) = true
    · rw [hclassify, hdue] at hrouted
      exact .discarded hsome hdue (hnext.trans hrouted) rfl
    · have hdue := Bool.eq_false_iff.mpr hdue
      by_cases hover : overdue p (obs i) = true
      · simp only [overdue, Bool.and_eq_true] at hover
        have hstate : p.classify t.ctx.args.workflowType role (obs i) = .finalizing := by
          simp [hclassify, hdue, hover.1, outboxPresent_of_timeout hover.2 houtbox]
        rw [hstate] at hrouted hw
        simp only [route, hover.2] at hrouted
        refine .stopped (b := { recordProbe .finalizing p.changed (obs i).now p.attempt with
          pid := none }) hsome hdue ?_ (hnext.trans hrouted) ?_ rfl
        · simp [overdue, hover]
        · simp [withoutProcess, hw]
      · have hover := Bool.eq_false_iff.mpr hover
        refine .held hsome hdue hover ⟨v, _, hnext.trans ?_, by rw [hw], ?_⟩
        · have honward : route role (obs i).now p
              (p.classify t.ctx.args.workflowType role (obs i)) v = (.again, v) := by
            rw [hclassify, hdue]
            exact route_onward hover
          rw [hrouted, honward]
        · simpa [recordProbe, hpid] using hsome

/-- The process ends by itself at probe `i`, or is stopped there and polled once more. -/
def Ends (role : AgentRole) (obs : Nat → ProbeObs) (s : Orch) (i : Nat) : Prop :=
  ∃ a p, Finds role obs s i a p ∧ ((obs i).tryWait.isSome = true ∨
    hangDue a p.signals (obs i) = false ∧ overdue p (obs i) = true ∧
      ∃ b q, Finds role obs s (i + 1) b q)

def Spares (role : AgentRole) (obs : Nat → ProbeObs) (s : Orch) (i : Nat) : Prop :=
  ∃ a p, Finds role obs s i a p ∧ hangDue a p.signals (obs i) = false

theorem Collects.of_done (h : watch role obs s i = .ok .done u)
    (hu : u.ctx.runState = .outputCollect role) : Collects role obs s := by
  refine ⟨⟨i, u, h, hu⟩, ?_⟩
  intro n v hv hretry
  cases loop_unique h hv (by simp) (by simp)
  rw [hu] at hretry
  cases role <;> cases hretry

theorem Collects.ended (h : Collects role obs s) {r : EStateM.Result Fault Orch Flow}
    (hr : watch role obs s i = r) (hended : ∀ t, r ≠ .ok .again t) :
    ∃ u, r = .ok .done u ∧ u.ctx.runState = .outputCollect role := by
  obtain ⟨n, u, hu, hstate⟩ := h.collected
  exact ⟨u, (loop_unique hu hr (by simp) hended).symm, hstate⟩

theorem Collects.finds (h : Collects role obs s) (hs : Launched role ts s)
    (hc : (obs i).cancelledAtTop = false ∧ (obs i).cancelledAfterWait = false)
    (ht : Reaches role obs s i t) (ha : t.ctx.attempt = some a) :
    ∃ p, Finds role obs s i (a.polled (obs i)) p := by
  have hpolled : (t.pollChild (obs i)).ctx.attempt = some (a.polled (obs i)) := by
    apply pollChild_polled _ ha
    rw [ht.sameRun.activeProcess]
    exact hs.process
  cases hobserved : observeProbe role (obs i) (t.pollChild (obs i)) with
  | ok p u => exact ⟨p, t, u, ht, hpolled, hobserved⟩
  | error e u =>
    have hfailed := doMonitorProbe_error (by rw [hc.1, hc.2]; rfl) hobserved
    obtain ⟨v, hv, -⟩ := h.ended (loop_succ ht) (hfailed .again)
    exact absurd hv (hfailed .done v)

theorem collects_of_polled (h : Written role obs s k) (hs : Launched role ts s) (hi : k ≤ i)
    (hf : Finds role obs s i a p) (hpid : a.pid = none) : Collects role obs s := by
  cases h.turned hs hi hf with
  | collected _ hdone hstate => exact .of_done hdone hstate
  | discarded hsome _ _ _ | stopped hsome _ _ _ _ _ | held hsome _ _ _ => simp [hpid] at hsome

theorem collects_of_ends (h : Written role obs s k) (hs : Launched role ts s) (hi : k ≤ i)
    (hends : Ends role obs s i) : Collects role obs s := by
  obtain ⟨a, p, hf, hexit | ⟨hspared, hover, b, q, hnext⟩⟩ := hends
  · apply collects_of_polled h hs hi hf
    obtain ⟨t, u, b, -, -, rfl, -, -⟩ := hf.polled hs
    rw [polled_pid, if_pos hexit]
  · cases h.turned hs hi hf with
    | collected _ hdone hstate => exact .of_done hdone hstate
    | discarded _ hdue _ _ => simp [hspared] at hdue
    | held _ _ hnot _ => simp [hover] at hnot
    | stopped _ _ _ hreaches hattempt hnone =>
      apply collects_of_polled h hs (Nat.le_succ_of_le hi) hnext
      obtain ⟨t, u, c, ht, hc, rfl, -, -⟩ := hnext.polled hs
      cases hreaches.unique ht
      rw [hattempt, Option.some.injEq] at hc
      subst hc
      rw [polled_pid, hnone, ite_self]

theorem Written.held (h : Written role obs s k) (hs : Launched role ts s) :
    Held role obs s k := by
  obtain ⟨a, p, hf, halive, -⟩ := h.found
  have hsome : a.pid.isSome = true := by
    rw [(collectProbeSignals_ok (observed_of_finds hf).2.2).1, Bool.and_eq_true] at halive
    exact halive.1
  obtain ⟨t, u, b, ht, hb, rfl, -, -⟩ := hf.polled hs
  refine ⟨t, b, ht, hb, ?_⟩
  rw [polled_pid] at hsome
  split at hsome
  · cases hsome
  · exact hsome

theorem Collects.step (hc : Collects role obs s) (h : Written role obs s k)
    (hs : Launched role ts s) (hi : k ≤ i) (hheld : Held role obs s i) :
    Ends role obs s i ∨ Spares role obs s i ∧ Held role obs s (i + 1) := by
  obtain ⟨t, b, ht, hb, hsome⟩ := hheld
  obtain ⟨p, hf⟩ := hc.finds hs ⟨(h.uncancelled i hi).1, (h.uncancelled i hi).2.1⟩ ht hb
  cases h.turned hs hi hf with
  | collected hnone _ _ =>
    refine .inl ⟨_, p, hf, .inl ?_⟩
    rw [polled_pid] at hnone
    by_contra hexit
    rw [if_neg hexit] at hnone
    simp [hnone] at hsome
  | discarded _ _ hdone hretry => exact absurd hretry (hc.kept _ _ hdone)
  | stopped _ hspared hover hreaches hattempt _ =>
    have huncancelled := h.uncancelled (i + 1) (by omega)
    obtain ⟨q, hnext⟩ := hc.finds hs ⟨huncancelled.1, huncancelled.2.1⟩ hreaches hattempt
    exact .inl ⟨_, p, hf, .inr ⟨hspared, hover, _, q, hnext⟩⟩
  | held _ hspared _ hnext => exact .inr ⟨⟨_, p, hf, hspared⟩, hnext⟩

theorem collects_iff (h : Written role obs s k) (hs : Launched role ts s) :
    Collects role obs s ↔
      ∃ j ≥ k, (∀ i ≥ k, i < j → Spares role obs s i) ∧ Ends role obs s j := by
  constructor
  · intro hc
    by_contra hno
    have hheld : ∀ i ≥ k, (∀ i' ≥ k, i' < i → Spares role obs s i') ∧ Held role obs s i := by
      intro i hi
      induction i, hi using Nat.le_induction with
      | base => exact ⟨by omega, h.held hs⟩
      | succ i hi ih =>
        obtain hends | ⟨hspared, hnext⟩ := hc.step h hs hi ih.2
        · exact absurd ⟨i, hi, ih.1, hends⟩ hno
        · refine ⟨?_, hnext⟩
          intro i' hi' hlt
          obtain hlt | rfl := Nat.lt_succ_iff_lt_or_eq.mp hlt
          · exact ih.1 i' hi' hlt
          · exact hspared
    obtain ⟨n, u, hu, -⟩ := hc.collected
    obtain ⟨-, t, a, ht, -, -⟩ := hheld (max n k) (by omega)
    have hdone := loop_of_le hu (by simp) (le_max_left n k)
    rw [Reaches, watch, hdone] at ht
    cases ht
  · rintro ⟨j, hj, -, hends⟩
    exact collects_of_ends h hs hj hends

end Probes

namespace Sample

def writtenAt (n mtime : Nat) (log : Option Nat) : ProbeObs :=
  { logAt n log with outboxMeta := .ok ⟨64, time mtime⟩ }

def lingering : Nat → ProbeObs
  | 0 => writtenAt 5 5 none
  | _ + 1 => writtenAt 65 5 none

def late : Nat → ProbeObs
  | 0 => logAt 5 (some 5)
  | _ + 1 => writtenAt 430 429 none

end Sample

open Sample in
theorem late_discarded :
    Launched .executor (time 0) launched ∧ Written .executor late launched 1 ∧
      ¬Collects .executor late launched := by
  have hdone : leavesFor late 2 .roundRetryDecide = true := by decide +kernel
  refine ⟨launched_launched, ?_, ?_⟩
  · constructor
    · simpa using exists_of_sees late 1 (fun _ p => p.signals.processAlive &&
        outboxPresentRecent p.attempt p.signals.outboxMeta) (by decide +kernel)
    · intro i hi
      obtain ⟨i, rfl⟩ := Nat.exists_eq_add_of_le' hi
      exact ⟨_, rfl, by decide⟩
    · intro i hi
      obtain ⟨i, rfl⟩ := Nat.exists_eq_add_of_le' hi
      exact ⟨rfl, rfl, rfl⟩
    · intro i hi a p hf
      have hlt := lt_of_leavesFor hdone hf
      obtain rfl : i = 1 := by omega
      simpa using test_of_sees (show sees late 1 (fun _ p => p.error.isNone) = true by
        decide +kernel) hf
  · intro hc
    obtain ⟨u, hu, hretry⟩ := done_of_leavesFor hdone
    exact hc.kept 2 u hu hretry

open Sample in
theorem collects_iff_lingering : Collects .executor lingering launched := by
  have hdone : leavesFor lingering 3 .executorOutputCollect = true := by decide +kernel
  have hwritten : Written .executor lingering launched 0 := by
    constructor
    · simpa using exists_of_sees lingering 0 (fun _ p => p.signals.processAlive &&
        outboxPresentRecent p.attempt p.signals.outboxMeta) (by decide +kernel)
    · intro i _
      cases i <;> exact ⟨_, rfl, by decide⟩
    · intro i _
      cases i <;> exact ⟨rfl, rfl, rfl⟩
    · intro i _ a p hf
      have hlt := lt_of_leavesFor hdone hf
      obtain rfl | rfl | rfl : i = 0 ∨ i = 1 ∨ i = 2 := by omega
      · simpa using test_of_sees (show sees lingering 0 (fun _ p => p.error.isNone) = true by
          decide +kernel) hf
      · simpa using test_of_sees (show sees lingering 1 (fun _ p => p.error.isNone) = true by
          decide +kernel) hf
      · simpa using test_of_sees (show sees lingering 2 (fun _ p => p.error.isNone) = true by
          decide +kernel) hf
  apply (collects_iff hwritten launched_launched).mpr
  refine ⟨1, by decide, ?_, ?_⟩
  · intro i _ hi
    obtain rfl : i = 0 := by omega
    obtain ⟨a, p, hf, htest⟩ := exists_of_sees lingering 0
      (fun a p => !hangDue a p.signals (lingering 0)) (by decide +kernel)
    exact ⟨a, p, hf, by simpa using htest⟩
  · obtain ⟨a, p, hf, htest⟩ := exists_of_sees lingering 1
      (fun a p => !hangDue a p.signals (lingering 1) && overdue p (lingering 1))
      (by decide +kernel)
    obtain ⟨b, q, hq, -⟩ := exists_of_sees lingering 2 (fun _ _ => true) (by decide +kernel)
    simp only [Bool.and_eq_true, Bool.not_eq_true'] at htest
    exact ⟨a, p, hf, .inr ⟨htest.1, htest.2, b, q, hq⟩⟩

end Orchestrator

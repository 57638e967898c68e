import Orchestrator.Attempts

namespace Orchestrator

open Rust Exec Trace

structure HangFound (o : ProbeObs) (a : AttemptStateData) (p : Probe) : Prop where
  plain : p.Plain o
  running : a.pid.isSome
  grace : graceActive (graceDeadline p.attempt) o.now = false
  due : hangDue a p.signals o = true

theorem HangFound.alive {o : ProbeObs} {a : AttemptStateData} {p : Probe}
    (h : HangFound o a p) (hbelow : hangMaxExceeded a o.now = false) :
    logStale a p.signals o = true ∧ p.signals.processAlive = true ∧
      workStale a.lastWorkSignalTs o.now = true := by
  have hdue := h.due
  simp only [hangDue, hbelow, Bool.or_false, Bool.and_eq_true] at hdue
  exact hdue

theorem workStale_iff {last now : Int} :
    workStale (some last) now = true ↔ last + seconds hangConfirmSec ≤ now := by
  simp only [workStale, Option.map_some, Option.getD_some, decide_eq_true_eq,
    le_secondsSince (show 0 < hangConfirmSec by decide)]
  omega

theorem logOld_iff {mtime : Option Int} {clock : Int} :
    logOld mtime clock = true ↔ ∃ m, mtime = some m ∧ m + seconds hangConfirmSec ≤ clock := by
  cases mtime with
  | none => simp [logOld]
  | some m =>
    have hold : m + seconds hangConfirmSec ≤ clock ↔
        ∃ d, elapsed clock m = some d ∧ hangConfirmSec ≤ d := by
      rw [le_elapsed (show 0 < hangConfirmSec by decide)]
      omega
    simp only [logOld, Option.bind_some, Option.some.injEq, exists_eq_left', hold]
    cases elapsed clock m <;> simp

section Probes

variable [Crates] {role : AgentRole} {ts : Int} {o : ProbeObs} {s t u v : Orch} {p q : Probe}
  {obs : Nat → ProbeObs} {n k : Nat} {a b : AttemptStateData}

theorem doMonitorProbe_routed (hc : (o.cancelledAtTop || o.cancelledAfterWait) = false)
    (h : observeProbe role o (t.pollChild o) = .ok p u) :
    ∃ v, Classified role o t p (p.classify t.ctx.args.workflowType role o) v ∧
      doMonitorProbe role o t =
        .ok (route role o.now p (p.classify t.ctx.args.workflowType role o) v).1
          (route role o.now p (p.classify t.ctx.args.workflowType role o) v).2 := by
  cases hres : doMonitorProbe role o t with
  | error e w =>
    have himpossible : wp (doMonitorProbe role o) (fun _ _ => True) (fun _ _ => False) t := by
      simp [doMonitorProbe, hc, wp_iff_of_ok h, OrchM.wp_ctx, OrchM.wp_modifyCtx]
    exact (wp_of_error himpossible hres).elim
  | ok flow w =>
    cases wp_of_ok (doMonitorProbe_spec role o t) hres with
    | aborted hcancelled => simp [hc] at hcancelled
    | routed hcl =>
      obtain ⟨u', hu'⟩ := hcl.observed
      rw [h] at hu'
      cases hu'
      cases hcl.state_eq
      exact ⟨_, hcl, rfl⟩

theorem doMonitorProbe_error {e : Fault} (hc : (o.cancelledAtTop || o.cancelledAfterWait) = false)
    (h : observeProbe role o (t.pollChild o) = .error e u) :
    ∀ flow v, doMonitorProbe role o t ≠ .ok flow v := by
  intro flow v hres
  have himpossible : wp (doMonitorProbe role o) (fun _ _ => False) (fun _ _ => True) t := by
    simp [doMonitorProbe, hc, wp_iff_of_error h]
  exact wp_of_ok himpossible hres

theorem classify_hangConfirmed_iff {w : WorkflowType}
    (hp : p.attempt = attemptAfter role p.signals o.now a) :
    p.classify w role o = .hangConfirmed ↔ HangFound o a p := by
  constructor
  · intro h
    have hj := classify_justified (probeSnapshot w role p.attempt p.signals p.changed
      (p.error.map ProviderErrorMatch.errorClass) o) o.now
    rw [show classify _ o.now = .hangConfirmed from h] at hj
    obtain ⟨hgrace, hexited, -, hcancelled, herror, hrule⟩ := hj
    have hpid : a.pid.isSome := by
      rw [← attemptAfter_pid role p.signals o.now, ← hp]
      simpa [probeSnapshot] using hexited
    refine ⟨⟨hcancelled, by simpa [probeSnapshot] using herror⟩, hpid, hgrace, ?_⟩
    rwa [hp, hangRule_running hpid] at hrule
  · intro h
    rw [classify_running h.plain hp h.running, h.grace, h.due]
    rfl

/-- A hang that probe `k` confirms below the ceiling is one: no work signal has changed for
`hangConfirmSec`, and the session log is stale. -/
def HangSound (role : AgentRole) (ts : Int) (obs : Nat → ProbeObs) (s : Orch) (k : Nat) : Prop :=
  ∀ a p, Finds role obs s k a p →
    p.classify s.ctx.args.workflowType role (obs k) = .hangConfirmed →
    secondsSince (obs k).now ts < hangMaxWithWorkSignalsSec →
    (∀ i ≤ k, ChangedAt role obs s i → (obs i).now + seconds hangConfirmSec ≤ (obs k).now) ∧
      providerStale p.attempt p.signals (obs k).logClock = true

/-- The clock has been set back since a change that probe `k` finds less than
`hangConfirmSec` old. -/
def SetBack (role : AgentRole) (obs : Nat → ProbeObs) (s : Orch) (k : Nat) : Prop :=
  ∃ i j, i ≤ j ∧ j < k ∧ (obs j).now < (obs i).now ∧ ChangedAt role obs s i ∧
    (obs k).now < (obs i).now + seconds hangConfirmSec

theorem not_setBack (hclock : ∀ i j, i ≤ j → (obs i).now ≤ (obs j).now) :
    ¬SetBack role obs s k := by
  rintro ⟨i, j, hij, -, hback, -, -⟩
  exact absurd (hclock i j hij) (Int.not_le.mpr hback)

theorem hang_sound_iff (hs : Launched role ts s) :
    (∀ k, HangSound role ts obs s k) ↔
      ∀ k a p, Finds role obs s k a p → HangFound (obs k) a p →
        secondsSince (obs k).now ts < hangMaxWithWorkSignalsSec →
        workSignalsChanged a p.signals = false ∧ ¬SetBack role obs s k := by
  constructor
  · intro hsound k a p hf hfound hbelow
    obtain ⟨hp, hchanged, -⟩ := observed_of_finds hf
    obtain ⟨hquiet, -⟩ := hsound k a p hf ((classify_hangConfirmed_iff hp).mpr hfound) hbelow
    constructor
    · rw [← hchanged, Bool.eq_false_iff]
      intro hc
      have hk := hquiet k (le_refl k) (hf.changedAt_iff.mpr hc)
      simp only [seconds, hangConfirmSec] at hk
      omega
    · rintro ⟨i, j, hij, hj, -, hc, hrecent⟩
      exact absurd (hquiet i (by omega) hc) (not_le.mpr hrecent)
  · intro hcond k a p hf hverdict hbelow
    obtain ⟨hp, hchanged, -⟩ := observed_of_finds hf
    have hfound := (classify_hangConfirmed_iff hp).mp hverdict
    have hw := watched_of_finds hs hf
    obtain ⟨hunchanged, hclock⟩ := hcond k a p hf hfound hbelow
    have hceiling : hangMaxExceeded a (obs k).now = false := by
      simpa [hangMaxExceeded, hw.dispatchTs] using hbelow
    obtain ⟨hlog, -, hstale⟩ := hfound.alive hceiling
    refine ⟨?_, by rw [hp, providerStale_running hfound.running, hlog]⟩
    intro i hi hc
    have hik : i ≠ k := by
      rintro rfl
      rw [hf.changedAt_iff, hchanged, hunchanged] at hc
      cases hc
    obtain ⟨last, hlast, hbefore⟩ := hw.lastWork
    obtain ⟨j, hij, hj, rfl⟩ := hbefore i (by omega) hc
    rw [hlast, workStale_iff] at hstale
    by_contra hrecent
    exact hclock ⟨i, j, hij, hj, by omega, hc, by omega⟩

end Probes

namespace Sample

def logAt (n : Nat) (mtime : Option Nat) : ProbeObs :=
  { probeAt n with codexLogMtime := .ok (mtime.map time) }

def building : Nat → ProbeObs
  | 0 => logAt 5 (some 5)
  | _ + 1 => { logAt 430 none with liveChildren := true }

def silent : Nat → ProbeObs
  | 0 => logAt 5 (some 5)
  | _ + 1 => logAt 430 (some 5)

def concludes (obs : Nat → ProbeObs) (n : Nat) (p : Probe) (state : AttemptState) : Bool :=
  decide (p.classify launched.ctx.args.workflowType .executor (obs n) = state)

end Sample

open Sample in
theorem building_hangConfirmed :
    Launched .executor (time 0) launched ∧ ¬HangSound .executor (time 0) building launched 1 := by
  refine ⟨launched_launched, ?_⟩
  intro hsound
  obtain ⟨a, p, hf, htest⟩ := exists_of_sees building 1
    (fun _ p => concludes building 1 p .hangConfirmed && p.changed) (by decide +kernel)
  simp only [concludes, Bool.and_eq_true, decide_eq_true_eq] at htest
  have hquiet := (hsound a p hf htest.1 (by decide +kernel)).1 1 (le_refl 1)
    (hf.changedAt_iff.mpr htest.2)
  exact absurd hquiet (by decide +kernel)

open Sample in
theorem hang_sound_iff_silent :
    (∀ k, HangSound .executor (time 0) silent launched k) ∧
      ∃ a p, Finds .executor silent launched 1 a p ∧
        concludes silent 1 p .hangConfirmed = true := by
  constructor
  · apply (hang_sound_iff launched_launched).mpr
    intro k a p hf hfound _
    have hk : k < 2 := lt_of_leavesFor
      (show leavesFor silent 2 .roundRetryDecide = true by decide +kernel) hf
    obtain rfl | rfl : k = 0 ∨ k = 1 := by omega
    · have hspared := test_of_sees (show sees silent 0
        (fun a p => !hangDue a p.signals (silent 0)) = true by decide +kernel) hf
      simp [hfound.due] at hspared
    · refine ⟨?_, ?_⟩
      · simpa using test_of_sees (show sees silent 1
          (fun a p => !workSignalsChanged a p.signals) = true by decide +kernel) hf
      · apply not_setBack
        have hlater : time 5 ≤ time 430 := by decide
        intro i j hij
        cases i with
        | zero =>
          cases j with
          | zero => exact Int.le_refl _
          | succ j => exact hlater
        | succ i =>
          obtain ⟨j, rfl⟩ := Nat.exists_eq_add_of_le' (Nat.le_trans (Nat.succ_pos i) hij)
          exact Int.le_refl _
  · exact exists_of_sees silent 1 (fun _ p => concludes silent 1 p .hangConfirmed)
      (by decide +kernel)

structure Unproductive (obs : Nat → ProbeObs) (k : Nat) : Prop where
  waits : ∀ i ≤ k, (obs i).tryWait = none
  alive : ∀ i ≤ k, (obs i).procExists = true
  outbox : ∀ i ≤ k, ∀ m, (obs i).outboxMeta = .ok m → m.size = 0

theorem outbox_of_fileMeta {r : IoResult FileMeta} {m : Option FileMeta} (h : fileMeta r = .ok m)
    (hm : nonEmptyOutbox m = true) : ∃ m', r = .ok m' ∧ 0 < m'.size := by
  cases m with
  | none => simp [nonEmptyOutbox] at hm
  | some m =>
    refine ⟨m, ?_, by simpa [nonEmptyOutbox] using hm⟩
    cases r with
    | ok m' => simpa [fileMeta, noneIfMissing, ofIo] using h
    | error e =>
      simp only [fileMeta, noneIfMissing] at h
      split at h <;> simp [ofIo] at h

section Ceiling

variable [Crates] {role : AgentRole} {ts : Int} {o : ProbeObs} {s t u v : Orch} {p q : Probe}
  {obs : Nat → ProbeObs} {n k : Nat} {a b : AttemptStateData}

theorem Unproductive.running (h : Unproductive obs k) (hs : Launched role ts s) (hn : n ≤ k)
    (ht : Reaches role obs s n t) : ∃ a, t.ctx.attempt = some a ∧ a.pid.isSome := by
  induction n generalizing t with
  | zero =>
    cases ht
    obtain ⟨pid, fingerprint, statusHash, headHash, mtime, ha⟩ := hs.attempt
    exact ⟨_, ha, rfl⟩
  | succ n ih =>
    obtain ⟨u, hu⟩ := again_of_le ht (Nat.le_succ n)
    obtain ⟨a, ha, hpid⟩ := ih (by omega) hu
    rw [Reaches, watch, loop_succ hu] at ht
    obtain ⟨p, a', b, v, hobserved, ha', -, hb, honward⟩ := again_onward ht
    have hpolled : (u.pollChild (obs n)).ctx.attempt = some a := by
      rw [pollChild_polled _ ha, AttemptStateData.polled, h.waits n (by omega)]
      rw [Reaches.sameRun hu |>.activeProcess]
      exact hs.process
    cases ha'.symm.trans hpolled
    have hsignals := (observed_of_finds ⟨u, v, hu, ha', hobserved⟩).2.2
    refine ⟨b, hb, ?_⟩
    obtain hsame | houtbox := honward.pid
    · rwa [hsame]
    · obtain ⟨m, hm, hsize⟩ :=
        outbox_of_fileMeta (collectProbeSignals_ok hsignals).2.2.1 houtbox
      exact absurd (h.outbox n (by omega) m hm) (by omega)

def LogStaleAt (role : AgentRole) (obs : Nat → ProbeObs) (s : Orch) (k : Nat) (p : Probe) : Prop :=
  (p.signals.providerLogMtime = none ∧ ∃ i < k, LogSeenAt role obs s i) ∨
    ∃ m, p.signals.providerLogMtime = some m ∧ m + seconds hangConfirmSec ≤ (obs k).logClock

theorem logStale_iff (hs : Launched role ts s) (hf : Finds role obs s k a p) :
    logStale a p.signals (obs k) = true ↔ LogStaleAt role obs s k p := by
  rw [logStale, Bool.or_eq_true, Bool.and_eq_true, (watched_of_finds hs hf).logSeen, logOld_iff,
    LogStaleAt, Option.isNone_iff_eq_none, and_comm]

theorem hangConfirmed_beyond_ceiling (hs : Launched role ts s) (hf : Finds role obs s k a p)
    (hrun : Unproductive obs k) (hgrace : graceActive (graceDeadline p.attempt) (obs k).now = false)
    (hcancel : (obs k).cancelledAtTop = false ∧ (obs k).cancelledAfterWait = false ∧
      (obs k).cancelledAtSnapshot = false)
    (herror : p.error = none) (hceiling : hangMaxWithWorkSignalsSec ≤ secondsSince (obs k).now ts) :
    (p.classify s.ctx.args.workflowType role (obs k) = .hangConfirmed ↔
      LogStaleAt role obs s k p) ∧
    (LogStaleAt role obs s k p → ∃ u, watch role obs s (k + 1) = .ok .done u ∧
      u.ctx.runState = .roundRetryDecide) := by
  obtain ⟨t, u, b, ht, hb, rfl, -, hu⟩ := hf.polled hs
  obtain ⟨hp, -, hsignals⟩ := observed_of_finds hf
  obtain ⟨b', hb', hpid⟩ := hrun.running hs (le_refl k) ht
  rw [hb, Option.some.injEq] at hb'
  subst hb'
  have hpolled : b.polled (obs k) = b := by
    rw [AttemptStateData.polled, hrun.waits k (le_refl k)]
  rw [hpolled] at hf hp hsignals
  have hexceeded : hangMaxExceeded b (obs k).now = true := by
    simpa [hangMaxExceeded, (watched_of_finds hs hf).dispatchTs] using hceiling
  have hfound : HangFound (obs k) b p ↔ LogStaleAt role obs s k p := by
    rw [← logStale_iff hs hf]
    constructor
    · intro h
      have hdue := h.due
      simp only [hangDue, Bool.and_eq_true] at hdue
      exact hdue.1
    · intro hlog
      exact ⟨⟨hcancel.2.2, herror⟩, hpid, hgrace, by simp [hangDue, hlog, hexceeded]⟩
  refine ⟨(classify_hangConfirmed_iff hp).trans hfound, fun hlog => ?_⟩
  obtain ⟨v, hclassified, hrouted⟩ := doMonitorProbe_routed
    (by rw [hcancel.1, hcancel.2.1]; rfl) hu
  rw [ht.sameRun.args, (classify_hangConfirmed_iff hp).mpr (hfound.mpr hlog)] at hrouted
  exact ⟨_, by rw [watch, loop_succ ht]; exact hrouted, rfl⟩

end Ceiling

namespace Sample

def endless : Nat → ProbeObs
  | 0 => { logAt 5 (some 5) with liveChildren := true }
  | _ + 1 => { logAt 2500 none with liveChildren := true }

def unseen (_ : Nat) : ProbeObs := logAt 2500 none

end Sample

open Sample in
theorem unseen_waits :
    Launched .executor (time 0) launched ∧ Unproductive unseen 0 ∧
      hangMaxWithWorkSignalsSec ≤ secondsSince (unseen 0).now (time 0) ∧
      ∃ a p, Finds .executor unseen launched 0 a p ∧ p.signals.providerLogMtime = none ∧
        p.Plain (unseen 0) ∧ graceActive (graceDeadline p.attempt) (unseen 0).now = false ∧
        p.classify launched.ctx.args.workflowType .executor (unseen 0) = .waitingOutput := by
  refine ⟨launched_launched, ?_, by decide +kernel, ?_⟩
  · constructor
    · exact fun _ _ => rfl
    · exact fun _ _ => rfl
    · exact fun _ _ _ h => nomatch h
  · obtain ⟨a, p, hf, htest⟩ := exists_of_sees unseen 0
      (fun _ p => p.signals.providerLogMtime.isNone && p.error.isNone &&
        !graceActive (graceDeadline p.attempt) (unseen 0).now &&
        concludes unseen 0 p .waitingOutput) (by decide +kernel)
    simp only [concludes, Bool.and_eq_true, Option.isNone_iff_eq_none, Bool.not_eq_true',
      decide_eq_true_eq] at htest
    exact ⟨a, p, hf, htest.1.1.1, ⟨rfl, htest.1.1.2⟩, htest.1.2, htest.2⟩

open Sample in
theorem hangConfirmed_beyond_ceiling_endless :
    ∃ u, watch .executor endless launched 2 = .ok .done u ∧
      u.ctx.runState = .roundRetryDecide := by
  have hrun : Unproductive endless 1 := by
    constructor
    · intro i _
      cases i <;> rfl
    · intro i _
      cases i <;> rfl
    · intro i _ m h
      cases i <;> cases h
  obtain ⟨a, p, hf, htest⟩ := exists_of_sees endless 1
    (fun _ p => p.signals.providerLogMtime.isNone && p.error.isNone &&
      !graceActive (graceDeadline p.attempt) (endless 1).now) (by decide +kernel)
  simp only [Bool.and_eq_true, Option.isNone_iff_eq_none, Bool.not_eq_true'] at htest
  obtain ⟨b, q, hq, hseen⟩ := exists_of_sees endless 0
    (fun _ p => p.signals.providerLogMtime.isSome) (by decide +kernel)
  exact (hangConfirmed_beyond_ceiling launched_launched hf hrun htest.2 ⟨rfl, rfl, rfl⟩ htest.1.2
    (by decide +kernel)).2 (.inl ⟨htest.1.1, 0, by decide, hq.logSeenAt_iff.mpr hseen⟩)

end Orchestrator

import Orchestrator.Grace

namespace Orchestrator

open Rust Exec Trace

def AttemptStateData.grace (a : AttemptStateData) : Option Int × Option Int :=
  (a.graceUntilCommit, a.graceUntilOutbox)

def AttemptStateData.graceProbe (a : AttemptStateData) (sig : ProbeSignals) (now : Int) :
    GraceProbe where
  gitDirty := sig.gitStatusHash ≠ a.dispatchGitStatusHash
  gitCommitted := sig.gitHeadHash ≠ a.dispatchGitHeadHash
  outboxPresent := nonEmptyOutbox sig.outboxMeta
  now := now

structure Stays (a b : AttemptStateData) : Prop where
  statusHash : b.dispatchGitStatusHash = a.dispatchGitStatusHash
  headHash : b.dispatchGitHeadHash = a.dispatchGitHeadHash
  exited : a.pid = none → b.pid = none

section Stays

variable {a b c : AttemptStateData} {role : AgentRole} {sig : ProbeSignals} {now : Int}

theorem Stays.refl : Stays a a := ⟨rfl, rfl, id⟩

theorem Stays.trans (h : Stays a b) (h' : Stays b c) : Stays a c :=
  ⟨h'.statusHash.trans h.statusHash, h'.headHash.trans h.headHash, h'.exited ∘ h.exited⟩

theorem Stays.graceProbe (h : Stays a b) : b.graceProbe sig now = a.graceProbe sig now := by
  rw [AttemptStateData.graceProbe, h.statusHash, h.headHash, AttemptStateData.graceProbe]

theorem stays_polled (o : ProbeObs) : Stays a (a.polled o) := by
  rw [AttemptStateData.polled]
  cases o.tryWait with
  | none => exact .refl
  | some code => exact ⟨rfl, rfl, fun _ => rfl⟩

theorem stays_recordProbe (state : AttemptState) (changed : Bool) :
    Stays a (recordProbe state changed now (attemptAfter role sig now a)) := by
  cases role <;> exact ⟨rfl, rfl, id⟩

theorem grace_polled (o : ProbeObs) : (a.polled o).grace = a.grace := by
  rw [AttemptStateData.polled]
  cases o.tryWait <;> rfl

theorem grace_attemptAfter : (attemptAfter .executor sig now a).grace =
    applyGraceTransitions (a.graceProbe sig now).gitDirty (a.graceProbe sig now).gitCommitted
      (a.graceProbe sig now).outboxPresent a.grace.1 a.grace.2 now := rfl

end Stays

section Probes

variable [Crates] {role : AgentRole} {ts : Int} {o : ProbeObs} {s t u v : Orch} {p q : Probe}
  {obs : Nat → ProbeObs} {f i j n k : Nat} {a a₀ b : AttemptStateData} {state : AttemptState}

theorem again_stays (h : doMonitorProbe role o t = .ok .again u)
    (ha : (t.pollChild o).ctx.attempt = some a) :
    ∃ b, u.ctx.attempt = some b ∧ Stays a b := by
  cases (wp_of_ok (doMonitorProbe_spec role o t) h).outcome with
  | @watched p state _ hc =>
    obtain ⟨a', ha', hp, -, -⟩ := hc.attempt
    obtain ⟨w, hw⟩ := hc.ctx
    rw [ha, Option.some.injEq] at ha'
    subst ha'
    exact ⟨_, by rw [hw], by rw [hp]; exact stays_recordProbe state p.changed⟩
  | @stopped p _ hc _ =>
    obtain ⟨a', ha', hp, -, -⟩ := hc.attempt
    obtain ⟨w, hw⟩ := hc.ctx
    rw [ha, Option.some.injEq] at ha'
    subst ha'
    have hstays : Stays a (recordProbe .finalizing p.changed o.now p.attempt) := by
      rw [hp]
      exact stays_recordProbe .finalizing p.changed
    refine ⟨{ recordProbe .finalizing p.changed o.now p.attempt with pid := none }, ?_, ?_⟩
    · simp [withoutProcess, hw]
    · exact ⟨hstays.statusHash, hstays.headHash, fun _ => rfl⟩

def found (role : AgentRole) (obs : Nat → ProbeObs) (s : Orch) (n : Nat) : Option Probe :=
  match watch role obs s n with
  | .ok .again t =>
    match observeProbe role (obs n) (t.pollChild (obs n)) with
    | .ok p _ => some p
    | .error _ _ => none
  | _ => none

theorem found_iff : found role obs s n = some p ↔ ∃ a, Finds role obs s n a p := by
  constructor
  · intro h
    revert h
    simp only [found]
    split
    · rename_i t ht
      split
      · rename_i q u hu
        rintro ⟨⟩
        obtain ⟨a, ha, -⟩ := (wp_of_ok (observeProbe_spec role (obs n) _) hu).attempt
        exact ⟨a, t, u, ht, ha, hu⟩
      · simp
    · simp
  · rintro ⟨a, t, u, ht, -, hu⟩
    rw [Reaches] at ht
    simp only [found, ht, hu]

def graceProbes (a : AttemptStateData) (obs : Nat → ProbeObs) (s : Orch) (n : Nat) : GraceProbe :=
  match found .executor obs s n with
  | some p => a.graceProbe p.signals (obs n).now
  | none => ⟨false, false, false, (obs n).now⟩

theorem graceProbes_of_finds (h : Finds .executor obs s n a p) :
    graceProbes a₀ obs s n = a₀.graceProbe p.signals (obs n).now := by
  rw [graceProbes, found_iff.mpr ⟨a, h⟩]

theorem graceProbes_now : (graceProbes a obs s n).now = (obs n).now := by
  rw [graceProbes]
  split <;> rfl

theorem stays_of_reaches (hs : Launched role ts s) (ha : s.ctx.attempt = some a₀)
    (h : Reaches role obs s n t) : ∃ a, t.ctx.attempt = some a ∧ Stays a₀ a ∧
      (role = .executor → a.grace = grace (graceProbes a₀ obs s) n) ∧
      ∀ i < n, ∀ b q, Finds role obs s i b q → Stays b a := by
  apply loop_invariant (P := fun n t => ∃ a, t.ctx.attempt = some a ∧ Stays a₀ a ∧
    (role = .executor → a.grace = grace (graceProbes a₀ obs s) n) ∧
    ∀ i < n, ∀ b q, Finds role obs s i b q → Stays b a) ?_ ?_ h
  · obtain ⟨pid, fingerprint, statusHash, headHash, mtime, hfresh⟩ := hs.attempt
    refine ⟨a₀, ha, .refl, fun _ => ?_, fun i hi => by omega⟩
    rw [hfresh, Option.some.injEq] at ha
    subst ha
    rfl
  · intro n u v hu ⟨a, ha, hstays, hgrace, hbefore⟩ hv
    have hpolled : (u.pollChild (obs n)).ctx.attempt = some (a.polled (obs n)) := by
      apply pollChild_polled _ ha
      rw [Reaches.sameRun hu |>.activeProcess]
      exact hs.process
    obtain ⟨p, a', b, w, hobserved, ha', hp, hb, honward⟩ := again_onward hv
    rw [hpolled, Option.some.injEq] at ha'
    subst ha'
    have hf : Finds role obs s n (a.polled (obs n)) p := ⟨u, w, hu, hpolled, hobserved⟩
    obtain ⟨b', hb', hnext⟩ := again_stays hv hpolled
    rw [hb, Option.some.injEq] at hb'
    subst hb'
    refine ⟨b, hb, (hstays.trans (stays_polled _)).trans hnext, ?_, ?_⟩
    · rintro rfl
      have hafter : b.grace = p.attempt.grace := by
        rw [AttemptStateData.grace, honward.graceUntilCommit, honward.graceUntilOutbox]
        rfl
      rw [hafter, hp, grace_attemptAfter, grace_polled, hgrace rfl, grace,
        graceProbes_of_finds hf, (hstays.trans (stays_polled _)).graceProbe]
      rfl
    · intro i hi c q hc
      obtain hi | rfl := Nat.lt_succ_iff_lt_or_eq.mp hi
      · exact ((hbefore i hi c q hc).trans (stays_polled _)).trans hnext
      · obtain ⟨rfl, rfl⟩ := hf.unique hc
        exact hnext

theorem finds_grace (hs : Launched .executor ts s) (ha : s.ctx.attempt = some a₀)
    (hf : Finds .executor obs s n a p) :
    p.attempt.grace = grace (graceProbes a₀ obs s) (n + 1) := by
  obtain ⟨t, u, b, ht, hb, rfl, -, -⟩ := hf.polled hs
  obtain ⟨hp, -, -⟩ := observed_of_finds hf
  obtain ⟨b', hb', hstays, hgrace, -⟩ := stays_of_reaches hs ha ht
  rw [hb, Option.some.injEq] at hb'
  subst hb'
  rw [hp, grace_attemptAfter, grace_polled, hgrace rfl, grace, graceProbes_of_finds hf,
    (hstays.trans (stays_polled _)).graceProbe]
  rfl

end Probes

theorem deadline_source {probes : Nat → GraceProbe} {n : Nat} {d : Int}
    (h : (grace probes n).2.or (grace probes n).1 = some d) :
    ∃ i < n, d = (probes i).now + seconds 180 ∧
      ((probes i).gitDirty = true ∨ (probes i).gitCommitted = true) ∧
      ∀ j, i ≤ j → j < n → (probes j).outboxPresent = false := by
  obtain ⟨hcommit, houtbox⟩ := granted_by probes n
  simp only [grace_eq_deadlines, Grants.deadlines, Option.or_eq_some_iff] at h
  obtain h | ⟨-, h⟩ := h
  · obtain ⟨t, ht, rfl⟩ := Option.map_eq_some_iff.mp h
    obtain ⟨i, hi, rfl, hflag, hmissing⟩ := houtbox t ht
    exact ⟨i, hi, rfl, .inr hflag, hmissing⟩
  · split at h
    · cases h
    · obtain ⟨t, ht, rfl⟩ := Option.map_eq_some_iff.mp h
      obtain ⟨i, hi, rfl, hflag, hmissing⟩ := hcommit t ht
      exact ⟨i, hi, rfl, .inl hflag, hmissing⟩

theorem softSuccessAllowed_iff {w : WorkflowType} {artifactMap : String → Option Bool} :
    softSuccessAllowed w artifactMap = true ↔
      ∀ name ∈ workflowArtifacts w, artifactMap name = some true := by
  cases w with
  | plan => cases h : artifactMap "PLAN.md" <;> simp [softSuccessAllowed, workflowArtifacts, h]
  | investigate =>
    cases h : artifactMap "INVESTIGATION.md" <;>
      simp [softSuccessAllowed, workflowArtifacts, h]
  | implement => simp [softSuccessAllowed, workflowArtifacts]

theorem checkSoftSuccessContract_iff {w : WorkflowType} {a : AttemptStateData}
    {sig : ProbeSignals} {now : Int} :
    checkSoftSuccessContract w .executor a sig now = true ↔
      a.pid = none ∧ (∃ d, graceDeadline a = some d ∧ d ≤ now) ∧
        nonEmptyOutbox sig.outboxMeta = false ∧ softSuccessAllowed w sig.artifactMap = true := by
  cases hpid : a.pid with
  | some pid => simp [checkSoftSuccessContract, hpid]
  | none =>
    cases hgrace : graceDeadline a with
    | none => simp [checkSoftSuccessContract, hpid, hgrace]
    | some d =>
      by_cases hd : d ≤ now
      · cases w <;> simp [checkSoftSuccessContract, softSuccessAllowed, hpid, hgrace, hd]
      · simp [checkSoftSuccessContract, hpid, hgrace, hd]

theorem artifactFilePresent_true {len : IoResult Nat} (h : artifactFilePresent len = .ok true) :
    ∃ n, len = .ok n ∧ 0 < n := by
  cases len with
  | ok n => exact ⟨n, rfl, by simpa [artifactFilePresent, noneIfMissing, ofIo, Except.map] using h⟩
  | error e =>
    simp only [artifactFilePresent, noneIfMissing] at h
    split at h <;> simp [ofIo, Except.map] at h

theorem probeArtifacts_true {artifactLen : String → IoResult Nat} {names : List String}
    {m : String → Option Bool} (h : probeArtifacts artifactLen names = .ok m) {name : String}
    (hm : m name = some true) : ∃ n, artifactLen name = .ok n ∧ 0 < n := by
  induction names generalizing m with
  | nil =>
    cases h
    cases hm
  | cons first names ih =>
    simp only [probeArtifacts] at h
    cases hpresent : artifactFilePresent (artifactLen first) with
    | error e => simp [hpresent] at h
    | ok present =>
      cases hrest : probeArtifacts artifactLen names with
      | error e => simp [hpresent, hrest, Except.map] at h
      | ok rest =>
        simp only [hpresent, hrest, Except.map, Except.ok.injEq] at h
        subst h
        obtain hm | ⟨-, hm⟩ := Option.or_eq_some_iff.mp hm
        · exact ih hrest hm
        · split at hm
          · rename_i hname
            cases hm
            rw [hname]
            exact artifactFilePresent_true hpresent
          · cases hm

section Probes

variable [Crates] {role : AgentRole} {ts : Int} {o : ProbeObs} {s t u v : Orch} {p q : Probe}
  {obs : Nat → ProbeObs} {f i j n k : Nat} {a a₀ b : AttemptStateData} {state : AttemptState}

/-- What a soft success rests on; `a` is the attempt as it was dispatched. -/
structure SoftSuccess (a : AttemptStateData) (obs : Nat → ProbeObs) (s : Orch) (k : Nat)
    (p : Probe) : Prop where
  exited : p.attempt.pid = none
  outbox : nonEmptyOutbox p.signals.outboxMeta = false
  worked : ∃ i < k, (obs i).now + seconds 180 ≤ (obs k).now ∧
    (∃ b q, Finds .executor obs s i b q ∧
      (q.signals.gitStatusHash ≠ a.dispatchGitStatusHash ∨
        q.signals.gitHeadHash ≠ a.dispatchGitHeadHash)) ∧
    ∀ j, i ≤ j → j ≤ k → ∀ b q, Finds .executor obs s j b q →
      nonEmptyOutbox q.signals.outboxMeta = false
  artifact : ∀ name ∈ workflowArtifacts s.ctx.args.workflowType,
    ∃ len, (obs k).artifactLen name = .ok len ∧ 0 < len

theorem Probe.softSuccess_contract {w : WorkflowType} (h : p.classify w role o = .softSuccess) :
    checkSoftSuccessContract w role p.attempt p.signals o.now = true := by
  have hj := classify_justified (probeSnapshot w role p.attempt p.signals p.changed
    (p.error.map ProviderErrorMatch.errorClass) o) o.now
  rwa [show Orchestrator.classify _ o.now = .softSuccess from h] at hj

theorem Classified.allowed (h : Classified .executor o t p .softSuccess v) :
    softSuccessAllowed v.ctx.args.workflowType v.ctx.artifactMap = true := by
  obtain ⟨w, hw⟩ := h.ctx
  rw [hw]
  exact (checkSoftSuccessContract_iff.mp (Probe.softSuccess_contract h.state_eq)).2.2.2

theorem found_of_flag (h : (graceProbes a obs s i).gitDirty = true ∨
    (graceProbes a obs s i).gitCommitted = true) :
    ∃ b q, Finds .executor obs s i b q ∧ (q.signals.gitStatusHash ≠ a.dispatchGitStatusHash ∨
      q.signals.gitHeadHash ≠ a.dispatchGitHeadHash) := by
  cases hfound : found .executor obs s i with
  | none => simp [graceProbes, hfound] at h
  | some q =>
    obtain ⟨b, hq⟩ := found_iff.mp hfound
    rw [graceProbes_of_finds hq] at h
    exact ⟨b, q, hq, by simpa [AttemptStateData.graceProbe] using h⟩

theorem softSuccess_worked (hs : Launched .executor ts s) (ha : s.ctx.attempt = some a₀)
    (hf : Finds .executor obs s k a p) {d : Int} (hd : graceDeadline p.attempt = some d)
    (hover : d ≤ (obs k).now) :
    ∃ i < k, (obs i).now + seconds 180 ≤ (obs k).now ∧
      (∃ b q, Finds .executor obs s i b q ∧ (q.signals.gitStatusHash ≠ a₀.dispatchGitStatusHash ∨
        q.signals.gitHeadHash ≠ a₀.dispatchGitHeadHash)) ∧
      ∀ j, i ≤ j → j ≤ k → ∀ b q, Finds .executor obs s j b q →
        nonEmptyOutbox q.signals.outboxMeta = false := by
  have hgrace := finds_grace hs ha hf
  have hdeadline : graceDeadline p.attempt = p.attempt.grace.2.or p.attempt.grace.1 := rfl
  rw [hdeadline, hgrace] at hd
  obtain ⟨i, hi, rfl, hflag, hmissing⟩ := deadline_source hd
  rw [graceProbes_now] at hover
  have hik : i ≠ k := by
    rintro rfl
    simp only [seconds] at hover
    omega
  refine ⟨i, by omega, hover, found_of_flag hflag, fun j hij hjk b q hq => ?_⟩
  have hoff := hmissing j hij (by omega)
  rwa [graceProbes_of_finds hq] at hoff

theorem softSuccess_of_classify (hs : Launched .executor ts s) (ha : s.ctx.attempt = some a₀)
    (hf : Finds .executor obs s k a p)
    (h : p.classify s.ctx.args.workflowType .executor (obs k) = .softSuccess) :
    SoftSuccess a₀ obs s k p := by
  obtain ⟨hpid, ⟨d, hd, hover⟩, houtbox, hallowed⟩ :=
    checkSoftSuccessContract_iff.mp (Probe.softSuccess_contract h)
  refine ⟨hpid, houtbox, softSuccess_worked hs ha hf hd hover, fun name hname => ?_⟩
  obtain ⟨-, -, hsignals⟩ := observed_of_finds hf
  exact probeArtifacts_true (collectProbeSignals_ok hsignals).2.2.2.2
    (softSuccessAllowed_iff.mp hallowed name hname)

structure TakenOn (obs : Nat → ProbeObs) (s : Orch) (k : Nat) (u : Orch) : Prop where
  done : watch .executor obs s (k + 1) = .ok .done u
  runState : u.ctx.runState = .executorOutputCollect
  allowed : softSuccessAllowed u.ctx.args.workflowType u.ctx.artifactMap = true
  outboxPresent : u.ctx.outboxPresent = false

theorem takenOn_of_classify (hf : Finds .executor obs s k a p)
    (hc : ((obs k).cancelledAtTop || (obs k).cancelledAfterWait) = false)
    (h : p.classify s.ctx.args.workflowType .executor (obs k) = .softSuccess) :
    ∃ u, TakenOn obs s k u := by
  obtain ⟨t, u, ht, -, hu⟩ := hf
  obtain ⟨v, hclassified, hrouted⟩ := doMonitorProbe_routed hc hu
  rw [ht.sameRun.args, h] at hclassified hrouted
  obtain ⟨-, -, houtbox, -⟩ := checkSoftSuccessContract_iff.mp (Probe.softSuccess_contract h)
  simp only [route, hclassified.allowed, houtbox] at hrouted
  refine ⟨_, (loop_succ ht).trans hrouted, rfl, hclassified.allowed, rfl⟩

theorem Probed.not_failedProtocol {flow : Flow} (h : Probed .executor o t flow u)
    (hdone : flow = .done) : u.ctx.runState ≠ .runFailedProtocol := by
  cases h with
  | aborted _ => simp [Orch.abort]
  | @routed p state v hc =>
    cases state with
    | softSuccess => simp [route, routeResult, hc.allowed, RunState.outputCollect]
    | success => simp [route, routeResult, RunState.outputCollect]
    | failedServiceCap | failedProviderAccess | cancelled => simp [route]
    | failedTransport | failedSilent | failedProtocol | hangConfirmed =>
      simp [route, retryAttempt]
    | finalizing | running | waitingOutput | unknown => cases hdone
    | dispatching | terminatingStale | retryPending | retryExhausted => cases hdone

theorem softSuccess_law (hs : Launched .executor ts s) (ha : s.ctx.attempt = some a₀) :
    (∀ k a p, Finds .executor obs s k a p →
      p.classify s.ctx.args.workflowType .executor (obs k) = .softSuccess →
        SoftSuccess a₀ obs s k p ∧
        (((obs k).cancelledAtTop || (obs k).cancelledAfterWait) = false →
          ∃ u, TakenOn obs s k u)) ∧
    ∀ n u, watch .executor obs s n = .ok .done u → u.ctx.runState ≠ .runFailedProtocol := by
  constructor
  · intro k a p hf h
    exact ⟨softSuccess_of_classify hs ha hf h, fun hc => takenOn_of_classify hf hc h⟩
  · intro n u hdone
    obtain ⟨k, t, -, hlast⟩ := last_of_done hdone
    exact (wp_of_ok (doMonitorProbe_spec .executor (obs k) t) hlast).not_failedProtocol rfl

end Probes

namespace Sample

def unreported : Nat → ProbeObs
  | 0 => { probeAt 5 with gitStatus := git " M src/lib.rs\n" }
  | _ + 1 => { probeAt 185 with
      gitStatus := git " M src/lib.rs\n"
      tryWait := some (some 0)
      procExists := false }

end Sample

open Sample in
theorem softSuccess_law_unreported : ∃ a₀ a p, Finds .executor unreported launched 1 a p ∧
    SoftSuccess a₀ unreported launched 1 p ∧ ∃ u, TakenOn unreported launched 1 u := by
  obtain ⟨a, p, hf, htest⟩ := exists_of_sees unreported 1
    (fun _ p => concludes unreported 1 p .softSuccess) (by decide +kernel)
  simp only [concludes, decide_eq_true_eq] at htest
  obtain ⟨_, _, _, _, _, ha⟩ := launched_launched.attempt
  obtain ⟨hsoft, htaken⟩ := (softSuccess_law launched_launched ha).1 1 a p hf htest
  exact ⟨_, a, p, hf, hsoft, htaken rfl⟩

def AttemptState.Ended : AttemptState → Prop
  | .success | .softSuccess | .failedSilent | .failedProtocol | .failedServiceCap
  | .cancelled => True
  | _ => False

theorem AttemptState.Ended.route_done {role : AgentRole} {now : Int} {p : Probe} {s : Orch}
    {state : AttemptState} (h : state.Ended) : (route role now p state s).1 = .done := by
  cases state with
  | success | softSuccess | failedServiceCap | failedSilent | failedProtocol | cancelled => rfl
  | failedProviderAccess | failedTransport | hangConfirmed | finalizing | running
  | waitingOutput | unknown | dispatching | terminatingStale | retryPending
  | retryExhausted => exact h.elim

theorem classify_ended {s : ProbeSnapshot} {now : Int}
    (herror : s.providerError = none ∨ s.providerError = some .serviceCap)
    (hexit : s.processExited = true) (hstale : s.providerActivityAfterExitIsFresh = false)
    (hgrace : graceActive s.graceDeadline now = false) : (classify s now).Ended := by
  have hboundary : s.finalResultBoundaryReached now = true := by
    simp [ProbeSnapshot.finalResultBoundaryReached, hgrace, hexit, hstale]
  obtain herror | herror := herror
  · simp only [classify, herror, hexit, hstale, hgrace, hboundary]
    cases s.cancelled <;> cases s.successContract <;> cases s.softSuccessContract <;>
      cases s.protocolInvalid <;> trivial
  · simp only [classify, herror]
    cases s.cancelled <;> trivial

def LogOver (sig : ProbeSignals) (clock : Int) : Prop :=
  ∀ m, sig.providerLogMtime = some m → m + seconds hangConfirmSec ≤ clock

theorem stale_of_logOver {a : AttemptStateData} {sig : ProbeSignals} {clock : Int}
    (hexit : a.pid = none) (hlog : LogOver sig clock) : providerStale a sig clock = true := by
  cases hm : sig.providerLogMtime with
  | none => cases hseen : a.providerLogEverSeen <;> simp [providerStale, hexit, hm, hseen]
  | some m =>
    have hold : logOld sig.providerLogMtime clock = true := logOld_iff.mpr ⟨m, hm, hlog m hm⟩
    simp [providerStale, hold]

structure Unchanged (x y : ProbeSignals) : Prop where
  gitStatusHash : y.gitStatusHash = x.gitStatusHash
  gitHeadHash : y.gitHeadHash = x.gitHeadHash
  outboxMeta : y.outboxMeta = x.outboxMeta
  providerLogMtime : y.providerLogMtime = x.providerLogMtime

theorem Unchanged.sameFlags {x y : ProbeSignals} (h : Unchanged x y) (a : AttemptStateData)
    (t t' : Int) : (a.graceProbe x t).SameFlags (a.graceProbe y t') := by
  simp only [GraceProbe.SameFlags, AttemptStateData.graceProbe, h.gitStatusHash, h.gitHeadHash,
    h.outboxMeta, and_self]

section Exited

variable [Crates] {role : AgentRole} {ts : Int} {o : ProbeObs} {s t u v : Orch} {p q : Probe}
  {obs : Nat → ProbeObs} {f i j n k : Nat} {a a₀ b : AttemptStateData}

/-- Every probe from `f` to `k` sees what `p` shows. -/
def Unchanging (role : AgentRole) (obs : Nat → ProbeObs) (s : Orch) (f k : Nat) (p : Probe) :
    Prop :=
  ∀ i, f ≤ i → i ≤ k → ∀ b q, Finds role obs s i b q → Unchanged p.signals q.signals

theorem exited_of_le (hs : Launched role ts s) (hf : Finds role obs s f a p)
    (hexit : a.pid = none) (hfk : f ≤ k) (hk : Finds role obs s k b q) : b.pid = none := by
  obtain hlt | rfl := Nat.lt_or_eq_of_le hfk
  · obtain ⟨t, u, c, ht, hc, rfl, -, -⟩ := hk.polled hs
    obtain ⟨_, _, _, _, _, ha₀⟩ := hs.attempt
    obtain ⟨c', hc', -, -, hbefore⟩ := stays_of_reaches hs ha₀ ht
    rw [hc, Option.some.injEq] at hc'
    subst hc'
    exact (stays_polled _).exited ((hbefore f hlt a p hf).exited hexit)
  · obtain ⟨rfl, -⟩ := hf.unique hk
    exact hexit

theorem finds_of_lt (hk : Reaches role obs s k t) (hik : i < k) :
    ∃ a p, Finds role obs s i a p := by
  obtain ⟨u, hu⟩ := again_of_le hk hik
  obtain ⟨w, hw⟩ := again_of_le hu (Nat.le_succ i)
  rw [loop_succ hw] at hu
  obtain ⟨p, a, b, v, hobserved, ha, -⟩ := again_onward hu
  exact ⟨a, p, w, v, hw, ha, hobserved⟩

theorem graceProbes_sameFlags (hf : Finds .executor obs s f a p) (hfk : f ≤ k)
    (hsame : Unchanging .executor obs s f k p) (hk : Finds .executor obs s k b q) :
    ∀ i, f ≤ i → i ≤ k → (graceProbes a₀ obs s f).SameFlags (graceProbes a₀ obs s i) := by
  intro i hfi hik
  obtain ⟨c, r, hi⟩ : ∃ c r, Finds .executor obs s i c r := by
    obtain hlt | rfl := Nat.lt_or_eq_of_le hik
    · obtain ⟨t, -, ht, -⟩ := hk
      exact finds_of_lt ht hlt
    · exact ⟨b, q, hk⟩
  rw [graceProbes_of_finds hf, graceProbes_of_finds hi]
  exact (hsame i hfi hik c r hi).sameFlags a₀ _ _

theorem grace_over (hs : Launched role ts s) (hf : Finds role obs s f a p) (hfk : f ≤ k)
    (hsame : Unchanging role obs s f k p) (hk : Finds role obs s k b q)
    (hover : ∀ i ≤ f, (obs i).now + seconds commitGraceSec ≤ (obs k).now) :
    graceActive (graceDeadline q.attempt) (obs k).now = false := by
  cases role with
  | reviewer =>
    obtain ⟨hq, -, -⟩ := observed_of_finds hk
    have hnone : graceDeadline (attemptAfter .reviewer q.signals (obs k).now b) = none :=
      (watched_of_finds hs hk).grace rfl
    rw [hq, hnone]
    rfl
  | executor =>
    obtain ⟨_, _, _, _, _, ha₀⟩ := hs.attempt
    have hgrace := finds_grace hs ha₀ hk
    rw [grace_settled hfk (graceProbes_sameFlags hf hfk hsame hk)] at hgrace
    rw [Bool.eq_false_iff]
    intro hactive
    obtain ⟨d, hd, hlater⟩ := graceActive_iff.mp hactive
    have hdeadline : graceDeadline q.attempt = q.attempt.grace.2.or q.attempt.grace.1 := rfl
    rw [hdeadline, hgrace] at hd
    obtain ⟨i, hi, rfl, -⟩ := deadline_source hd
    rw [graceProbes_now] at hlater
    exact absurd (hover i (by omega)) (not_le.mpr hlater)

theorem ended_of_finds (hs : Launched role ts s) (hf : Finds role obs s f a p)
    (hexit : a.pid = none) (hfk : f ≤ k) (hsame : Unchanging role obs s f k p)
    (hover : ∀ i ≤ f, (obs i).now + seconds commitGraceSec ≤ (obs k).now)
    (hlog : LogOver p.signals (obs k).logClock) (hk : Finds role obs s k b q) :
    (q.classify s.ctx.args.workflowType role (obs k)).Ended := by
  obtain ⟨hq, -, -⟩ := observed_of_finds hk
  have hpid : q.attempt.pid = none := by
    rw [hq, attemptAfter_pid, exited_of_le hs hf hexit hfk hk]
  have hlog' : LogOver q.signals (obs k).logClock := by
    rwa [LogOver, (hsame k hfk (le_refl k) b q hk).providerLogMtime]
  apply classify_ended
  · obtain ⟨t, u, -, -, hu⟩ := hk
    have herror := (wp_of_ok (observeProbe_spec role (obs k) (t.pollChild (obs k))) hu).error
    cases he : q.error with
    | none => exact .inl rfl
    | some m => exact .inr (congrArg some (herror m he))
  · simp [probeSnapshot, hpid]
  · simp [probeSnapshot, stale_of_logOver hpid hlog']
  · exact grace_over hs hf hfk hsame hk hover

theorem Probed.ended {flow : Flow} (h : Probed role o t flow u)
    (hended : ∀ p state v, Classified role o t p state v → state.Ended) : flow = .done := by
  cases h with
  | aborted _ => rfl
  | @routed p state v hc => exact (hended p state v hc).route_done

theorem Classified.finds {state : AttemptState} (h : Classified role (obs k) t p state v)
    (ht : Reaches role obs s k t) : ∃ a, Finds role obs s k a p := by
  obtain ⟨u, hu⟩ := h.observed
  obtain ⟨a, ha, -⟩ := h.attempt
  exact ⟨a, t, u, ht, ha, hu⟩

/-- An attempt without a process is not waited for once its deadlines and its log are over. -/
theorem exited_ends (hs : Launched role ts s) (hf : Finds role obs s f a p)
    (hexit : a.pid = none) (hfk : f ≤ k) (hsame : Unchanging role obs s f k p)
    (hover : ∀ i ≤ f, (obs i).now + seconds commitGraceSec ≤ (obs k).now)
    (hlog : LogOver p.signals (obs k).logClock) :
    (∀ b q, Finds role obs s k b q →
      (q.classify s.ctx.args.workflowType role (obs k)).Ended) ∧
    ((∀ e u, watch role obs s (k + 1) ≠ .error e u) →
      ∃ u, watch role obs s (k + 1) = .ok .done u) := by
  refine ⟨fun b q hk => ended_of_finds hs hf hexit hfk hsame hover hlog hk, fun hok => ?_⟩
  cases hreached : watch role obs s k with
  | error e u => exact absurd (loop_of_le hreached (by simp) (Nat.le_succ k)) (hok e u)
  | ok flow t =>
    cases flow with
    | done => exact ⟨t, loop_of_le hreached (by simp) (Nat.le_succ k)⟩
    | again =>
      have hnext : watch role obs s (k + 1) = doMonitorProbe role (obs k) t := loop_succ hreached
      cases hres : doMonitorProbe role (obs k) t with
      | error e u => exact absurd (hnext.trans hres) (hok e u)
      | ok flow u =>
        have hdone : flow = .done := by
          apply (wp_of_ok (doMonitorProbe_spec role (obs k) t) hres).ended
          intro q state v hc
          obtain ⟨b, hk⟩ := hc.finds hreached
          have hended := ended_of_finds hs hf hexit hfk hsame hover hlog hk
          rwa [← Reaches.sameRun hreached |>.args, hc.state_eq] at hended
        exact ⟨u, by rw [hnext, hres, hdone]⟩

end Exited

namespace Sample

def movedAt (n : Nat) : ProbeObs := { probeAt n with gitHead := git "f00d\n" }

def movedExit (n : Nat) : ProbeObs :=
  { movedAt n with tryWait := some (some 0), procExists := false }

def rewound : Nat → ProbeObs
  | 0 => movedAt 1000
  | 1 => movedExit 0
  | n + 2 => movedExit (180 * (n + 1))

def steady : Nat → ProbeObs
  | 0 => movedAt 5
  | n + 1 => movedExit (10 + 180 * n)

def showsCommit (sig : ProbeSignals) : Bool :=
  sig.gitStatusHash = Crates.sha256Hex [] && sig.gitHeadHash = "f00d" && sig.outboxMeta.isNone &&
    sig.providerLogMtime.isNone

theorem unchanged_of_showsCommit {x y : ProbeSignals} (hx : showsCommit x = true)
    (hy : showsCommit y = true) : Unchanged x y := by
  simp only [showsCommit, Bool.and_eq_true, decide_eq_true_eq, Option.isNone_iff_eq_none] at hx hy
  obtain ⟨⟨⟨hstatus, hhead⟩, houtbox⟩, hlog⟩ := hx
  obtain ⟨⟨⟨hstatus', hhead'⟩, houtbox'⟩, hlog'⟩ := hy
  exact ⟨by rw [hstatus, hstatus'], by rw [hhead, hhead'], by rw [houtbox, houtbox'],
    by rw [hlog, hlog']⟩

theorem logOver_of_showsCommit {sig : ProbeSignals} (h : showsCommit sig = true) (clock : Int) :
    LogOver sig clock := by
  simp only [showsCommit, Bool.and_eq_true, Option.isNone_iff_eq_none] at h
  intro m hm
  rw [h.2] at hm
  cases hm

theorem unchanging_of_sees {obs : Nat → ProbeObs} {p : Probe} (hp : showsCommit p.signals = true)
    (h1 : sees obs 1 (fun _ q => showsCommit q.signals) = true)
    (h2 : sees obs 2 (fun _ q => showsCommit q.signals) = true) :
    Unchanging .executor obs launched 1 2 p := by
  intro i h1i hi2 b q hq
  apply unchanged_of_showsCommit hp
  obtain rfl | rfl : i = 1 ∨ i = 2 := by omega
  · exact test_of_sees h1 hq
  · exact test_of_sees h2 hq

end Sample

open Sample in
theorem exited_ends_steady : ∃ u, watch .executor steady launched 3 = .ok .done u := by
  obtain ⟨a, p, hf, htest⟩ := exists_of_sees steady 1
    (fun a p => a.pid.isNone && showsCommit p.signals) (by decide +kernel)
  simp only [Bool.and_eq_true, Option.isNone_iff_eq_none] at htest
  have hsame : Unchanging .executor steady launched 1 2 p :=
    unchanging_of_sees htest.2 (by decide +kernel) (by decide +kernel)
  refine (exited_ends launched_launched hf htest.1 (by decide) hsame ?_
    (logOver_of_showsCommit htest.2 _)).2 ?_
  · decide +kernel
  · obtain ⟨u, hu, -⟩ := done_of_leavesFor
      (show leavesFor steady 3 .executorOutputCollect = true by decide +kernel)
    simp [hu]

open Sample in
theorem rewound_waits : Launched .executor (time 0) launched ∧
    (∀ i < 1, ∀ a p, Finds .executor rewound launched i a p → a.pid.isSome) ∧
    ∃ a p, Finds .executor rewound launched 1 a p ∧ a.pid = none ∧
      Unchanging .executor rewound launched 1 2 p ∧ LogOver p.signals (rewound 2).logClock ∧
      (rewound 1).now + seconds commitGraceSec ≤ (rewound 2).now ∧
      ∃ b q, Finds .executor rewound launched 2 b q ∧
        q.classify launched.ctx.args.workflowType .executor (rewound 2) = .waitingOutput := by
  refine ⟨launched_launched, ?_, ?_⟩
  · intro i hi a p hf
    obtain rfl : i = 0 := by omega
    exact test_of_sees (show sees rewound 0 (fun a _ => a.pid.isSome) = true by decide +kernel) hf
  · obtain ⟨a, p, hf, htest⟩ := exists_of_sees rewound 1
      (fun a p => a.pid.isNone && showsCommit p.signals) (by decide +kernel)
    simp only [Bool.and_eq_true, Option.isNone_iff_eq_none] at htest
    obtain ⟨b, q, hq, hwaits⟩ := exists_of_sees rewound 2
      (fun _ q => concludes rewound 2 q .waitingOutput) (by decide +kernel)
    simp only [concludes, decide_eq_true_eq] at hwaits
    exact ⟨a, p, hf, htest.1,
      unchanging_of_sees htest.2 (by decide +kernel) (by decide +kernel),
      logOver_of_showsCommit htest.2 _, by decide +kernel, b, q, hq, hwaits⟩

end Orchestrator

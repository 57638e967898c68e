import Orchestrator.Opacity
import Orchestrator.Order
import Orchestrator.Release
import Orchestrator.Rollouts

namespace Orchestrator

open Rust Exec Trace

section LogAbsent

variable [SessionFormats] {state : ProviderState} {repo id combined : String}
  {rollouts : RolloutsOf id} {provider : ProviderKind} {o : ProbeObs}

def LooksUp (state : ProviderState) (repo id : String) (o : ProbeObs) : ProviderKind → Prop
  | .claude => o.home = state.home
  | .codex => o.codexLogMtime = codexSessionJsonlMtime state.home state.codexSessions id
  | .opencode => o.opencodeLogMtime = opencodeSessionMtime (state.opencodeSessions repo) id

/-- The provider keeps no log of the session; Claude's is looked up twice in a probe. -/
def LogAbsent (state : ProviderState) (repo : String) (rollouts : RolloutsOf id) (o : ProbeObs) :
    ProviderKind → Prop
  | .claude => Missing o.claudeLogMtime ∧ Missing o.jsonlTail
  | .codex => ∀ log, ¬Stores rollouts state.codexSessions log
  | .opencode => ∀ row, Lists state repo row → row.id ≠ id

/-- The lookup of the time comes upon nothing that ends it. -/
def LogPassed (state : ProviderState) (repo id : String) : ProviderKind → Prop
  | .claude => state.home.isSome
  | .codex => state.home.isSome ∧ (Missing state.codexSessions ∨
      ∀ visit ∈ rolloutVisits state.codexSessions, PassedForMtime id visit)
  | .opencode => ∃ out rows, state.opencodeSessions repo = .ok out ∧ out.success = true ∧
      parseSessionRows out.stdout = .ok rows

theorem opencodeSessionMtime_eq_none (habsent : ∀ row, Lists state repo row → row.id ≠ id) :
    opencodeSessionMtime (state.opencodeSessions repo) id = .ok none ↔
      LogPassed state repo id .opencode := by
  simp only [LogPassed]
  constructor
  · intro h
    cases hlist : state.opencodeSessions repo with
    | error e => simp [opencodeSessionMtime, hlist] at h
    | ok out =>
      simp only [opencodeSessionMtime, hlist] at h
      split at h
      · cases hrows : parseSessionRows out.stdout with
        | error e => simp [parseSessionUpdatedBytes, hrows, Except.map] at h
        | ok rows => exact ⟨out, rows, rfl, ‹_›, hrows⟩
      · cases h
  · rintro ⟨out, rows, hlist, hsuccess, hrows⟩
    have hfind : rows.find? (fun r => r.id == id) = none := by
      simpa [List.find?_eq_none] using fun row hrow => habsent row ⟨out, rows, hlist, hrows, hrow⟩
    simp [opencodeSessionMtime, hlist, hsuccess, parseSessionUpdatedBytes, hrows, hfind,
      Except.map]

theorem providerLogMtime_absent_iff (hlooks : LooksUp state repo id o provider)
    (habsent : LogAbsent state repo rollouts o provider) :
    providerLogMtime provider o = .ok none ↔ LogPassed state repo id provider := by
  cases provider with
  | claude =>
    rw [providerLogMtime, claudeSessionJsonlMtime, show o.home = state.home from hlooks]
    cases hhome : state.home with
    | none => simp [LogPassed, hhome]
    | some home => simp [LogPassed, hhome, noneIfMissing_missing habsent.1, ofIo]
  | codex =>
    rw [providerLogMtime, show o.codexLogMtime = _ from hlooks]
    exact codexSessionJsonlMtime_eq_none
  | opencode =>
    rw [providerLogMtime, show o.opencodeLogMtime = _ from hlooks]
    exact opencodeSessionMtime_eq_none habsent

omit [SessionFormats] in
theorem serviceCap_scan_absent [Crates] {since : Int} (h : Missing o.jsonlTail) :
    ∃ e, sessionJsonlServiceCapSince o since = .error e := by
  obtain ⟨e, he, -⟩ := h
  cases hhome : o.home with
  | none => exact ⟨homeUnset, by simp only [sessionJsonlServiceCapSince, hhome]⟩
  | some home =>
    exact ⟨.io e, by simp [sessionJsonlServiceCapSince, hhome, readLogTail, he, Except.map, ofIo]⟩

end LogAbsent

/-- A probe of the attempt in `s` that takes place and can read everything but the session log;
the diagnostics read `combined`. -/
structure Readable (o : ProbeObs) (s : Orch) (combined : String) : Prop where
  uncancelled : (o.cancelledAtTop || o.cancelledAfterWait) = false
  outbox : ∃ outbox, fileMeta o.outboxMeta = .ok outbox
  status : ∃ status, runGit ["status", "--short"] o.gitStatus = .ok status
  head : ∃ head, runGit ["rev-parse", "HEAD"] o.gitHead = .ok head
  artifacts : ∃ artifacts, probeArtifacts o.artifactLen
    (workflowArtifacts s.ctx.args.workflowType) = .ok artifacts
  diff : ∀ a head, s.ctx.attempt = some a → runGit ["rev-parse", "HEAD"] o.gitHead = .ok head →
    trim head ≠ a.prevProbeGitHeadHash → ∃ diff, runGit ["diff", "--name-status",
      a.prevProbeGitHeadHash ++ ".." ++ trim head] o.gitDiff = .ok diff
  diagnostics : readProviderDiagnostics s.ctx.activeProcess o = .ok combined

theorem pollChild_sessionId (o : ProbeObs) (s : Orch) (role : AgentRole) :
    (s.pollChild o).ctx.sessionId role = s.ctx.sessionId role := by
  obtain ⟨attempt, hctx⟩ := pollChild_ctx o s
  rw [hctx]
  cases role <;> rfl

theorem attempt_of_pollChild {o : ProbeObs} {s : Orch} {b : AttemptStateData}
    (hb : (s.pollChild o).ctx.attempt = some b) :
    ∃ a code pid, s.ctx.attempt = some a ∧ b = { a with exitCode := code, pid := pid } := by
  revert hb
  simp only [Orch.pollChild]
  split
  · rename_i code _ _
    cases ha : s.ctx.attempt with
    | none => simp
    | some a =>
      simp only [Option.map_some, Option.some.injEq]
      rintro rfl
      exact ⟨a, _, none, rfl, rfl⟩
  · exact fun hb => ⟨b, b.exitCode, b.pid, hb, rfl⟩

theorem readable_pollChild {o : ProbeObs} {s : Orch} {combined : String}
    (h : Readable o s combined) : Readable o (s.pollChild o) combined := by
  obtain ⟨attempt, hctx⟩ := pollChild_ctx o s
  refine ⟨h.uncancelled, h.outbox, h.status, h.head, ?_, ?_, ?_⟩
  · rw [hctx]
    exact h.artifacts
  · intro b head hb hhead hne
    obtain ⟨a, code, pid, ha, rfl⟩ := attempt_of_pollChild hb
    exact h.diff a head ha hhead hne
  · rw [hctx]
    exact h.diagnostics

theorem route_not_internal {role : AgentRole} {now : Int} {p : Probe} {state : AttemptState}
    {s : Orch} (hr : s.ctx.runState = .monitor role) :
    (route role now p state s).2.ctx.runState ≠ .runFailedInternal := by
  cases state with
  | success | softSuccess =>
    simp only [route, Orch.mapCtx_ctx, routeResult]
    split
    · simp
    · cases role <;> simp [RunState.outputCollect]
  | finalizing =>
    simp only [route]
    split <;> cases role <;> simp [withoutProcess, hr, RunState.monitor]
  | _ => cases role <;> simp [route, retryAttempt, hr, RunState.monitor]

section Absence

variable [Crates]

def shownCap (combined : String) : Option ProviderErrorMatch :=
  (classifyProviderErrorWithMatch combined).filter fun m => decide (m.errorClass = .serviceCap)

theorem collectProbeSignals_readable {role : AgentRole} {o : ProbeObs} {s : Orch}
    {combined : String} (pid : Option Nat) (h : Readable o s combined)
    (hlog : providerLogMtime (s.ctx.args.provider role) o = .ok none) :
    ∃ signals head, collectProbeSignals pid (workflowArtifacts s.ctx.args.workflowType)
      (s.ctx.args.provider role) o = .ok signals ∧ signals.providerLogMtime = none ∧
      runGit ["rev-parse", "HEAD"] o.gitHead = .ok head ∧ signals.gitHeadHash = trim head := by
  obtain ⟨outbox, houtbox⟩ := h.outbox
  obtain ⟨status, hstatus⟩ := h.status
  obtain ⟨head, hhead⟩ := h.head
  obtain ⟨artifacts, hartifacts⟩ := h.artifacts
  cases hsignals : collectProbeSignals pid (workflowArtifacts s.ctx.args.workflowType)
      (s.ctx.args.provider role) o with
  | error e =>
    simp [collectProbeSignals, bind, Except.bind, pure, Except.pure, houtbox, hstatus, hhead,
      hartifacts, hlog] at hsignals
  | ok signals =>
    have hnone := (collectProbeSignals_ok hsignals).2.2.2.1
    rw [hlog, Except.ok.injEq] at hnone
    simp only [collectProbeSignals, bind, Except.bind, pure, Except.pure, houtbox, hstatus, hhead,
      hartifacts, hlog, Except.ok.injEq] at hsignals
    exact ⟨signals, head, rfl, hnone.symm, hhead, by rw [← hsignals]⟩

/-- The probe takes the missing log for a lack of activity: it completes, and it classifies and
routes the attempt by what it sees besides the log. -/
def TakenAsInactivity (role : AgentRole) (c : Bool) (o : StepObs) (m : Machine)
    (combined : String) : Prop :=
  ∃ p state v, Classified role o.probe m.toOrch p state v ∧ p.signals.providerLogMtime = none ∧
    p.error = shownCap combined ∧
    (m.next (.tick c o)).toOrch = (route role o.probe.now p state v).2 ∧
    (m.next (.tick c o)).ctx.runState ≠ .runFailedInternal

variable {role : AgentRole} {o : ProbeObs} {s : Orch} {combined id : String}

theorem detectProviderError_shown {ctx : OrchestratorCtx}
    (h : (classifyProviderErrorWithMatch combined).isSome ∨ ∀ a, ctx.attempt = some a →
      ¬(ctx.args.provider a.role = .claude ∧ (ctx.sessionId a.role).isSome)) :
    ∃ warnings, detectProviderError ctx combined o = .ok (warnings, shownCap combined) := by
  simp only [detectProviderError, shownCap]
  cases hm : classifyProviderErrorWithMatch combined with
  | some m => cases hc : m.errorClass <;> simp [hc, Option.filter_some]
  | none =>
    cases ha : ctx.attempt with
    | none => exact ⟨_, rfl⟩
    | some a =>
      have hscan := h.resolve_left (by simp [hm]) a ha
      simp [if_neg hscan]

theorem observeProbe_readable (h : Readable o s combined) {a : AttemptStateData}
    (ha : s.ctx.attempt = some a) (hid : s.ctx.sessionId role = some id)
    (hlog : providerLogMtime (s.ctx.args.provider role) o = .ok none) {Q : Probe → Orch → Prop}
    {E : Fault → Orch → Prop}
    (hok : ∀ found signals t, detectProviderError s.ctx combined o = .ok found →
      signals.providerLogMtime = none →
      Q ⟨signals, attemptAfter role signals o.now a, workSignalsChanged a signals, found.2⟩ t)
    (herror : ∀ e t, detectProviderError s.ctx combined o = .error e → E (.error e) t) :
    wp (observeProbe role o) Q E s := by
  obtain ⟨signals, head, hsignals, hnone, hhead, hheadHash⟩ :=
    collectProbeSignals_readable (s.ctx.attempt.bind (·.pid)) h hlog
  have hdiff : (if gitCommitted a signals = true then (runGit ["diff", "--name-status",
      a.prevProbeGitHeadHash ++ ".." ++ signals.gitHeadHash] o.gitDiff).map fun _ => ()
      else .ok ()) = .ok () := by
    split
    · rename_i hcommitted
      rw [hheadHash]
      obtain ⟨diff, hd⟩ := h.diff a head ha hhead
        (by simpa [gitCommitted, hheadHash] using hcommitted)
      simp [hd, Except.map]
    · rfl
  have hsame := detectProviderError_attempt ha role signals o.now combined o
  rw [ha, Option.bind_some] at hsignals
  simp only [observeProbe, wp_bind, OrchM.wp_ctx, OrchM.wp_ofResult, OrchM.wp_modifyCtx,
    OrchM.wp_unwrap, wp_pure, sessionIdOf, hid, ha, Option.bind_some, hsignals, h.diagnostics,
    Except.ok.injEq, forall_eq', reduceCtorEq, IsEmpty.forall_iff, implies_true, and_true,
    Option.some.injEq, hdiff]
  refine fun _ _ => ⟨fun found hfound => ?_, fun e he => ?_⟩
  · exact hok found signals _ (hsame.symm.trans hfound) hnone
  · exact herror e _ (hsame.symm.trans he)

theorem polled_attempt {h : History Machine Input} {m : Machine} {c : Bool}
    (hr : Run h m) (hs : m.Steps c) (hstate : m.ctx.runState = .monitor role) (o : ProbeObs) :
    ∃ b, (m.toOrch.pollChild o).ctx.attempt = some b ∧ b.role = role := by
  have hactive := hs.active (Run.placed hr)
  obtain ⟨r, a, -, hcurrent, ha, hrole⟩ := Run.staffed hr hactive (attended_monitor hstate)
  have hsame := ((Run.counted hr).budget hactive).role role (.inl hstate)
  rw [hsame, Option.some.injEq] at hcurrent
  subst hcurrent
  obtain ⟨b, hb, hab⟩ := pollChild_attempt (o := o) ha
  exact ⟨b, hb, hab.role.trans hrole⟩

theorem detectProviderError_absent_iff {ctx : OrchestratorCtx} {o : ProbeObs}
    {b : AttemptStateData} (hb : ctx.attempt = some b) (hrole : b.role = role)
    (hid : ctx.sessionId role = some id)
    (habsent : ctx.args.provider role = .claude → Missing o.jsonlTail) :
    (∃ warnings, detectProviderError ctx combined o = .ok (warnings, shownCap combined)) ↔
      (ctx.args.provider role = .claude → (classifyProviderErrorWithMatch combined).isSome) := by
  subst hrole
  constructor
  · rintro ⟨warnings, hfound⟩ hclaude
    by_contra hmarker
    have hnone : classifyProviderErrorWithMatch combined = none := by simpa using hmarker
    obtain ⟨e, he⟩ : ∃ e, sessionJsonlServiceCapSince o b.dispatchTs = .error e :=
      serviceCap_scan_absent (habsent hclaude)
    simp [detectProviderError, hnone, hb, hclaude, hid, he, Except.map] at hfound
  · intro hmarker
    apply detectProviderError_shown
    by_cases hclaude : ctx.args.provider b.role = .claude
    · exact .inl (hmarker hclaude)
    · refine .inr fun a ha => ?_
      rw [hb, Option.some.injEq] at ha
      subst ha
      exact fun h => hclaude h.1

theorem doMonitorProbe_completes {Q : Probe → Orch → Prop}
    (hcancelled : (o.cancelledAtTop || o.cancelledAfterWait) = false)
    (hobserves : wp (observeProbe role o) Q (fun _ _ => False) (s.pollChild o)) :
    wp (doMonitorProbe role o) (fun _ _ => True) (fun _ _ => False) s := by
  simp only [doMonitorProbe, hcancelled, wp_bind, wp_modify, wp_ite, wp_pure]
  refine ⟨fun _ => trivial, fun _ => ?_⟩
  apply wp_mono hobserves
  · simp
  · exact fun _ _ h => h

theorem Classified.providerLogMtime {p : Probe} {state : AttemptState} {v : Orch}
    (h : Classified role o s p state v) (hnone : p.signals.providerLogMtime = none) :
    providerLogMtime (s.ctx.args.provider role) o = .ok none := by
  obtain ⟨a, -, -, -, hsignals⟩ := h.attempt
  rw [(collectProbeSignals_ok hsignals).2.2.2.1, hnone]

theorem TakenAsInactivity.finds {m : Machine} {c : Bool} {o : StepObs} {b : AttemptStateData}
    (h : TakenAsInactivity role c o m combined)
    (hread : Readable o.probe (m.toOrch.pollChild o.probe) combined)
    (hb : (m.toOrch.pollChild o.probe).ctx.attempt = some b)
    (hid : (m.toOrch.pollChild o.probe).ctx.sessionId role = some id) :
    providerLogMtime ((m.toOrch.pollChild o.probe).ctx.args.provider role) o.probe = .ok none ∧
      ∃ warnings, detectProviderError (m.toOrch.pollChild o.probe).ctx combined o.probe =
        .ok (warnings, shownCap combined) := by
  obtain ⟨p, state, v, hclass, hnone, herror, -⟩ := h
  have hlog := hclass.providerLogMtime hnone
  rw [← pollChild_args o.probe] at hlog
  refine ⟨hlog, ?_⟩
  obtain ⟨u, hu⟩ := hclass.observed
  have hfinds := observeProbe_readable hread hb hid hlog (E := fun _ _ => True)
    (Q := fun p _ => ∃ found, detectProviderError (m.toOrch.pollChild o.probe).ctx combined
      o.probe = .ok found ∧ found.2 = p.error)
    (fun found signals t hfound _ => ⟨found, hfound, rfl⟩) fun _ _ _ => trivial
  obtain ⟨found, hfound, hsame⟩ := wp_of_ok hfinds hu
  exact ⟨found.1, by rw [hfound, ← herror, ← hsame]⟩

theorem takenAsInactivity_of_finds {m : Machine} {c : Bool} {o : StepObs} {b : AttemptStateData}
    {warnings : List String} (hs : m.Steps c) (hstate : m.ctx.runState = .monitor role)
    (hread : Readable o.probe (m.toOrch.pollChild o.probe) combined)
    (hb : (m.toOrch.pollChild o.probe).ctx.attempt = some b)
    (hid : (m.toOrch.pollChild o.probe).ctx.sessionId role = some id)
    (hlog : providerLogMtime ((m.toOrch.pollChild o.probe).ctx.args.provider role) o.probe =
      .ok none)
    (hfound : detectProviderError (m.toOrch.pollChild o.probe).ctx combined o.probe =
      .ok (warnings, shownCap combined)) : TakenAsInactivity role c o m combined := by
  have hobserves := observeProbe_readable hread hb hid hlog (E := fun _ _ => False)
    (Q := fun p _ => p.signals.providerLogMtime = none ∧ p.error = shownCap combined)
    (fun found signals t h hnone => by
      rw [hfound, Except.ok.injEq] at h
      exact ⟨hnone, by rw [← h]⟩)
    fun e t he => by simp [hfound] at he
  cases hres : doMonitorProbe role o.probe m.toOrch with
  | error e t =>
    exact (wp_of_error (doMonitorProbe_completes hread.uncancelled hobserves) hres).elim
  | ok flow t =>
    have hpost := next_of_probe hs hstate hres
    cases wp_of_ok (doMonitorProbe_spec role o.probe m.toOrch) hres with
    | aborted hcancelled => simp [hread.uncancelled] at hcancelled
    | @routed p state v hclass =>
      obtain ⟨u, hu⟩ := hclass.observed
      obtain ⟨hnone, herror⟩ := wp_of_ok hobserves hu
      obtain ⟨w, hw⟩ := hclass.ctx
      refine ⟨p, state, v, hclass, hnone, herror, hpost, ?_⟩
      rw [hpost]
      apply route_not_internal
      rw [hw]
      exact hstate

theorem takenAsInactivity_iff {h : History Machine Input} {m : Machine} {c : Bool} {o : StepObs}
    (hr : Run h m) (hs : m.Steps c) (hstate : m.ctx.runState = .monitor role)
    (hid : m.ctx.sessionId role = some id) (hread : Readable o.probe m.toOrch combined)
    (habsent : m.ctx.args.provider role = .claude → Missing o.probe.jsonlTail) :
    TakenAsInactivity role c o m combined ↔
      providerLogMtime (m.ctx.args.provider role) o.probe = .ok none ∧
        (m.ctx.args.provider role = .claude →
          (classifyProviderErrorWithMatch combined).isSome) := by
  obtain ⟨b, hb, hrole⟩ := polled_attempt hr hs hstate o.probe
  have hargs : (m.toOrch.pollChild o.probe).ctx.args = m.ctx.args := pollChild_args _ _
  have hsession : (m.toOrch.pollChild o.probe).ctx.sessionId role = some id :=
    (pollChild_sessionId _ _ _).trans hid
  have hreadable := readable_pollChild hread
  rw [← hargs] at habsent
  rw [← hargs, ← detectProviderError_absent_iff hb hrole hsession habsent]
  constructor
  · exact fun h => h.finds hreadable hb hsession
  · rintro ⟨hlog, warnings, hfound⟩
    exact takenAsInactivity_of_finds hs hstate hreadable hb hsession hlog hfound

/-- The monitor takes a missing session log for a lack of activity exactly when nothing ends the
lookup of its time, and the provider is not Claude or the diagnostics show some marker. -/
theorem absence_iff [SessionFormats] {h : History Machine Input} {m : Machine} {c : Bool}
    {o : StepObs} (state : ProviderState) (rollouts : RolloutsOf id) (hr : Run h m)
    (hs : m.Steps c) (hstate : m.ctx.runState = .monitor role)
    (hid : m.ctx.sessionId role = some id) (hread : Readable o.probe m.toOrch combined)
    (hlooks : LooksUp state m.ctx.args.workspaceRoot id o.probe (m.ctx.args.provider role))
    (habsent : LogAbsent state m.ctx.args.workspaceRoot rollouts o.probe
      (m.ctx.args.provider role)) :
    TakenAsInactivity role c o m combined ↔
      LogPassed state m.ctx.args.workspaceRoot id (m.ctx.args.provider role) ∧
        (m.ctx.args.provider role = .claude →
          (classifyProviderErrorWithMatch combined).isSome) := by
  rw [← providerLogMtime_absent_iff hlooks habsent]
  apply takenAsInactivity_iff hr hs hstate hid hread
  intro hclaude
  rw [hclaude] at habsent
  exact habsent.2

end Absence

section NonFatal

variable [Crates]

def otherPatterns : List String := permissionPatterns ++ authPatterns ++ transportPatterns

/-- Neither text shows a service cap; `marked` shows another marker, `plain` shows none. -/
structure Benign (marked plain : String) : Prop where
  markedCap : firstMatchingPattern marked serviceCapPatterns = none
  marked : (firstMatchingPattern marked otherPatterns).isSome
  plainCap : firstMatchingPattern plain serviceCapPatterns = none
  plain : firstMatchingPattern plain otherPatterns = none

/-- The session log that is searched where the diagnostics show no marker can be read, and
holds no service cap. -/
def LogQuiet (ctx : OrchestratorCtx) (o : ProbeObs) : Prop :=
  ∀ a, ctx.attempt = some a → ctx.args.provider a.role = .claude →
    (ctx.sessionId a.role).isSome → sessionJsonlServiceCapSince o a.dispatchTs = .ok none

def detectedClass (ctx : OrchestratorCtx) (combined : String) (o : ProbeObs) :
    OrchestratorResult (Option ProviderErrorClass) :=
  (detectProviderError ctx combined o).map fun found => found.2.map ProviderErrorMatch.errorClass

def UpToWarnings (s t : Orch) : Prop := ∃ warnings, t = s.mapCtx (veil (fun _ => warnings) id)

section Benign

variable {marked plain : String}

theorem Benign.classify_marked (h : Benign marked plain) :
    ∃ m, classifyProviderErrorWithMatch marked = some m ∧ m.errorClass ≠ .serviceCap := by
  have hsome := h.marked
  simp only [firstMatchingPattern, otherPatterns, List.find?_append] at hsome
  simp only [classifyProviderErrorWithMatch, h.markedCap]
  simp only [firstMatchingPattern]
  cases hp : permissionPatterns.find? fun p => Crates.regexIsMatch p marked with
  | some p => exact ⟨_, rfl, by simp [matchOf]⟩
  | none =>
    cases ha : authPatterns.find? fun p => Crates.regexIsMatch p marked with
    | some p => exact ⟨_, rfl, by simp [matchOf]⟩
    | none =>
      cases ht : transportPatterns.find? fun p => Crates.regexIsMatch p marked with
      | some p => exact ⟨_, rfl, by simp [matchOf]⟩
      | none => simp [hp, ha, ht] at hsome

theorem Benign.classify_plain (h : Benign marked plain) :
    classifyProviderErrorWithMatch plain = none := by
  have hnone := h.plain
  simp only [firstMatchingPattern, otherPatterns, List.find?_append, Option.or_eq_none_iff]
    at hnone
  obtain ⟨⟨hp, ha⟩, ht⟩ := hnone
  simp only [classifyProviderErrorWithMatch, h.plainCap]
  simp only [firstMatchingPattern, hp, ha, ht, Option.map_none]

theorem Benign.detect_marked (h : Benign marked plain) (ctx : OrchestratorCtx) (o : ProbeObs) :
    ∃ warnings, detectProviderError ctx marked o = .ok (warnings, none) := by
  obtain ⟨m, hm, hclass⟩ := h.classify_marked
  simp only [detectProviderError, hm]
  cases hc : m.errorClass with
  | serviceCap => exact absurd hc hclass
  | permission | auth | transport => exact ⟨_, rfl⟩

theorem Benign.detect_plain (h : Benign marked plain) {ctx : OrchestratorCtx} {o : ProbeObs}
    (hquiet : LogQuiet ctx o) : detectProviderError ctx plain o = .ok (ctx.warnings, none) := by
  simp only [detectProviderError, h.classify_plain]
  cases ha : ctx.attempt with
  | none => rfl
  | some a =>
    by_cases hc : ctx.args.provider a.role = .claude ∧ (ctx.sessionId a.role).isSome
    · simp [hquiet a ha hc.1 hc.2, Except.map]
    · simp only [if_neg hc]

theorem Benign.class_iff (h : Benign marked plain) (ctx : OrchestratorCtx) (o : ProbeObs) :
    detectedClass ctx marked o = detectedClass ctx plain o ↔ LogQuiet ctx o := by
  obtain ⟨warnings, hmarked⟩ := h.detect_marked ctx o
  simp only [detectedClass, hmarked, Except.map]
  constructor
  · intro hsame a ha hclaude hid
    simp only [detectProviderError, h.classify_plain, ha, hclaude, hid, and_self, if_true] at hsame
    cases hscan : sessionJsonlServiceCapSince o a.dispatchTs with
    | error e => simp [hscan, Except.map] at hsame
    | ok signal =>
      cases signal with
      | none => rfl
      | some signal => simp [hscan, Except.map] at hsame
  · intro hquiet
    simp [h.detect_plain hquiet]

end Benign

section TwoProbes

variable {marked plain : String} {role : AgentRole} {o : ProbeObs} {out err : IoResult Bytes}
  {s : Orch}

theorem observeProbe_upToWarnings (role : AgentRole) (h : Benign marked plain)
    (hmarked : readProviderDiagnostics s.ctx.activeProcess o = .ok marked)
    (hplain : readProviderDiagnostics s.ctx.activeProcess
      { o with stdoutTail := out, stderrTail := err } = .ok plain)
    (hquiet : LogQuiet s.ctx o) :
    rwp (observeProbe role o) (observeProbe role { o with stdoutTail := out, stderrTail := err })
      (fun p q t u => p = q ∧ UpToWarnings t u) (fun _ t u => UpToWarnings t u) s s := by
  have hrefl : ∀ t : Orch, UpToWarnings t t := fun t => ⟨t.ctx.warnings, rfl⟩
  apply rwp_bind_same _ fun _ t _ => hrefl t
  rintro ctx t ⟨rfl, rfl⟩
  apply rwp_bind_same _ fun _ t _ => hrefl t
  intro id t _
  apply rwp_bind_same _ fun _ t _ => hrefl t
  intro signals t _
  apply rwp_bind_same _ fun _ t _ => hrefl t
  intro _ t _
  cases ha : s.ctx.attempt with
  | none => exact ⟨rfl, hrefl _⟩
  | some a =>
    apply rwp_bind_same _ fun _ t _ => hrefl t
    rintro _ t ⟨rfl, rfl⟩
    apply rwp_bind_same _ fun _ t _ => hrefl t
    intro _ t _
    apply rwp_bind_same _ fun _ t _ => hrefl t
    intro _ t _
    rw [hmarked, hplain, rwp_ofResult_bind]
    have hsame := detectProviderError_attempt ha role signals o.now
    obtain ⟨warnings, hfound⟩ := h.detect_marked s.ctx o
    have hfound' := h.detect_plain (o := { o with stdoutTail := out, stderrTail := err }) hquiet
    rw [hsame, hfound, hsame, hfound']
    exact ⟨rfl, _, rfl⟩

theorem LogQuiet.polled (h : LogQuiet s.ctx o) : LogQuiet (s.pollChild o).ctx o := by
  intro b hb hclaude hid
  obtain ⟨a, code, pid, ha, rfl⟩ := attempt_of_pollChild hb
  rw [pollChild_args] at hclaude
  rw [pollChild_sessionId] at hid
  exact h a ha hclaude hid

/-- Auth, permission and transport markers are no more than warnings, to the search for an error
and to the probe, exactly when the session log has nothing to say that they could hide. -/
theorem nonFatal_iff (h : Benign marked plain)
    (hmarked : readProviderDiagnostics s.ctx.activeProcess o = .ok marked)
    (hplain : readProviderDiagnostics s.ctx.activeProcess
      { o with stdoutTail := out, stderrTail := err } = .ok plain) :
    (detectedClass s.ctx marked o = detectedClass s.ctx plain o ∧
      rwp (doMonitorProbe role o)
        (doMonitorProbe role { o with stdoutTail := out, stderrTail := err })
        (fun flow flow' t u => flow = flow' ∧ UpToWarnings t u) (fun _ t u => UpToWarnings t u)
        s s) ↔
      LogQuiet s.ctx o := by
  rw [h.class_iff]
  refine and_iff_left_of_imp fun hquiet => ?_
  have hprocess : (s.pollChild o).ctx.activeProcess = s.ctx.activeProcess := by
    obtain ⟨attempt, hctx⟩ := pollChild_ctx o s
    rw [hctx]
  have hobserved := observeProbe_upToWarnings role h
    (hprocess ▸ hmarked) (hprocess ▸ hplain) hquiet.polled
  by_cases hcancelled : (o.cancelledAtTop || o.cancelledAfterWait) = true
  · simp only [doMonitorProbe, hcancelled, if_true]
    exact ⟨rfl, _, rfl⟩
  · simp only [doMonitorProbe, hcancelled]
    apply rwp_bind_same _ fun _ t _ => ⟨t.ctx.warnings, rfl⟩
    rintro _ t ⟨rfl, rfl⟩
    apply rwp_bind
    apply rwp_mono hobserved
    · rintro p _ t _ ⟨rfl, w, rfl⟩
      have hroute := route_veil (fun _ => w) id
        (t.mapCtx fun ctx => { ctx with attempt := ctx.attempt.map (recordProbe
          (p.classify ctx.args.workflowType role o) p.changed o.now) })
        role o.now p (p.classify t.ctx.args.workflowType role o)
      exact ⟨(congrArg Prod.fst hroute).symm, w, congrArg Prod.snd hroute⟩
    · exact fun _ _ _ h => h

end TwoProbes

end NonFatal

namespace Sample

scoped instance : SessionFormats where
  codexRow _ := .error "not a sample row"
  opencodeRows _ := .error "not a sample list"

def freshHome : ProviderState where
  home := some "/home/user"
  claudeProject _ := absent
  codexIndex := absent
  codexSessions := absent
  opencodeSessions _ := absent

def claudeLaunched : Trace.History Machine Input × Machine :=
  Trace.exec Machine.next (executed.take 4) []
    (.init { args with executorProvider := .claude })

theorem claudeLaunched_run : Run claudeLaunched.1 claudeLaunched.2 :=
  Trace.Run.exec (.start ⟨_, rfl⟩) _

theorem freshHome_looksUp {repo id : String} : LooksUp freshHome repo id (obsAt 5).probe .codex :=
  rfl

theorem freshHome_absent {repo id : String} {rollouts : RolloutsOf id} :
    LogAbsent freshHome repo rollouts (obsAt 5).probe .codex := by
  rintro log ⟨hmem, -⟩
  simp [freshHome, rolloutVisits, visitsIn, absent] at hmem

def codexLaunched : Trace.History Machine Input × Machine := run (executed.take 4)

theorem codexLaunched_run : Run codexLaunched.1 codexLaunched.2 := run_run (executed.take 4)

def strayHome : ProviderState := { freshHome with codexSessions := Rollouts.straySessions }

def strayProbe : ProbeObs :=
  { probeAt 5 with
    codexLogMtime := codexSessionJsonlMtime strayHome.home strayHome.codexSessions "exec-1" }

theorem readable_probeAt {s : Orch} {n : Nat} {p : DispatchedProcess}
    (hprocess : s.ctx.activeProcess = some p) (hhead : ∀ a, s.ctx.attempt = some a →
      a.prevProbeGitHeadHash = "c0ffee") (hartifacts : s.ctx.args.workflowType = .implement) :
    Readable (probeAt n) s "\n" := by
  have hgit : runGit ["rev-parse", "HEAD"] (probeAt n).gitHead = .ok "c0ffee\n" := by
    show runGit ["rev-parse", "HEAD"] (git "c0ffee\n") = .ok "c0ffee\n"
    decide +kernel
  have hstatus : runGit ["status", "--short"] (git "") = .ok "" := by decide +kernel
  refine ⟨rfl, ⟨none, rfl⟩, ⟨_, hstatus⟩, ⟨_, hgit⟩, ?_, ?_, ?_⟩
  · rw [hartifacts]
    exact ⟨_, rfl⟩
  · intro a head ha hh hne
    rw [hgit, Except.ok.injEq] at hh
    subst hh
    rw [hhead a ha] at hne
    exact absurd (by decide +kernel) hne
  · rw [hprocess]
    rfl

end Sample

open Sample in
theorem missing_log_fails :
    (Run claudeLaunched.1 claudeLaunched.2 ∧ claudeLaunched.2.Steps false ∧
      claudeLaunched.2.ctx.runState = .executorMonitor ∧
      claudeLaunched.2.ctx.args.provider .executor = .claude ∧
      LogAbsent freshHome "/work" (RolloutsOf.glob "exec-1") (probeAt 5) .claude ∧
      (claudeLaunched.2.next (.tick false (obsAt 5))).ctx.runState = .runFailedInternal) ∧
    Run codexLaunched.1 codexLaunched.2 ∧ codexLaunched.2.Steps false ∧
      codexLaunched.2.ctx.runState = .executorMonitor ∧
      codexLaunched.2.ctx.args.provider .executor = .codex ∧
      LooksUp strayHome "/work" "exec-1" strayProbe .codex ∧
      LogAbsent strayHome "/work" (RolloutsOf.glob "exec-1") strayProbe .codex ∧
      (codexLaunched.2.next (.tick false { obsAt 5 with probe := strayProbe })).ctx.runState =
        .runFailedInternal := by
  refine ⟨⟨claudeLaunched_run, by decide +kernel, by decide +kernel, by decide +kernel,
      ⟨⟨_, rfl, rfl⟩, _, rfl, rfl⟩, by decide +kernel⟩,
    codexLaunched_run, by decide +kernel, by decide +kernel, by decide +kernel, rfl, ?_,
    by decide +kernel⟩
  rintro log ⟨hmem, hown⟩
  have hrollout := (RolloutsOf.glob "exec-1").isRollout hown
  have hvisits : rolloutVisits strayHome.codexSessions =
      [.dir Rollouts.notADirectory, .file Rollouts.notes, .file Rollouts.rollout] := rfl
  rw [hvisits] at hmem
  obtain rfl | rfl : log = Rollouts.notes ∨ log = Rollouts.rollout := by simpa using hmem
  · exact absurd hrollout (by decide)
  · exact absurd hrollout (by decide)

open Sample in
theorem absence_iff_codex : ∃ combined,
    TakenAsInactivity .executor false (obsAt 5) codexLaunched.2 combined := by
  have hstate : codexLaunched.2.Steps false ∧
      codexLaunched.2.ctx.runState = .monitor .executor ∧
      codexLaunched.2.ctx.sessionId .executor = some "exec-1" := by decide +kernel
  have hprocess : codexLaunched.2.ctx.activeProcess = some ⟨0⟩ := by decide +kernel
  have hhead : codexLaunched.2.ctx.attempt.map AttemptStateData.prevProbeGitHeadHash =
      some "c0ffee" := by decide +kernel
  have hargs : codexLaunched.2.ctx.args.workflowType = .implement ∧
      codexLaunched.2.ctx.args.provider .executor = .codex := by decide +kernel
  have hread : Readable (obsAt 5).probe codexLaunched.2.toOrch "\n" := by
    apply readable_probeAt hprocess _ hargs.1
    intro a ha
    rw [ha, Option.map_some, Option.some.injEq] at hhead
    exact hhead
  have hiff := absence_iff freshHome (.glob "exec-1") codexLaunched_run hstate.1 hstate.2.1
    hstate.2.2 hread
  rw [hargs.2] at hiff
  exact ⟨"\n", (hiff freshHome_looksUp freshHome_absent).mpr
    ⟨⟨rfl, .inl ⟨_, rfl, rfl⟩⟩, by simp⟩⟩

namespace Sample.Log

def line : String :=
  "\x7b\"timestamp\":\"2023-11-14T22:13:25Z\",\"error\":\"rate_limit\"\x7d"

scoped instance crates : Crates where
  sha256Hex := Sample.crates.sha256Hex
  regexIsMatch pattern text :=
    pattern = "(?i)permission denied" && contains text "permission denied"
  regexFind pattern text :=
    if pattern = "(?i)permission denied" ∧ contains text "permission denied" then
      some "permission denied"
    else none
  yamlLoad := Sample.crates.yamlLoad
  serdeYaml := Sample.crates.serdeYaml
  serdeJson text :=
    if text = line then
      some (.object
        [("timestamp", .string "2023-11-14T22:13:25Z"), ("error", .string "rate_limit")])
    else none
  jsonToString := Sample.crates.jsonToString
  parseRfc3339 text := if text = "2023-11-14T22:13:25Z" then some (time 5) else none
  displayF64 := Sample.crates.displayF64

def attended (provider : ProviderKind) : Orch where
  ctx := { OrchestratorCtx.new { args with executorProvider := provider } with
    runState := .executorMonitor
    executorSessionId := some "exec-1"
    attempt := some (freshAttempt .executor (time 0) 4242 "" "" "c0ffee" none)
    activeProcess := some ⟨0⟩ }
  world := .empty

def denied : ProbeObs :=
  { probeAt 10 with
    stdoutTail := .ok (asBytes "permission denied")
    jsonlTail := .ok (asBytes line) }

theorem denied_benign : Benign "permission denied\n" "\n" :=
  ⟨by decide +kernel, by decide +kernel, by decide +kernel, by decide +kernel⟩

end Sample.Log

open Sample Sample.Log in
theorem marker_hides_cap :
    Benign "permission denied\n" "\n" ∧
      detectedClass (attended .claude).ctx "permission denied\n" denied = .ok none ∧
      detectedClass (attended .claude).ctx "\n" denied = .ok (some .serviceCap) :=
  ⟨denied_benign, by decide +kernel, by decide +kernel⟩

open Sample Sample.Log in
theorem nonFatal_iff_codex :
    detectedClass (attended .codex).ctx "permission denied\n" denied =
        detectedClass (attended .codex).ctx "\n" denied ∧
      rwp (doMonitorProbe .executor denied)
        (doMonitorProbe .executor { denied with stdoutTail := .ok [], stderrTail := .ok [] })
        (fun flow flow' t u => flow = flow' ∧ UpToWarnings t u) (fun _ t u => UpToWarnings t u)
        (attended .codex) (attended .codex) := by
  have hmarked : readProviderDiagnostics (attended .codex).ctx.activeProcess denied =
      .ok "permission denied\n" := by decide +kernel
  have hplain : readProviderDiagnostics (attended .codex).ctx.activeProcess
      { denied with stdoutTail := .ok [], stderrTail := .ok [] } = .ok "\n" := by decide +kernel
  have hcodex : ∀ role, (attended .codex).ctx.args.provider role ≠ .claude := by
    intro role
    cases role <;> decide
  have hquiet : LogQuiet (attended .codex).ctx denied :=
    fun a _ hclaude => absurd hclaude (hcodex a.role)
  exact (nonFatal_iff denied_benign hmarked hplain).mpr hquiet

end Orchestrator

import Orchestrator.Ledger
import Orchestrator.Worktree

/-! The final report, and what a collection reads for it. -/

namespace Orchestrator

open Rust Exec Trace

inductive ReasonCode
  | doneQualityReached | stoppedIrreconcilableDisagreement | stoppedServiceCap
  | stoppedProviderAccess | stoppedPoisonedSession | stoppedSessionLocked
  | stoppedConsecutiveFailureLimit | stoppedExternalBlocker | stoppedDirtyWorktree
  | failedSessionBind | failedInvalidInput | failedProtocol | cancelledByOperator | internalError
  deriving DecidableEq

def reasonCodeForState : RunState → ReasonCode
  | .runDone => .doneQualityReached
  | .runAborted => .cancelledByOperator
  | .runFailedInvalidInput => .failedInvalidInput
  | .runFailedDirtyWorktree => .stoppedDirtyWorktree
  | .runFailedSessionBind => .failedSessionBind
  | .runFailedServiceCap => .stoppedServiceCap
  | .runFailedProviderAccess => .stoppedProviderAccess
  | .runFailedConsecutiveFailureLimit => .stoppedConsecutiveFailureLimit
  | .runFailedExternalBlocker => .stoppedExternalBlocker
  | .runFailedIrreconcilableDisagreement => .stoppedIrreconcilableDisagreement
  | .runFailedPoisonedSession => .stoppedPoisonedSession
  | .runFailedProtocol => .failedProtocol
  | .runFailedSessionLocked => .stoppedSessionLocked
  | .runFailedInternal => .internalError
  | _ => .internalError

structure FinalReport where
  workflowType : WorkflowType
  state : RunState
  reasonCode : ReasonCode
  workspaceRoot : String
  branch : String
  notionPolicy : NotionPolicy
  remoteNetworkPolicy : RemoteNetworkPolicy
  executorProvider : Option ProviderKind
  executorSessionId : Option String
  executorThreadName : String
  executorModel : Option String
  reviewerProvider : Option ProviderKind
  reviewerSessionId : Option String
  reviewerThreadName : String
  reviewerModel : Option String
  consecutiveFailureCount : Nat
  qualityScore : Option F64
  reviewerDecision : Option String
  reviewerRationale : Option String
  reviewerFindings : Option Json
  reviewerChecks : Option Json
  reviewerVerificationCommands : Option Json
  artifactPaths : List String
  commitHashes : List String
  warnings : List String
  failures : List String
  nextActionRequired : Option String
  lastInbox : Option TransportBodyReport
  executorOutbox : Option TransportBodyReport
  reviewerOutbox : Option TransportBodyReport

def buildReport (toValue : YamlValue → Option Json) (ctx : OrchestratorCtx) : FinalReport where
  workflowType := ctx.args.workflowType
  state := ctx.runState
  reasonCode := reasonCodeForState ctx.runState
  workspaceRoot := ctx.args.workspaceRoot
  branch := ctx.branch
  notionPolicy := ctx.args.notionPolicy
  remoteNetworkPolicy := ctx.args.remoteNetworkPolicy
  executorProvider := some ctx.args.executorProvider
  executorSessionId := ctx.executorSessionId
  executorThreadName := ctx.args.executorThreadName
  executorModel := ctx.args.executorModel
  reviewerProvider := some ctx.args.reviewerProvider
  reviewerSessionId := ctx.reviewerSessionId
  reviewerThreadName := ctx.args.reviewerThreadName
  reviewerModel := ctx.args.reviewerModel
  consecutiveFailureCount := ctx.consecutiveFailureCount
  qualityScore := ctx.reviewResult.map (·.qualityScore)
  reviewerDecision := ctx.reviewResult.map (·.decision.asStr)
  reviewerRationale := ctx.reviewResult.map (·.rationale)
  reviewerFindings := ctx.reviewResult.bind fun r => r.findings.bind toValue
  reviewerChecks := ctx.reviewResult.bind fun r => r.checksPerformed.bind toValue
  reviewerVerificationCommands :=
    ctx.reviewResult.bind fun r => r.verificationCommands.bind toValue
  artifactPaths := ctx.artifactPaths
  commitHashes := ctx.commitHashes
  warnings := ctx.warnings
  failures := ctx.failures
  nextActionRequired := ctx.nextActionRequired
  lastInbox := ctx.lastInboxSnapshot
  executorOutbox := ctx.executorOutboxSnapshot
  reviewerOutbox := ctx.reviewerOutboxSnapshot

/-- The verdict goes with `text`, and the report will show `body`. -/
structure Reading where
  text : String
  verdict : Option ReviewerYaml
  body : Option String

def Reading.Faithful (r : Reading) : Prop := r.verdict.isSome → r.body = some r.text

instance (r : Reading) : Decidable r.Faithful :=
  inferInstanceAs (Decidable (r.verdict.isSome → _))

def outboxBody (o : SnapshotObs) : IoResult (Option String) :=
  match noneIfMissing o.read, o.mtime with
  | .error e, _ => .error e
  | .ok none, _ => .ok none
  | .ok (some _), .error e => .error e
  | .ok (some bytes), .ok _ => .ok (some (fromUtf8Lossy bytes))

structure SameReport (c d : OrchestratorCtx) : Prop where
  result : d.reviewResult = c.reviewResult
  raw : d.reviewResultYamlRaw = c.reviewResultYamlRaw
  snapshot : d.reviewerOutboxSnapshot = c.reviewerOutboxSnapshot

structure AfterReading (r : Reading) (c d : OrchestratorCtx) : Prop where
  result : d.reviewResult = r.verdict
  raw : d.reviewResultYamlRaw =
    if c.reviewResult.isNone ∧ r.verdict.isSome then some r.text else c.reviewResultYamlRaw
  body : d.reviewerOutboxSnapshot.map (·.body) = r.body

theorem SameReport.refl (c : OrchestratorCtx) : SameReport c c := ⟨rfl, rfl, rfl⟩

theorem AfterReading.carry {r : Reading} {c d d' : OrchestratorCtx} (h : AfterReading r c d)
    (hs : SameReport d d') : AfterReading r c d' :=
  ⟨hs.result.trans h.result, hs.raw.trans h.raw, hs.snapshot ▸ h.body⟩

theorem checkReviewerWorkspace_report (o : CollectObs) (s : Orch) :
    wp (checkReviewerWorkspace o) (fun _ t => SameReport s.ctx t.ctx)
      (fun _ t => SameReport s.ctx t.ctx) s := by
  simp only [checkReviewerWorkspace, reviewerWorkspaceDirtyReason, wp_bind, OrchM.wp_ctx,
    OrchM.wp_ofResult, OrchM.wp_unwrap, wp_pure]
  refine ⟨fun status _ => ⟨fun dirty _ => ?_, fun _ => .refl _⟩, fun _ _ => .refl _⟩
  cases dirty with
  | none => exact ⟨rfl, rfl, rfl⟩
  | some lines => exact ⟨rfl, rfl, rfl⟩

section Reading

variable [Crates]

theorem readTransportSnapshot_body (path : String) (role : AgentRole) (provider : ProviderKind)
    (sessionId : String) (o : SnapshotObs) :
    (readTransportSnapshot path role provider sessionId o).map (Option.map (·.body)) =
      ofIo (outboxBody o) := by
  simp only [readTransportSnapshot, outboxBody]
  cases noneIfMissing o.read with
  | error e => rfl
  | ok bytes =>
    cases bytes with
    | none => rfl
    | some bytes => cases o.mtime <;> rfl

theorem outboxBody_ok {path : String} {role : AgentRole} {provider : ProviderKind}
    {sessionId : String} {o : SnapshotObs} {snapshot : Option TransportBodyReport}
    (h : readTransportSnapshot path role provider sessionId o = .ok snapshot) :
    outboxBody o = .ok (snapshot.map (·.body)) := by
  have hbody := readTransportSnapshot_body path role provider sessionId o
  rw [h] at hbody
  cases hread : outboxBody o with
  | error e => simp [hread, ofIo, Except.map] at hbody
  | ok body => simpa [hread, ofIo, Except.map] using hbody.symm

theorem outboxBody_error {path : String} {role : AgentRole} {provider : ProviderKind}
    {sessionId : String} {o : SnapshotObs} {e : OrchestratorError}
    (h : readTransportSnapshot path role provider sessionId o = .error e) :
    ∃ e, outboxBody o = .error e := by
  have hbody := readTransportSnapshot_body path role provider sessionId o
  rw [h] at hbody
  cases hread : outboxBody o with
  | error e => exact ⟨e, rfl⟩
  | ok body => simp [hread, ofIo, Except.map] at hbody

/-- A kept verdict goes with the text it was saved with. -/
def reading (ctx : OrchestratorCtx) (o : CollectObs) : Option Reading :=
  match optionalFileMtime o.outboxMtime, reviewerText ctx o, outboxBody o.snapshot with
  | .ok mtime, .ok text, .ok body =>
    if ctx.attempt.bind (·.preReviewerOutboxMtime) = mtime ∧
      (ctx.attempt.bind (·.preReviewerOutboxMtime)).isSome then none
    else
      some {
        text := text
        verdict := ctx.reviewResult.or (judgeReviewerOutput ctx.args.notionPolicy text).toOption
        body := body }
  | _, _, _ => none

def Reads (o : CollectObs) (c d : OrchestratorCtx) : Prop :=
  match reading c o with
  | none => SameReport c d
  | some r => AfterReading r c d

theorem Reads.of_none {o : CollectObs} {c d : OrchestratorCtx} (h : reading c o = none)
    (hs : SameReport c d) : Reads o c d := by
  simpa only [Reads, h] using hs

theorem reading_unchanged {ctx : OrchestratorCtx} {o : CollectObs} {mtime : Option Int}
    (hmtime : optionalFileMtime o.outboxMtime = .ok mtime)
    (h : ctx.attempt.bind (·.preReviewerOutboxMtime) = mtime ∧
      (ctx.attempt.bind (·.preReviewerOutboxMtime)).isSome) : reading ctx o = none := by
  simp only [reading, hmtime]
  split
  · simp only [Except.ok.injEq] at *
    subst mtime
    exact if_pos h
  · rfl

theorem judge_report {o : CollectObs} {s : Orch} {r : Reading}
    {snapshot : Option TransportBodyReport} (hbody : snapshot.map (·.body) = r.body)
    (hr : r.verdict =
      s.ctx.reviewResult.or (judgeReviewerOutput s.ctx.args.notionPolicy r.text).toOption) :
    wp (do if ← saveVerdict r.text then checkReviewerWorkspace o else return () : OrchM Unit)
      (fun _ t => AfterReading r s.ctx t.ctx) (fun _ t => AfterReading r s.ctx t.ctx)
      { s with ctx := { s.ctx with reviewerOutboxSnapshot := snapshot } } := by
  rw [wp_bind]
  obtain hres | ⟨v, hres⟩ := Option.eq_none_or_eq_some s.ctx.reviewResult
  · cases hjudge : judgeReviewerOutput s.ctx.args.notionPolicy r.text with
    | error e =>
      have hverdict : r.verdict = none := by simp [hr, hres, hjudge, Except.toOption]
      apply (saveVerdict_rejected (e := e) ?_ ?_).mpr
      · exact ⟨hres.trans hverdict.symm, by simp [retryReviewerOutputFailure, hverdict],
          hbody⟩
      · exact hres
      · exact hjudge
    | ok v =>
      have hverdict : r.verdict = some v := by simp [hr, hres, hjudge, Except.toOption]
      have hshown : AfterReading r s.ctx { s.ctx with
          reviewerYamlRejection := none
          reviewResultYamlRaw := some r.text
          reviewResult := some v
          reviewerOutboxSnapshot := snapshot } :=
        ⟨hverdict.symm, by simp [hres, hverdict], hbody⟩
      apply (saveVerdict_fresh (v := v) ?_ ?_).mpr
      · apply wp_mono (checkReviewerWorkspace_report o _)
        · exact fun _ t ht => hshown.carry ht
        · exact fun _ t ht => hshown.carry ht
      · exact hres
      · exact hjudge
  · have hverdict : r.verdict = some v := by simp [hr, hres]
    have hshown : AfterReading r s.ctx { s.ctx with reviewerOutboxSnapshot := snapshot } :=
      ⟨hres.trans hverdict.symm, by simp [hres], hbody⟩
    apply (saveVerdict_saved (v := v) ?_).mpr
    · apply wp_mono (checkReviewerWorkspace_report o _)
      · exact fun _ t ht => hshown.carry ht
      · exact fun _ t ht => hshown.carry ht
    · exact hres

theorem doReviewerOutputCollect_reads (o : CollectObs) (s : Orch) :
    wp (doReviewerOutputCollect o) (fun _ t => Reads o s.ctx t.ctx)
      (fun _ t => Reads o s.ctx t.ctx) s := by
  simp only [doReviewerOutputCollect, wp_bind, OrchM.wp_ctx, OrchM.wp_ofResult, wp_ite,
    OrchM.wp_modifyCtx]
  refine ⟨fun mtime hmtime => ⟨fun hsame => ?_, fun hchanged => ?_⟩, fun e he => ?_⟩
  · exact .of_none (reading_unchanged hmtime hsame) ⟨rfl, rfl, rfl⟩
  · cases htext : reviewerText s.ctx o with
    | error e => exact .of_none (by simp [reading, hmtime, htext]) ⟨rfl, rfl, rfl⟩
    | ok text =>
      simp only [wp_bind, OrchM.wp_ofResult, OrchM.wp_modifyCtx]
      refine ⟨fun snapshot hsnapshot => ?_, fun e he => ?_⟩
      · obtain ⟨r, hr⟩ : ∃ r : Reading, r = ⟨text, s.ctx.reviewResult.or
            (judgeReviewerOutput s.ctx.args.notionPolicy text).toOption,
            snapshot.map (·.body)⟩ := ⟨_, rfl⟩
        have hsome : reading s.ctx o = some r := by
          simp only [reading, hmtime, htext, outboxBody_ok hsnapshot, if_neg hchanged, hr]
        have hjudge := judge_report (o := o) (s := s) (r := r) (by rw [hr]) (by rw [hr])
        rw [wp_bind, hr] at hjudge
        simp only [Reads, hsome, hr]
        exact hjudge
      · obtain ⟨e', he'⟩ := outboxBody_error he
        exact .of_none (by simp [reading, hmtime, htext, he']) (.refl _)
  · exact .of_none (by simp [reading, he]) (.refl _)

def turnReading (e : Turn) : Option Reading :=
  match e.input with
  | .exit _ => none
  | .tick c o =>
    if e.pre.Steps c ∧ e.pre.ctx.runState = .reviewerOutputCollect then
      reading e.pre.ctx o.reviewerOutput
    else none

def lastReading (h : History Machine Input) : Option Reading :=
  (since verifies h).findSome? turnReading

end Reading

theorem doQualityGate_report (ctx : OrchestratorCtx) : SameReport ctx (doQualityGate ctx) := by
  unfold doQualityGate
  split
  · exact ⟨rfl, rfl, rfl⟩
  · rename_i review _
    cases review.decision <;> exact ⟨rfl, rfl, rfl⟩

section Kept

variable [Crates] {o : StepObs} {s t : Orch} {flow : Flow} {m m' : Machine}

theorem Outcome.sameReport {role : AgentRole} {obs : ProbeObs} (h : Outcome role obs s flow t) :
    SameReport s.ctx t.ctx := by
  cases h with
  | aborted => simp only [Orch.abort, Orch.terminateActiveChild_ctx]; constructor <;> rfl
  | @finished p state v allowed h _ _ =>
    obtain ⟨w, hw⟩ := h.ctx
    cases allowed <;> simp only [Orch.mapCtx_ctx, hw] <;> constructor <;> rfl
  | watched h | stopped h _ | capped h _ _ | failed h _ | hung h | cancelled h =>
    obtain ⟨w, hw⟩ := h.ctx
    simp only [Orch.mapCtx_ctx, Orch.terminateActiveChild_ctx, hw]
    constructor <;> rfl

theorem Stepped.sameReport (hst : Stepped o s flow t)
    (hverify : s.ctx.runState ≠ .orchVerify) (hcollect : s.ctx.runState ≠ .reviewerOutputCollect) :
    SameReport s.ctx t.ctx := by
  cases hst with
  | dispatched _ hd =>
    cases hd with
    | launched _ _ hp _ _ =>
      obtain ⟨baseline, inbox, hc⟩ := hp.ctx
      simp only [Orch.mapCtx_ctx, withState, launch, hc]
      constructor <;> rfl
  | probed _ hp => exact hp.outcome.sameReport
  | collected hr _ => exact absurd hr hcollect
  | retried _ =>
    simp only [Orch.mapCtx_ctx, doRoundRetryDecide]
    split <;> constructor <;> rfl
  | gated _ => exact doQualityGate_report _
  | prepared _ hc _ =>
    rw [hc]
    constructor <;> rfl
  | surveyed _ hu =>
    obtain ⟨_, _, _, _, rfl⟩ := hu
    constructor <;> rfl
  | verified hr => exact absurd hr hverify
  | bound _ _ | fedBack _ | skipped _ => constructor <;> rfl

theorem Interrupted.sameReport (hi : Interrupted o s t)
    (hcollect : s.ctx.runState ≠ .reviewerOutputCollect) : SameReport s.ctx t.ctx := by
  cases hi with
  | preparing _ hc _ => exact hc ▸ .refl _
  | dispatching _ hd =>
    cases hd with
    | unlocked => constructor <;> rfl
    | locked _ _ hp =>
      obtain ⟨baseline, inbox, hc⟩ := hp.ctx
      rw [hc]
      constructor <;> rfl
  | probing _ hu =>
    obtain ⟨_, _, _, rfl⟩ := hu
    obtain ⟨a, ha⟩ := pollChild_ctx o.probe s
    simp only [ha]
    constructor <;> rfl
  | surveying _ hu =>
    obtain ⟨_, _, _, _, rfl⟩ := hu
    constructor <;> rfl
  | collecting hr _ => exact absurd hr hcollect

theorem collect_reads {c : Bool} (hs : m.Steps c) (hr : m.ctx.runState = .reviewerOutputCollect) :
    Reads o.reviewerOutput m.ctx (m.next (.tick c o)).ctx := by
  have hstep : wp (step o) (fun _ t => Reads o.reviewerOutput m.ctx t.ctx)
      (fun _ t => Reads o.reviewerOutput m.ctx t.ctx) m.toOrch := by
    rw [step, wp_bind, OrchM.wp_ctx]
    simp only [hr, wp_map]
    exact doReviewerOutputCollect_reads o.reviewerOutput m.toOrch
  obtain ⟨flow, ht⟩ | ⟨e, t, ht, heq⟩ | ⟨t, ht, heq⟩ := next_of_wp hs hstep
  · exact ht
  · rw [heq]
    revert ht
    simp only [Reads]
    cases reading m.ctx o.reviewerOutput with
    | none => exact fun ht => ⟨ht.result, ht.raw, ht.snapshot⟩
    | some r => exact fun ht => ht.carry ⟨rfl, rfl, rfl⟩
  · rw [heq]
    exact ht

theorem Move.sameReport {i : Input} (hmove : Move m i m') (hverify : verifies ⟨m, i, m'⟩ = false)
    (hcollect : ∀ c o, i = .tick c o → m.Steps c → m.ctx.runState ≠ .reviewerOutputCollect) :
    SameReport m.ctx m'.ctx := by
  cases hmove with
  | exit | idle _ | cancelled _ _ => constructor <;> rfl
  | admitted _ hroot | rejected _ hroot =>
    obtain ⟨root, rfl⟩ := hroot
    constructor <;> rfl
  | @stepped c o flow t hs hst =>
    apply hst.sameReport
    · simpa [verifies, takesStep, hs] using hverify
    · exact hcollect c o rfl hs
  | failed hs hi =>
    have hsame := hi.sameReport (hcollect _ _ rfl hs)
    exact ⟨hsame.result, hsame.raw, hsame.snapshot⟩
  | panicked hp =>
    obtain ⟨-, root, rfl⟩ | ⟨hs, hi⟩ := hp
    · constructor <;> rfl
    · exact hi.sameReport (hcollect _ _ rfl hs)

theorem turn_report {i : Input} (hverify : verifies ⟨m, i, m.next i⟩ = false) :
    (turnReading ⟨m, i, m.next i⟩).elim (SameReport m.ctx (m.next i).ctx)
      (AfterReading · m.ctx (m.next i).ctx) := by
  cases i with
  | exit child => exact .refl _
  | tick c o =>
    by_cases hs : m.Steps c ∧ m.ctx.runState = .reviewerOutputCollect
    · have hreads := collect_reads (o := o) hs.1 hs.2
      simp only [turnReading, if_pos hs]
      simp only [Reads] at hreads
      cases hreading : reading m.ctx o.reviewerOutput with
      | none => simpa only [hreading, Option.elim_none] using hreads
      | some r => simpa only [hreading, Option.elim_some] using hreads
    · simp only [turnReading, if_neg hs, Option.elim_none]
      apply (next_move m (.tick c o)).sameReport hverify
      rintro _ _ ⟨⟩ hsteps hr
      exact hs ⟨hsteps, hr⟩

end Kept

section Run

variable [Crates] {h : History Machine Input} {m : Machine}

structure Records (r : Reading) (ctx : OrchestratorCtx) : Prop where
  result : ctx.reviewResult = r.verdict
  raw : r.verdict.isSome → ctx.reviewResultYamlRaw = some r.text
  parsed : ∀ v, r.verdict = some v → parseReviewerYaml r.text = .ok v
  body : ctx.reviewerOutboxSnapshot.map (·.body) = r.body

def Recorded (last : Option Reading) (ctx : OrchestratorCtx) : Prop :=
  last.elim (ctx.reviewResult = none) (Records · ctx)

theorem Records.carry {r : Reading} {c d : OrchestratorCtx} (h : Records r c)
    (hs : SameReport c d) : Records r d :=
  ⟨hs.result.trans h.result, fun hv => hs.raw.trans (h.raw hv), h.parsed,
    hs.snapshot ▸ h.body⟩

theorem Recorded.carry {last : Option Reading} {c d : OrchestratorCtx} (h : Recorded last c)
    (hs : SameReport c d) : Recorded last d := by
  cases last with
  | none => exact hs.result.trans h
  | some r => exact Records.carry h hs

theorem lastReading_verifies {e : Turn} (hv : verifies e = true) : lastReading (e :: h) = none := by
  simp [lastReading, since, List.takeWhile, hv]

theorem lastReading_cons {e : Turn} (hv : verifies e = false) :
    lastReading (e :: h) = (turnReading e).or (lastReading h) := by
  rw [lastReading, since_cons hv, List.findSome?_cons, lastReading]
  cases turnReading e <;> rfl

theorem reading_verdict {o : CollectObs} {r : Reading} {ctx : OrchestratorCtx}
    (h : reading ctx o = some r) : reviewerText ctx o = .ok r.text ∧
      r.verdict =
        ctx.reviewResult.or (judgeReviewerOutput ctx.args.notionPolicy r.text).toOption := by
  revert h
  simp only [reading]
  split
  · rename_i mtime text snapshot _ htext _
    split
    · simp
    · rw [Option.some.injEq]
      rintro rfl
      exact ⟨htext, rfl⟩
  · simp

theorem Recorded.read {last : Option Reading} {o : CollectObs} {r : Reading}
    {c d : OrchestratorCtx} (hrec : Recorded last c) (hread : reading c o = some r)
    (hafter : AfterReading r c d) : Records r d := by
  obtain ⟨htext, hverdict⟩ := reading_verdict hread
  obtain hres | ⟨v, hres⟩ := Option.eq_none_or_eq_some c.reviewResult
  · refine ⟨hafter.result, fun hsome => ?_, fun v hv => ?_, hafter.body⟩
    · rw [hafter.raw, if_pos ⟨by simp [hres], hsome⟩]
    · rw [hverdict, hres, Option.none_or] at hv
      cases hjudge : judgeReviewerOutput c.args.notionPolicy r.text with
      | error e => simp [hjudge, Except.toOption] at hv
      | ok yaml =>
        simp only [hjudge, Except.toOption, Option.some.injEq] at hv
        subst hv
        exact (judgeReviewerOutput_ok.mp hjudge).1
  · have hkept : r.verdict = some v := by rw [hverdict, hres, Option.some_or]
    cases last with
    | none => exact absurd (hrec.symm.trans hres) (by simp)
    | some older =>
      have hrec : Records older c := hrec
      have hv : older.verdict = some v := hrec.result.symm.trans hres
      have hraw : c.reviewResultYamlRaw = some older.text := hrec.raw (by simp [hv])
      have hsame : r.text = older.text := by
        simpa [reviewerText, hres, hraw] using htext.symm
      refine ⟨hafter.result, fun _ => ?_, fun w hw => ?_, hafter.body⟩
      · rw [hafter.raw, if_neg (by simp [hres]), hraw, hsame]
      · rw [hsame]
        exact hrec.parsed w (hv.trans (hkept.symm.trans hw))

theorem verifies_result {i : Input} (hverify : verifies ⟨m, i, m.next i⟩ = true) :
    (m.next i).ctx.reviewResult = none := by
  cases i with
  | exit child => simp [verifies, takesStep] at hverify
  | tick c o =>
    simp only [verifies, takesStep, Bool.and_eq_true, decide_eq_true_eq] at hverify
    obtain ⟨hs, hr⟩ := hverify
    have hstep : wp (step o) (fun _ t => t.ctx.reviewResult = none) (fun _ _ => False)
        m.toOrch := by
      rw [step, wp_bind, OrchM.wp_ctx]
      simp [hr, doOrchVerify]
    obtain ⟨flow, ht⟩ | ⟨e, t, ht, heq⟩ | ⟨t, ht, heq⟩ := next_of_wp hs hstep
    · exact ht
    · exact ht.elim
    · exact ht.elim

theorem turnReading_eq_some {e : Turn} {r : Reading} (h : turnReading e = some r) :
    ∃ o, reading e.pre.ctx o = some r := by
  revert h
  simp only [turnReading]
  cases e.input with
  | exit child => simp
  | tick c o =>
    simp only
    split
    · exact fun h => ⟨_, h⟩
    · simp

theorem Run.recorded (hr : Run h m) : Recorded (lastReading h) m.ctx := by
  apply Trace.Run.invariant (P := fun h m => Recorded (lastReading h) m.ctx) hr
  · rintro _ ⟨args, rfl⟩
    rfl
  · intro h m i hr hrec
    cases hverify : verifies ⟨m, i, m.next i⟩ with
    | true =>
      rw [lastReading_verifies hverify]
      exact verifies_result hverify
    | false =>
      rw [lastReading_cons hverify]
      have hturn := turn_report hverify
      cases hread : turnReading ⟨m, i, m.next i⟩ with
      | none =>
        rw [hread] at hturn
        exact hrec.carry hturn
      | some r =>
        rw [hread] at hturn
        obtain ⟨o, hreading⟩ := turnReading_eq_some hread
        exact hrec.read hreading hturn

/-- A report that has a verdict shows the text that the verdict was parsed from. -/
def ShowsVerdict (toValue : YamlValue → Option Json) (ctx : OrchestratorCtx) : Prop :=
  ∀ v, ctx.reviewResult = some v →
    ∃ snapshot, (buildReport toValue ctx).reviewerOutbox = some snapshot ∧
      ctx.reviewResultYamlRaw = some snapshot.body ∧ parseReviewerYaml snapshot.body = .ok v

theorem not_shows {toValue : YamlValue → Option Json} {ctx : OrchestratorCtx} {raw body : String}
    (hv : ctx.reviewResult.isSome) (hraw : ctx.reviewResultYamlRaw = some raw)
    (hbody : ctx.reviewerOutboxSnapshot.map (·.body) = some body) (hne : raw ≠ body) :
    ¬ShowsVerdict toValue ctx := by
  intro hshows
  obtain ⟨v, hv⟩ := Option.isSome_iff_exists.mp hv
  obtain ⟨snapshot, hsnapshot, hshown, -⟩ := hshows v hv
  have hsnapshot : ctx.reviewerOutboxSnapshot = some snapshot := hsnapshot
  rw [hsnapshot, Option.map_some, Option.some.injEq] at hbody
  rw [hraw, Option.some.injEq, hbody] at hshown
  exact hne hshown

theorem verdict_shown_iff {toValue : YamlValue → Option Json} (hr : Run h m) :
    ShowsVerdict toValue m.ctx ↔ ∀ r ∈ lastReading h, r.Faithful := by
  have hrec := Run.recorded hr
  cases hlast : lastReading h with
  | none =>
    rw [hlast] at hrec
    have hnone : m.ctx.reviewResult = none := hrec
    simp [ShowsVerdict, hnone]
  | some r =>
    rw [hlast] at hrec
    have hrec : Records r m.ctx := hrec
    simp only [ShowsVerdict, buildReport, hrec.result, Option.mem_some, forall_eq',
      Reading.Faithful, ← hrec.body, Option.isSome_iff_exists, Option.map_eq_some_iff]
    constructor
    · rintro hshows ⟨v, hv⟩
      obtain ⟨snapshot, hsnapshot, hraw, -⟩ := hshows v hv
      rw [hrec.raw (by simp [hv]), Option.some.injEq] at hraw
      exact ⟨snapshot, hsnapshot, hraw.symm⟩
    · intro hfaithful v hv
      obtain ⟨snapshot, hsnapshot, hbody⟩ := hfaithful ⟨v, hv⟩
      refine ⟨snapshot, hsnapshot, ?_, ?_⟩
      · rw [hrec.raw (by simp [hv]), hbody]
      · rw [hbody]
        exact hrec.parsed v hv

end Run

namespace Sample

def overwritten : List Input :=
  cleanup ++ [
    .tick false { obsAt 90 with
      reviewerOutput := { reviewed (time 70) with
        outboxText := .ok (asBytes "done")
        snapshot := ⟨.ok (asBytes "done"), .ok (time 70)⟩ } },
    .tick false (obsAt 90)]

def rewritten : List Input :=
  cleanup ++ [.tick false (cleanedUp (time 70)), .tick false (obsAt 90)]

theorem rewrites_done :
    ((buildReport (fun _ => none) (run rewritten).2.ctx).reasonCode = .doneQualityReached ∧
      ∀ r ∈ lastReading (run rewritten).1, r.Faithful) ∧
    (buildReport (fun _ => none) (run overwritten).2.ctx).reasonCode = .doneQualityReached ∧
      (run overwritten).2.ctx.reviewResult.isSome ∧
      (run overwritten).2.ctx.reviewResultYamlRaw = some acceptText ∧
      (buildReport (fun _ => none) (run overwritten).2.ctx).reviewerOutbox.map (·.body) =
        some "done" ∧
      (run overwritten).2.ctx.reviewerOutboxSnapshot.map (·.body) = some "done" ∧
      acceptText ≠ "done" := by
  simp only [rewritten, overwritten, cleanup, cleanedUp, reviewed, asBytes_eq_toByteArray]
  decide +kernel

end Sample

open Sample in
theorem verdict_shown_rewritten :
    (buildReport (fun _ => none) (run rewritten).2.ctx).reasonCode = .doneQualityReached ∧
      ShowsVerdict (fun _ => none) (run rewritten).2.ctx := by
  obtain ⟨⟨hreason, hfaithful⟩, -⟩ := rewrites_done
  exact ⟨hreason, (verdict_shown_iff (run_run rewritten)).mpr hfaithful⟩

open Sample in
theorem cleanup_overwrites :
    Run (run overwritten).1 (run overwritten).2 ∧
      (buildReport (fun _ => none) (run overwritten).2.ctx).reasonCode = .doneQualityReached ∧
      (run overwritten).2.ctx.reviewResult.isSome ∧
      (run overwritten).2.ctx.reviewResultYamlRaw = some acceptText ∧
      (buildReport (fun _ => none) (run overwritten).2.ctx).reviewerOutbox.map (·.body) =
        some "done" ∧
      ¬ShowsVerdict (fun _ => none) (run overwritten).2.ctx := by
  obtain ⟨-, hreason, hresult, hraw, hshown, hbody, hne⟩ := rewrites_done
  exact ⟨run_run _, hreason, hresult, hraw, hshown, not_shows hresult hraw hbody hne⟩

end Orchestrator

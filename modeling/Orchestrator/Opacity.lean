import Orchestrator.Lib.Relate
import Orchestrator.Run

/-! Runs that differ in what no step reads. -/

namespace Orchestrator

open Rust Exec

/-- The context with other warnings and another snapshot of the executor's outbox. -/
def veil (w : List String → List String)
    (x : Option TransportBodyReport → Option TransportBodyReport) (ctx : OrchestratorCtx) :
    OrchestratorCtx :=
  { ctx with
    warnings := w ctx.warnings
    executorOutboxSnapshot := x ctx.executorOutboxSnapshot }

section Veil

variable (w : List String → List String)
  (x : Option TransportBodyReport → Option TransportBodyReport) (s : Orch)

theorem terminateActiveChild_veil : (s.mapCtx (veil w x)).terminateActiveChild =
    s.terminateActiveChild.mapCtx (veil w x) := by
  obtain ⟨ctx, world⟩ := s
  cases hp : ctx.activeProcess <;>
    simp [Orch.terminateActiveChild, Orch.mapCtx, veil, hp]

theorem pollChild_veil (o : ProbeObs) : (s.mapCtx (veil w x)).pollChild o =
    (s.pollChild o).mapCtx (veil w x) := by
  obtain ⟨ctx, world⟩ := s
  cases hp : ctx.activeProcess <;> cases ht : o.tryWait <;>
    simp [Orch.pollChild, Orch.mapCtx, veil, hp, ht]

theorem routeResult_veil (role : AgentRole) (allowed outboxPresent : Bool)
    (ctx : OrchestratorCtx) : routeResult role allowed outboxPresent (veil w x ctx) =
      veil w x (routeResult role allowed outboxPresent ctx) := by
  cases allowed <;> rfl

theorem route_veil (role : AgentRole) (now : Int) (p : Probe) (state : AttemptState) :
    route role now p state (s.mapCtx (veil w x)) =
      ((route role now p state s).1, (route role now p state s).2.mapCtx (veil w x)) := by
  cases state with
  | success | failedServiceCap | failedProviderAccess | failedTransport | failedSilent
  | failedProtocol | running | waitingOutput | unknown | dispatching | terminatingStale
  | retryPending | retryExhausted => rfl
  | softSuccess =>
    have h := routeResult_veil w x role
      (softSuccessAllowed s.ctx.args.workflowType s.ctx.artifactMap)
      (nonEmptyOutbox p.signals.outboxMeta) s.ctx
    exact congrArg (fun ctx => (Flow.done, Orch.mk ctx s.world)) h
  | hangConfirmed =>
    have h := terminateActiveChild_veil w x (s.mapCtx terminatingStale)
    exact congrArg (fun t => (Flow.done, t.mapCtx (retryAttempt role))) h
  | finalizing =>
    simp only [route]
    split
    · rw [terminateActiveChild_veil]
      rfl
    · rfl
  | cancelled =>
    simp only [route, terminateActiveChild_veil]
    rfl

end Veil

def SameView (s t : Orch) : Prop := ∃ x, t = s.mapCtx (veil id fun _ => x)

theorem SameView.refl (s : Orch) : SameView s s := ⟨s.ctx.executorOutboxSnapshot, rfl⟩

section Rules

variable {α β : Type} {V : α → β → Prop}

theorem rwp_ctx {Q : OrchestratorCtx → OrchestratorCtx → Orch → Orch → Prop}
    {E : Fault → Orch → Orch → Prop} {s t : Orch} :
    rwp OrchM.ctx OrchM.ctx Q E s t ↔ Q s.ctx t.ctx s t := Iff.rfl

theorem rwp_ofResult_bind {γ δ : Type} {a : α} {b : β} {f : α → OrchM γ} {g : β → OrchM δ}
    {Q : γ → δ → Orch → Orch → Prop} {E : Fault → Orch → Orch → Prop} {s t : Orch} :
    rwp (OrchM.ofResult (.ok a) >>= f) (OrchM.ofResult (.ok b) >>= g) Q E s t ↔
      rwp (f a) (g b) Q E s t := Iff.rfl

theorem related_ctx {f : OrchestratorCtx → OrchM α} {g : OrchestratorCtx → OrchM β}
    (h : ∀ c x, Related SameView V (f c) (g (veil id (fun _ => x) c))) :
    Related SameView V (OrchM.ctx >>= f) (OrchM.ctx >>= g) := by
  rintro s _ ⟨x, rfl⟩
  exact h s.ctx x s _ ⟨x, rfl⟩

theorem related_ofResult (r : OrchestratorResult α) :
    Related SameView Eq (OrchM.ofResult r) (OrchM.ofResult r) := Related.lift _

theorem related_unwrap (a : Option α) :
    Related SameView Eq (OrchM.unwrap a) (OrchM.unwrap a) := Related.lift _

theorem related_modifyCtx {f g : OrchestratorCtx → OrchestratorCtx}
    (h : ∀ c x, ∃ y, g (veil id (fun _ => x) c) = veil id (fun _ => y) (f c)) :
    Related SameView Eq (OrchM.modifyCtx f) (OrchM.modifyCtx g) := by
  rintro s _ ⟨x, rfl⟩
  obtain ⟨y, hy⟩ := h s.ctx x
  exact ⟨rfl, y, congrArg (fun c => Orch.mk c s.world) hy⟩

theorem related_modifyWorld (f : World → World) :
    Related SameView Eq (OrchM.modifyWorld f) (OrchM.modifyWorld f) := by
  rintro s _ ⟨x, rfl⟩
  exact ⟨rfl, x, rfl⟩

end Rules

theorem prologue_related (o : PrologueObs) :
    Related SameView Eq (prologue o) (prologue o) := by
  apply Related.seq
  · apply related_ctx
    intro c x
    apply Related.seq (related_ofResult _)
    intro _
    apply Related.seq (related_ofResult _)
    intro _
    apply Related.seq (related_ofResult _)
    intro _
    apply Related.seq (related_ofResult _)
    intro _
    apply Related.seq (related_ofResult _)
    intro _
    apply Related.seq (related_ofResult _)
    intro _
    apply Related.seq (related_ofResult _)
    intro root
    apply Related.seq
    · exact related_modifyCtx fun c x => ⟨x, rfl⟩
    · exact fun _ => related_ofResult _
  intro _
  apply related_ctx
  exact fun c x => related_ofResult _

theorem doContextPrep_related (o : PrepObs) :
    Related SameView Eq (doContextPrep o) (doContextPrep o) := by
  apply related_ctx
  intro c x
  apply Related.seq (related_ofResult _)
  intro _
  apply Related.seq (related_ofResult _)
  intro _
  apply Related.seq (related_ofResult _)
  intro _
  apply Related.seq (related_ofResult _)
  intro _
  apply Related.seq (related_ofResult _)
  intro _
  apply Related.seq
  · apply Related.seq (related_ofResult _)
    intro relative
    apply Related.seq (related_ofResult _)
    intro content
    apply Related.ite
    · exact fun _ => Related.pure rfl
    · intro _
      apply Related.seq (related_ofResult _)
      intro _
      apply Related.seq (related_modifyWorld _)
      exact fun _ => related_modifyWorld _
  intro _
  apply Related.seq (related_ofResult _)
  intro status
  apply Related.seq (related_ofResult _)
  intro _
  apply Related.seq (related_ofResult _)
  intro branch
  apply Related.seq (related_ofResult _)
  intro head
  exact related_modifyCtx fun c x => ⟨x, rfl⟩

theorem doSessionBind_related (o : BindObs) :
    Related SameView Eq (doSessionBind o) (doSessionBind o) := by
  apply Related.seq (related_ofResult _)
  intro executorId
  apply Related.seq (related_ofResult _)
  intro reviewerId
  apply related_ctx
  intro c x
  apply Related.seq (related_ofResult _)
  intro _
  exact related_modifyCtx fun c x => ⟨x, rfl⟩

theorem truncateFile_related (path : String) (opened : IoResult Unit) (len : IoResult Nat) :
    Related SameView Eq (truncateFile path opened len) (truncateFile path opened len) := by
  apply Related.seq (related_ofResult _)
  intro _
  apply Related.seq (related_modifyWorld _)
  intro _
  apply Related.seq (related_ofResult _)
  exact fun _ => related_ofResult _

theorem resetTransport_related (inbox outbox : String) (role : AgentRole) (o : ResetObs) :
    Related SameView Eq (resetTransport inbox outbox role o)
      (resetTransport inbox outbox role o) := by
  apply Related.seq (related_ofResult _)
  intro _
  apply Related.seq (truncateFile_related _ _ _)
  intro _
  cases role with
  | executor => exact truncateFile_related _ _ _
  | reviewer => exact Related.pure rfl

theorem captureReviewerBaseline_related (role : AgentRole) (o : DispatchObs) :
    Related SameView Eq (captureReviewerBaseline role o) (captureReviewerBaseline role o) := by
  cases role with
  | executor => exact Related.pure rfl
  | reviewer =>
    apply Related.seq (related_ofResult _)
    intro mtime
    apply related_ctx
    intro c x
    apply Related.ite
    · intro _
      apply Related.seq (related_ofResult _)
      intro status
      apply Related.seq
      · exact related_modifyCtx fun c x => ⟨x, rfl⟩
      · exact fun _ => Related.pure rfl
    · exact fun _ => Related.pure rfl

theorem collectArtifacts_related (artifactLen : String → IoResult Nat) (names : List String) :
    Related SameView Eq (collectArtifacts artifactLen names)
      (collectArtifacts artifactLen names) := by
  induction names with
  | nil => exact Related.pure rfl
  | cons name names ih =>
    apply Related.seq (related_ofResult _)
    intro present
    apply Related.seq
    · exact related_modifyCtx fun c x => ⟨x, rfl⟩
    · exact fun _ => ih

theorem checkReviewerWorkspace_related (o : CollectObs) :
    Related SameView Eq (checkReviewerWorkspace o) (checkReviewerWorkspace o) := by
  apply related_ctx
  intro c x
  apply Related.seq
  · apply Related.seq (related_ofResult _)
    intro current
    apply Related.seq (related_unwrap _)
    exact fun dirty => Related.pure rfl
  intro reason
  cases reason with
  | some reason => exact related_modifyCtx fun c x => ⟨x, rfl⟩
  | none => exact related_modifyCtx fun c x => ⟨x, rfl⟩

theorem doRoundRetryDecide_related :
    Related SameView Eq (OrchM.modifyCtx doRoundRetryDecide)
      (OrchM.modifyCtx doRoundRetryDecide) := by
  apply related_modifyCtx
  intro c x
  refine ⟨x, ?_⟩
  by_cases h : consecutiveFailureLimit ≤ c.consecutiveFailureCount
  · simp [doRoundRetryDecide, veil, h]
  · simp [doRoundRetryDecide, veil, h]

theorem doQualityGate_related :
    Related SameView Eq (OrchM.modifyCtx doQualityGate) (OrchM.modifyCtx doQualityGate) := by
  apply related_modifyCtx
  intro c x
  refine ⟨x, ?_⟩
  cases hres : c.reviewResult with
  | none => simp [doQualityGate, veil, hres]
  | some v => cases hd : v.decision <;> simp [doQualityGate, veil, hres, hd]

theorem routed_related (role : AgentRole) (now : Int) (p : Probe) (state : AttemptState) :
    Related SameView Eq
      (do
        let routed := route role now p state (← get)
        set routed.2
        return routed.1 : OrchM Flow)
      (do
        let routed := route role now p state (← get)
        set routed.2
        return routed.1 : OrchM Flow) := by
  rintro s _ ⟨x, rfl⟩
  have h := route_veil id (fun _ => x) s role now p state
  refine ⟨?_, x, ?_⟩
  · exact (congrArg Prod.fst h).symm
  · exact congrArg Prod.snd h

def BodyOf (size : Nat) (r : IoResult Bytes) : Prop := ∃ body, r = .ok body ∧ body.length = size

/-- What a probe may read of one outbox in two runs: the same, or bodies of the size that the
probe has seen. -/
def SameOutbox (o : ProbeObs) (text : IoResult Bytes) : Prop :=
  text = o.outboxText ∨ ∃ size mtime, o.outboxMeta = .ok ⟨size, mtime⟩ ∧
    BodyOf size o.outboxText ∧ BodyOf size text

def SameExecutorOutbox (o : ExecutorCollectObs) (read : IoResult Bytes) : Prop :=
  read = o.snapshot.read ∨ ∃ size, BodyOf size o.snapshot.read ∧ BodyOf size read

def Unmodified (ctx : OrchestratorCtx) (o : CollectObs) : Prop :=
  ∃ mtime, ctx.attempt.bind (·.preReviewerOutboxMtime) = some mtime ∧ o.outboxMtime = .ok mtime

/-- What one step may observe in two runs: the same, but for the body of an outbox that the
reviewer has not modified since it was dispatched. -/
inductive Concealed (ctx : OrchestratorCtx) (o : StepObs) : StepObs → Prop
  | mk {probed collected reviewed snapshot : IoResult Bytes} : SameOutbox o.probe probed →
      SameExecutorOutbox o.executorOutput collected →
      (reviewed = o.reviewerOutput.outboxText ∧ snapshot = o.reviewerOutput.snapshot.read ∨
        Unmodified ctx o.reviewerOutput) →
      Concealed ctx o { o with
        probe := { o.probe with outboxText := probed }
        executorOutput := { o.executorOutput with
          snapshot := { o.executorOutput.snapshot with read := collected } }
        reviewerOutput := { o.reviewerOutput with
          outboxText := reviewed
          snapshot := { o.reviewerOutput.snapshot with read := snapshot } } }

def Shows {α : Type} (x y : OrchM α) (s t : Orch) : Prop :=
  rwp x y (fun a b s' t' => a = b ∧ SameView s' t') (fun _ s' t' => SameView s' t') s t

inductive SameInput (m : Machine) : Input → Input → Prop
  | exit {child : Nat} : SameInput m (.exit child) (.exit child)
  | tick {c : Bool} {o p : StepObs} : Concealed m.ctx o p → SameInput m (.tick c o) (.tick c p)

def SameTurn (m n : Machine) : Prop := SameView m.toOrch n.toOrch ∧ n.pc = m.pc

def shown (m : Machine) : RunState × Nat × List String × List FileWrite :=
  (m.ctx.runState, m.ctx.consecutiveFailureCount, m.ctx.failures, m.world.writes)

theorem SameInput.refl (m : Machine) (i : Input) : SameInput m i i := by
  cases i with
  | exit child => exact .exit
  | tick c o => exact .tick (.mk (.inl rfl) (.inl rfl) (.inl ⟨rfl, rfl⟩))

theorem SameTurn.shown {m n : Machine} (h : SameTurn m n) :
    Orchestrator.shown n = Orchestrator.shown m := by
  obtain ⟨⟨x, hx⟩, -⟩ := h
  simp only [Orchestrator.shown, hx]
  rfl

theorem settle_sameTurn {x y : OrchM Flow} {s t : Orch} (h : Shows x y s t) :
    SameTurn (.settle (x s)) (.settle (y t)) := by
  revert h
  simp only [Shows, rwp]
  cases x s with
  | ok flow s' =>
    cases y t with
    | ok flow' t' =>
      rintro ⟨rfl, hview⟩
      cases flow <;> exact ⟨hview, rfl⟩
    | error e t' => exact False.elim
  | error e s' =>
    cases y t with
    | ok flow' t' => exact False.elim
    | error e' t' =>
      rintro ⟨rfl, x, rfl⟩
      cases e with
      | error e => exact ⟨⟨x, rfl⟩, rfl⟩
      | panic => exact ⟨⟨x, rfl⟩, rfl⟩

section Crates

variable [Crates]

theorem prepareDispatch_related (role : AgentRole) (sessionId : String) (o : DispatchObs) :
    Related SameView Eq (prepareDispatch role sessionId o) (prepareDispatch role sessionId o) := by
  apply related_ctx
  intro c x
  apply Related.seq (related_ofResult _)
  intro _
  apply Related.seq (related_ofResult _)
  intro status
  apply Related.seq (related_ofResult _)
  intro head
  apply Related.seq (resetTransport_related _ _ _ _)
  intro _
  apply Related.seq (captureReviewerBaseline_related role o)
  intro mtime
  apply Related.seq (related_ofResult _)
  intro facts
  apply Related.seq
  · apply Related.seq (related_ofResult _)
    intro _
    apply Related.seq (related_modifyWorld _)
    intro _
    apply Related.seq (related_ofResult _)
    exact fun _ => Related.pure rfl
  intro fingerprint
  apply Related.seq (related_ofResult _)
  intro snapshot
  apply Related.seq
  · exact related_modifyCtx fun c x => ⟨x, rfl⟩
  · exact fun _ => Related.pure rfl

theorem doDispatch_related (role : AgentRole) (o : DispatchObs) :
    Related SameView Eq (doDispatch role o) (doDispatch role o) := by
  apply Related.seq
  · apply related_ctx
    intro c x
    apply Related.seq (related_ofResult _)
    intro id
    apply Related.seq (related_ofResult _)
    intro lock
    apply Related.seq
    · exact related_modifyCtx fun c x => ⟨x, rfl⟩
    intro _
    apply Related.seq (prepareDispatch_related role id o)
    intro prepared
    apply Related.seq (related_ofResult _)
    intro pid
    apply Related.modify
    rintro s _ ⟨x, rfl⟩
    exact ⟨x, rfl⟩
  · exact fun _ => related_modifyCtx fun c x => ⟨x, rfl⟩

theorem observeProbe_related (role : AgentRole) (o : ProbeObs) (text : IoResult Bytes) :
    Related SameView Eq (observeProbe role o)
      (observeProbe role { o with outboxText := text }) := by
  apply related_ctx
  intro c x
  apply Related.seq (related_ofResult _)
  intro id
  apply Related.seq (related_ofResult _)
  intro signals
  apply Related.seq
  · exact related_modifyCtx fun c x => ⟨x, rfl⟩
  intro _
  apply Related.seq (related_unwrap _)
  intro a
  apply Related.seq (related_ofResult _)
  intro _
  apply Related.seq
  · exact related_modifyCtx fun c x => ⟨x, rfl⟩
  intro _
  apply Related.seq (related_ofResult _)
  intro combined
  apply Related.seq (related_ofResult _)
  intro found
  apply Related.seq
  · exact related_modifyCtx fun c x => ⟨x, rfl⟩
  · exact fun _ => Related.pure rfl

theorem classify_sameOutbox {w : WorkflowType} {role : AgentRole} {p : Probe} {o : ProbeObs}
    {text : IoResult Bytes} (h : SameOutbox o text)
    (hmeta : fileMeta o.outboxMeta = .ok p.signals.outboxMeta) :
    p.classify w role { o with outboxText := text } = p.classify w role o := by
  obtain rfl | ⟨size, mtime, hsize, ⟨body, hbody, hlen⟩, ⟨body', rfl, hlen'⟩⟩ := h
  · rfl
  cases hpid : p.attempt.pid with
  | some pid => simp [Probe.classify, probeSnapshot, checkProtocolInvalid, hpid,
      checkSoftSuccessContract, checkSuccessContract]
  | none =>
    cases size with
    | zero =>
      have hempty : body' = body := by
        rw [List.length_eq_zero_iff.mp hlen, List.length_eq_zero_iff.mp hlen']
      rw [hempty, ← hbody]
    | succ size =>
      rw [hsize] at hmeta
      have hsuccess : checkSuccessContract p.attempt p.signals = true := by
        have hseen : p.signals.outboxMeta = some ⟨size + 1, mtime⟩ := (Except.ok.inj hmeta).symm
        simp [checkSuccessContract, hpid, hseen, nonEmptyOutbox]
      simp [Probe.classify, probeSnapshot, Orchestrator.classify, hsuccess]

theorem doMonitorProbe_related {role : AgentRole} {o : ProbeObs} {text : IoResult Bytes}
    (h : SameOutbox o text) :
    Related SameView Eq (doMonitorProbe role o)
      (doMonitorProbe role { o with outboxText := text }) := by
  apply Related.ite
  · intro _
    apply Related.seq
    · apply Related.modify
      rintro s _ ⟨x, rfl⟩
      exact ⟨x, terminateActiveChild_veil id (fun _ => x) (s.mapCtx (withState .runAborted))⟩
    · exact fun _ => Related.pure rfl
  · intro _
    apply Related.seq
    · apply Related.modify
      rintro s _ ⟨x, rfl⟩
      exact ⟨x, pollChild_veil id (fun _ => x) s o⟩
    intro _ s t hst
    apply rwp_bind
    apply rwp_mono (rwp_wp (observeProbe_related role o text s t hst) (observeProbe_spec role o s))
    · rintro p _ s' t' ⟨⟨rfl, hst'⟩, hobs⟩
      obtain ⟨a, -, -, -, hsignals⟩ := hobs.attempt
      have hmeta := (collectProbeSignals_ok hsignals).2.2.1
      refine (?_ : Related SameView Eq _ _) s' t' hst'
      apply related_ctx
      intro c x
      rw [classify_sameOutbox h hmeta]
      apply Related.seq
      · exact related_modifyCtx fun c x => ⟨x, rfl⟩
      · exact fun _ => routed_related role o.now p _
    · exact fun _ _ _ h => h

theorem readTransportSnapshot_related {size : Nat} {read read' : IoResult Bytes}
    (hread : BodyOf size read) (hread' : BodyOf size read') (path : String) (role : AgentRole)
    (provider : ProviderKind) (id : String) (mtime : IoResult Int) :
    Related SameView (fun _ _ => True)
      (OrchM.ofResult (readTransportSnapshot path role provider id ⟨read, mtime⟩))
      (OrchM.ofResult (readTransportSnapshot path role provider id ⟨read', mtime⟩)) := by
  obtain ⟨body, rfl, -⟩ := hread
  obtain ⟨body', rfl, -⟩ := hread'
  intro s t hst
  cases mtime with
  | ok mtime => exact ⟨trivial, hst⟩
  | error e => exact ⟨rfl, hst⟩

theorem doExecutorOutputCollect_related {o : ExecutorCollectObs} {read : IoResult Bytes}
    (h : SameExecutorOutbox o read) :
    Related SameView Eq (doExecutorOutputCollect o)
      (doExecutorOutputCollect { o with snapshot := { o.snapshot with read := read } }) := by
  apply Related.seq
  · apply related_ctx
    intro c x
    apply Related.bind (V := fun _ _ => True)
    · obtain rfl | ⟨size, hread, hread'⟩ := h
      · intro s t hst
        apply rwp_mono (related_ofResult _ s t hst)
        · exact fun _ _ _ _ h => ⟨trivial, h.2⟩
        · exact fun _ _ _ h => h
      · exact readTransportSnapshot_related hread hread' _ _ _ _ _
    rintro snapshot snapshot' -
    apply Related.seq
    · exact related_modifyCtx fun c x => ⟨snapshot', rfl⟩
    intro _
    apply Related.seq (collectArtifacts_related _ _)
    intro _
    apply Related.seq (related_ofResult _)
    exact fun log => related_modifyCtx fun c x => ⟨x, rfl⟩
  · exact fun _ => related_modifyCtx fun c x => ⟨x, rfl⟩

theorem saveVerdict_related (raw : String) :
    Related SameView Eq (saveVerdict raw) (saveVerdict raw) := by
  apply related_ctx
  intro c x
  apply Related.ite
  · exact fun _ => Related.pure rfl
  · intro _
    have hjudge : judgeReviewerOutput (veil id (fun _ => x) c).args.notionPolicy raw =
        judgeReviewerOutput c.args.notionPolicy raw := rfl
    rw [hjudge]
    cases judgeReviewerOutput c.args.notionPolicy raw with
    | ok yaml =>
      apply Related.seq
      · exact related_modifyCtx fun c x => ⟨x, rfl⟩
      · exact fun _ => Related.pure rfl
    | error e =>
      apply Related.seq
      · exact related_modifyCtx fun c x => ⟨x, rfl⟩
      · exact fun _ => Related.pure rfl

theorem doReviewerOutputCollect_related (o : CollectObs) :
    Related SameView Eq (doReviewerOutputCollect o) (doReviewerOutputCollect o) := by
  apply related_ctx
  intro c x
  apply Related.seq (related_ofResult _)
  intro mtime
  apply Related.ite
  · exact fun _ => related_modifyCtx fun c x => ⟨x, rfl⟩
  · intro _
    have htext : reviewerText (veil id (fun _ => x) c) o = reviewerText c o := rfl
    rw [htext]
    cases reviewerText c o with
    | error e => exact related_modifyCtx fun c x => ⟨x, rfl⟩
    | ok raw =>
      apply Related.seq (related_ofResult _)
      intro snapshot
      apply Related.seq
      · exact related_modifyCtx fun c x => ⟨x, rfl⟩
      intro _
      apply Related.seq (saveVerdict_related raw)
      intro saved
      apply Related.ite
      · exact fun _ => checkReviewerWorkspace_related o
      · exact fun _ => Related.pure rfl

theorem doReviewerOutputCollect_unmodified {o : CollectObs} {s : Orch}
    (h : Unmodified s.ctx o) : doReviewerOutputCollect o s =
      .ok () (s.mapCtx (retryReviewerOutputFailure
        "reviewer outbox mtime unchanged after reviewer exit — retrying reviewer")) := by
  obtain ⟨mtime, hpre, hmtime⟩ := h
  simp only [doReviewerOutputCollect, bind, EStateM.bind, OrchM.ctx, OrchM.ofResult, lift,
    optionalFileMtime, noneIfMissing, hmtime, ofIo, Except.mapError, hpre, Option.isSome_some,
    and_self, if_true]
  rfl

theorem step_shows {o p : StepObs} {s t : Orch} (hst : SameView s t) (h : Concealed s.ctx o p) :
    Shows (step o) (step p) s t := by
  obtain @⟨probed, collected, reviewed, snapshot, hprobe, hexecutor, hreviewer⟩ := h
  obtain ⟨x, rfl⟩ := hst
  have hst : SameView s (s.mapCtx (veil id fun _ => x)) := ⟨x, rfl⟩
  have once : ∀ {y z : OrchM Unit}, Related SameView Eq y z →
      Related SameView Eq ((fun _ => Flow.done) <$> y) ((fun _ => Flow.done) <$> z) :=
    fun h => Related.map h fun _ _ _ => rfl
  have hsame : (s.mapCtx (veil id fun _ => x)).ctx.runState = s.ctx.runState := rfl
  apply rwp_bind
  rw [rwp_ctx, hsame]
  cases hr : s.ctx.runState
  case contextPrep => exact once (doContextPrep_related _) _ _ hst
  case sessionBind => exact once (doSessionBind_related _) _ _ hst
  case executorDispatch => exact once (doDispatch_related _ _) _ _ hst
  case reviewerDispatch => exact once (doDispatch_related _ _) _ _ hst
  case executorMonitor => exact doMonitorProbe_related hprobe _ _ hst
  case reviewerMonitor => exact doMonitorProbe_related hprobe _ _ hst
  case roundRetryDecide => exact once doRoundRetryDecide_related _ _ hst
  case executorOutputCollect => exact once (doExecutorOutputCollect_related hexecutor) _ _ hst
  case orchVerify => exact once (related_modifyCtx fun c x => ⟨x, rfl⟩) _ _ hst
  case reviewerOutputCollect =>
    obtain ⟨rfl, rfl⟩ | hsame := hreviewer
    · exact once (doReviewerOutputCollect_related _) _ _ hst
    · apply rwp_map
      have hleft := doReviewerOutputCollect_unmodified hsame
      have hright := doReviewerOutputCollect_unmodified
        (o := { o.reviewerOutput with
          outboxText := reviewed
          snapshot := { o.reviewerOutput.snapshot with read := snapshot } })
        (s := s.mapCtx (veil id fun _ => x)) hsame
      simp only [rwp, hleft, hright]
      exact ⟨trivial, x, rfl⟩
  case qualityGate => exact once doQualityGate_related _ _ hst
  case roundFeedbackPrep => exact once (related_modifyCtx fun c x => ⟨x, rfl⟩) _ _ hst
  all_goals exact ⟨rfl, hst⟩

theorem next_sameTurn {m n : Machine} {i j : Input} (h : SameTurn m n) (hi : SameInput m i j) :
    SameTurn (m.next i) (n.next j) := by
  obtain ⟨s, pc⟩ := m
  obtain ⟨t, pc'⟩ := n
  obtain ⟨⟨x, hx⟩, hpc⟩ := h
  simp only at hx hpc
  subst hx hpc
  have hview : SameView s (s.mapCtx (veil id fun _ => x)) := ⟨x, rfl⟩
  cases hi with
  | exit => exact ⟨⟨x, rfl⟩, rfl⟩
  | @tick c o p ho =>
    have hstep := settle_sameTurn (step_shows hview ho)
    cases pc' with
    | start =>
      cases ho with
      | mk =>
        have hprologue := prologue_related o.prologue s _ hview
        revert hprologue
        simp only [rwp, Machine.next]
        cases prologue o.prologue s with
        | ok _ s' =>
          cases prologue o.prologue (s.mapCtx (veil id fun _ => x)) with
          | ok _ t' =>
            rintro ⟨-, y, rfl⟩
            exact ⟨⟨y, rfl⟩, rfl⟩
          | error e t' => exact False.elim
        | error e s' =>
          cases prologue o.prologue (s.mapCtx (veil id fun _ => x)) with
          | ok _ t' => exact False.elim
          | error e' t' =>
            rintro ⟨rfl, y, rfl⟩
            cases e with
            | error e => exact ⟨⟨y, rfl⟩, rfl⟩
            | panic => exact ⟨⟨y, rfl⟩, rfl⟩
    | head =>
      have hsame : (s.mapCtx (veil id fun _ => x)).ctx.runState = s.ctx.runState := rfl
      simp only [Machine.next, hsame]
      cases s.ctx.runState.isTerminal with
      | true => exact ⟨⟨x, rfl⟩, rfl⟩
      | false =>
        cases c with
        | true => exact ⟨⟨x, rfl⟩, rfl⟩
        | false => exact hstep
    | monitor => exact hstep
    | panicked => exact ⟨⟨x, rfl⟩, rfl⟩

/-- The body of the executor's outbox is opaque: two runs that differ in nothing else go through
the same states, failures and prompts, and at every step their contexts differ only in the
snapshot of it. -/
theorem executor_outbox_opaque {h h' : Trace.History Machine Input} {m n : Machine}
    (ht : Trace.Twin (fun m => ∃ args, m = .init args) Machine.next SameInput h m h' n) :
    h'.map (fun e => shown e.post) = h.map (fun e => shown e.post) ∧
      List.Forall₂ (fun e d => SameTurn e.pre d.pre ∧ SameTurn e.post d.post) h h' ∧
      ∃ x, n = { m with ctx := { m.ctx with executorOutboxSnapshot := x } } := by
  obtain ⟨⟨⟨x, hx⟩, hpc⟩, hall⟩ := ht.related (R := SameTurn) (fun m _ => ⟨.refl m.toOrch, rfl⟩)
    fun _ _ _ _ => next_sameTurn
  refine ⟨?_, hall, x, ?_⟩
  · clear ht
    induction hall with
    | nil => rfl
    | cons h _ ih => simp [h.2.shown, ih]
  · obtain ⟨t, pc⟩ := n
    simp only at hx hpc
    rw [hx, hpc]
    rfl

end Crates

namespace Sample

def untouched (body : String) : List Input :=
  executed.take 5 ++ [.tick false { obsAt 30 with probe := exitedAt 30 3 (time 20) }] ++
    [.tick false { obsAt 30 with
      executorOutput := ⟨⟨.ok (asBytes body), .ok (time 20)⟩, fun _ => absent, git ""⟩ }] ++
    [.tick false (obsAt 30)] ++
    [.tick false { obsAt 40 with
      dispatch := { dispatchAt 40 with outboxMtime := .ok (time 20) } }] ++
    [.exit 1] ++
    [.tick false { obsAt 50 with
      probe := { exitedAt 50 3 (time 20) with outboxText := .ok (asBytes body) } }] ++
    [.tick false { obsAt 50 with
      reviewerOutput := ⟨.ok (time 20), .ok (asBytes body),
        ⟨.ok (asBytes body), .ok (time 20)⟩, git ""⟩ }]

abbrev Twins (is js : List Input) : Prop :=
  Trace.Twin (fun m => ∃ args, m = .init args) Machine.next SameInput (run is).1 (run is).2
    (run js).1 (run js).2

theorem twins_snoc {is js : List Input} {i j : Input} (h : Twins is js)
    (hi : SameInput (run is).2 i j) : Twins (is ++ [i]) (js ++ [j]) := by
  simp only [Twins, run_snoc]
  exact .tick h hi

theorem untouched_twins : Twins (untouched "abc") (untouched "xyz") := by
  have hbody : ∀ body ∈ ["abc", "xyz"], BodyOf 3 (.ok (asBytes body)) := by
    intro body hbody
    exact ⟨_, rfl, by revert body; decide⟩
  have habc := hbody "abc" (by simp)
  have hxyz := hbody "xyz" (by simp)
  apply twins_snoc
  · apply twins_snoc
    · apply twins_snoc _ (.refl _ _)
      apply twins_snoc _ (.refl _ _)
      apply twins_snoc _ (.refl _ _)
      apply twins_snoc
      · exact Trace.Twin.refl SameInput.refl (run_run _)
      · exact .tick (.mk (.inl rfl) (.inr ⟨3, habc, hxyz⟩) (.inl ⟨rfl, rfl⟩))
    · exact .tick (.mk (.inr ⟨3, _, rfl, habc, hxyz⟩) (.inl rfl) (.inl ⟨rfl, rfl⟩))
  · refine .tick (.mk (.inl rfl) (.inl rfl) (.inr ⟨time 20, ?_, rfl⟩))
    decide +kernel

end Sample

open Sample in
theorem executor_outbox_opaque_untouched :
    (run (untouched "abc")).2.ctx.runState = .roundRetryDecide ∧
      (run (untouched "abc")).2.ctx.executorOutboxSnapshot.map TransportBodyReport.body =
        some "abc" ∧
      (run (untouched "xyz")).2.ctx.executorOutboxSnapshot.map TransportBodyReport.body =
        some "xyz" ∧
      ∃ x, (run (untouched "xyz")).2 = { (run (untouched "abc")).2 with
        ctx := { (run (untouched "abc")).2.ctx with executorOutboxSnapshot := x } } :=
  ⟨by decide +kernel, by decide +kernel, by decide +kernel,
    And.right (And.right <| executor_outbox_opaque untouched_twins)⟩

end Orchestrator

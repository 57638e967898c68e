import Orchestrator.OutboxFlag

/-! What a run has to remember of its reviews. -/

namespace Orchestrator

open Rust Exec Trace

structure SavedVerdict where
  raw : String
  yaml : ReviewerYaml

/-- `feedback` is the last verdict that asked for a revision and passed the gate; `saved` is the
verdict of this round, and `rejected` tells whether an output of this round was rejected. -/
structure Ledger where
  feedback : Option SavedVerdict
  saved : Option SavedVerdict
  rejected : Bool

namespace Ledger

def empty : Ledger := ⟨none, none, false⟩

def collect [Crates] (policy : NotionPolicy) (raw : String) (l : Ledger) : Ledger :=
  if l.saved.isSome then l
  else
    match judgeReviewerOutput policy raw with
    | .ok yaml => { l with saved := some ⟨raw, yaml⟩ }
    | .error _ => { l with rejected := true }

def gate (l : Ledger) : Ledger where
  feedback := (l.saved.filter fun v => decide (v.yaml.decision = .revise)).or l.feedback
  saved := none
  rejected := false

def template (l : Ledger) : AgentRole → TemplateId
  | .executor => if l.feedback.isSome then .executorFeedback else .executorInitial
  | .reviewer =>
    if l.saved.isSome then .reviewerRepairWorkspace
    else if l.rejected then .reviewerRepairYaml
    else .reviewerReview

end Ledger

/-- The text of an outbox that is not the file that the attempt was dispatched with. -/
def changedOutput (ctx : OrchestratorCtx) (o : CollectObs) : Option String :=
  match optionalFileMtime o.outboxMtime, readToString o.outboxText with
  | .ok mtime, .ok raw =>
    if ctx.attempt.bind (·.preReviewerOutboxMtime) = mtime ∧
      (ctx.attempt.bind (·.preReviewerOutboxMtime)).isSome then none else some raw
  | _, _ => none

theorem changedOutput_eq_some {s : Orch} {o : CollectObs} {raw : String} :
    changedOutput s.ctx o = some raw ↔
      OutboxChanged s o ∧ readToString o.outboxText = .ok raw := by
  simp only [changedOutput, OutboxChanged]
  cases hmtime : optionalFileMtime o.outboxMtime with
  | error e => simp
  | ok mtime =>
    cases hread : readToString o.outboxText with
    | error e => simp
    | ok text =>
      by_cases h : s.ctx.attempt.bind (·.preReviewerOutboxMtime) = mtime ∧
          (s.ctx.attempt.bind (·.preReviewerOutboxMtime)).isSome
      · simp [h]
      · simp only [if_neg h, Option.some.injEq, Except.ok.injEq, exists_eq_left']
        exact ⟨fun heq => ⟨h, heq⟩, fun heq => heq.2⟩

section Books

variable [Crates]

def entry (e : Turn) (l : Ledger) : Ledger :=
  match e.input with
  | .exit _ => l
  | .tick c o =>
    if e.pre.Steps c then
      match e.pre.ctx.runState with
      | .qualityGate => l.gate
      | .reviewerOutputCollect =>
        (changedOutput e.pre.ctx o.reviewerOutput).elim l
          (l.collect e.pre.ctx.args.notionPolicy ·)
      | _ => l
    else l

def ledger (h : History Machine Input) : Ledger := h.foldr entry .empty

end Books

structure Holds (v : Option SavedVerdict) (ctx : OrchestratorCtx) : Prop where
  yaml : ctx.reviewResult = v.map SavedVerdict.yaml
  raw : ctx.reviewResultYamlRaw = v.map SavedVerdict.raw

structure Revising (l : Ledger) (ctx : OrchestratorCtx) : Prop where
  holds : Holds l.feedback ctx
  saved : l.saved = none
  rejected : l.rejected = false

structure Repairing (l : Ledger) (ctx : OrchestratorCtx) : Prop where
  holds : Holds l.saved ctx
  workspace : ctx.reviewerWorkspaceRejection.isSome = l.saved.isSome
  yaml : l.saved = none → ctx.reviewerYamlRejection.isSome = l.rejected

def AtWork (l : Ledger) (ctx : OrchestratorCtx) : AgentRole → Prop
  | .executor => Revising l ctx
  | .reviewer => Repairing l ctx

def Booked (l : Ledger) (ctx : OrchestratorCtx) : Prop :=
  match ctx.runState with
  | .reviewerDispatch | .reviewerMonitor | .reviewerOutputCollect => AtWork l ctx .reviewer
  | .roundRetryDecide => AtWork l ctx (ctx.currentRole.getD .executor)
  | .qualityGate => Holds l.saved ctx
  | _ => AtWork l ctx .executor

structure SameReviews (c d : OrchestratorCtx) : Prop where
  result : d.reviewResult = c.reviewResult
  raw : d.reviewResultYamlRaw = c.reviewResultYamlRaw
  yaml : d.reviewerYamlRejection = c.reviewerYamlRejection
  workspace : d.reviewerWorkspaceRejection = c.reviewerWorkspaceRejection

section Carry

variable {l : Ledger} {c d : OrchestratorCtx}

theorem Holds.carry {v : Option SavedVerdict} (h : Holds v c) (hs : SameReviews c d) :
    Holds v d := ⟨hs.result.trans h.yaml, hs.raw.trans h.raw⟩

theorem Revising.carry (h : Revising l c) (hs : SameReviews c d) : Revising l d :=
  ⟨h.holds.carry hs, h.saved, h.rejected⟩

theorem Repairing.carry (h : Repairing l c) (hs : SameReviews c d) : Repairing l d :=
  ⟨h.holds.carry hs, by rw [hs.workspace, h.workspace], by rw [hs.yaml]; exact h.yaml⟩

theorem AtWork.carry {role : AgentRole} (h : AtWork l c role) (hs : SameReviews c d) :
    AtWork l d role := by
  cases role with
  | executor => exact Revising.carry h hs
  | reviewer => exact Repairing.carry h hs

theorem booked_iff {role : AgentRole}
    (hr : c.runState = .dispatch role ∨ c.runState = .monitor role ∨
      c.runState = .outputCollect role) : Booked l c ↔ AtWork l c role := by
  cases role <;> obtain hr | hr | hr := hr <;>
    simp [Booked, hr, RunState.dispatch, RunState.monitor, RunState.outputCollect]

theorem SameRound.reviews (h : SameRound c d) : SameReviews c d :=
  ⟨h.reviewResult, h.reviewResultYamlRaw, h.yamlRejection, h.workspaceRejection⟩

section Pure

variable {s : Orch}

theorem unsaved_of_none (hwork : Repairing l s.ctx) (hnone : s.ctx.reviewResult = none) :
    l.saved = none := by
  simpa [hnone] using hwork.holds.yaml.symm

theorem booked_of_retry {ctx : OrchestratorCtx} (hr : ctx.runState = .roundRetryDecide)
    (hrole : ctx.currentRole = some .reviewer) (hb : Repairing l ctx) : Booked l ctx := by
  simpa [Booked, hr, hrole, AtWork] using hb

theorem Booked.retried (hb : Booked l s.ctx) (hr : s.ctx.runState = .roundRetryDecide)
    (ht : (doRoundRetryDecide s.ctx).runState.isTerminal = false) :
    Booked l (doRoundRetryDecide s.ctx) := by
  have hwork : AtWork l s.ctx (s.ctx.currentRole.getD .executor) := by
    simpa [Booked, hr] using hb
  by_cases hlimit : consecutiveFailureLimit ≤ s.ctx.consecutiveFailureCount
  · simp [doRoundRetryDecide, hlimit, RunState.isTerminal] at ht
  · have hstate : (doRoundRetryDecide s.ctx).runState =
        .dispatch (s.ctx.currentRole.getD .executor) := by
      simp only [doRoundRetryDecide, if_neg hlimit]
      cases s.ctx.currentRole.getD .executor <;> rfl
    rw [booked_iff (.inl hstate)]
    apply hwork.carry
    simp only [doRoundRetryDecide, if_neg hlimit]
    constructor <;> rfl

theorem Booked.gated (hb : Holds l.saved s.ctx)
    (ht : (doQualityGate s.ctx).runState.isTerminal = false) :
    Booked l.gate (doQualityGate s.ctx) := by
  revert ht
  cases hsaved : l.saved with
  | none => simp [doQualityGate, hb.yaml, hsaved, RunState.isTerminal]
  | some v =>
    have hyaml : s.ctx.reviewResult = some v.yaml := by rw [hb.yaml, hsaved]; rfl
    have hraw : s.ctx.reviewResultYamlRaw = some v.raw := by rw [hb.raw, hsaved]; rfl
    simp only [doQualityGate, hyaml]
    cases hd : v.yaml.decision with
    | revise =>
      intro _
      refine ⟨⟨?_, ?_⟩, rfl, rfl⟩
      · simp [Ledger.gate, hsaved, hd, Option.filter]
      · simp [Ledger.gate, hsaved, hd, hraw, Option.filter]
    | accept | blocked | irreconcilableDisagreement | poisonedSession =>
      simp [RunState.isTerminal]

end Pure

end Carry

theorem templateFor_booked {l : Ledger} {role : AgentRole} {ctx : OrchestratorCtx}
    (hr : ctx.runState = .dispatch role) (hb : Booked l ctx) :
    templateFor ctx role = l.template role := by
  have hwork := (booked_iff (.inl hr)).mp hb
  cases role with
  | executor =>
    have hwork : Revising l ctx := hwork
    simp [templateFor, Ledger.template, hwork.holds.yaml]
  | reviewer =>
    have hwork : Repairing l ctx := hwork
    simp only [templateFor, Ledger.template, hwork.workspace]
    cases hsaved : l.saved with
    | none => simp [hwork.yaml hsaved]
    | some v => rfl

def DispatchLaw (l : Ledger) (e : Turn) : Prop :=
  ∀ role path template values, dispatchesRole role e = true →
    .request path template values ∈ written e →
    template = l.template role ∧ (role = .executor → ∀ v, l.feedback = some v →
      values.reviewResultYaml = some v.raw ∧
        values.feedbackForExecutor = some (numberedFeedback v.yaml.feedbackForExecutor))

section Steps

variable [Crates] {l : Ledger} {h : History Machine Input} {m m' : Machine} {c : Bool}
  {o : StepObs} {s t : Orch} {flow : Flow}

theorem entry_of_steps (hs : m.Steps c) (hgate : m.ctx.runState ≠ .qualityGate)
    (hcollect : m.ctx.runState ≠ .reviewerOutputCollect) :
    entry ⟨m, .tick c o, m'⟩ l = l := by
  simp only [entry, if_pos hs]

theorem entry_gate (hs : m.Steps c) (hr : m.ctx.runState = .qualityGate) :
    entry ⟨m, .tick c o, m'⟩ l = l.gate := by
  simp only [entry, if_pos hs, hr]

theorem entry_collect (hs : m.Steps c) (hr : m.ctx.runState = .reviewerOutputCollect) :
    entry ⟨m, .tick c o, m'⟩ l = (changedOutput m.ctx o.reviewerOutput).elim l
      (l.collect m.ctx.args.notionPolicy ·) := by
  simp only [entry, if_pos hs, hr]

theorem entry_of_not_step {i : Input} (hs : takesStep ⟨m, i, m'⟩ = false) :
    entry ⟨m, i, m'⟩ l = l := by
  cases i with
  | exit child => rfl
  | tick c o =>
    have hno : ¬m.Steps c := by simpa [takesStep] using hs
    simp only [entry, if_neg hno]

theorem Booked.dispatched {role : AgentRole} (hb : Booked l s.ctx)
    (hr : s.ctx.runState = .dispatch role) (hd : Dispatched role o.dispatch s t) :
    Booked l (t.mapCtx (withState (.monitor role))).ctx := by
  rw [booked_iff (.inr (.inl rfl))]
  apply AtWork.carry ((booked_iff (.inl hr)).mp hb)
  cases hd with
  | launched _ _ hp _ _ =>
    obtain ⟨baseline, inbox, hc⟩ := hp.ctx
    simp only [Orch.mapCtx_ctx, withState, launch, hc]
    constructor <;> rfl

theorem Booked.probed {role : AgentRole} (hb : Booked l s.ctx)
    (hr : s.ctx.runState = .monitor role) (hrole : s.ctx.currentRole = some role)
    (hp : Outcome role o.probe s flow t) (ht : t.ctx.runState.isTerminal = false) :
    Booked l t.ctx := by
  have hround := hp.sameRound
  have hwork := ((booked_iff (.inr (.inl hr))).mp hb).carry hround.reviews
  obtain ⟨-, ⟨-, ht'⟩ | ⟨-, ht' | ht'⟩⟩ | ⟨-, -, ht'⟩ := hp.target
  · exact (booked_iff (.inr (.inl (ht'.trans hr)))).mpr hwork
  · exact (booked_iff (.inr (.inr ht'))).mpr hwork
  · exact absurd ht (by simp [ht'])
  · simpa [Booked, ht', hround.currentRole, hrole] using hwork

theorem collect_ok {policy : NotionPolicy} {raw : String} {yaml : ReviewerYaml}
    (h : l.saved = none) (hjudge : judgeReviewerOutput policy raw = .ok yaml) :
    l.collect policy raw = { l with saved := some ⟨raw, yaml⟩ } := by
  simp [Ledger.collect, h, hjudge]

theorem collect_error {policy : NotionPolicy} {raw : String} {e : OrchestratorError}
    (h : l.saved = none) (hjudge : judgeReviewerOutput policy raw = .error e) :
    l.collect policy raw = { l with rejected := true } := by
  simp [Ledger.collect, h, hjudge]

theorem collect_saved {policy : NotionPolicy} {raw : Option String} (h : l.saved.isSome) :
    raw.elim l (l.collect policy ·) = l := by
  cases raw with
  | none => rfl
  | some raw => simp [Ledger.collect, h]

theorem Repairing.judged {o : CollectObs} {v : ReviewerYaml} (hwork : Repairing l s.ctx)
    (hchanged : OutboxChanged s o) (hj : Judged o s v t) :
    Holds ((changedOutput s.ctx o).elim l (l.collect s.ctx.args.notionPolicy ·)).saved t.ctx ∧
      ((changedOutput s.ctx o).elim l (l.collect s.ctx.args.notionPolicy ·)).saved.isSome ∧
      t.ctx.currentRole = s.ctx.currentRole := by
  cases hj with
  | saved hv =>
    have hsaved : l.saved.isSome := by
      cases hsaved : l.saved with
      | none => simp [hwork.holds.yaml, hsaved] at hv
      | some w => rfl
    rw [collect_saved hsaved]
    exact ⟨hwork.holds.carry ⟨rfl, rfl, rfl, rfl⟩, hsaved, rfl⟩
  | @fresh _ raw hnone hread hparse hpolicy =>
    rw [changedOutput_eq_some.mpr ⟨hchanged, hread⟩, Option.elim_some,
      collect_ok (unsaved_of_none hwork hnone) (judgeReviewerOutput_ok.mpr ⟨hparse, hpolicy⟩)]
    exact ⟨⟨rfl, rfl⟩, rfl, rfl⟩

theorem Booked.collected {o : CollectObs} (hb : Booked l s.ctx)
    (hr : s.ctx.runState = .reviewerOutputCollect) (hrole : s.ctx.currentRole = some .reviewer)
    (hc : Collected o s t) :
    Booked ((changedOutput s.ctx o).elim l (l.collect s.ctx.args.notionPolicy ·)) t.ctx := by
  have hstate : s.ctx.runState = .outputCollect .reviewer := hr
  have hwork : Repairing l s.ctx := (booked_iff (.inr (.inr hstate))).mp hb
  cases hc with
  | unchanged hsame =>
    have hnone : changedOutput s.ctx o = none := by
      rw [Option.eq_none_iff_forall_not_mem]
      exact fun raw hraw => hsame (changedOutput_eq_some.mp hraw).1
    rw [hnone]
    exact booked_of_retry rfl hrole (hwork.carry ⟨rfl, rfl, rfl, rfl⟩)
  | unreadable _ _ hread =>
    have hnone : changedOutput s.ctx o = none := by
      rw [Option.eq_none_iff_forall_not_mem]
      intro raw hraw
      simp [(changedOutput_eq_some.mp hraw).2] at hread
    rw [hnone]
    exact booked_of_retry rfl hrole (hwork.carry ⟨rfl, rfl, rfl, rfl⟩)
  | @rejected _ raw e _ hchanged hnone hread hjudge =>
    rw [changedOutput_eq_some.mpr ⟨hchanged, hread⟩, Option.elim_some,
      collect_error (unsaved_of_none hwork hnone) hjudge]
    apply booked_of_retry
    · rfl
    · exact hrole
    · exact ⟨⟨hwork.holds.yaml, hwork.holds.raw⟩, hwork.workspace, fun _ => rfl⟩
  | @dirty u v _ _ _ hchanged hj _ _ =>
    obtain ⟨hholds, hsome, hcurrent⟩ := hwork.judged hchanged hj
    apply booked_of_retry
    · rfl
    · exact hcurrent.trans hrole
    · refine ⟨⟨hholds.yaml, hholds.raw⟩, hsome.symm, fun hnone => ?_⟩
      simp [hnone] at hsome
  | @clean u v _ hchanged hj _ _ =>
    obtain ⟨hholds, -, -⟩ := hwork.judged hchanged hj
    exact ⟨hholds.yaml, hholds.raw⟩

theorem Booked.stepped (hb : Booked l m.ctx) (hs : m.Steps c) (hm : m.Placed)
    (hcount : Counted h m) (hst : Stepped o m.toOrch flow t)
    (ht : t.ctx.runState.isTerminal = false) (pc : Pc) :
    Booked (entry ⟨m, .tick c o, ⟨t, pc⟩⟩ l) t.ctx := by
  have hrole := (hcount.budget (hs.active hm)).role
  cases hst with
  | @dispatched role u hr hd =>
    rw [entry_of_steps hs]
    · exact hb.dispatched hr hd
    · cases role <;> simp [hr, RunState.dispatch]
    · cases role <;> simp [hr, RunState.dispatch]
  | @probed role _ _ hr hp =>
    rw [entry_of_steps hs]
    · exact hb.probed hr (hrole role (.inl hr)) hp.outcome ht
    · cases role <;> simp [hr, RunState.monitor]
    · cases role <;> simp [hr, RunState.monitor]
  | collected hr hc =>
    rw [entry_collect hs hr]
    exact hb.collected hr (hrole .reviewer (.inr hr)) hc
  | retried hr =>
    rw [entry_of_steps hs (by simp [hr]) (by simp [hr])]
    exact hb.retried hr ht
  | gated hr =>
    rw [entry_gate hs hr]
    exact Booked.gated (by simpa [Booked, hr] using hb) ht
  | verified hr =>
    rw [entry_of_steps hs (by simp [hr]) (by simp [hr])]
    have hwork : Revising l m.ctx := by simpa [Booked, hr, AtWork] using hb
    refine ⟨⟨?_, ?_⟩, ?_, fun _ => ?_⟩
    · simp [doOrchVerify, hwork.saved]
    · simp [doOrchVerify, hwork.saved]
    · simp [doOrchVerify, hwork.saved]
    · simp [doOrchVerify, hwork.rejected]
  | prepared hr hc _ =>
    rw [entry_of_steps hs (by simp [hr]) (by simp [hr])]
    have hwork : Revising l m.ctx := by simpa [Booked, hr, AtWork] using hb
    rw [hc]
    exact hwork.carry ⟨rfl, rfl, rfl, rfl⟩
  | bound hr _ | fedBack hr =>
    rw [entry_of_steps hs (by simp [hr]) (by simp [hr])]
    have hwork : Revising l m.ctx := by simpa [Booked, hr, AtWork] using hb
    exact hwork.carry ⟨rfl, rfl, rfl, rfl⟩
  | surveyed hr hu =>
    rw [entry_of_steps hs (by simp [hr]) (by simp [hr])]
    have hwork : Revising l m.ctx := by simpa [Booked, hr, AtWork] using hb
    obtain ⟨_, _, _, _, rfl⟩ := hu
    exact hwork.carry ⟨rfl, rfl, rfl, rfl⟩
  | skipped hr =>
    obtain hr | hr := hr
    · rw [entry_of_steps hs (by simp [hr]) (by simp [hr])]
      exact hb
    · simp [ht] at hr

theorem Booked.move {i : Input} (hb : m.Active → Booked (ledger h) m.ctx) (hm : m.Placed)
    (hcount : Counted h m) (hmove : Move m i m') (ha : m'.Active) :
    Booked (ledger (⟨m, i, m'⟩ :: h)) m'.ctx := by
  show Booked (entry ⟨m, i, m'⟩ (ledger h)) m'.ctx
  cases hmove.active ha with
  | exit hactive => exact hb hactive
  | @admitted c o s hpc hs =>
    obtain ⟨root, rfl⟩ := hs
    have hr := hm.start hpc
    have hactive : m.Active := ⟨by simp [hpc], by simp [hr, RunState.isTerminal]⟩
    have hwork : Revising (ledger h) m.ctx := by simpa [Booked, hr, AtWork] using hb hactive
    rw [entry_of_not_step (by simp [takesStep, Machine.Steps, hpc])]
    exact hwork.carry ⟨rfl, rfl, rfl, rfl⟩
  | stepped hs hst => exact (hb (hs.active hm)).stepped hs hm hcount hst ha.2 _

theorem Run.booked (hr : Run h m) : m.Active → Booked (ledger h) m.ctx := by
  apply Trace.Run.invariant (P := fun h m => m.Active → Booked (ledger h) m.ctx) hr
  · rintro _ ⟨args, rfl⟩ _
    exact ⟨⟨rfl, rfl⟩, rfl, rfl⟩
  · exact fun h m i hr hb ha => Booked.move hb (Run.placed hr) (Run.counted hr) (next_move m i) ha

theorem Stepped.verdict_kept {v : ReviewerYaml} (hst : Stepped o s flow t)
    (hv : s.ctx.reviewResult = some v) (hne : s.ctx.runState ≠ .orchVerify) :
    t.ctx.reviewResult = some v ∧ t.ctx.reviewResultYamlRaw = s.ctx.reviewResultYamlRaw := by
  cases hst with
  | dispatched _ hd =>
    cases hd with
    | launched _ _ hp _ _ =>
      obtain ⟨baseline, inbox, hc⟩ := hp.ctx
      simp only [Orch.mapCtx_ctx, withState, launch, hc]
      exact ⟨hv, rfl⟩
  | probed _ hp =>
    have hround := hp.outcome.sameRound
    exact ⟨hround.reviewResult.trans hv, hround.reviewResultYamlRaw⟩
  | collected _ hc =>
    cases hc with
    | unchanged _ => exact ⟨hv, rfl⟩
    | unreadable _ hnone _ | rejected _ hnone _ _ => simp [hv] at hnone
    | dirty _ hj _ _ | clean _ hj _ _ =>
      cases hj with
      | saved _ => exact ⟨hv, rfl⟩
      | fresh hnone _ _ _ => simp [hv] at hnone
  | retried _ =>
    simp only [Orch.mapCtx_ctx, doRoundRetryDecide]
    split
    · exact ⟨hv, rfl⟩
    · exact ⟨hv, rfl⟩
  | gated _ =>
    simp only [Orch.mapCtx_ctx, doQualityGate, hv]
    cases v.decision <;> exact ⟨rfl, rfl⟩
  | prepared _ hc _ =>
    rw [hc]
    exact ⟨hv, rfl⟩
  | surveyed _ hu =>
    obtain ⟨_, _, _, _, rfl⟩ := hu
    exact ⟨hv, rfl⟩
  | verified hr => exact absurd hr hne
  | bound _ _ | fedBack _ | skipped _ => exact ⟨hv, rfl⟩

theorem Interrupted.verdict_kept {v : ReviewerYaml} (hi : Interrupted o s t)
    (hv : s.ctx.reviewResult = some v) :
    t.ctx.reviewResult = some v ∧ t.ctx.reviewResultYamlRaw = s.ctx.reviewResultYamlRaw := by
  cases hi with
  | preparing _ hc _ =>
    rw [hc]
    exact ⟨hv, rfl⟩
  | dispatching _ hd =>
    cases hd with
    | unlocked => exact ⟨hv, rfl⟩
    | locked _ _ hp =>
      obtain ⟨baseline, inbox, hc⟩ := hp.ctx
      rw [hc]
      exact ⟨hv, rfl⟩
  | probing _ hu =>
    obtain ⟨_, _, _, rfl⟩ := hu
    obtain ⟨a, ha⟩ := pollChild_ctx o.probe s
    simp only [ha]
    exact ⟨hv, trivial⟩
  | surveying _ hu =>
    obtain ⟨_, _, _, _, rfl⟩ := hu
    exact ⟨hv, rfl⟩
  | collecting _ hu =>
    cases hu with
    | unread => exact ⟨hv, rfl⟩
    | judged _ hj =>
      cases hj with
      | saved _ => exact ⟨hv, rfl⟩
      | fresh hnone _ _ _ => simp [hv] at hnone

theorem Move.verdict_kept {i : Input} {v : ReviewerYaml} (hmove : Move m i m')
    (hv : m.ctx.reviewResult = some v) (hne : m.ctx.runState ≠ .orchVerify) :
    m'.ctx.reviewResult = some v ∧ m'.ctx.reviewResultYamlRaw = m.ctx.reviewResultYamlRaw := by
  cases hmove with
  | exit | idle _ | cancelled _ _ => exact ⟨hv, rfl⟩
  | admitted _ hs | rejected _ hs =>
    obtain ⟨root, rfl⟩ := hs
    exact ⟨hv, rfl⟩
  | stepped _ hst => exact hst.verdict_kept hv hne
  | failed _ hi => exact hi.verdict_kept hv
  | panicked hp =>
    obtain ⟨-, root, rfl⟩ | ⟨-, hi⟩ := hp
    · exact ⟨hv, rfl⟩
    · exact hi.verdict_kept hv

theorem dispatch_law (hr : Run h m) {i : Input} :
    DispatchLaw (ledger h) ⟨m, i, m.next i⟩ := by
  intro role path template values hd hw
  simp only [dispatchesRole, takesStep, Bool.and_eq_true, decide_eq_true_eq] at hd
  obtain ⟨htakes, hstate⟩ := hd
  cases i with
  | exit child => simp at htakes
  | tick c o =>
    have hs : m.Steps c := by simpa using htakes
    have hb := Run.booked hr (hs.active (Run.placed hr))
    obtain ⟨rfl, facts, docsDir, rfl⟩ := written_of_dispatch hstate hw
    refine ⟨templateFor_booked hstate hb, ?_⟩
    rintro rfl v hv
    have hwork : Revising (ledger h) m.ctx := (booked_iff (.inl hstate)).mp hb
    simp [templateValues, hwork.holds.yaml, hwork.holds.raw, hv]

theorem saved_verdict_kept (hr : Run h m) (ha : m.Active) {v : SavedVerdict}
    (hv : (ledger h).saved = some v) (i : Input) :
    Holds (some v) m.ctx ∧ Holds (some v) (m.next i).ctx := by
  have hb := Run.booked hr ha
  have hrevising : ¬Revising (ledger h) m.ctx := fun hwork => by simp [hwork.saved] at hv
  have hholds : Holds (some v) m.ctx := by
    revert hb
    simp only [Booked]
    split
    · exact fun hb => hv ▸ Repairing.holds hb
    · exact fun hb => hv ▸ Repairing.holds hb
    · exact fun hb => hv ▸ Repairing.holds hb
    · cases m.ctx.currentRole.getD .executor with
      | executor => exact fun hb => absurd hb hrevising
      | reviewer => exact fun hb => hv ▸ Repairing.holds hb
    · exact fun hb => hv ▸ hb
    · exact fun hb => absurd hb hrevising
  refine ⟨hholds, ?_⟩
  have hne : m.ctx.runState ≠ .orchVerify := by
    intro hverify
    exact hrevising (by simpa [Booked, hverify, AtWork] using hb)
  obtain ⟨hresult, hraw⟩ := (next_move m i).verdict_kept hholds.yaml hne
  exact ⟨hresult, hraw.trans hholds.raw⟩

theorem entry_of_gates {e : Turn} (hg : gates e = true) : entry e l = l.gate := by
  obtain ⟨pre, i, post⟩ := e
  cases i with
  | exit child => simp [gates, takesStep] at hg
  | tick c o =>
    simp only [gates, takesStep, Bool.and_eq_true, decide_eq_true_eq] at hg
    exact entry_gate hg.1 hg.2

theorem entry_feedback {e : Turn} (hg : gates e = false) :
    (entry e l).feedback = l.feedback := by
  obtain ⟨pre, i, post⟩ := e
  cases hs : takesStep ⟨pre, i, post⟩ with
  | false => rw [entry_of_not_step hs]
  | true =>
    cases i with
    | exit child => simp [takesStep] at hs
    | tick c o =>
      have hs : pre.Steps c := by simpa [takesStep] using hs
      have hgate : pre.ctx.runState ≠ .qualityGate := by
        rw [gates_of_steps hs] at hg
        simpa using hg
      by_cases hcollect : pre.ctx.runState = .reviewerOutputCollect
      · rw [entry_collect hs hcollect]
        cases changedOutput pre.ctx o.reviewerOutput with
        | none => rfl
        | some raw =>
          simp only [Option.elim_some, Ledger.collect]
          split
          · rfl
          · split <;> rfl
      · rw [entry_of_steps hs hgate hcollect]

theorem feedback_eq_none_iff : (ledger h).feedback = none ↔
    Past (fun e older => gates e = true → ∀ v, (ledger older).saved = some v →
      v.yaml.decision ≠ .revise) h := by
  induction h with
  | nil => simp [ledger, Ledger.empty]
  | cons e h ih =>
    rw [past_cons, ← ih]
    show (entry e (ledger h)).feedback = none ↔ _
    cases hg : gates e with
    | false => simp [entry_feedback hg]
    | true =>
      rw [entry_of_gates hg]
      cases hsaved : (ledger h).saved with
      | none => simp [Ledger.gate, hsaved]
      | some v => simp [Ledger.gate, hsaved, Option.filter_eq_none_iff]

end Steps

namespace Sample

def misread : List Input :=
  executed ++ [
    .tick false (obsAt 40),
    .exit 1,
    .tick false { obsAt 50 with probe := exitedAt 50 3 (time 45) },
    .tick false { obsAt 50 with
      reviewerOutput := ⟨.ok (time 45), .ok (asBytes "ok?"),
        ⟨.ok (asBytes "ok?"), .ok (time 45)⟩, git ""⟩ },
    .tick false (obsAt 50)]

end Sample

end Orchestrator

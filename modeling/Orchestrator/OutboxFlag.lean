import Orchestrator.Verdict

namespace Orchestrator

open Rust Exec Trace

def finishes (role : AgentRole) (e : Turn) : Bool :=
  takesStep e && decide (e.pre.ctx.runState = .monitor role) &&
    decide (e.post.ctx.runState = .outputCollect role)

def probeOutbox (e : Turn) : Option Bool :=
  match e.input with
  | .tick _ o => (fileMeta o.probe.outboxMeta).toOption.map nonEmptyOutbox
  | .exit _ => none

/-- The outbox as the last finished executor attempt left it. -/
def executorOutbox : History Machine Input → Option Bool
  | [] => none
  | e :: h => if finishes .executor e then probeOutbox e else executorOutbox h

def reviewerFinished : History Machine Input → Bool
  | [] => false
  | e :: h => !finishes .executor e && (finishes .reviewer e || reviewerFinished h)

def written (e : Turn) : List FileWrite :=
  e.post.world.writes.take (e.post.world.writes.length - e.pre.world.writes.length)

def Surveying (ctx : OrchestratorCtx) : Prop :=
  ctx.runState = .executorOutputCollect ∨ ctx.runState = .orchVerify ∨ Reviewing ctx

/-- The flag tells what the last finished attempt, of either role, has left. -/
def Flagged (h : History Machine Input) (ctx : OrchestratorCtx) : Prop :=
  Surveying ctx → ∃ b, executorOutbox h = some b ∧ ctx.outboxPresent = (b || reviewerFinished h)

section Flag

variable {h : History Machine Input} {m m' : Machine} {i : Input} {c : Bool} {o : StepObs}

theorem Flagged.outside {ctx : OrchestratorCtx} (hs : ¬Surveying ctx) : Flagged h ctx :=
  fun h => absurd h hs

theorem Flagged.keep {e : Turn} {ctx ctx' : OrchestratorCtx} (hinv : Flagged h ctx)
    (hs : Surveying ctx' → Surveying ctx) (hflag : ctx'.outboxPresent = ctx.outboxPresent)
    (hfinish : ∀ role, finishes role e = false) : Flagged (e :: h) ctx' := by
  intro hsurveying
  obtain ⟨b, hb, hpresent⟩ := hinv (hs hsurveying)
  refine ⟨b, ?_, ?_⟩
  · simp [executorOutbox, hfinish, hb]
  · simp [reviewerFinished, hfinish, hflag, hpresent]

theorem finishes_of_not_monitor (hm : ∀ r, m.ctx.runState ≠ .monitor r) (role : AgentRole) :
    finishes role ⟨m, i, m'⟩ = false := by
  simp [finishes, hm role]

theorem written_of_append {new : List FileWrite} (h : m'.world.writes = new ++ m.world.writes) :
    written ⟨m, i, m'⟩ = new := by
  simp [written, h]

theorem not_written {f : FileWrite} (hf : f ∈ written ⟨m, i, m'⟩)
    (h : m'.world.writes = m.world.writes) : False := by
  simp [written, h] at hf

theorem Prepares.values {role : AgentRole} {ctx : OrchestratorCtx} {s t : Orch}
    (h : Prepares role ctx s t) (hm : s.world.writes = m.world.writes)
    (hm' : m'.world.writes = t.world.writes) {path : String} {template : TemplateId}
    {values : TemplateValues} (hw : .request path template values ∈ written ⟨m, i, m'⟩) :
    template = templateFor ctx role ∧
      ∃ facts docsDir, values = templateValues ctx role facts docsDir := by
  obtain ⟨new, hnew, hvalues⟩ := h.writes
  have happend : m'.world.writes = new ++ m.world.writes := by rw [hm', hnew, hm]
  rw [written_of_append happend] at hw
  exact hvalues path template values hw

theorem surveying_of_retried {ctx : OrchestratorCtx} (hr : ctx.runState = .roundRetryDecide)
    (h : Surveying (doRoundRetryDecide ctx)) : Surveying ctx := by
  obtain h | h | h := h
  · exact absurd h ((doRoundRetryDecide_kept ctx).2.2.2.2.1 .executor)
  · revert h
    simp only [doRoundRetryDecide]
    split
    · simp
    · cases ctx.currentRole.getD .executor <;> simp
  · exact .inr (.inr (reviewing_of_retried hr h))

theorem surveying_of_reviewing {ctx : OrchestratorCtx} (h : Reviewing ctx) : Surveying ctx :=
  .inr (.inr h)

variable [Crates] {s t : Orch} {flow : Flow}

theorem Collected.outboxPresent {o : CollectObs} (h : Collected o s t) :
    t.ctx.outboxPresent = s.ctx.outboxPresent := by
  cases h with
  | unchanged _ | unreadable _ _ _ | rejected _ _ _ _ => rfl
  | dirty _ hv _ _ | clean _ hv _ _ => cases hv <;> rfl

theorem Classified.outboxMeta {role : AgentRole} {o : ProbeObs} {p : Probe}
    {state : AttemptState} (h : Classified role o s p state t) :
    fileMeta o.outboxMeta = .ok p.signals.outboxMeta := by
  obtain ⟨a, -, -, -, hsignals⟩ := h.attempt
  exact (collectProbeSignals_ok hsignals).2.2.1

theorem Outcome.outboxPresent {role : AgentRole} {o : ProbeObs}
    (h : Outcome role o s flow t) (hr : s.ctx.runState = .monitor role) :
    (t.ctx.runState = .outputCollect role ∧ ∃ outbox, fileMeta o.outboxMeta = .ok outbox ∧
        t.ctx.outboxPresent = nonEmptyOutbox outbox ∧
        (role = .reviewer → nonEmptyOutbox outbox = true)) ∨
      t.ctx.runState ≠ .outputCollect role ∧
        (t.ctx.outboxPresent = s.ctx.outboxPresent ∨ t.ctx.runState = .runFailedProtocol) := by
  cases h with
  | aborted =>
    refine .inr ⟨?_, .inl (by simp [Orch.abort])⟩
    cases role <;> simp [Orch.abort, RunState.outputCollect]
  | @finished p state v allowed h _ hstate =>
    cases allowed with
    | false => exact .inr ⟨by cases role <;> simp [routeResult, RunState.outputCollect], .inr rfl⟩
    | true =>
      refine .inl ⟨rfl, _, h.outboxMeta, rfl, ?_⟩
      rintro rfl
      obtain ⟨-, -, houtbox⟩ | ⟨-, hrole⟩ := hstate
      · exact houtbox
      · simp at hrole
  | watched h | stopped h _ =>
    obtain ⟨w, hw⟩ := h.ctx
    refine .inr ⟨?_, .inl (by simp [withoutProcess, hw])⟩
    cases role <;> simp [withoutProcess, hw, hr, RunState.monitor, RunState.outputCollect]
  | capped h _ _ | failed h _ | hung h | cancelled h =>
    obtain ⟨w, hw⟩ := h.ctx
    refine .inr ⟨?_, .inl ?_⟩
    · cases role <;> simp [retryAttempt, RunState.outputCollect]
    · simp [retryAttempt, terminatingStale, releaseLock, OrchestratorCtx.setLock, hw]

theorem Flagged.probed (hinv : Flagged h m.ctx) (hs : m.Steps c) (hm : m.Placed)
    (hcount : Counted h m) {role : AgentRole} (hr : m.ctx.runState = .monitor role)
    (hp : Outcome role o.probe m.toOrch flow t) (pc : Pc) :
    Flagged (⟨m, .tick c o, ⟨t, pc⟩⟩ :: h) t.ctx := by
  have htakes : takesStep ⟨m, .tick c o, ⟨t, pc⟩⟩ = true := by simp [takesStep, hs]
  have hother : ∀ r, r ≠ role → finishes r ⟨m, .tick c o, ⟨t, pc⟩⟩ = false := by
    intro r hne
    have hstate : m.ctx.runState ≠ .monitor r := fun h => hne (monitor_injective (h.symm.trans hr))
    simp [finishes, hstate]
  obtain ⟨ht, outbox, houtbox, hflag, hreviewer⟩ | ⟨ht, hflag⟩ := hp.outboxPresent hr
  · have hfinish : finishes role ⟨m, .tick c o, ⟨t, pc⟩⟩ = true := by
      simp [finishes, htakes, hr, ht]
    cases role with
    | executor =>
      refine fun _ => ⟨nonEmptyOutbox outbox, ?_, ?_⟩
      · simp [executorOutbox, hfinish, probeOutbox, houtbox, Except.toOption]
      · simp [reviewerFinished, hfinish, hflag]
    | reviewer =>
      have hexecutor := hother .executor (by simp)
      obtain ⟨b, hb, -⟩ := hinv (surveying_of_reviewing (by simp [Reviewing, hr, RunState.monitor]))
      refine fun _ => ⟨b, ?_, ?_⟩
      · simp [executorOutbox, hexecutor, hb]
      · simp [reviewerFinished, hexecutor, hfinish, hflag, hreviewer]
  · have hfinish : ∀ r, finishes r ⟨m, .tick c o, ⟨t, pc⟩⟩ = false := by
      intro r
      by_cases hne : r = role
      · subst hne
        simp [finishes, ht]
      · exact hother r hne
    cases role with
    | executor =>
      apply Flagged.outside
      rintro (h | h | h)
      · exact ht h
      · obtain ⟨-, ⟨-, h'⟩ | ⟨-, h' | h'⟩⟩ | ⟨-, -, h'⟩ := hp.target
        · simp [h', hr, RunState.monitor] at h
        · exact ht h'
        · simp [h, RunState.isTerminal] at h'
        · simp [h'] at h
      · exact hp.not_reviewing hr ((hcount.budget (hs.active hm)).role .executor (.inl hr)) h
    | reviewer =>
      obtain hflag | hflag := hflag
      · apply hinv.keep _ hflag hfinish
        exact fun _ => surveying_of_reviewing (by simp [Reviewing, hr, RunState.monitor])
      · apply Flagged.outside
        simp [Surveying, Reviewing, hflag]

theorem Flagged.stepped (hinv : Flagged h m.ctx) (hs : m.Steps c) (hm : m.Placed)
    (hcount : Counted h m) (hst : Stepped o m.toOrch flow t) (pc : Pc) :
    Flagged (⟨m, .tick c o, ⟨t, pc⟩⟩ :: h) t.ctx := by
  have hother : ∀ {r : RunState}, m.ctx.runState = r → (∀ role, r ≠ .monitor role) → ∀ role,
      finishes role ⟨m, .tick c o, ⟨t, pc⟩⟩ = false := by
    rintro r rfl hne
    exact finishes_of_not_monitor hne
  cases hst with
  | @dispatched role u hr hd =>
    cases role with
    | executor =>
      apply Flagged.outside
      simp [Surveying, Reviewing, withState, RunState.monitor]
    | reviewer =>
      apply hinv.keep
      · exact fun _ => surveying_of_reviewing (by simp [Reviewing, hr, RunState.dispatch])
      · cases hd with
        | launched _ _ hp _ _ =>
          obtain ⟨baseline, inbox, hc⟩ := hp.ctx
          simp [withState, launch, hc, Orch.withLock, OrchestratorCtx.setLock]
      · exact hother hr (dispatch_ne_monitor .reviewer)
  | probed hr hp => exact hinv.probed hs hm hcount hr hp.outcome pc
  | retried hr =>
    apply hinv.keep
    · exact surveying_of_retried hr
    · simp only [Orch.mapCtx_ctx, doRoundRetryDecide]
      split <;> rfl
    · exact hother hr fun r => by cases r <;> simp [RunState.monitor]
  | surveyed hr h =>
    obtain ⟨_, _, _, _, rfl⟩ := h
    apply hinv.keep
    · exact fun _ => .inl hr
    · rfl
    · exact hother hr fun r => by cases r <;> simp [RunState.monitor]
  | verified hr =>
    apply hinv.keep
    · exact fun _ => .inr (.inl hr)
    · rfl
    · exact hother hr fun r => by cases r <;> simp [RunState.monitor]
  | collected hr hc =>
    apply hinv.keep
    · exact fun _ => surveying_of_reviewing (by simp [Reviewing, hr])
    · exact hc.outboxPresent
    · exact hother hr fun r => by cases r <;> simp [RunState.monitor]
  | gated hr =>
    apply hinv.keep
    · exact fun _ => surveying_of_reviewing (by simp [Reviewing, hr])
    · simp only [Orch.mapCtx_ctx, doQualityGate]
      split
      · rfl
      · split <;> rfl
    · exact hother hr fun r => by cases r <;> simp [RunState.monitor]
  | prepared _ hc _ =>
    apply Flagged.outside
    simp [Surveying, Reviewing, hc]
  | bound _ _ | fedBack _ =>
    apply Flagged.outside
    simp [Surveying, Reviewing, doRoundFeedbackPrep]
  | skipped hr =>
    apply Flagged.outside
    obtain hr | hr := hr
    · simp [Surveying, Reviewing, hr]
    · simp [(hs.active hm).2] at hr

theorem Flagged.move (hinv : m.Active → Flagged h m.ctx) (hm : m.Placed) (hcount : Counted h m)
    (hmove : Move m i m') (ha : m'.Active) : Flagged (⟨m, i, m'⟩ :: h) m'.ctx := by
  cases hmove.active ha with
  | exit hactive =>
    apply (hinv hactive).keep
    · exact fun h => h
    · rfl
    · simp [finishes, takesStep]
  | admitted _ _ =>
    apply Flagged.outside
    simp [Surveying, Reviewing, withState]
  | stepped hs hst => exact (hinv (hs.active hm)).stepped hs hm hcount hst _

theorem Run.flagged (hr : Run h m) : m.Active → Flagged h m.ctx := by
  apply Trace.Run.invariant (P := fun h m => m.Active → Flagged h m.ctx) hr
  · rintro _ ⟨args, rfl⟩ _
    apply Flagged.outside
    simp [Surveying, Reviewing, Machine.init, OrchestratorCtx.new]
  · exact fun h m i hr hinv ha =>
      Flagged.move hinv (Run.placed hr) (Run.counted hr) (next_move m i) ha

theorem Refused.values {role : AgentRole} {o : DispatchObs} {t : Orch}
    (h : Refused role o m.toOrch t) (hm' : m'.world.writes = t.world.writes) {path : String}
    {template : TemplateId} {values : TemplateValues}
    (hw : .request path template values ∈ written ⟨m, i, m'⟩) :
    template = templateFor m.ctx role ∧
      ∃ facts docsDir, values = templateValues m.ctx role facts docsDir := by
  cases h with
  | unlocked => exact (not_written hw hm').elim
  | locked _ _ hp => exact hp.values rfl hm' hw

theorem written_of_dispatch {role : AgentRole} (hr : m.ctx.runState = .dispatch role)
    {path : String} {template : TemplateId} {values : TemplateValues}
    (hw : .request path template values ∈ written ⟨m, .tick c o, m.next (.tick c o)⟩) :
    template = templateFor m.ctx role ∧
      ∃ facts docsDir, values = templateValues m.ctx role facts docsDir := by
  have hmove := next_move m (.tick c o)
  generalize m.next (.tick c o) = m' at hmove hw
  cases hmove with
  | idle _ | cancelled _ _ => exact (not_written hw rfl).elim
  | admitted _ hs | rejected _ hs =>
    obtain ⟨root, rfl⟩ := hs
    exact (not_written hw rfl).elim
  | stepped _ hst =>
    obtain ⟨r, hr', -⟩ | ⟨r, u, hr', hd, rfl⟩ | ⟨-, hother⟩ := hst.kind
    · exact absurd (hr.symm.trans hr') (dispatch_ne_monitor role r)
    · obtain rfl := dispatch_injective (hr'.symm.trans hr)
      cases hd with
      | launched _ _ hp _ _ => exact hp.values rfl rfl hw
    · exact absurd hr (hother role)
  | failed _ hi => exact (hi.refused hr).values rfl hw
  | panicked hp =>
    obtain ⟨-, root, rfl⟩ | ⟨-, hi⟩ := hp
    · exact (not_written hw rfl).elim
    · exact (hi.refused hr).values rfl hw

/-- A review request tells the truth about the executor's outbox exactly when the executor has
left one, or no reviewer attempt of the round has finished before. -/
theorem executorOutboxPresent_iff (hr : Run h m) (hs : m.Steps c)
    (hd : m.ctx.runState = .reviewerDispatch) {path : String} {values : TemplateValues}
    (hw : .request path .reviewerReview values ∈ written ⟨m, .tick c o, m.next (.tick c o)⟩) :
    (values.executorOutboxPresent = true ↔ executorOutbox h = some true) ↔
      (executorOutbox h = some true ∨ reviewerFinished h = false) := by
  have hdispatch : m.ctx.runState = .dispatch .reviewer := hd
  obtain ⟨-, facts, docsDir, rfl⟩ := written_of_dispatch hdispatch hw
  obtain ⟨b, hb, hflag⟩ := Run.flagged hr (hs.active (Run.placed hr))
    (surveying_of_reviewing (by simp [Reviewing, hd]))
  simp only [templateValues, hflag, hb, Option.some.injEq]
  cases b <;> cases reviewerFinished h <;> simp

end Flag

namespace Sample

def committedAt (n : Nat) : ProbeObs :=
  { probeAt n with
    tryWait := some (some 0)
    procExists := false
    gitHead := git "beef\n"
    gitDiff := git "M\tREADME.md\n" }

def reviewAt (n : Nat) (outboxMtime : IoResult Int) : Input :=
  .tick false { obsAt n with
    dispatch := { dispatchAt n with outboxMtime := outboxMtime, gitHead := git "beef\n" } }

def softExecuted : List Input :=
  executed.take 5 ++ [
    .tick false { obsAt 30 with probe := committedAt 30 },
    .tick false { obsAt 300 with probe := committedAt 300 },
    .tick false (obsAt 300), .tick false (obsAt 300)]

def unreadable : List Input :=
  softExecuted ++ [
    reviewAt 310 absent,
    .exit 1,
    .tick false { obsAt 400 with
      probe := { exitedAt 400 3 (time 390) with gitHead := git "beef\n" } },
    .tick false { obsAt 400 with
      reviewerOutput := ⟨.ok (time 390), .ok [0xFF, 0xFE, 0x0A],
        ⟨.ok [0xFF, 0xFE, 0x0A], .ok (time 390)⟩, git ""⟩ },
    .tick false (obsAt 400)]

def saysPresent (flag : Bool) : FileWrite → Bool
  | .request _ .reviewerReview values => values.executorOutboxPresent == flag
  | _ => false

theorem exists_of_saysPresent {flag : Bool} {ws : List FileWrite}
    (h : ws.any (saysPresent flag) = true) :
    ∃ path values, .request path .reviewerReview values ∈ ws ∧
      values.executorOutboxPresent = flag := by
  obtain ⟨w, hw, hflag⟩ := List.any_eq_true.mp h
  cases w with
  | truncated _ | created _ | appended _ _ => simp [saysPresent] at hflag
  | request path template values =>
    cases template with
    | reviewerReview => exact ⟨path, values, hw, by simpa [saysPresent] using hflag⟩
    | executorInitial | reviewerRepairYaml | reviewerRepairWorkspace | executorFeedback =>
      simp [saysPresent] at hflag

def turn (is : List Input) (i : Input) : Turn := ⟨(run is).2, i, (run is).2.next i⟩

end Sample

open Sample in
theorem review_claims_outbox :
    Run (run unreadable).1 (run unreadable).2 ∧
      (run unreadable).2.ctx.runState = .reviewerDispatch ∧
      executorOutbox (run unreadable).1 = some false ∧
      ∃ path values,
        .request path .reviewerReview values ∈
            written (turn unreadable (reviewAt 401 (.ok (time 390)))) ∧
          values.executorOutboxPresent = true :=
  ⟨run_run unreadable, by decide +kernel, by decide +kernel,
    exists_of_saysPresent (by decide +kernel)⟩

open Sample in
theorem executorOutboxPresent_iff_softExecuted :
    ∃ path values,
      .request path .reviewerReview values ∈
          written (turn softExecuted (reviewAt 310 absent)) ∧
        ¬(values.executorOutboxPresent = true) ∧
        executorOutbox (run softExecuted).1 = some false := by
  have hstate : (run softExecuted).2.Steps false ∧
      (run softExecuted).2.ctx.runState = .reviewerDispatch := by decide +kernel
  have htruth : executorOutbox (run softExecuted).1 = some false ∧
      reviewerFinished (run softExecuted).1 = false := by decide +kernel
  obtain ⟨path, values, hw, -⟩ := exists_of_saysPresent
    (show (written (turn softExecuted (reviewAt 310 absent))).any (saysPresent false) = true by
      decide +kernel)
  have hiff := (executorOutboxPresent_iff (run_run softExecuted) hstate.1 hstate.2 hw).mpr
    (.inr htruth.2)
  refine ⟨path, values, hw, ?_, htruth.1⟩
  rw [hiff, htruth.1]
  simp

end Orchestrator

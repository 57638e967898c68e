import Orchestrator.Lib.Path
import Orchestrator.Order
import Orchestrator.Locks

/-! The conversation that a run holds, and how many processes it starts for it. -/

namespace Orchestrator

open Exec Trace

inductive Ending
  | accepted | exhausted | stopped
  deriving DecidableEq

/-- Where the conversation stands; `failures` are those of this round. -/
inductive Stage
  | opening
  | ask (role : AgentRole) (failures : Nat)
  | await (role : AgentRole) (failures : Nat)
  | retry (role : AgentRole) (failures : Nat)
  | judge
  | closed (ending : Ending)
  deriving DecidableEq

inductive Message
  | start
  | ask (role : AgentRole)
  | answer (role : AgentRole)
  | fail (role : AgentRole)
  | again (role : AgentRole)
  | revise
  | close (ending : Ending)
  deriving DecidableEq

namespace Stage

def Closed : Stage → Prop
  | .closed _ => True
  | _ => False

def between : Stage → Stage → Option Message
  | .opening, .ask _ _ => some .start
  | .ask role _, .await _ _ => some (.ask role)
  | .await role _, .retry _ _ => some (.fail role)
  | .await role _, .ask _ _ | .await role _, .judge => some (.answer role)
  | .retry role _, .ask _ _ => some (.again role)
  | .judge, .ask _ _ => some .revise
  | .closed _, .closed _ => none
  | _, .closed ending => some (.close ending)
  | _, _ => none

theorem between_self (s : Stage) : between s s = none := by
  cases s <;> rfl

end Stage

namespace Message

def asks : Message → Bool
  | .ask _ => true
  | _ => false

def answers (role : AgentRole) (e : Message) : Bool := e = .answer role

def revises (e : Message) : Bool := e = .revise

end Message

/-- The executor answers and the reviewer answers, each asked again after a failure while the
round has failed fewer than `limit` times, until the verdict ends the conversation or opens the
next round. It can be stopped anywhere. -/
inductive Converses (limit : Nat) : Stage → Message → Stage → Prop
  | start : Converses limit .opening .start (.ask .executor 0)
  | ask {r n} : Converses limit (.ask r n) (.ask r) (.await r n)
  | report {n} : Converses limit (.await .executor n) (.answer .executor) (.ask .reviewer n)
  | review {n} : Converses limit (.await .reviewer n) (.answer .reviewer) .judge
  | fail {r n} : Converses limit (.await r n) (.fail r) (.retry r (n + 1))
  | again {r n} : n < limit → Converses limit (.retry r n) (.again r) (.ask r n)
  | exhaust {r n} : limit ≤ n →
    Converses limit (.retry r n) (.close .exhausted) (.closed .exhausted)
  | revise : Converses limit .judge .revise (.ask .executor 0)
  | accept : Converses limit .judge (.close .accepted) (.closed .accepted)
  | stop {s} : ¬s.Closed → Converses limit s (.close .stopped) (.closed .stopped)

abbrev Conversation (limit : Nat) : List Message → Stage → Prop :=
  Path (fun s => s = .opening) (Converses limit)

section Laws

variable {limit : Nat} {a b s : Stage} {ev : Message} {evs : List Message}

theorem Converses.between (h : Converses limit a ev b) : a.between b = some ev := by
  cases h with
  | stop hs => cases a <;> first | rfl | exact absurd trivial hs
  | _ => rfl

theorem Converses.ne_opening (h : Converses limit a ev b) : b ≠ .opening := by
  cases h <;> simp

def Stage.Within (limit : Nat) : Stage → Prop
  | .ask _ n | .await _ n => n < limit
  | .retry _ n => n ≤ limit
  | _ => True

theorem Conversation.within (hlimit : 0 < limit) (hp : Conversation limit evs s) :
    s.Within limit := by
  apply hp.invariant (P := fun _ s => s.Within limit)
  · rintro _ rfl
    trivial
  · intro _ a _ b _ ha hs
    cases hs with
    | start | revise => exact hlimit
    | ask | report | fail => exact ha
    | again hn => exact hn
    | review | exhaust _ | accept | stop _ => trivial

def Stage.spent (limit : Nat) : Stage → Nat
  | .opening => 0
  | .ask .executor n | .retry .executor n => n
  | .await .executor n | .ask .reviewer n | .retry .reviewer n => n + 1
  | .await .reviewer n => n + 2
  | .judge | .closed _ => limit + 1

theorem Stage.spent_le (h : s.Within limit) : s.spent limit ≤ limit + 1 := by
  cases s with
  | opening | judge | closed _ => simp [spent]
  | ask r n | await r n | retry r n =>
    cases r <;> simp only [spent, Within] at h ⊢ <;> omega

theorem Conversation.asks_le (hlimit : 0 < limit) (hp : Conversation limit evs s) :
    evs.countP Message.asks ≤ (limit + 1) * (evs.countP Message.revises + 1) := by
  have hcharge : evs.countP Message.asks + (limit + 1 - s.spent limit) ≤
      (limit + 1) + (limit + 1) * evs.countP Message.revises := by
    apply Path.charged hp (Φ := fun s => limit + 1 - s.spent limit)
    · exact fun _ _ => Nat.sub_le _ _
    · intro ls a ev b hp hs
      have ha := Conversation.within hlimit hp
      have hle := Stage.spent_le ha
      cases hs with
      | @ask r n | @fail r n | @again r n _ =>
        simp only [tally, Message.asks, Message.revises, Stage.spent, Stage.Within] at *
        cases r <;> simp <;> omega
      | exhaust _ | stop _ => simp [tally, Message.asks, Stage.spent]
      | start | report | review | revise | accept =>
        simp only [tally, Message.asks, Message.revises, Stage.spent, Stage.Within] at *
        simp
  rw [Nat.mul_add, Nat.mul_one]
  omega

def answered (evs : List Message) : List AgentRole :=
  evs.filterMap fun
    | .answer role => some role
    | _ => none

def TakeTurns : List AgentRole → Prop
  | [] => True
  | [role] => role = .executor
  | role :: other :: roles => role ≠ other ∧ TakeTurns (other :: roles)

def Stage.After : Stage → List AgentRole → Prop
  | .opening, roles => roles = []
  | .ask .executor _, roles | .await .executor _, roles | .retry .executor _, roles =>
    roles.head? ≠ some .executor
  | .ask .reviewer _, roles | .await .reviewer _, roles | .retry .reviewer _, roles =>
    roles.head? = some .executor
  | .judge, roles => roles.head? = some .reviewer
  | .closed _, _ => True

theorem TakeTurns.executor {roles : List AgentRole} (h : TakeTurns roles)
    (hlast : roles.head? ≠ some .executor) : TakeTurns (.executor :: roles) := by
  cases roles with
  | nil => rfl
  | cons role roles =>
    refine ⟨?_, h⟩
    rintro rfl
    exact hlast rfl

theorem TakeTurns.reviewer {roles : List AgentRole} (h : TakeTurns roles)
    (hlast : roles.head? = some .executor) : TakeTurns (.reviewer :: roles) := by
  obtain ⟨rest, rfl⟩ := List.head?_eq_some_iff.mp hlast
  exact ⟨by simp, h⟩

theorem Conversation.takeTurns (hp : Conversation limit evs s) :
    TakeTurns (answered evs) ∧ s.After (answered evs) := by
  apply hp.invariant (P := fun evs s => TakeTurns (answered evs) ∧ s.After (answered evs))
  · rintro _ rfl
    exact ⟨trivial, rfl⟩
  · intro evs a ev b _ hinv hs
    obtain ⟨hturns, hafter⟩ := hinv
    cases hs with
    | start =>
      refine ⟨hturns, ?_⟩
      have hnone : answered evs = [] := hafter
      have hquiet : answered (Message.start :: evs) = answered evs := rfl
      simp [Stage.After, hquiet, hnone]
    | report => exact ⟨hturns.executor hafter, rfl⟩
    | review => exact ⟨hturns.reviewer hafter, rfl⟩
    | revise =>
      refine ⟨hturns, ?_⟩
      have hlast : (answered evs).head? = some .reviewer := hafter
      have hquiet : answered (Message.revise :: evs) = answered evs := rfl
      simp [Stage.After, hquiet, hlast]
    | @ask r _ | @fail r _ | @again r _ _ => cases r <;> exact ⟨hturns, hafter⟩
    | exhaust _ | accept | stop _ => exact ⟨hturns, trivial⟩

end Laws

def stageOf (ctx : OrchestratorCtx) : Stage :=
  match ctx.runState with
  | .runInit | .contextPrep | .sessionBind => .opening
  | .roundFeedbackPrep | .executorDispatch => .ask .executor ctx.consecutiveFailureCount
  | .executorMonitor => .await .executor ctx.consecutiveFailureCount
  | .executorOutputCollect | .orchVerify | .reviewerDispatch =>
    .ask .reviewer ctx.consecutiveFailureCount
  | .reviewerMonitor | .reviewerOutputCollect => .await .reviewer ctx.consecutiveFailureCount
  | .roundRetryDecide =>
    .retry (ctx.currentRole.getD .executor) ctx.consecutiveFailureCount
  | .qualityGate => .judge
  | .runDone => .closed .accepted
  | .runFailedConsecutiveFailureLimit => .closed .exhausted
  | _ => .closed .stopped

def stage (m : Machine) : Stage :=
  if m.pc = .panicked then .closed .stopped else stageOf m.ctx

def heard (e : Turn) : Option Message := (stage e.pre).between (stage e.post)

def processes (m : Machine) : Nat := m.world.children.length

inductive Heard (a : Stage) (n : Nat) (b : Stage) (k : Nat) : Prop
  | silent : b = a → k = n → Heard a n b k
  | message {e} : Converses consecutiveFailureLimit a e b → k = n + tally Message.asks e →
      Heard a n b k

def Machine.Hears (m m' : Machine) : Prop := Heard (stage m) (processes m) (stage m') (processes m')

theorem stageOf_ask {ctx : OrchestratorCtx} {r : AgentRole} (h : ctx.runState = .dispatch r) :
    stageOf ctx = .ask r ctx.consecutiveFailureCount := by
  cases r <;> simp [stageOf, h, RunState.dispatch]

theorem stageOf_await {ctx : OrchestratorCtx} {r : AgentRole} (h : ctx.runState = .monitor r) :
    stageOf ctx = .await r ctx.consecutiveFailureCount := by
  cases r <;> simp [stageOf, h, RunState.monitor]

theorem stageOf_open {ctx : OrchestratorCtx} (h : ctx.runState.isTerminal = false) :
    ¬(stageOf ctx).Closed := by
  revert h
  simp only [stageOf]
  cases ctx.runState <;> simp [RunState.isTerminal, Stage.Closed]

theorem stageOf_stopped {ctx : OrchestratorCtx} (h : ctx.runState.isTerminal = true)
    (hdone : ctx.runState ≠ .runDone)
    (hlimit : ctx.runState ≠ .runFailedConsecutiveFailureLimit) :
    stageOf ctx = .closed .stopped := by
  revert h hdone hlimit
  simp only [stageOf]
  cases ctx.runState <;> simp [RunState.isTerminal]

theorem stage_of_active {m : Machine} (h : m.Active) : stage m = stageOf m.ctx := by
  rw [stage, if_neg h.1]

theorem active_of_open {m : Machine} (h : ¬(stage m).Closed) : m.Active := by
  revert h
  simp only [stage, stageOf, Machine.Active]
  split
  · simp [Stage.Closed]
  · rename_i hpc
    cases m.ctx.runState <;> simp [Stage.Closed, RunState.isTerminal, hpc]

theorem Machine.Active.open {m : Machine} (h : m.Active) : ¬(stage m).Closed := by
  rw [stage_of_active h]
  exact stageOf_open h.2

section Children

variable {o : StepObs} {s t : Orch} {flow : Flow}

@[simp] theorem length_bury (w : World) (id : Nat) :
    (w.bury id).children.length = w.children.length := by
  simp [World.bury]

theorem pollChild_length (o : ProbeObs) (s : Orch) :
    (s.pollChild o).world.children.length = s.world.children.length := by
  simp only [Orch.pollChild]
  split <;> simp

@[simp] theorem terminateActiveChild_length (s : Orch) :
    s.terminateActiveChild.world.children.length = s.world.children.length := by
  simp only [Orch.terminateActiveChild]
  split <;> simp

variable [Crates]

theorem Classified.length {role : AgentRole} {o : ProbeObs} {s v : Orch} {p : Probe}
    {state : AttemptState} (h : Classified role o s p state v) :
    v.world.children.length = s.world.children.length := by
  obtain ⟨warnings, rfl⟩ := h.after
  exact pollChild_length o s

theorem Outcome.length {role : AgentRole} {o : ProbeObs} (h : Outcome role o s flow t) :
    t.world.children.length = s.world.children.length := by
  cases h with
  | aborted => simp [Orch.abort]
  | finished h _ _ | watched h | capped h _ _ | failed h _ => simpa using h.length
  | stopped h _ | hung h | cancelled h => simpa using h.length

theorem Interrupted.length (h : Interrupted o s t) :
    t.world.children.length = s.world.children.length := by
  cases h with
  | preparing _ _ hw => rw [hw]
  | dispatching _ h =>
    cases h with
    | unlocked => rfl
    | locked _ _ hp => exact congrArg List.length hp.children
  | @probing role _ _ h =>
    obtain ⟨_, _, _, rfl⟩ := h
    exact pollChild_length o.probe s
  | surveying _ h =>
    obtain ⟨_, _, _, _, rfl⟩ := h
    rfl
  | collecting _ h =>
    cases h with
    | unread => rfl
    | judged _ hj => cases hj <;> rfl

end Children

theorem Machine.Hears.stop {m m' : Machine} (h : ¬(stage m).Closed)
    (hstage : stage m' = .closed .stopped) (hchildren : processes m' = processes m) :
    m.Hears m' := by
  apply Heard.message (e := .close .stopped)
  · rw [hstage]
    exact .stop h
  · exact hchildren

theorem Machine.Hears.shows {m m' : Machine} {i : Input} (hh : m.Hears m') :
    Exhibits (Converses consecutiveFailureLimit) (stage m) (heard ⟨m, i, m'⟩) (stage m') := by
  cases hh with
  | silent hs _ =>
    have hnone : heard ⟨m, i, m'⟩ = none := by simp [heard, hs, Stage.between_self]
    rw [hnone]
    exact hs
  | @message ev hs _ =>
    have hsome : heard ⟨m, i, m'⟩ = some ev := hs.between
    rw [hsome]
    exact hs

def Unfailed (ctx : OrchestratorCtx) : Prop :=
  stageOf ctx = .opening → ctx.consecutiveFailureCount = 0

theorem doRoundRetryDecide_count (ctx : OrchestratorCtx) :
    (doRoundRetryDecide ctx).consecutiveFailureCount = ctx.consecutiveFailureCount := by
  simp only [doRoundRetryDecide]
  split <;> rfl

theorem heard_retry {s : Orch} (hr : s.ctx.runState = .roundRetryDecide) :
    Heard (stageOf s.ctx) s.world.children.length (stageOf (doRoundRetryDecide s.ctx))
      s.world.children.length := by
  have hstage : stageOf s.ctx =
      .retry (s.ctx.currentRole.getD .executor) s.ctx.consecutiveFailureCount := by
    simp [stageOf, hr]
  have htarget := doRoundRetryDecide_target s.ctx
  rw [hstage]
  split at htarget
  · apply Heard.message (e := .close .exhausted)
    · simp only [stageOf, htarget]
      exact .exhaust ‹_›
    · rfl
  · apply Heard.message (e := .again (s.ctx.currentRole.getD .executor))
    · rw [stageOf_ask htarget, doRoundRetryDecide_count]
      exact .again (by omega)
    · rfl

theorem heard_gate {s : Orch} (hr : s.ctx.runState = .qualityGate)
    (hv : s.ctx.reviewResult.isSome) :
    Heard (stageOf s.ctx) s.world.children.length (stageOf (doQualityGate s.ctx))
      s.world.children.length := by
  obtain ⟨v, hv⟩ := Option.isSome_iff_exists.mp hv
  have hstage : stageOf s.ctx = .judge := by simp [stageOf, hr]
  rw [hstage]
  simp only [doQualityGate, hv]
  cases v.decision with
  | accept => exact .message .accept rfl
  | revise => exact .message .revise rfl
  | blocked | irreconcilableDisagreement | poisonedSession => exact .message (.stop id) rfl

section Heard

variable [Crates] {h : History Machine Input} {m m' : Machine} {c : Bool} {o : StepObs} {t : Orch}
  {flow : Flow} {i : Input} {pc : Pc}

theorem Outcome.ne_limit {role : AgentRole} {o : ProbeObs} {s : Orch} (h : Outcome role o s flow t)
    (hr : s.ctx.runState = .monitor role) :
    t.ctx.runState ≠ .runFailedConsecutiveFailureLimit := by
  have htarget := h.target
  cases h with
  | aborted => simp [Orch.abort]
  | @finished p state v allowed _ _ _ =>
    cases allowed <;> cases role <;> simp [routeResult, RunState.outputCollect]
  | capped _ _ _ | failed _ _ | hung _ | cancelled _ => simp [retryAttempt]
  | watched h | stopped h _ =>
    obtain ⟨-, ⟨-, heq⟩ | ⟨hf, -⟩⟩ | ⟨-, hf, -⟩ := htarget
    · rw [heq, hr]
      cases role <;> simp [RunState.monitor]
    · simp at hf
    · simp at hf

theorem Outcome.heard {role : AgentRole} {o : ProbeObs} {s : Orch} (h : Outcome role o s flow t)
    (hr : s.ctx.runState = .monitor role) (hrole : s.ctx.currentRole = some role) :
    Heard (stageOf s.ctx) s.world.children.length (stageOf t.ctx) t.world.children.length := by
  rw [stageOf_await hr, h.length]
  obtain ⟨hcount, ⟨-, ht⟩ | ⟨-, ht | ht⟩⟩ | ⟨hcount, -, ht⟩ := h.target
  · exact .silent (by rw [stageOf_await (ht.trans hr), hcount]) rfl
  · cases role with
    | executor =>
      apply Heard.message (e := .answer .executor)
      · simp only [stageOf, ht, RunState.outputCollect, hcount]
        exact .report
      · rfl
    | reviewer =>
      apply Heard.silent
      · simp only [stageOf, ht, RunState.outputCollect, hcount]
      · rfl
  · apply Heard.message (e := .close .stopped)
    · rw [stageOf_stopped ht (h.ne_done hr) (h.ne_limit hr)]
      exact .stop id
    · rfl
  · apply Heard.message (e := .fail role)
    · simp only [stageOf, ht, hcount, h.sameRound.currentRole, hrole, Option.getD_some]
      exact .fail
    · rfl

theorem Collected.heard {o : CollectObs} {s : Orch} (h : Collected o s t)
    (hr : s.ctx.runState = .reviewerOutputCollect) (hrole : s.ctx.currentRole = some .reviewer) :
    Heard (stageOf s.ctx) s.world.children.length (stageOf t.ctx) t.world.children.length := by
  have hstage : stageOf s.ctx = .await .reviewer s.ctx.consecutiveFailureCount := by
    simp [stageOf, hr]
  rw [hstage, h.same.2]
  obtain ⟨hcur, ⟨hcount, ht⟩ | ⟨hcount, ht, -⟩⟩ := h.target
  · apply Heard.message (e := .fail .reviewer)
    · simp only [stageOf, ht, hcount, hcur, hrole, Option.getD_some]
      exact .fail
    · rfl
  · apply Heard.message (e := .answer .reviewer)
    · simp only [stageOf, ht]
      exact .review
    · rfl

theorem Stepped.heard (hcount : Counted h m) (hopen : Unfailed m.ctx) (hactive : m.Active)
    (hst : Stepped o m.toOrch flow t) :
    Heard (stageOf m.ctx) m.world.children.length (stageOf t.ctx) t.world.children.length := by
  have hbudget := hcount.budget hactive
  cases hst with
  | prepared hr hc hw =>
    apply Heard.silent
    · simp [stageOf, hr, hc]
    · rw [hw]
  | bound hr _ =>
    have hstage : stageOf m.ctx = .opening := by simp [stageOf, hr]
    apply Heard.message (e := .start)
    · have hzero : m.ctx.consecutiveFailureCount = 0 := hopen hstage
      rw [hstage]
      simp only [stageOf, hzero]
      exact .start
    · rfl
  | @dispatched role _ hr hd =>
    cases hd with
    | @launched _ _ u p pid _ _ hp _ _ =>
      obtain ⟨baseline, inbox, hc⟩ := hp.ctx
      apply Heard.message (e := .ask role)
      · rw [stageOf_ask hr, stageOf_await (r := role) rfl]
        simp only [Orch.mapCtx_ctx, withState, launch, hc, Orch.withLock, OrchestratorCtx.setLock]
        exact .ask
      · simp [launch, World.spawn, hp.children, Orch.withLock, tally, Message.asks]
  | @probed role _ _ hr hp => exact hp.outcome.heard hr (hbudget.role role (.inl hr))
  | retried hr => exact heard_retry hr
  | surveyed hr hs =>
    obtain ⟨_, _, _, _, rfl⟩ := hs
    exact .silent (by simp [stageOf, hr, withState]) rfl
  | verified hr => exact .silent (by simp [stageOf, hr, doOrchVerify]) rfl
  | collected hr hc => exact hc.heard hr (hbudget.role .reviewer (.inr hr))
  | gated hr => exact heard_gate hr (hbudget.verdict hr)
  | fedBack hr => exact .silent (by simp [stageOf, hr, doRoundFeedbackPrep]) rfl
  | skipped _ => exact .silent rfl rfl

theorem Run.unfailed (hr : Run h m) : m.Active → Unfailed m.ctx := by
  apply Trace.Run.invariant (P := fun _ m => m.Active → Unfailed m.ctx) hr
  · rintro _ ⟨args, rfl⟩ _ _
    rfl
  · intro h m i hr hinv hactive
    have hmove := next_move m i
    generalize m.next i = m' at hmove hactive
    cases hmove.active hactive with
    | exit hactive => exact hinv hactive
    | admitted hpc hs =>
      obtain ⟨root, rfl⟩ := hs
      intro _
      have hinit := (Run.placed hr).start hpc
      apply hinv ⟨by simp [hpc], by simp [hinit, RunState.isTerminal]⟩
      simp [stageOf, hinit]
    | stepped hs hst =>
      have hm := hs.active (Run.placed hr)
      have hopen := hinv hm
      intro ht
      cases hst.heard (Run.counted hr) hopen hm with
      | message hc _ => exact absurd ht hc.ne_opening
      | silent heq _ =>
        have ho : stageOf m.ctx = .opening := heq ▸ ht
        have hzero := hopen ho
        cases hst with
        | prepared _ hc _ => simpa [hc] using hzero
        | skipped _ => exact hzero
        | bound _ _ => simp [stageOf] at ht
        | dispatched hr _ => simp [stageOf_ask hr] at ho
        | probed hr _ => simp [stageOf_await hr] at ho
        | retried hr | surveyed hr _ | verified hr | collected hr _ | gated hr | fedBack hr =>
          simp [stageOf, hr] at ho

theorem Move.hears (hr : Run h m) (hmove : Move m i m') : m.Hears m' := by
  have hm := Run.placed hr
  cases hmove with
  | exit => exact .silent rfl (length_bury _ _)
  | idle _ => exact .silent rfl rfl
  | admitted hpc hs =>
    obtain ⟨root, rfl⟩ := hs
    refine .silent ?_ rfl
    simp [stage, hpc, stageOf, hm.start hpc, withState]
  | rejected hpc hs =>
    obtain ⟨root, rfl⟩ := hs
    have hinit := hm.start hpc
    have hactive : m.Active := ⟨by simp [hpc], by simp [hinit, RunState.isTerminal]⟩
    exact .stop hactive.open (by simp [stage, stageOf]) rfl
  | cancelled hpc ht =>
    have hactive : m.Active := ⟨by simp [hpc], ht⟩
    exact .stop hactive.open (by simp [stage, stageOf, withState]) rfl
  | @stepped c o flow s hs hst =>
    have hactive := hs.active hm
    have hpc : (if flow = .again then Pc.monitor else .head) ≠ .panicked := by
      cases flow <;> simp
    rw [Machine.Hears, stage_of_active hactive, stage, if_neg hpc]
    exact hst.heard (Run.counted hr) (Run.unfailed hr hactive) hactive
  | @failed c o s e hs hi =>
    have hactive := hs.active hm
    apply Machine.Hears.stop hactive.open
    · have hstate : (Machine.fail e s.ctx).runState = errorToRunState e := by
        simp [Machine.fail, hi.kept.runState, hactive.2]
      rw [stage, if_neg (by simp)]
      apply stageOf_stopped (Machine.fail_terminal e s.ctx)
      · simp only [hstate]
        cases e <;> simp [errorToRunState]
      · simp only [hstate]
        cases e <;> simp [errorToRunState]
    · exact hi.length
  | @panicked c o s hp =>
    obtain ⟨hpc, root, rfl⟩ | ⟨hs, hi⟩ := hp
    · have hinit := hm.start hpc
      have hactive : m.Active := ⟨by simp [hpc], by simp [hinit, RunState.isTerminal]⟩
      exact .stop hactive.open (by simp [stage]) rfl
    · exact .stop (hs.active hm).open (by simp [stage]) hi.length

theorem Run.conversation (hr : Run h m) :
    Conversation consecutiveFailureLimit (h.filterMap heard) (stage m) := by
  apply Trace.Run.simulate hr
  · rintro _ ⟨args, rfl⟩
    rfl
  · exact fun h m i hr => (Move.hears hr (next_move m i)).shows

theorem Run.processes_eq (hr : Run h m) :
    processes m = (h.filterMap heard).countP Message.asks := by
  apply Trace.Run.invariant
    (P := fun h m => processes m = (h.filterMap heard).countP Message.asks) hr
  · rintro _ ⟨args, rfl⟩
    rfl
  · intro h m i hr hinv
    cases Move.hears hr (next_move m i) with
    | silent hs hn =>
      have hnone : heard ⟨m, i, m.next i⟩ = none := by
        simp [heard, hs, Stage.between_self]
      rw [hn, hinv, List.filterMap_cons_none hnone]
    | @message ev hs hn =>
      have hsome : heard ⟨m, i, m.next i⟩ = some ev := hs.between
      rw [hn, hinv, List.filterMap_cons_some hsome, countP_tally]

/-- A run of the orchestrator is a conversation in which the executor and the reviewer answer in
turn, and it has started one process for each request. -/
theorem run_conversation (hr : Run h m) :
    Conversation consecutiveFailureLimit (h.filterMap heard) (stage m) ∧
      TakeTurns (answered (h.filterMap heard)) ∧
      processes m = (h.filterMap heard).countP Message.asks :=
  ⟨Run.conversation hr, (Run.conversation hr).takeTurns.1, Run.processes_eq hr⟩

end Heard

open Sample in
theorem run_conversation_silentOnce :
    stage (run silentOnce).2 = .await .executor 1 ∧ processes (run silentOnce).2 = 2 ∧
      Conversation consecutiveFailureLimit ((run silentOnce).1.filterMap heard)
        (stage (run silentOnce).2) ∧
      processes (run silentOnce).2 = ((run silentOnce).1.filterMap heard).countP Message.asks := by
  have h := run_conversation (run_run silentOnce)
  exact ⟨by decide +kernel, by decide +kernel, h.1, h.2.2⟩

def revises (e : Turn) : Bool :=
  gates e && decide (e.post.ctx.runState = .roundFeedbackPrep)

theorem stage_judge {m : Machine} (h : stage m = .judge) : m.ctx.runState = .qualityGate := by
  revert h
  simp only [stage, stageOf]
  split
  · simp
  · cases m.ctx.runState <;> simp

theorem between_revise {a b : Stage} (h : a.between b = some .revise) :
    a = .judge ∧ ∃ r n, b = .ask r n := by
  revert h
  cases a <;> cases b <;> simp [Stage.between]

section Revises

variable [Crates] {h : History Machine Input} {m m' : Machine} {i : Input}

theorem Move.opens_round (hmove : Move m i m') (hm : m.Placed)
    (he : heard ⟨m, i, m'⟩ = some .revise) : revises ⟨m, i, m'⟩ = true := by
  obtain ⟨hjudge, r, n, hask⟩ := between_revise he
  simp only at hjudge hask
  have hgate := stage_judge hjudge
  have hactive : m'.Active := active_of_open (by simp [hask, Stage.Closed])
  cases hmove.active hactive with
  | exit _ =>
    have hsame : stage m = .ask r n := hask
    simp [hjudge] at hsame
  | admitted hpc _ => simp [hm.start hpc] at hgate
  | @stepped c o flow s hs hst =>
    have htarget : s.ctx.runState = .roundFeedbackPrep := by
      cases hst with
      | gated _ =>
        obtain ht | ht := doQualityGate_target m.ctx
        · exact ht
        · simp [Machine.Active, ht] at hactive
      | skipped hr => simp [hgate, RunState.isTerminal] at hr
      | @dispatched role _ hr _ => cases role <;> simp [hgate, RunState.dispatch] at hr
      | @probed role _ _ hr _ => cases role <;> simp [hgate, RunState.monitor] at hr
      | prepared hr _ _ | bound hr _ | retried hr | surveyed hr _ | verified hr | collected hr _
      | fedBack hr =>
        simp [hr] at hgate
    simp [revises, gates_of_steps hs, hgate, htarget]

theorem processes_le (hr : Run h m) :
    processes m ≤ (consecutiveFailureLimit + 1) * (h.countP revises + 1) := by
  have hconv := Run.conversation hr
  have hasks := hconv.asks_le (by decide)
  have hrevises : (h.filterMap heard).countP Message.revises ≤ h.countP revises := by
    rw [List.countP_filterMap]
    apply List.countP_mono_left
    rintro ⟨pre, i, post⟩ he hrev
    obtain ⟨older, hpre, hpost⟩ := Trace.Run.of_mem hr he
    simp only at hpre hpost
    subst hpost
    apply Move.opens_round (next_move pre i) (Run.placed hpre)
    cases hheard : heard ⟨pre, i, pre.next i⟩ with
    | none => simp [hheard] at hrev
    | some ev =>
      rw [hheard, Option.map_some, Option.getD_some] at hrev
      rw [of_decide_eq_true hrev]
  rw [Run.processes_eq hr]
  apply hasks.trans
  apply Nat.mul_le_mul_left
  omega

end Revises

open Sample in
theorem processes_le_silentOnce :
    processes (run silentOnce).2 = 2 ∧
      (consecutiveFailureLimit + 1) * ((run silentOnce).1.countP revises + 1) = 6 ∧
      processes (run silentOnce).2 ≤
        (consecutiveFailureLimit + 1) * ((run silentOnce).1.countP revises + 1) :=
  ⟨by decide +kernel, by decide +kernel, processes_le (run_run silentOnce)⟩

end Orchestrator

import Orchestrator.Locks
import Orchestrator.OutboxFlag

namespace Orchestrator

open Rust Exec Trace

def Innocent {α : Type} (r : OrchestratorResult α) : Prop := r ≠ .error .requestChangedAbortRetry

def Accepts {α : Type} (x : OrchM α) (s : Orch) : Prop :=
  wp x (fun _ _ => True) (fun f _ => f ≠ .error .requestChangedAbortRetry) s

section Innocent

variable {α β : Type} {r : OrchestratorResult α} {g : α → OrchestratorResult β} {x : OrchM α}
  {f : α → OrchM β} {s : Orch}

theorem innocent_ok (a : α) : Innocent (.ok a) := by simp [Innocent]

theorem Innocent.bind (hr : Innocent r) (hg : ∀ a, Innocent (g a)) : Innocent (r >>= g) := by
  cases r with
  | ok a => exact hg a
  | error e => exact fun h => hr (congrArg Except.error (Except.error.inj h))

theorem innocent_ofIo (r : IoResult α) : Innocent (ofIo r) := by
  cases r <;> simp [Innocent, ofIo]

theorem innocent_error {e : OrchestratorError} (he : e ≠ .requestChangedAbortRetry) :
    Innocent (.error e : OrchestratorResult α) := by
  simpa [Innocent] using he

theorem Accepts.bind (hx : Accepts x s) (hf : ∀ a t, Accepts (f a) t) : Accepts (x >>= f) s := by
  rw [Accepts, wp_bind]
  apply wp_mono hx
  · exact fun a t _ => hf a t
  · exact fun _ _ h => h

theorem accepts_pure (a : α) : Accepts (pure a) s := trivial

theorem accepts_modifyCtx (g : OrchestratorCtx → OrchestratorCtx) :
    Accepts (OrchM.modifyCtx g) s := trivial

theorem accepts_modifyWorld (g : World → World) : Accepts (OrchM.modifyWorld g) s := trivial

theorem accepts_ctx : Accepts OrchM.ctx s := trivial

theorem Innocent.accepts (hr : Innocent r) : Accepts (OrchM.ofResult r) s := by
  rw [Accepts, OrchM.wp_ofResult]
  refine ⟨fun _ _ => trivial, fun e he h => hr ?_⟩
  rw [he, Fault.error.inj h]

theorem accepts_truncateFile (path : String) (opened : IoResult Unit) (len : IoResult Nat) :
    Accepts (truncateFile path opened len) s := by
  apply Accepts.bind (innocent_ofIo opened).accepts
  intro _ _
  apply Accepts.bind (accepts_modifyWorld _)
  intro _ _
  apply Accepts.bind (innocent_ofIo len).accepts
  intro len _
  apply Innocent.accepts
  split
  · exact innocent_error (by simp)
  · exact innocent_ok ()

theorem accepts_resetTransport (inbox outbox : String) (role : AgentRole) (o : ResetObs) :
    Accepts (resetTransport inbox outbox role o) s := by
  apply Accepts.bind (innocent_ofIo o.createDir).accepts
  intro _ _
  apply Accepts.bind (accepts_truncateFile inbox o.openInbox o.inboxLen)
  intro _ _
  cases role with
  | executor => exact accepts_truncateFile outbox o.openOutbox o.outboxLen
  | reviewer => exact accepts_pure ()

theorem sessionIdOf_innocent (ctx : OrchestratorCtx) (role : AgentRole) :
    Innocent (sessionIdOf ctx role) := by
  rw [sessionIdOf]
  cases ctx.sessionId role with
  | none => exact innocent_error (by simp)
  | some id => exact innocent_ok id

theorem innocent_runGit (args : List String) (out : IoResult CommandOutput) :
    Innocent (runGit args out) := by
  cases out with
  | error e => exact innocent_error (by simp)
  | ok out =>
    rw [runGit]
    split
    · exact innocent_ok _
    · exact innocent_error (by simp)

theorem accepts_captureReviewerBaseline (role : AgentRole) (o : DispatchObs) :
    Accepts (captureReviewerBaseline role o) s := by
  cases role with
  | executor => exact accepts_pure none
  | reviewer =>
    apply Accepts.bind (innocent_ofIo _).accepts
    intro mtime _
    apply Accepts.bind accepts_ctx
    intro ctx _
    split
    · apply Accepts.bind (innocent_runGit _ _).accepts
      intro status _
      exact Accepts.bind (accepts_modifyCtx _) fun _ _ => accepts_pure mtime
    · exact accepts_pure mtime

theorem innocent_formatGitFacts (base : Option String) (status head log : IoResult CommandOutput) :
    Innocent (formatGitFacts base status head log) := by
  apply Innocent.bind (innocent_runGit _ status)
  intro _
  apply Innocent.bind (innocent_runGit _ head)
  intro _
  cases base with
  | none => exact innocent_ok _
  | some base => exact Innocent.bind (innocent_runGit _ log) fun _ => innocent_ok _

variable [Crates]

theorem accepts_writeRequest (inbox : String) (template : TemplateId) (values : TemplateValues)
    (written : IoResult Unit) (readBack : IoResult Bytes) :
    Accepts (writeRequest inbox template values written readBack) s := by
  apply Accepts.bind (innocent_ofIo written).accepts
  intro _ _
  apply Accepts.bind (accepts_modifyWorld _)
  intro _ _
  exact Accepts.bind (innocent_ofIo readBack).accepts fun _ _ => accepts_pure _

theorem innocent_readTransportSnapshot (path : String) (role : AgentRole) (provider : ProviderKind)
    (sessionId : String) (o : SnapshotObs) :
    Innocent (readTransportSnapshot path role provider sessionId o) := by
  rw [readTransportSnapshot]
  split
  · exact innocent_error (by simp)
  · exact innocent_ok _
  · split
    · exact innocent_error (by simp)
    · exact innocent_ok _

theorem innocent_acquireSessionLock (holds : String → Bool) (provider : ProviderKind) (id : String)
    (o : LockObs) : Innocent (acquireSessionLock holds provider id o) := by
  have hlocked : ∀ path : String,
      Innocent (do ofIo o.setLen; ofIo o.writePid; return (⟨path⟩ : SessionLock)) := by
    intro path
    apply Innocent.bind (innocent_ofIo o.setLen)
    intro _
    exact Innocent.bind (innocent_ofIo o.writePid) fun _ => innocent_ok _
  apply Innocent.bind
  · cases hbase : o.base with
    | none => exact innocent_error (by simp)
    | some base => exact innocent_ok _
  intro path
  apply Innocent.bind (innocent_ofIo o.createDir)
  intro _
  apply Innocent.bind (innocent_ofIo o.openFile)
  intro _
  split
  · exact innocent_error (by simp)
  · cases o.tryLock with
    | ok _ => exact hlocked path
    | error e =>
      simp only
      split
      · exact Innocent.bind (innocent_error (by simp)) fun _ => hlocked path
      · exact Innocent.bind (innocent_error (by simp)) fun _ => hlocked path

end Innocent

section Dispatch

variable [Crates] {role : AgentRole} {o : DispatchObs} {s t : Orch} {id : String}

structure Requests (ctx : OrchestratorCtx) (o : DispatchObs) (fingerprint : String) (t : Orch) :
    Prop where
  fingerprint : ∃ bytes, o.readBack = .ok bytes ∧ fingerprint = Crates.sha256Hex bytes
  written : ∃ template values older,
    t.world.writes = .request (ctx.transportPath inboxFile) template values :: older

theorem writeRequest_requests (ctx : OrchestratorCtx) (template : TemplateId)
    (values : TemplateValues) (o : DispatchObs) (s : Orch) :
    wp (writeRequest (ctx.transportPath inboxFile) template values o.writeInbox o.readBack)
      (fun fingerprint t => Requests ctx o fingerprint t) (fun _ _ => True) s := by
  simp only [writeRequest, wp_bind, OrchM.wp_ofResult, OrchM.wp_modifyWorld, wp_pure, implies_true,
    and_true]
  intro _ _ bytes hbytes
  refine ⟨⟨bytes, ?_, rfl⟩, template, values, _, rfl⟩
  cases hread : o.readBack with
  | ok read =>
    rw [hread] at hbytes
    exact congrArg Except.ok (Except.ok.inj hbytes)
  | error e =>
    rw [hread] at hbytes
    cases hbytes

theorem prepareDispatch_requests (role : AgentRole) (id : String) (o : DispatchObs) (s : Orch) :
    wp (prepareDispatch role id o) (fun p t => Requests s.ctx o p.fingerprint t)
      (fun _ _ => True) s := by
  simp only [prepareDispatch, wp_bind, OrchM.wp_ctx, OrchM.wp_ofResult, implies_true, and_true]
  intro _ _ status _ head _
  apply wp_mono (wp_self _ _) _ fun _ _ _ => trivial
  intro _ t _
  apply wp_mono (wp_self _ _) _ fun _ _ _ => trivial
  intro mtime u _ facts _
  apply wp_mono (writeRequest_requests s.ctx _ _ o u) _ fun _ _ _ => trivial
  exact fun fingerprint v hv snapshot _ => ⟨hv.fingerprint, hv.written⟩

def Changed (ctx : OrchestratorCtx) (o : DispatchObs) : Prop :=
  ∃ prev bytes, ctx.attempt = some prev ∧ o.inboxBytes = .ok bytes ∧
    Crates.sha256Hex bytes ≠ prev.requestFingerprint

theorem changed_of_verify {ctx : OrchestratorCtx} (h : ¬Innocent (match ctx.attempt with
    | some prev => verifyRequestFingerprint prev.requestFingerprint o.inboxBytes
    | none => .ok ())) : Changed ctx o := by
  cases hattempt : ctx.attempt with
  | none => simp [hattempt, Innocent] at h
  | some prev =>
    cases hbytes : o.inboxBytes with
    | error e => simp [hattempt, hbytes, verifyRequestFingerprint, Innocent] at h
    | ok bytes =>
      refine ⟨prev, bytes, hattempt, hbytes, fun heq => ?_⟩
      simp [hattempt, hbytes, verifyRequestFingerprint, Innocent, heq] at h

theorem prepareDispatch_accepts (h : ¬Changed s.ctx o) : Accepts (prepareDispatch role id o) s := by
  rw [Accepts, prepareDispatch, wp_bind, OrchM.wp_ctx]
  apply Accepts.bind (Innocent.accepts (not_not.mp fun hverify => h (changed_of_verify hverify)))
  intro _ _
  apply Accepts.bind (innocent_runGit _ _).accepts
  intro status _
  apply Accepts.bind (innocent_runGit _ _).accepts
  intro head _
  apply Accepts.bind (accepts_resetTransport _ _ role o.reset)
  intro _ _
  apply Accepts.bind (accepts_captureReviewerBaseline role o)
  intro mtime _
  apply Accepts.bind (innocent_formatGitFacts _ _ _ _).accepts
  intro facts _
  apply Accepts.bind (accepts_writeRequest _ _ _ _ _)
  intro fingerprint _
  apply Accepts.bind (innocent_readTransportSnapshot _ _ _ _ _).accepts
  intro snapshot _
  exact Accepts.bind (accepts_modifyCtx _) fun _ _ => accepts_pure _

theorem prepareDispatch_changed (h : Changed s.ctx o) : wp (prepareDispatch role id o)
    (fun _ _ => False) (fun f _ => f = .error .requestChangedAbortRetry) s := by
  obtain ⟨prev, bytes, hattempt, hbytes, hne⟩ := h
  simp [prepareDispatch, hattempt, hbytes, verifyRequestFingerprint, hne]

def Lockable (role : AgentRole) (ctx : OrchestratorCtx) (o : DispatchObs) : Prop :=
  ∃ id lock, sessionIdOf ctx role = .ok id ∧
    acquireSessionLock ctx.holds (ctx.args.provider role) id o.lock = .ok lock

theorem Changed.of_withLock {lock : Option SessionLock} (h : Changed (s.withLock role lock).ctx o) :
    Changed s.ctx o := by
  obtain ⟨prev, bytes, hattempt, hbytes, hne⟩ := h
  refine ⟨prev, bytes, ?_, hbytes, hne⟩
  cases role <;> exact hattempt

theorem Changed.withLock (h : Changed s.ctx o) (lock : Option SessionLock) :
    Changed (s.withLock role lock).ctx o := by
  obtain ⟨prev, bytes, hattempt, hbytes, hne⟩ := h
  refine ⟨prev, bytes, ?_, hbytes, hne⟩
  cases role <;> exact hattempt

theorem doDispatch_accepts (hspawn : Innocent o.spawn) (h : ¬Changed s.ctx o) :
    Accepts (doDispatch role o) s := by
  apply Accepts.bind _ fun _ _ => accepts_modifyCtx _
  simp only [Accepts, dispatchRole, wp_bind, OrchM.wp_ctx, OrchM.wp_ofResult, OrchM.wp_modifyCtx]
  refine ⟨fun id _ => ⟨fun lock _ => ?_, fun e he hchanged => ?_⟩, fun e he hchanged => ?_⟩
  · have hsame : ¬Changed (s.withLock role (some lock)).ctx o := fun hc => h hc.of_withLock
    apply wp_mono (prepareDispatch_accepts hsame)
    · refine fun p t _ => ⟨fun _ _ => trivial, fun e he hchanged => hspawn ?_⟩
      rw [he, Fault.error.inj hchanged]
    · exact fun _ _ hf => hf
  · apply innocent_acquireSessionLock
    rw [he, Fault.error.inj hchanged]
  · apply sessionIdOf_innocent
    rw [he, Fault.error.inj hchanged]

theorem doDispatch_changed (hlock : Lockable role s.ctx o) (h : Changed s.ctx o) :
    wp (doDispatch role o) (fun _ _ => False) (fun f _ => f = .error .requestChangedAbortRetry)
      s := by
  obtain ⟨id, lock, hid, hlock⟩ := hlock
  simp only [doDispatch, dispatchRole, wp_bind, OrchM.wp_ctx, OrchM.wp_ofResult,
    OrchM.wp_modifyCtx, hid, hlock, reduceCtorEq, Except.ok.injEq, forall_eq', false_implies,
    implies_true, and_true]
  apply wp_mono (prepareDispatch_changed (h.withLock (some lock)))
  · exact fun _ _ hfalse => hfalse.elim
  · exact fun _ _ hf => hf

end Dispatch

def launches (e : Turn) : Bool :=
  dispatches e && decide (e.post.ctx.runState = .executorMonitor ∨
    e.post.ctx.runState = .reviewerMonitor)

def readBack (e : Turn) : Option Bytes :=
  match e.input with
  | .tick _ o => o.dispatch.readBack.toOption
  | .exit _ => none

def requested : History Machine Input → Option Bytes
  | [] => none
  | e :: h => if launches e then readBack e else requested h

def fingerprint (ctx : OrchestratorCtx) : Option String :=
  ctx.attempt.map AttemptStateData.requestFingerprint

structure SameRequest (s t : Orch) : Prop where
  args : t.ctx.args = s.ctx.args
  fingerprint : fingerprint t.ctx = fingerprint s.ctx
  writes : t.world.writes = s.world.writes

/-- The content of a file as the orchestrator's own writes, the newest first, have left it. -/
def contentAt (render : TemplateId → TemplateValues → Bytes) (path : String) :
    List FileWrite → Option Bytes
  | [] => none
  | .truncated p :: older => if p = path then some [] else contentAt render path older
  | .request p template values :: older =>
    if p = path then some (render template values) else contentAt render path older
  | .created p :: older => if p = path then some [] else contentAt render path older
  | .appended p _ :: older => if p = path then none else contentAt render path older

def inboxContent (render : TemplateId → TemplateValues → Bytes) (m : Machine) : Option Bytes :=
  contentAt render (m.ctx.transportPath inboxFile) m.world.writes

/-- A dispatch finds in the inbox what the orchestrator has left there. -/
structure Undisturbed (render : TemplateId → TemplateValues → Bytes) (e : Turn) : Prop where
  found : ∀ c o bytes current, e.input = .tick c o → inboxContent render e.pre = some bytes →
    dispatches e = true → o.dispatch.inboxBytes = .ok current → current = bytes
  readBack : ∀ bytes current, launches e = true → inboxContent render e.post = some bytes →
    readBack e = some current → current = bytes

section SameRequest

variable {s t u v : Orch} {h : History Machine Input} {m m' : Machine} {i : Input} {c : Bool}
  {o : StepObs} {flow : Flow} {role : AgentRole}

theorem SameRequest.refl (s : Orch) : SameRequest s s := ⟨rfl, rfl, rfl⟩

theorem SameRequest.trans (hs : SameRequest s t) (ht : SameRequest t u) : SameRequest s u :=
  ⟨ht.args.trans hs.args, ht.fingerprint.trans hs.fingerprint, ht.writes.trans hs.writes⟩

theorem sameRequest_terminateActiveChild : SameRequest s s.terminateActiveChild := by
  simp only [Orch.terminateActiveChild]
  cases s.ctx.activeProcess <;> exact ⟨rfl, rfl, rfl⟩

theorem sameRequest_pollChild (o : ProbeObs) : SameRequest s (s.pollChild o) := by
  simp only [Orch.pollChild]
  split
  · refine ⟨rfl, ?_, rfl⟩
    simp only [fingerprint, Option.map_map]
    rfl
  · exact .refl s

theorem sameRequest_retryAttempt : SameRequest s (s.mapCtx (retryAttempt role)) := by
  cases role <;> exact ⟨rfl, rfl, rfl⟩

theorem sameRequest_routeResult (allowed outboxPresent : Bool) :
    SameRequest s (s.mapCtx (routeResult role allowed outboxPresent)) := by
  cases allowed <;> cases role <;> exact ⟨rfl, rfl, rfl⟩

theorem sameRequest_terminatingStale : SameRequest s (s.mapCtx terminatingStale) := by
  refine ⟨rfl, ?_, rfl⟩
  simp only [fingerprint, Orch.mapCtx_ctx, terminatingStale, Option.map_map]
  rfl

theorem sameRequest_withoutProcess : SameRequest s (s.mapCtx withoutProcess) := by
  refine ⟨rfl, ?_, rfl⟩
  simp only [fingerprint, Orch.mapCtx_ctx, withoutProcess, Option.map_map]
  rfl

theorem sameRequest_doRoundRetryDecide : SameRequest s (s.mapCtx doRoundRetryDecide) := by
  constructor
  · simp only [Orch.mapCtx_ctx, doRoundRetryDecide]
    split <;> rfl
  · simp only [fingerprint, Orch.mapCtx_ctx, doRoundRetryDecide]
    split <;> simp only [Option.map_map] <;> rfl
  · rfl

theorem sameRequest_route (now : Int) (p : Probe) (state : AttemptState) :
    SameRequest s (route role now p state s).2 := by
  cases state with
  | success | softSuccess => exact sameRequest_routeResult _ _
  | failedServiceCap | failedProviderAccess => cases role <;> exact ⟨rfl, rfl, rfl⟩
  | failedTransport | failedSilent | failedProtocol => exact sameRequest_retryAttempt
  | hangConfirmed =>
    apply sameRequest_terminatingStale.trans
    exact sameRequest_terminateActiveChild.trans sameRequest_retryAttempt
  | finalizing =>
    simp only [route]
    split
    · exact sameRequest_terminateActiveChild.trans sameRequest_withoutProcess
    · exact .refl s
  | cancelled =>
    apply sameRequest_terminateActiveChild.trans
    cases role <;> exact ⟨rfl, rfl, rfl⟩
  | running | waitingOutput | unknown | dispatching | terminatingStale | retryPending
  | retryExhausted => exact .refl s

theorem not_prelude_of_terminal {r : RunState} (h : r.isTerminal = true) : r.prelude = false := by
  cases r <;> simp [RunState.isTerminal, RunState.prelude] at h ⊢

variable {render : TemplateId → TemplateValues → Bytes}

theorem inboxContent_of_sameRequest (hs : SameRequest m.toOrch m'.toOrch) :
    inboxContent render m' = inboxContent render m := by
  simp only [inboxContent, OrchestratorCtx.transportPath, hs.args, hs.writes]

variable [Crates]

theorem Probed.sameRequest {o : ProbeObs} (hp : Probed role o s flow t) : SameRequest s t := by
  cases hp with
  | aborted _ =>
    have habort : SameRequest s { s with ctx := { s.ctx with runState := .runAborted } } :=
      ⟨rfl, rfl, rfl⟩
    exact habort.trans sameRequest_terminateActiveChild
  | @routed p state v hc =>
    apply SameRequest.trans _ (sameRequest_route o.now p state)
    apply (sameRequest_pollChild o).trans
    obtain ⟨a, ha, hp, -, -⟩ := hc.attempt
    obtain ⟨w, rfl⟩ := hc.after
    refine ⟨rfl, ?_, rfl⟩
    simp only [fingerprint, ha, hp, Option.map_some]
    cases role <;> rfl

theorem Stepped.sameRequest (hst : Stepped o s flow t) (hd : ∀ r, s.ctx.runState ≠ .dispatch r)
    (hp : s.ctx.runState ≠ .contextPrep) : SameRequest s t := by
  cases hst with
  | prepared hr _ _ => exact absurd hr hp
  | dispatched hr _ => exact absurd hr (hd _)
  | probed _ hprobed => exact hprobed.sameRequest
  | bound _ _ | verified _ | fedBack _ => exact ⟨rfl, rfl, rfl⟩
  | retried _ => exact sameRequest_doRoundRetryDecide
  | surveyed _ hs =>
    obtain ⟨_, _, _, _, rfl⟩ := hs
    exact ⟨rfl, rfl, rfl⟩
  | collected _ hc =>
    cases hc with
    | unchanged _ | unreadable _ _ _ | rejected _ _ _ _ => exact ⟨rfl, rfl, rfl⟩
    | dirty _ hj _ _ | clean _ hj _ _ => cases hj <;> exact ⟨rfl, rfl, rfl⟩
  | gated _ =>
    simp only [Orch.mapCtx, doQualityGate]
    split
    · exact ⟨rfl, rfl, rfl⟩
    · split <;> exact ⟨rfl, rfl, rfl⟩
  | skipped _ => exact .refl s

theorem Interrupted.writes (hi : Interrupted o s t) (hd : ∀ r, s.ctx.runState ≠ .dispatch r)
    (hp : s.ctx.runState.prelude = false) : t.world.writes = s.world.writes := by
  cases hi with
  | preparing hr _ _ => obtain hr | hr := hr <;> simp [hr, RunState.prelude] at hp
  | dispatching hr _ => exact absurd hr (hd _)
  | probing _ hu =>
    obtain ⟨_, _, _, rfl⟩ := hu
    exact (sameRequest_pollChild o.probe).writes
  | surveying _ hs =>
    obtain ⟨_, _, _, _, rfl⟩ := hs
    rfl
  | collecting _ hc =>
    cases hc with
    | unread => rfl
    | judged _ hj => cases hj <;> rfl

theorem Move.writes (hmove : Move m i m') (hm : m.Placed) (hd : dispatches ⟨m, i, m'⟩ = false)
    (hp : m.ctx.runState.prelude = false) : m'.world.writes = m.world.writes := by
  have hsteps : ∀ {c o}, i = .tick c o → m.Steps c → ∀ r, m.ctx.runState ≠ .dispatch r := by
    rintro c o rfl hs r hr
    cases r <;> simp [dispatches, takesStep, hs, hr, RunState.dispatch] at hd
  cases hmove with
  | exit | idle _ | cancelled _ _ => rfl
  | admitted hpc _ | rejected hpc _ => simp [hm.start hpc, RunState.prelude] at hp
  | stepped hs hst =>
    refine (hst.sameRequest (hsteps rfl hs) ?_).writes
    intro hprep
    simp [hprep, RunState.prelude] at hp
  | failed hs hi => exact hi.writes (hsteps rfl hs) hp
  | panicked hpanic =>
    obtain ⟨hpc, -⟩ | ⟨hs, hi⟩ := hpanic
    · simp [hm.start hpc, RunState.prelude] at hp
    · exact hi.writes (hsteps rfl hs) hp

structure LeavesRequest (role : AgentRole) (o : DispatchObs) (s t : Orch) : Prop where
  runState : t.ctx.runState = .monitor role
  args : t.ctx.args = s.ctx.args
  fingerprint : ∃ bytes, o.readBack = .ok bytes ∧
    fingerprint t.ctx = some (Crates.sha256Hex bytes)
  written : ∃ template values older,
    t.world.writes = .request (s.ctx.transportPath inboxFile) template values :: older

theorem doDispatch_leavesRequest (role : AgentRole) (o : DispatchObs) (s : Orch) :
    wp (doDispatch role o) (fun _ t => LeavesRequest role o s t) (fun _ _ => True) s := by
  simp only [doDispatch, dispatchRole, wp_bind, OrchM.wp_ctx, OrchM.wp_ofResult, OrchM.wp_modifyCtx,
    wp_modify, implies_true, and_true]
  intro id _ lock _
  have hframe := prepareDispatch_frame role id o (s.withLock role (some lock))
  have hrequests := prepareDispatch_requests role id o (s.withLock role (some lock))
  apply wp_mono (wp_and hframe hrequests) _ fun _ _ _ => trivial
  rintro p t ⟨hprepares, hleft⟩ pid _
  obtain ⟨baseline, inbox, hctx⟩ := hprepares.ctx
  obtain ⟨bytes, hread, hfingerprint⟩ := hleft.fingerprint
  refine ⟨rfl, ?_, ⟨bytes, hread, ?_⟩, ?_⟩
  · simp only [withState, launch, hctx]
    cases role <;> rfl
  · rw [← hfingerprint]
    rfl
  · obtain ⟨template, values, older, hwrites⟩ := hleft.written
    refine ⟨template, values, older, ?_⟩
    rw [show (s.ctx.transportPath inboxFile) =
      (s.withLock role (some lock)).ctx.transportPath inboxFile by cases role <;> rfl]
    exact hwrites

theorem Stepped.prelude (hst : Stepped o s flow t) (hp : t.ctx.runState.prelude = true) :
    s.ctx.runState.prelude = true := by
  cases hst with
  | prepared hr _ _ | bound hr _ => simp [hr, RunState.prelude]
  | @dispatched role _ _ _ =>
    cases role <;> simp [withState, RunState.monitor, RunState.prelude] at hp
  | @probed role _ _ hr hprobed =>
    obtain ⟨-, ⟨-, ht⟩ | ⟨-, ht | ht⟩⟩ | ⟨-, -, ht⟩ := hprobed.outcome.target
    · rwa [← ht]
    · cases role <;> simp [ht, RunState.outputCollect, RunState.prelude] at hp
    · simp [not_prelude_of_terminal ht] at hp
    · simp [ht, RunState.prelude] at hp
  | retried _ =>
    simp only [Orch.mapCtx_ctx, doRoundRetryDecide] at hp
    split at hp
    · simp [RunState.prelude] at hp
    · cases hrole : s.ctx.currentRole.getD .executor <;> simp [hrole, RunState.prelude] at hp
  | surveyed _ _ | verified _ | fedBack _ =>
    simp [withState, doOrchVerify, doRoundFeedbackPrep, RunState.prelude] at hp
  | collected _ hc =>
    obtain ⟨-, ⟨-, ht⟩ | ⟨-, ht, -⟩⟩ := hc.target
    · simp [ht, RunState.prelude] at hp
    · simp [ht, RunState.prelude] at hp
  | gated _ =>
    simp only [Orch.mapCtx_ctx, doQualityGate] at hp
    split at hp
    · simp [RunState.prelude] at hp
    · split at hp <;> simp [RunState.prelude] at hp
  | skipped _ => exact hp

theorem Move.prelude (hmove : Move m i m') (hm : m.Placed)
    (hp : m'.ctx.runState.prelude = true) : m.ctx.runState.prelude = true := by
  cases hmove with
  | exit | idle _ => exact hp
  | admitted hpc _ | rejected hpc _ => simp [hm.start hpc, RunState.prelude]
  | cancelled _ _ => simp [withState, RunState.prelude] at hp
  | stepped _ hst => exact hst.prelude hp
  | @failed c o s e _ _ =>
    simp [not_prelude_of_terminal (Machine.fail_terminal e s.ctx)] at hp
  | panicked hpanic =>
    obtain ⟨hpc, -⟩ | ⟨-, hi⟩ := hpanic
    · simp [hm.start hpc, RunState.prelude]
    · rwa [hi.kept.runState] at hp

theorem launches_leavesRequest (hl : launches ⟨m, i, m.next i⟩ = true) :
    ∃ c o role, i = .tick c o ∧ m.ctx.runState = .dispatch role ∧
      LeavesRequest role o.dispatch m.toOrch (m.next i).toOrch := by
  simp only [launches, dispatches, Bool.and_eq_true, decide_eq_true_eq] at hl
  obtain ⟨⟨hsteps, hstate⟩, hmonitor⟩ := hl
  cases i with
  | exit child => simp [takesStep] at hsteps
  | tick c o =>
    have hs : m.Steps c := by simpa [takesStep] using hsteps
    obtain ⟨role, hr⟩ : ∃ role, m.ctx.runState = .dispatch role := by
      obtain hr | hr := hstate
      · exact ⟨.executor, hr⟩
      · exact ⟨.reviewer, hr⟩
    refine ⟨c, o, role, rfl, hr, ?_⟩
    have hstep : wp (step o) (fun _ t => LeavesRequest role o.dispatch m.toOrch t)
        (fun _ t => Interrupted o m.toOrch t) m.toOrch := by
      apply wp_mono (wp_and (step_spec o m.toOrch) _) (fun _ _ h => h.2) (fun _ _ h => h.1)
      · exact fun _ _ => True
      · rw [wp, step_dispatch hr, ← wp, wp_map]
        exact doDispatch_leavesRequest role o.dispatch m.toOrch
    obtain ⟨_, hleaves⟩ | ⟨e, t, -, hnext⟩ | ⟨t, hi, hnext⟩ := next_of_wp hs hstep
    · exact hleaves
    · have hterminal := Machine.fail_terminal e t.ctx
      rw [hnext] at hmonitor
      obtain hmonitor | hmonitor := hmonitor
      · rw [show (Machine.fail e t.ctx).runState = _ from hmonitor] at hterminal
        cases hterminal
      · rw [show (Machine.fail e t.ctx).runState = _ from hmonitor] at hterminal
        cases hterminal
    · rw [hnext] at hmonitor
      have hkept := hi.kept.runState
      rw [hr] at hkept
      obtain hmonitor | hmonitor := hmonitor
      · exact absurd (hkept.symm.trans hmonitor) (dispatch_ne_monitor role .executor)
      · exact absurd (hkept.symm.trans hmonitor) (dispatch_ne_monitor role .reviewer)

structure Traced (h : History Machine Input) (m : Machine) : Prop where
  fingerprint : m.Active → fingerprint m.ctx = (requested h).map Crates.sha256Hex
  prelude : m.ctx.runState.prelude = true → requested h = none

theorem Stepped.launches (hst : Stepped o m.toOrch flow t) (hs : m.Steps c) {pc : Pc}
    (hr : m.ctx.runState = .dispatch role) : launches ⟨m, .tick c o, ⟨t, pc⟩⟩ = true := by
  obtain ⟨r, hr', -⟩ | ⟨r, u, -, -, rfl⟩ | ⟨-, hother⟩ := hst.kind
  · exact absurd (hr.symm.trans hr') (dispatch_ne_monitor role r)
  · cases role <;> cases r <;>
      simp [Orchestrator.launches, dispatches, takesStep, hs, hr, RunState.dispatch, withState,
        RunState.monitor]
  · exact absurd hr (hother role)

theorem ActiveMove.sameRequest (hmove : ActiveMove m i m') (hm : m.Placed)
    (hl : launches ⟨m, i, m'⟩ = false) (hp : m.ctx.runState.prelude = false) :
    m.Active ∧ SameRequest m.toOrch m'.toOrch := by
  cases hmove with
  | exit hactive => exact ⟨hactive, rfl, rfl, rfl⟩
  | admitted hpc _ => simp [hm.start hpc, RunState.prelude] at hp
  | stepped hs hst =>
    refine ⟨hs.active hm, hst.sameRequest (fun r hr => ?_) fun hprep => ?_⟩
    · simp [hst.launches hs hr] at hl
    · simp [hprep, RunState.prelude] at hp

theorem ActiveMove.fingerprint (hmove : ActiveMove m i m') (hm : m.Placed)
    (hp : m.ctx.runState.prelude = true) :
    m.Active ∧ Orchestrator.fingerprint m'.ctx = Orchestrator.fingerprint m.ctx := by
  cases hmove with
  | exit hactive => exact ⟨hactive, rfl⟩
  | admitted hpc hs =>
    obtain ⟨root, rfl⟩ := hs
    refine ⟨⟨by simp [hpc], ?_⟩, rfl⟩
    rw [hm.start hpc]
    rfl
  | stepped hs hst =>
    refine ⟨hs.active hm, ?_⟩
    cases hst with
    | prepared _ hc _ => rw [Orchestrator.fingerprint, hc]; rfl
    | bound _ _ | skipped _ => rfl
    | @dispatched role _ hr _ => cases role <;> simp [hr, RunState.dispatch, RunState.prelude] at hp
    | @probed role _ _ hr _ => cases role <;> simp [hr, RunState.monitor, RunState.prelude] at hp
    | retried hr | surveyed hr _ | verified hr | collected hr _ | gated hr | fedBack hr =>
      simp [hr, RunState.prelude] at hp

theorem Run.traced (hr : Run h m) : Traced h m := by
  apply Trace.Run.invariant (P := Traced) hr
  · rintro _ ⟨args, rfl⟩
    exact ⟨fun _ => rfl, fun _ => rfl⟩
  · intro h m i hr hinv
    have hm := Run.placed hr
    cases hl : launches ⟨m, i, m.next i⟩ with
    | true =>
      obtain ⟨c, o, role, rfl, -, hleaves⟩ := launches_leavesRequest hl
      obtain ⟨bytes, hread, hfingerprint⟩ := hleaves.fingerprint
      constructor
      · intro _
        simp [requested, hl, readBack, hread, hfingerprint, Except.toOption]
      · intro hp
        cases role <;> simp [hleaves.runState, RunState.monitor, RunState.prelude] at hp
    | false =>
      constructor
      · intro ha
        have hactive := (next_move m i).active ha
        simp only [requested, hl, Bool.false_eq_true, if_false]
        cases hp : m.ctx.runState.prelude with
        | true =>
          obtain ⟨hm', hsame⟩ := hactive.fingerprint hm hp
          rw [hsame, hinv.fingerprint hm']
        | false =>
          obtain ⟨hm', hsame⟩ := hactive.sameRequest hm hl hp
          rw [hsame.fingerprint, hinv.fingerprint hm']
      · intro hp
        simp only [requested, hl, Bool.false_eq_true, if_false]
        exact hinv.prelude ((next_move m i).prelude hm hp)

def Rejects (o : StepObs) (m : Machine) : Prop :=
  ∃ t, step o m.toOrch = .error (.error .requestChangedAbortRetry) t

theorem changed_of_rejects (hd : m.ctx.runState = .dispatch role)
    (hspawn : Innocent o.dispatch.spawn) (h : Rejects o m) : Changed m.ctx o.dispatch := by
  obtain ⟨t, ht⟩ := h
  by_contra hsame
  have haccepts : Accepts (doDispatch role o.dispatch) m.toOrch :=
    doDispatch_accepts hspawn hsame
  have hstep : wp (step o) (fun _ _ => True)
      (fun f _ => f ≠ .error .requestChangedAbortRetry) m.toOrch := by
    rw [wp, step_dispatch hd, ← wp, wp_map]
    exact haccepts
  exact wp_of_error hstep ht rfl

theorem rejects_of_changed (hd : m.ctx.runState = .dispatch role)
    (hlock : Lockable role m.ctx o.dispatch) (h : Changed m.ctx o.dispatch) : Rejects o m := by
  have hstep : wp (step o) (fun _ _ => False)
      (fun f _ => f = .error .requestChangedAbortRetry) m.toOrch := by
    rw [wp, step_dispatch hd, ← wp, wp_map]
    exact doDispatch_changed hlock h
  cases hres : step o m.toOrch with
  | ok flow t => exact (wp_of_ok hstep hres).elim
  | error f t =>
    obtain rfl := wp_of_error hstep hres
    exact ⟨t, hres⟩

theorem changed_iff (hr : Run h m) (ha : m.Active) {bytes current : Bytes}
    (hreq : requested h = some bytes) (hcur : o.dispatch.inboxBytes = .ok current) :
    Changed m.ctx o.dispatch ↔ Crates.sha256Hex current ≠ Crates.sha256Hex bytes := by
  have hfingerprint := (Run.traced hr).fingerprint ha
  rw [hreq] at hfingerprint
  obtain ⟨prev, hprev, hsha⟩ := Option.map_eq_some_iff.mp hfingerprint
  constructor
  · rintro ⟨a, bs, ha, hbs, hne⟩
    rw [hprev, Option.some.injEq] at ha
    rw [hcur, Except.ok.injEq] at hbs
    subst ha hbs
    rwa [← hsha]
  · intro hne
    exact ⟨prev, current, hprev, hcur, by rwa [hsha]⟩

theorem LeavesRequest.content {o : DispatchObs} (hl : LeavesRequest role o m.toOrch m'.toOrch) :
    ∃ bytes, inboxContent render m' = some bytes := by
  obtain ⟨template, values, older, hwrites⟩ := hl.written
  refine ⟨render template values, ?_⟩
  simp only [inboxContent, hwrites, contentAt, OrchestratorCtx.transportPath, hl.args, if_pos]

theorem Run.content (hr : Run h m) (hu : ∀ e ∈ h, Undisturbed render e) (ha : m.Active)
    {bytes : Bytes} (hreq : requested h = some bytes) : inboxContent render m = some bytes := by
  revert hu ha bytes
  apply Trace.Run.invariant (P := fun h m => (∀ e ∈ h, Undisturbed render e) → m.Active →
    ∀ {bytes}, requested h = some bytes → inboxContent render m = some bytes) hr
  · rintro _ ⟨args, rfl⟩ _ _ bytes hreq
    cases hreq
  · intro h m i hr hinv hu ha bytes hreq
    have hm := Run.placed hr
    cases hl : launches ⟨m, i, m.next i⟩ with
    | true =>
      obtain ⟨c, o, role, rfl, -, hleaves⟩ := launches_leavesRequest hl
      obtain ⟨content, hcontent⟩ : ∃ bytes, inboxContent render _ = some bytes := hleaves.content
      simp only [requested, hl, if_true] at hreq
      rw [hcontent, (hu _ List.mem_cons_self).readBack content bytes hl hcontent hreq]
    | false =>
      simp only [requested, hl, Bool.false_eq_true, if_false] at hreq
      cases hp : m.ctx.runState.prelude with
      | true =>
        rw [(Run.traced hr).prelude hp] at hreq
        cases hreq
      | false =>
        obtain ⟨hm', hsame⟩ := ((next_move m i).active ha).sameRequest hm hl hp
        rw [inboxContent_of_sameRequest hsame]
        exact hinv (fun e he => hu e (List.mem_cons_of_mem _ he)) hm' hreq

theorem rejects_iff (hr : Run h m) (hs : m.Steps c) (hd : m.ctx.runState = .dispatch role)
    {bytes current : Bytes} (hreq : requested h = some bytes)
    (hlock : Lockable role m.ctx o.dispatch) (hcur : o.dispatch.inboxBytes = .ok current)
    (hspawn : Innocent o.dispatch.spawn)
    (hsha : Crates.sha256Hex current = Crates.sha256Hex bytes → current = bytes) :
    Rejects o m ↔ current ≠ bytes := by
  have hchanged := changed_iff hr (hs.active (Run.placed hr)) hreq hcur
  constructor
  · intro hrejects heq
    exact hchanged.mp (changed_of_rejects hd hspawn hrejects) (congrArg _ heq)
  · intro hne
    exact rejects_of_changed hd hlock (hchanged.mpr fun heq => hne (hsha heq))

theorem not_rejects (hr : Run h m) (hs : m.Steps c) (hd : m.ctx.runState = .dispatch role)
    (hspawn : Innocent o.dispatch.spawn) (hu : ∀ e ∈ h, Undisturbed render e)
    (hnow : Undisturbed render ⟨m, .tick c o, m.next (.tick c o)⟩) : ¬Rejects o m := by
  intro hrejects
  have ha := hs.active (Run.placed hr)
  obtain ⟨prev, current, hprev, hcur, hne⟩ := changed_of_rejects hd hspawn hrejects
  have hfingerprint := (Run.traced hr).fingerprint ha
  simp only [fingerprint, hprev, Option.map_some] at hfingerprint
  obtain ⟨bytes, hreq, hsha⟩ := Option.map_eq_some_iff.mp hfingerprint.symm
  have hdispatches : dispatches ⟨m, .tick c o, m.next (.tick c o)⟩ = true := by
    cases role <;> simp [dispatches, takesStep, hs, hd, RunState.dispatch]
  have hsame := hnow.found c o bytes current rfl (Run.content hr hu ha hreq) hdispatches hcur
  exact hne (by rw [hsame, hsha])

theorem writes_kept (hr : Run h m) {newer older : History Machine Input} {e : Turn}
    (hh : h = newer ++ e :: older) (hreq : (requested older).isSome = true)
    (hd : dispatches e = false) : e.post.world.writes = e.pre.world.writes := by
  subst hh
  obtain ⟨hpre, hpost⟩ := hr.of_append
  have hmove := next_move e.pre e.input
  rw [← hpost] at hmove
  have hp : e.pre.ctx.runState.prelude = false := by
    rw [Bool.eq_false_iff]
    intro hp
    simp [(Run.traced hpre).prelude hp] at hreq
  exact hmove.writes (Run.placed hpre) hd hp

/-- A request is rejected exactly when it is no longer the one that was read back. -/
theorem retry_integrity (hr : Run h m) :
    (∀ c o role bytes current, m.Steps c → m.ctx.runState = .dispatch role →
      requested h = some bytes → Lockable role m.ctx o.dispatch →
      o.dispatch.inboxBytes = .ok current → Innocent o.dispatch.spawn →
      (Crates.sha256Hex current = Crates.sha256Hex bytes → current = bytes) →
        (Rejects o m ↔ current ≠ bytes)) ∧
    (∀ newer e older, h = newer ++ e :: older → (requested older).isSome = true →
      dispatches e = false → e.post.world.writes = e.pre.world.writes) ∧
    ∀ render c o role, (∀ e ∈ h, Undisturbed render e) → m.Steps c →
      m.ctx.runState = .dispatch role → Innocent o.dispatch.spawn →
      Undisturbed render ⟨m, .tick c o, m.next (.tick c o)⟩ → ¬Rejects o m := by
  refine ⟨?_, ?_, ?_⟩
  · exact fun c o role bytes current hs hd hreq hlock hcur hspawn hsha =>
      rejects_iff hr hs hd hreq hlock hcur hspawn hsha
  · exact fun newer e older hh hreq hd => writes_kept hr hh hreq hd
  · exact fun render c o role hu hs hd hspawn hnow => not_rejects hr hs hd hspawn hu hnow

end SameRequest

namespace Sample

def reread (bytes : Bytes) : List Input :=
  silentOnce.take 3 ++ [
    .tick false { obsAt 0 with dispatch := { dispatchAt 0 with readBack := .ok bytes } },
    .exit 0,
    .tick false { obsAt 5 with probe := { probeAt 5 with tryWait := some (some 1) } },
    .tick false (obsAt 6)]

def foundAt (bytes : Bytes) : StepObs :=
  { obsAt 6 with dispatch := { dispatchAt 6 with inboxBytes := .ok bytes } }

deriving instance DecidableEq for TemplateValues

def lastRequest (m : Machine) : Option (TemplateId × TemplateValues) :=
  match m.world.writes with
  | .request path template values :: _ =>
    if path = m.ctx.transportPath inboxFile then some (template, values) else none
  | _ => none

theorem inboxContent_of_lastRequest {m : Machine} {template : TemplateId}
    {values : TemplateValues} (h : lastRequest m = some (template, values))
    (render : TemplateId → TemplateValues → Bytes) :
    inboxContent render m = some (render template values) := by
  revert h
  simp only [lastRequest, inboxContent]
  split
  · rename_i path template' values' older hwrites
    split
    · rename_i hpath
      rintro ⟨⟩
      simp [hwrites, contentAt, hpath]
    · simp
  · simp

def lockable (role : AgentRole) (ctx : OrchestratorCtx) (o : DispatchObs) : Bool :=
  match sessionIdOf ctx role with
  | .ok id =>
    (acquireSessionLock ctx.holds (ctx.args.provider role) id o.lock).toOption.isSome
  | .error _ => false

theorem lockable_of_test {role : AgentRole} {ctx : OrchestratorCtx} {o : DispatchObs}
    (h : lockable role ctx o = true) : Lockable role ctx o := by
  revert h
  simp only [lockable]
  split
  · rename_i id hid
    cases hlock : acquireSessionLock ctx.holds (ctx.args.provider role) id o.lock with
    | ok lock => exact fun _ => ⟨id, lock, hid, hlock⟩
    | error e => simp [Except.toOption]
  · simp

def retrying (bytes : Bytes) : Bool :=
  let r := run (reread bytes)
  decide (r.2.Steps false) && decide (r.2.ctx.runState = .dispatch .executor) &&
    decide (requested r.1 = some bytes) && lockable .executor r.2.ctx (foundAt bytes).dispatch

theorem accepts_reread {bytes : Bytes} (h : retrying bytes = true) :
    (run (reread bytes)).2.Steps false ∧
      (run (reread bytes)).2.ctx.runState = .dispatch .executor ∧
      Lockable .executor (run (reread bytes)).2.ctx (foundAt bytes).dispatch ∧
      ¬Rejects (foundAt bytes) (run (reread bytes)).2 := by
  simp only [retrying, Bool.and_eq_true, decide_eq_true_eq] at h
  obtain ⟨⟨⟨hsteps, hstate⟩, hreq⟩, hlock⟩ := h
  refine ⟨hsteps, hstate, lockable_of_test hlock, fun hrejects => ?_⟩
  exact (rejects_iff (run_run (reread bytes)) hsteps hstate hreq (lockable_of_test hlock) rfl
    (innocent_ok 4242) fun _ => rfl).mp hrejects rfl

end Sample

open Sample in
/-- What somebody else writes before the request is read back goes unnoticed, however the requests
are rendered. -/
theorem foreign_request_accepted :
    ¬∃ render, ∀ is o written current, Run (run is).1 (run is).2 → (run is).2.Steps false →
      (run is).2.ctx.runState = .dispatch .executor →
      inboxContent render (run is).2 = some written →
      Lockable .executor (run is).2.ctx o.dispatch → o.dispatch.inboxBytes = .ok current →
        (Rejects o (run is).2 ↔ current ≠ written) := by
  rintro ⟨render, hclaim⟩
  have hfirst : retrying (asBytes "request") = true ∧ retrying [] = true ∧
      (lastRequest (run (reread (asBytes "request"))).2).isSome = true ∧
      lastRequest (run (reread (asBytes "request"))).2 = lastRequest (run (reread [])).2 := by
    decide +kernel
  obtain ⟨hrequest, hempty, hsome, hsame⟩ := hfirst
  obtain ⟨⟨template, values⟩, hlast⟩ := Option.isSome_iff_exists.mp hsome
  by_cases heq : render template values = []
  · obtain ⟨hsteps, hstate, hlock, haccepts⟩ := accepts_reread hrequest
    have hne : asBytes "request" ≠ render template values := by
      rw [heq]
      decide
    exact haccepts ((hclaim _ _ _ _ (run_run _) hsteps hstate
      (inboxContent_of_lastRequest hlast render) hlock rfl).mpr hne)
  · obtain ⟨hsteps, hstate, hlock, haccepts⟩ := accepts_reread hempty
    exact haccepts ((hclaim _ _ _ _ (run_run _) hsteps hstate
      (inboxContent_of_lastRequest (hsame.symm.trans hlast) render) hlock rfl).mpr (Ne.symm heq))

open Sample in
theorem retry_integrity_reread :
    Rejects (foundAt (asBytes "tampered")) (run (reread (asBytes "request"))).2 := by
  have hrun : (run (reread (asBytes "request"))).2.Steps false ∧
      (run (reread (asBytes "request"))).2.ctx.runState = .dispatch .executor ∧
      requested (run (reread (asBytes "request"))).1 = some (asBytes "request") ∧
      lockable .executor (run (reread (asBytes "request"))).2.ctx
        (foundAt (asBytes "tampered")).dispatch = true := by decide +kernel
  obtain ⟨hsteps, hstate, hreq, hlock⟩ := hrun
  exact ((retry_integrity (run_run _)).1 _ _ _ _ _ hsteps hstate hreq (lockable_of_test hlock)
    rfl (innocent_ok 4242) (by decide +kernel)).mpr (by decide +kernel)

end Orchestrator

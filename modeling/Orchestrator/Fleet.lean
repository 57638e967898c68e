import Orchestrator.Lib.Pool
import Orchestrator.Locks

/-! Orchestrators side by side on one host. -/

namespace Orchestrator

open Rust Exec Trace

theorem holds_iff {ctx : OrchestratorCtx} {path : String} :
    ctx.holds path = true ↔ ∃ r, ctx.lock r = some ⟨path⟩ := by
  simp only [OrchestratorCtx.holds, decide_eq_true_eq]
  constructor
  · rintro (h | h)
    · exact ⟨.executor, h⟩
    · exact ⟨.reviewer, h⟩
  · rintro ⟨r, h⟩
    cases r with
    | executor => exact .inl h
    | reviewer => exact .inr h

theorem lock_of_setLock {ctx : OrchestratorCtx} {role r : AgentRole} {x : Option SessionLock}
    {l : SessionLock} (h : (ctx.setLock role x).lock r = some l) :
    x = some l ∧ r = role ∨ ctx.lock r = some l := by
  rw [OrchestratorCtx.lock_setLock] at h
  split at h
  · exact .inl ⟨h, ‹_›⟩
  · exact .inr h

theorem lock_of_release (role : AgentRole) {ctx : OrchestratorCtx} {r : AgentRole}
    {l : SessionLock} (h : (releaseLock role ctx).lock r = some l) : ctx.lock r = some l := by
  obtain ⟨h, -⟩ | h := lock_of_setLock h
  · cases h
  · exact h

theorem SameRound.sessionId {c d : OrchestratorCtx} (h : SameRound c d) (role : AgentRole) :
    d.sessionId role = c.sessionId role := by
  cases role with
  | executor => exact h.executorSessionId
  | reviewer => exact h.reviewerSessionId

section Processes

variable [Crates]

theorem acquireSessionLock_ok {holds : String → Bool} {p : ProviderKind} {id : String}
    {o : LockObs} {l : SessionLock} (h : acquireSessionLock holds p id o = .ok l) :
    lockFilePath o.base p id = .ok l.path ∧ o.heldElsewhere = false := by
  obtain ⟨path, hpath, h⟩ := except_bind_eq_ok.mp h
  obtain ⟨_, -, h⟩ := except_bind_eq_ok.mp h
  obtain ⟨_, -, h⟩ := except_bind_eq_ok.mp h
  rw [ite_error_eq_ok, Bool.or_eq_true, not_or, Bool.not_eq_true, Bool.not_eq_true] at h
  obtain ⟨⟨-, hfree⟩, h⟩ := h
  refine ⟨?_, hfree⟩
  cases hlock : o.tryLock with
  | error e =>
    rw [hlock] at h
    simp only at h
    split at h <;> cases h
  | ok _ =>
    rw [hlock] at h
    obtain ⟨_, -, h⟩ := except_bind_eq_ok.mp h
    obtain ⟨_, -, h⟩ := except_bind_eq_ok.mp h
    cases h
    exact hpath

structure Takes (role : AgentRole) (o : DispatchObs) (s : Orch) (l : SessionLock) : Prop where
  state : s.ctx.runState = .dispatch role
  session : ∃ id, s.ctx.sessionId role = some id ∧
    lockFilePath o.lock.base (s.ctx.args.provider role) id = .ok l.path
  free : o.lock.heldElsewhere = false

theorem takes_of_acquire {role : AgentRole} {o : DispatchObs} {s : Orch} {id : String}
    {l : SessionLock} (hr : s.ctx.runState = .dispatch role)
    (hid : sessionIdOf s.ctx role = .ok id)
    (hl : acquireSessionLock s.ctx.holds (s.ctx.args.provider role) id o.lock = .ok l) :
    Takes role o s l := by
  obtain ⟨hpath, hfree⟩ := acquireSessionLock_ok hl
  refine ⟨hr, ⟨id, ?_, hpath⟩, hfree⟩
  simp only [sessionIdOf] at hid
  split at hid
  · cases hid
    assumption
  · cases hid

section Steps

variable {role r : AgentRole} {o : StepObs} {s t : Orch} {flow : Flow} {l : SessionLock}

theorem Classified.lock {o : ProbeObs} {p : Probe} {state : AttemptState}
    (h : Classified role o s p state t) : t.ctx.lock r = s.ctx.lock r := by
  obtain ⟨warnings, hc⟩ := h.ctx
  rw [hc]
  cases r <;> rfl

theorem Outcome.lock {o : ProbeObs} (h : Outcome role o s flow t) (hl : t.ctx.lock r = some l) :
    s.ctx.lock r = some l := by
  cases h with
  | aborted =>
    rw [Orch.abort, Orch.terminateActiveChild_ctx] at hl
    cases r <;> exact hl
  | watched h => rwa [← h.lock]
  | stopped h _ =>
    rw [Orch.mapCtx_ctx, Orch.terminateActiveChild_ctx] at hl
    rw [← h.lock]
    cases r <;> exact hl
  | @finished _ _ v allowed h _ _ =>
    rw [← h.lock]
    cases allowed with
    | false => cases r <;> exact hl
    | true =>
      have hlock := lock_of_release role hl
      cases r <;> exact hlock
  | capped h _ _ | failed h _ =>
    rw [← h.lock]
    apply lock_of_release role
    cases r <;> exact hl
  | hung h =>
    rw [Orch.mapCtx_ctx, Orch.terminateActiveChild_ctx] at hl
    rw [← h.lock]
    have hlock := lock_of_release role hl
    cases r <;> exact hlock
  | cancelled h =>
    rw [Orch.mapCtx_ctx, Orch.terminateActiveChild_ctx] at hl
    rw [← h.lock]
    apply lock_of_release role
    cases r <;> exact hl

theorem Takes.of_prepares {o : DispatchObs} {id : String} {c : OrchestratorCtx} {l' : SessionLock}
    (hr : s.ctx.runState = .dispatch role) (hid : sessionIdOf s.ctx role = .ok id)
    (hacquire : acquireSessionLock s.ctx.holds (s.ctx.args.provider role) id o.lock = .ok l')
    (hp : Prepares role c (s.withLock role (some l')) t) (hl : t.ctx.lock r = some l) :
    s.ctx.lock r = some l ∨ Takes role o s l := by
  rw [hp.lock] at hl
  obtain ⟨h, -⟩ | h := lock_of_setLock hl
  · cases h
    exact .inr (takes_of_acquire hr hid hacquire)
  · exact .inl h

theorem Stepped.lock (h : Stepped o s flow t) (hl : t.ctx.lock r = some l) :
    s.ctx.lock r = some l ∨ ∃ role, Takes role o.dispatch s l := by
  cases h with
  | prepared _ hc _ =>
    rw [hc] at hl
    exact .inl (by cases r <;> exact hl)
  | @dispatched role u hr hd =>
    cases hd with
    | launched hid hacquire hp _ _ =>
      have hu : OrchestratorCtx.lock _ r = some l := (by cases r <;> exact hl)
      obtain h | h := Takes.of_prepares hr hid hacquire hp hu
      · exact .inl h
      · exact .inr ⟨_, h⟩
  | probed _ hp => exact .inl (hp.outcome.lock hl)
  | retried _ => exact .inl (by rwa [Orch.mapCtx_ctx, doRoundRetryDecide_lock] at hl)
  | gated _ => exact .inl (by rwa [Orch.mapCtx_ctx, doQualityGate_lock] at hl)
  | collected _ hc => exact .inl (by rwa [hc.same.1 r] at hl)
  | surveyed _ hs =>
    obtain ⟨_, _, _, _, rfl⟩ := hs
    exact .inl (by cases r <;> exact hl)
  | bound _ _ | verified _ | fedBack _ => exact .inl (by cases r <;> exact hl)
  | skipped _ => exact .inl hl

theorem Interrupted.lock_takes (h : Interrupted o s t) (hl : t.ctx.lock r = some l) :
    s.ctx.lock r = some l ∨ ∃ role, Takes role o.dispatch s l := by
  by_cases hdispatch : ∃ role, s.ctx.runState = .dispatch role
  · obtain ⟨role, hr⟩ := hdispatch
    cases h.refused hr with
    | unlocked => exact .inl hl
    | locked hid hacquire hp =>
      obtain h | h := Takes.of_prepares hr hid hacquire hp hl
      · exact .inl h
      · exact .inr ⟨_, h⟩
  · rw [h.lock fun role hr => hdispatch ⟨role, hr⟩] at hl
    exact .inl hl

end Steps

/-- A process that panics is dropped with its locks. -/
def Machine.Holds (m : Machine) (path : String) : Prop :=
  m.pc ≠ .panicked ∧ m.ctx.holds path = true

theorem Move.holds {m m' : Machine} {i : Input} {path : String} (h : Move m i m')
    (hm' : m'.Holds path) :
    m.Holds path ∨ ∃ c o role, i = .tick c o ∧ Takes role o.dispatch m.toOrch ⟨path⟩ := by
  obtain ⟨hpc', hheld⟩ := hm'
  obtain ⟨r, hl⟩ := holds_iff.mp hheld
  have hsteps (c : Bool) (hs : m.Steps c) : m.pc ≠ .panicked := by
    obtain hpc | ⟨hpc, -⟩ := hs <;> simp [hpc]
  have hkept (hpc : m.pc ≠ .panicked) (hl : m.ctx.lock r = some ⟨path⟩) : m.Holds path :=
    ⟨hpc, holds_iff.mpr ⟨r, hl⟩⟩
  cases h with
  | exit | idle _ => exact .inl ⟨hpc', hheld⟩
  | admitted hpc hs | rejected hpc hs =>
    obtain ⟨root, rfl⟩ := hs
    exact .inl (hkept (by simp [hpc]) (by cases r <;> exact hl))
  | cancelled hpc _ => exact .inl (hkept (by simp [hpc]) (by cases r <;> exact hl))
  | @stepped c o flow s hs hst =>
    obtain h | ⟨role, h⟩ := hst.lock hl
    · exact .inl (hkept (hsteps c hs) h)
    · exact .inr ⟨c, o, role, rfl, h⟩
  | @failed c o s e hs hi =>
    obtain h | ⟨role, h⟩ := hi.lock_takes (r := r) (by cases r <;> exact hl)
    · exact .inl (hkept (hsteps c hs) h)
    · exact .inr ⟨c, o, role, rfl, h⟩
  | panicked _ => exact absurd rfl hpc'

def RunState.dispatches : RunState → Option AgentRole
  | .executorDispatch => some .executor
  | .reviewerDispatch => some .reviewer
  | _ => none

def Machine.asks (base : Option String) (m : Machine) : Option String := do
  let role ← m.ctx.runState.dispatches
  let id ← m.ctx.sessionId role
  (lockFilePath base (m.ctx.args.provider role) id).toOption

theorem Takes.asks {role : AgentRole} {o : DispatchObs} {m : Machine} {l : SessionLock}
    {base : Option String} (h : Takes role o m.toOrch l) (hbase : o.lock.base = base) :
    m.asks base = some l.path := by
  obtain ⟨id, hid, hpath⟩ := h.session
  have hrole : m.ctx.runState.dispatches = some role := by
    rw [h.state]
    cases role <;> rfl
  subst hbase
  simp [Machine.asks, hrole, hid, hpath, Except.toOption]

def Machine.Attends (m : Machine) (role : AgentRole) : Prop :=
  m.Active ∧ m.ctx.runState = .monitor role

def LocksBelow (base : Option String) : Input → Prop
  | .tick _ o => o.dispatch.lock.base = base
  | .exit _ => True

def Machine.Keyed (base : Option String) (m : Machine) : Prop :=
  ∀ role, m.Attends role → ∃ id path, m.ctx.sessionId role = some id ∧
    lockFilePath base (m.ctx.args.provider role) id = .ok path ∧ m.Holds path

theorem Dispatched.keyed {role : AgentRole} {o : DispatchObs} {s t : Orch}
    (h : Dispatched role o s t) (hr : s.ctx.runState = .dispatch role) :
    ∃ id path, t.ctx.sessionId role = some id ∧
      lockFilePath o.lock.base (t.ctx.args.provider role) id = .ok path ∧
      t.ctx.lock role = some ⟨path⟩ := by
  cases h with
  | @launched id lock u p pid hid hacquire hp _ _ =>
    obtain ⟨-, ⟨id', hsession, hpath⟩, -⟩ := takes_of_acquire hr hid hacquire
    obtain ⟨baseline, inbox, hc⟩ := hp.ctx
    refine ⟨id', lock.path, ?_, ?_, ?_⟩
    · simp only [launch, hc]
      cases role <;> exact hsession
    · simp only [launch, hc]
      cases role <;> exact hpath
    · have hlock : u.ctx.lock role = some lock := by
        rw [hp.lock, Orch.withLock, OrchestratorCtx.lock_setLock, if_pos rfl]
      cases role <;> exact hlock

theorem Outcome.attempt_lock {role : AgentRole} {o : ProbeObs} {s t : Orch} {r : AgentRole}
    (h : Outcome role o s .again t) : t.ctx.lock r = s.ctx.lock r := by
  cases h with
  | watched h => exact h.lock
  | stopped h _ =>
    rw [Orch.mapCtx_ctx, Orch.terminateActiveChild_ctx, ← h.lock]
    cases r <;> rfl

theorem Machine.Keyed.next {base : Option String} {m : Machine} {i : Input} (h : m.Keyed base)
    (hi : LocksBelow base i) : (m.next i).Keyed base := by
  intro role hattends
  have hmove := (next_move m i).active hattends.1
  generalize m.next i = m' at hmove hattends
  obtain ⟨hactive, hstate⟩ := hattends
  cases hmove with
  | exit ha => exact h role ⟨ha, hstate⟩
  | admitted _ _ => cases role <;> cases hstate
  | @stepped c o flow t hs hst =>
    have hpc (path : String) (hl : t.ctx.lock role = some ⟨path⟩) :
        Machine.Holds ⟨t, if flow = .again then .monitor else .head⟩ path :=
      ⟨hactive.1, holds_iff.mpr ⟨role, hl⟩⟩
    obtain ⟨r, hr, hout⟩ | ⟨r, u, hr, hd, rfl⟩ | ⟨hm, hd⟩ := hst.kind
    · cases flow with
      | done => exact absurd hstate (hout.not_monitor role)
      | again =>
        have hround := hout.sameRound
        obtain ⟨-, ⟨-, ht⟩ | ⟨hf, -⟩⟩ | ⟨-, hf, -⟩ := hout.target
        · obtain rfl : role = r := monitor_injective (hstate.symm.trans (ht.trans hr))
          have hbefore : m.Attends role := by
            refine ⟨⟨?_, by rw [hr]; exact monitor_not_terminal role⟩, hr⟩
            obtain hpc | ⟨hpc, -⟩ := hs <;> simp [hpc]
          obtain ⟨id, path, hid, hpath, hheld⟩ := h role hbefore
          refine ⟨id, path, ?_, ?_, hactive.1, ?_⟩
          · simp only
            rw [hround.sessionId, hid]
          · simp only
            rw [hround.args, hpath]
          · obtain ⟨x, hx⟩ := holds_iff.mp hheld.2
            exact holds_iff.mpr ⟨x, by rw [← hx]; exact hout.attempt_lock⟩
        · cases hf
        · cases hf
    · obtain rfl : role = r := monitor_injective (hstate.symm.trans rfl)
      obtain ⟨id, path, hid, hpath, hl⟩ := hd.keyed hr
      refine ⟨id, path, ?_, ?_, hpc path ?_⟩
      · cases role <;> exact hid
      · rw [← show o.dispatch.lock.base = base from hi]
        cases role <;> exact hpath
      · cases role <;> exact hl
    · exact absurd hstate (hst.not_monitor hm hd role)

theorem Run.keyed {base : Option String} {h : History Machine Input} {m : Machine} (hr : Run h m)
    (hall : ∀ e ∈ h, LocksBelow base e.input) : m.Keyed base := by
  revert hall
  apply Trace.Run.invariant (P := fun h m => (∀ e ∈ h, LocksBelow base e.input) → m.Keyed base) hr
  · rintro _ ⟨args, rfl⟩ _ role ⟨-, hstate⟩
    cases role <;> cases hstate
  · intro h m i _ ih hall
    obtain ⟨hi, hall⟩ := List.forall_mem_cons.mp hall
    exact (ih hall).next hi

section Fleet

variable {κ : Type}

/-- What the operating system tells process `k`: its own environment, and that a lock file which
another process has locked is locked. -/
def Told (bases : κ → Option String) (p : Pool κ Machine) (k : κ) : Input → Prop
  | .exit _ => True
  | .tick _ o => o.dispatch.lock.base = bases k ∧
    ∀ m path j n, p k = some m → m.asks (bases k) = some path → j ≠ k → p j = some n →
      n.Holds path → o.dispatch.lock.heldElsewhere = true

theorem Told.locksBelow {bases : κ → Option String} {p : Pool κ Machine} {k : κ} {i : Input}
    (h : Told bases p k i) : LocksBelow (bases k) i := by
  cases i with
  | exit _ => trivial
  | tick c o => exact h.1

variable [DecidableEq κ]

/-- Orchestrators on one host, each started, run and killed at any time. -/
abbrev Fleet (bases : κ → Option String) : Pool κ Machine → Prop :=
  Pool.Reached (fun m => ∃ args, m = .init args) Machine.next (Told bases)

variable {bases : κ → Option String} {p : Pool κ Machine} {j k : κ} {m n : Machine}

theorem Fleet.exclusive (hp : Fleet bases p) : p.Exclusive Machine.Holds := by
  apply Pool.Reached.exclusive hp
  · rintro _ path ⟨args, rfl⟩ ⟨-, hheld⟩
    obtain ⟨r, hl⟩ := holds_iff.mp hheld
    cases r <;> cases hl
  · intro p k m i path _ hk hi hheld
    obtain hold | ⟨c, o, role, rfl, htakes⟩ := (next_move m i).holds hheld
    · exact .inl hold
    · refine .inr fun j n hjk hj hn => ?_
      obtain ⟨hbase, htold⟩ := hi
      have hheld := htold m path j n hk (htakes.asks hbase) hjk hj hn
      rw [htakes.free] at hheld
      cases hheld

/-- Two orchestrators with the same lock directory never have attempts under way in one session,
however they interleave. -/
theorem attempts_apart {role role' : AgentRole} (hp : Fleet bases p) (hj : p j = some m)
    (hk : p k = some n) (hm : m.Attends role) (hn : n.Attends role') (hbase : bases j = bases k)
    (hsession : (m.ctx.args.provider role, m.ctx.sessionId role) =
      (n.ctx.args.provider role', n.ctx.sessionId role')) : j = k := by
  obtain ⟨h, hr, hall⟩ := hp.member (fun _ _ _ => Told.locksBelow) hj
  obtain ⟨h', hr', hall'⟩ := hp.member (fun _ _ _ => Told.locksBelow) hk
  obtain ⟨id, path, hid, hpath, hheld⟩ := Run.keyed hr hall role hm
  obtain ⟨id', path', hid', hpath', hheld'⟩ := Run.keyed hr' hall' role' hn
  obtain ⟨hprovider, hsame⟩ := Prod.mk.inj hsession
  rw [hid, hid', Option.some.injEq] at hsame
  rw [← hprovider, ← hsame, ← hbase, hpath, Except.ok.injEq] at hpath'
  subst hpath'
  exact Fleet.exclusive hp j k m n path hj hk hheld hheld'

end Fleet

end Processes

namespace Sample

def crossedArgs : CliArgs :=
  { args with executorProvider := .opencode, reviewerProvider := .codex }

def crossedObs : StepObs :=
  { obsAt 0 with bind := ⟨fun role => match role with
    | .executor => .ok "review-1"
    | .reviewer => .ok "exec-1"⟩ }

def firstAttempt (args : CliArgs) (o : StepObs) : History Machine Input × Machine :=
  Trace.exec Machine.next (List.replicate 4 (.tick false o)) [] (.init args)

theorem firstAttempt_run (args : CliArgs) (o : StepObs) :
    Run (firstAttempt args o).1 (firstAttempt args o).2 :=
  Trace.Run.exec (.start ⟨args, rfl⟩) _

theorem firstAttempt_input {args : CliArgs} {o : StepObs} {e : Step Machine Input}
    (he : e ∈ (firstAttempt args o).1) : e.input = .tick false o := by
  have hinputs : (firstAttempt args o).1.map Step.input = List.replicate 4 (.tick false o) := by
    simp [firstAttempt, exec_inputs]
  have hmem := List.mem_map_of_mem (f := Step.input) he
  rw [hinputs] at hmem
  exact List.eq_of_mem_replicate hmem

def runtimeDir (_ : Bool) : Option String := some "/run/user/1000"

def straight : Machine := (firstAttempt args (obsAt 0)).2

def crossed : Machine := (firstAttempt crossedArgs crossedObs).2

def both : Pool Bool Machine :=
  Function.update (Function.update (fun _ => none) false (some straight)) true (some crossed)

theorem both_fleet : Fleet runtimeDir both := by
  have hfirst : Fleet runtimeDir (Function.update (fun _ => none) false (some straight)) := by
    apply Pool.Reached.run .empty rfl (firstAttempt_run args (obsAt 0))
    intro e he
    rw [firstAttempt_input he]
    refine ⟨rfl, fun m path j n _ _ hj hn _ => ?_⟩
    rw [Function.update_of_ne hj] at hn
    cases hn
  apply Pool.Reached.run hfirst rfl (firstAttempt_run crossedArgs crossedObs)
  intro e he
  rw [firstAttempt_input he]
  refine ⟨rfl, fun m path j n hm hasks hj hn hheld => ?_⟩
  have hapart : ((firstAttempt crossedArgs crossedObs).1.all fun e =>
      (e.pre.asks (some "/run/user/1000")).all fun path => !straight.ctx.holds path) = true := by
    decide +kernel
  have hfree := List.all_eq_true.mp hapart e he
  rw [Function.update_self, Option.some.injEq] at hm
  subst hm
  rw [runtimeDir] at hasks
  simp only [hasks, Option.all_some] at hfree
  rw [Function.update_of_ne hj] at hn
  cases j with
  | true => exact absurd rfl hj
  | false =>
    rw [Function.update_self, Option.some.injEq] at hn
    subst hn
    simp [hheld.2] at hfree

end Sample

open Sample in
theorem attempts_apart_both :
    both false = some straight ∧ both true = some crossed ∧ straight.Attends .executor ∧
      crossed.Attends .executor ∧
      (straight.ctx.args.provider .executor, straight.ctx.sessionId .executor) ≠
        (crossed.ctx.args.provider .executor, crossed.ctx.sessionId .executor) := by
  have hstraight : straight.Attends .executor :=
    ⟨⟨by decide +kernel, by decide +kernel⟩, by decide +kernel⟩
  have hcrossed : crossed.Attends .executor :=
    ⟨⟨by decide +kernel, by decide +kernel⟩, by decide +kernel⟩
  refine ⟨rfl, rfl, hstraight, hcrossed, fun h => ?_⟩
  cases attempts_apart (j := false) (k := true) both_fleet rfl rfl hstraight hcrossed rfl h

end Orchestrator

import Orchestrator.Delivery
import Orchestrator.Report

namespace Orchestrator

open Rust Exec Trace

def presentArtifacts (w : WorkflowType) (o : ExecutorCollectObs) : List String :=
  (workflowArtifacts w).filter fun name =>
    artifactFilePresent (o.artifactLen name) matches .ok true

/-- A collection that cannot read the outbox does not come to look for the artifacts. -/
def foundArtifacts (w : WorkflowType) (o : ExecutorCollectObs) : List String :=
  if (outboxBody o.snapshot).isOk then presentArtifacts w o else []

structure Gathers (new : List String) (c d : OrchestratorCtx) : Prop where
  workflow : d.args.workflowType = c.args.workflowType
  paths : d.artifactPaths = c.artifactPaths ++ new
  hashes : c.commitHashes.Nodup → d.commitHashes.Nodup

section Gathers

variable {new new' : List String} {c d e : OrchestratorCtx}

theorem Gathers.same (hworkflow : d.args.workflowType = c.args.workflowType)
    (hpaths : d.artifactPaths = c.artifactPaths) (hhashes : d.commitHashes = c.commitHashes) :
    Gathers [] c d :=
  ⟨hworkflow, by simp [hpaths], by rw [hhashes]; exact id⟩

theorem Gathers.trans (h : Gathers new c d) (h' : Gathers new' d e) : Gathers (new ++ new') c e :=
  ⟨h'.workflow.trans h.workflow, by rw [h'.paths, h.paths, List.append_assoc],
    fun hc => h'.hashes (h.hashes hc)⟩

theorem Gathers.then_same (h : Gathers new c d) (h' : Gathers [] d e) : Gathers new c e := by
  simpa using h.trans h'

end Gathers

theorem addCommitHash_nodup {hashes : List String} (h : hashes.Nodup) (line : String) :
    (addCommitHash hashes line).Nodup := by
  simp only [addCommitHash]
  split
  · rename_i hnew
    simp only [Bool.and_eq_true, Bool.not_eq_true', List.contains_eq_mem, decide_eq_false_iff_not]
      at hnew
    refine List.nodup_append.mpr ⟨h, by simp, ?_⟩
    rintro hash hmem _ hsingle rfl
    exact hnew.2 (List.mem_singleton.mp hsingle ▸ hmem)
  · exact h

theorem foldl_addCommitHash_nodup {hashes : List String} (h : hashes.Nodup) (lines : List String) :
    (lines.foldl addCommitHash hashes).Nodup := by
  induction lines generalizing hashes with
  | nil => exact h
  | cons line lines ih => exact ih (addCommitHash_nodup h line)

theorem collectArtifacts_gathers (o : ExecutorCollectObs) (w : WorkflowType) (s : Orch) :
    wp (collectArtifacts o.artifactLen (workflowArtifacts w))
      (fun _ t => Gathers (presentArtifacts w o) s.ctx t.ctx)
      (fun _ t => Gathers (presentArtifacts w o) s.ctx t.ctx) s := by
  have hone (name : String) :
      wp (collectArtifacts o.artifactLen [name])
        (fun _ t => Gathers ([name].filter fun name =>
          artifactFilePresent (o.artifactLen name) matches .ok true) s.ctx t.ctx)
        (fun _ t => Gathers ([name].filter fun name =>
          artifactFilePresent (o.artifactLen name) matches .ok true) s.ctx t.ctx) s := by
    simp only [collectArtifacts, wp_bind, OrchM.wp_ofResult, OrchM.wp_modifyCtx, wp_pure]
    refine ⟨fun present hpresent => ?_, fun e he => ?_⟩
    · cases present with
      | true => exact ⟨rfl, by simp [hpresent], id⟩
      | false => exact ⟨rfl, by simp [hpresent], id⟩
    · exact ⟨rfl, by simp [he], id⟩
  cases w with
  | plan => exact hone "PLAN.md"
  | investigate => exact hone "INVESTIGATION.md"
  | implement => exact .same rfl rfl rfl

theorem doQualityGate_gathers (ctx : OrchestratorCtx) : Gathers [] ctx (doQualityGate ctx) := by
  unfold doQualityGate
  split
  · exact .same rfl rfl rfl
  · rename_i review _
    cases review.decision <;> exact .same rfl rfl rfl

section Survey

variable [Crates]

theorem surveyExecutor_gathers (o : ExecutorCollectObs) (s : Orch) :
    wp (surveyExecutor o)
      (fun _ t => Gathers (foundArtifacts s.ctx.args.workflowType o) s.ctx t.ctx)
      (fun _ t => Gathers (foundArtifacts s.ctx.args.workflowType o) s.ctx t.ctx) s := by
  simp only [surveyExecutor, wp_bind, OrchM.wp_ctx, OrchM.wp_ofResult, OrchM.wp_modifyCtx]
  refine ⟨fun snapshot hsnapshot => ?_, fun e he => ?_⟩
  · have hfound : foundArtifacts s.ctx.args.workflowType o =
        presentArtifacts s.ctx.args.workflowType o := by
      simp [foundArtifacts, outboxBody_ok hsnapshot, Except.isOk, Except.toBool]
    rw [hfound]
    apply wp_mono (collectArtifacts_gathers o _ _)
    · intro _ t ht
      refine ⟨fun log _ => ?_, fun _ _ => ?_⟩
      · exact ⟨ht.workflow, ht.paths, fun h => foldl_addCommitHash_nodup (ht.hashes h) _⟩
      · exact ⟨ht.workflow, ht.paths, ht.hashes⟩
    · exact fun _ t ht => ⟨ht.workflow, ht.paths, ht.hashes⟩
  · obtain ⟨e', he'⟩ := outboxBody_error he
    have hfound : foundArtifacts s.ctx.args.workflowType o = [] := by
      simp [foundArtifacts, he', Except.isOk, Except.toBool]
    rw [hfound]
    exact .same rfl rfl rfl

variable {o : StepObs} {s t : Orch} {flow : Flow} {m m' : Machine}

theorem Outcome.gathers {role : AgentRole} {obs : ProbeObs} (h : Outcome role obs s flow t) :
    Gathers [] s.ctx t.ctx := by
  cases h with
  | aborted => exact .same (by simp [Orch.abort]) (by simp [Orch.abort]) (by simp [Orch.abort])
  | @finished p state v allowed h _ _ =>
    obtain ⟨w, hw⟩ := h.ctx
    cases allowed <;> simp only [Orch.mapCtx_ctx, hw] <;> exact .same rfl rfl rfl
  | watched h | stopped h _ | capped h _ _ | failed h _ | hung h | cancelled h =>
    obtain ⟨w, hw⟩ := h.ctx
    simp only [Orch.mapCtx_ctx, Orch.terminateActiveChild_ctx, hw]
    exact .same rfl rfl rfl

theorem Stepped.gathers (hst : Stepped o s flow t) (hr : s.ctx.runState ≠ .executorOutputCollect) :
    Gathers [] s.ctx t.ctx := by
  cases hst with
  | dispatched _ hd =>
    cases hd with
    | launched _ _ hp _ _ =>
      obtain ⟨baseline, inbox, hc⟩ := hp.ctx
      simp only [Orch.mapCtx_ctx, withState, launch, hc]
      exact .same rfl rfl rfl
  | probed _ hp => exact hp.outcome.gathers
  | collected _ hc =>
    cases hc with
    | unchanged _ | unreadable _ _ _ | rejected _ _ _ _ => exact .same rfl rfl rfl
    | dirty _ hv _ _ | clean _ hv _ _ => cases hv <;> exact .same rfl rfl rfl
  | retried _ =>
    simp only [Orch.mapCtx_ctx, doRoundRetryDecide]
    split <;> exact .same rfl rfl rfl
  | gated _ => exact doQualityGate_gathers _
  | prepared _ hc _ =>
    rw [hc]
    exact .same rfl rfl rfl
  | surveyed hcollect _ => exact absurd hcollect hr
  | verified _ | bound _ _ | fedBack _ | skipped _ => exact .same rfl rfl rfl

theorem Interrupted.gathers (hi : Interrupted o s t)
    (hr : s.ctx.runState ≠ .executorOutputCollect) : Gathers [] s.ctx t.ctx := by
  cases hi with
  | preparing _ hc _ => exact .same (by rw [hc]) (by rw [hc]) (by rw [hc])
  | dispatching _ hd =>
    cases hd with
    | unlocked => exact .same rfl rfl rfl
    | locked _ _ hp =>
      obtain ⟨baseline, inbox, hc⟩ := hp.ctx
      rw [hc]
      exact .same rfl rfl rfl
  | probing _ hu =>
    obtain ⟨_, _, _, rfl⟩ := hu
    obtain ⟨a, ha⟩ := pollChild_ctx o.probe s
    simp only [ha]
    exact .same rfl rfl rfl
  | surveying hcollect _ => exact absurd hcollect hr
  | collecting _ hu =>
    cases hu with
    | unread => exact .same rfl rfl rfl
    | judged _ hv => cases hv <;> exact .same rfl rfl rfl

def collection (e : Turn) : Option ExecutorCollectObs :=
  match e.input with
  | .exit _ => none
  | .tick _ o => if executorCollects e then some o.executorOutput else none

def collections (h : History Machine Input) : List ExecutorCollectObs := h.filterMap collection

theorem Move.gathers {i : Input} (hmove : Move m i m')
    (hcollect : executorCollects ⟨m, i, m'⟩ = false) : Gathers [] m.ctx m'.ctx := by
  have hr {c : Bool} {o : StepObs} (hi : i = .tick c o) (hs : m.Steps c) :
      m.ctx.runState ≠ .executorOutputCollect := by
    intro hr
    simp [executorCollects, takesStep, hi, hs, hr] at hcollect
  cases hmove with
  | exit | idle _ | cancelled _ _ => exact .same rfl rfl rfl
  | admitted _ hroot | rejected _ hroot =>
    obtain ⟨root, rfl⟩ := hroot
    exact .same rfl rfl rfl
  | stepped hs hst => exact hst.gathers (hr rfl hs)
  | failed hs hi => exact (hi.gathers (hr rfl hs)).then_same (.same rfl rfl rfl)
  | panicked hp =>
    obtain ⟨-, root, rfl⟩ | ⟨hs, hi⟩ := hp
    · exact .same rfl rfl rfl
    · exact hi.gathers (hr rfl hs)

theorem collect_gathers {c : Bool} (hs : m.Steps c)
    (hr : m.ctx.runState = .executorOutputCollect) :
    Gathers (foundArtifacts m.ctx.args.workflowType o.executorOutput) m.ctx
      (m.next (.tick c o)).ctx := by
  have hstep : wp (step o)
      (fun _ t => Gathers (foundArtifacts m.ctx.args.workflowType o.executorOutput) m.ctx t.ctx)
      (fun _ t => Gathers (foundArtifacts m.ctx.args.workflowType o.executorOutput) m.ctx t.ctx)
      m.toOrch := by
    rw [step, wp_bind, OrchM.wp_ctx]
    simp only [hr, wp_map, doExecutorOutputCollect, wp_bind, OrchM.wp_modifyCtx]
    apply wp_mono (surveyExecutor_gathers o.executorOutput m.toOrch)
    · exact fun _ t ht => ht.then_same (.same rfl rfl rfl)
    · exact fun _ t ht => ht
  obtain ⟨flow, ht⟩ | ⟨e, t, ht, heq⟩ | ⟨t, ht, heq⟩ := next_of_wp hs hstep
  · exact ht
  · rw [heq]
    exact ht.then_same (.same rfl rfl rfl)
  · rw [heq]
    exact ht

theorem turn_gathers (m : Machine) (i : Input) :
    Gathers ((collection ⟨m, i, m.next i⟩).elim [] (foundArtifacts m.ctx.args.workflowType))
      m.ctx (m.next i).ctx := by
  cases hcollect : executorCollects ⟨m, i, m.next i⟩ with
  | false =>
    have hnone : collection ⟨m, i, m.next i⟩ = none := by
      cases i <;> simp [collection, hcollect]
    rw [hnone]
    exact (next_move m i).gathers hcollect
  | true =>
    cases i with
    | exit child => simp [executorCollects, takesStep] at hcollect
    | tick c o =>
      simp only [collection, hcollect, if_true, Option.elim_some]
      simp only [executorCollects, takesStep, Bool.and_eq_true, decide_eq_true_eq] at hcollect
      exact collect_gathers hcollect.1 hcollect.2

theorem Run.gathered {h : History Machine Input} (hr : Run h m) :
    m.ctx.artifactPaths =
        (collections h).reverse.flatMap (foundArtifacts m.ctx.args.workflowType) ∧
      m.ctx.commitHashes.Nodup := by
  apply Trace.Run.invariant (P := fun h m => m.ctx.artifactPaths =
      (collections h).reverse.flatMap (foundArtifacts m.ctx.args.workflowType) ∧
        m.ctx.commitHashes.Nodup) hr
  · rintro _ ⟨args, rfl⟩
    simp [Machine.init, OrchestratorCtx.new, collections]
  · intro h m i _ hinv
    obtain ⟨hpaths, hhashes⟩ := hinv
    have hturn := turn_gathers m i
    refine ⟨?_, hturn.hashes hhashes⟩
    rw [hturn.paths, hturn.workflow, hpaths]
    simp only [collections, List.filterMap_cons]
    cases collection ⟨m, i, m.next i⟩ with
    | none => simp
    | some o => simp

end Survey

def latestArtifacts (w : WorkflowType) (cs : List ExecutorCollectObs) : List String :=
  (cs.head?.map (presentArtifacts w)).getD []

structure OutputReported (latest : List String) (report : FinalReport) : Prop where
  artifacts_nodup : report.artifactPaths.Nodup
  hashes_nodup : report.commitHashes.Nodup
  exact : ∀ name, name ∈ report.artifactPaths ↔ name ∈ latest

theorem presentArtifacts_cases (w : WorkflowType) :
    ∃ name, ∀ o, presentArtifacts w o = [] ∨ presentArtifacts w o = [name] := by
  have hone (name : String) (p : String → Bool) :
      [name].filter p = [] ∨ [name].filter p = [name] := by
    cases h : p name <;> simp [h]
  cases w with
  | plan => exact ⟨"PLAN.md", fun o => hone _ _⟩
  | investigate => exact ⟨"INVESTIGATION.md", fun o => hone _ _⟩
  | implement => exact ⟨"", fun o => .inl rfl⟩

theorem flatMap_eq_replicate {α β : Type} {f : α → List β} {b : β} (l : List α)
    (h : ∀ a, f a = [] ∨ f a = [b]) :
    l.flatMap f = List.replicate (l.countP fun a => !(f a).isEmpty) b := by
  induction l with
  | nil => rfl
  | cons a l ih =>
    obtain ha | ha := h a
    · simp [ha, ih]
    · simp [ha, ih, List.replicate_succ]

section Report

variable [Crates] {h : History Machine Input} {m : Machine}

/-- The artifact is reported once, and only if it is there, exactly when no collection but the
latest has found it. -/
theorem output_reported_iff {toValue : YamlValue → Option Json} (hr : Run h m) :
    OutputReported (latestArtifacts m.ctx.args.workflowType (collections h))
        (buildReport toValue m.ctx) ↔
      (collections h).countP (fun o => !(foundArtifacts m.ctx.args.workflowType o).isEmpty) =
        (latestArtifacts m.ctx.args.workflowType (collections h)).length := by
  obtain ⟨hpaths, hhashes⟩ := Run.gathered hr
  obtain ⟨name, hpresent⟩ := presentArtifacts_cases m.ctx.args.workflowType
  have hfound : ∀ o, foundArtifacts m.ctx.args.workflowType o = [] ∨
      foundArtifacts m.ctx.args.workflowType o = [name] := by
    intro o
    simp only [foundArtifacts]
    split
    · exact hpresent o
    · exact .inl rfl
  have hlatest : latestArtifacts m.ctx.args.workflowType (collections h) = [] ∨
      latestArtifacts m.ctx.args.workflowType (collections h) = [name] := by
    simp only [latestArtifacts]
    cases (collections h).head? with
    | none => exact .inl rfl
    | some o => exact hpresent o
  rw [flatMap_eq_replicate _ hfound, List.countP_reverse] at hpaths
  generalize (collections h).countP _ = count at hpaths ⊢
  constructor
  · rintro ⟨hnodup, -, hexact⟩
    have hle : count ≤ 1 := by
      rw [← List.nodup_replicate (a := name), ← hpaths]
      exact hnodup
    have hmem := hexact name
    simp only [buildReport, hpaths, List.mem_replicate] at hmem
    obtain hl | hl := hlatest
    · simpa [hl] using hmem
    · have hne : count ≠ 0 := by simpa [hl] using hmem
      simp only [hl, List.length_singleton]
      omega
  · intro hcount
    refine ⟨?_, hhashes, fun other => ?_⟩
    · simp only [buildReport, hpaths, List.nodup_replicate, hcount]
      obtain hl | hl := hlatest <;> simp [hl]
    · simp only [buildReport, hpaths, hcount, List.mem_replicate]
      obtain hl | hl := hlatest <;> simp [hl]

end Report

namespace Sample.Revise

def planRun (is : List Input) : History Machine Input × Machine :=
  Trace.exec Machine.next is [] (.init { args with workflowType := .plan })

theorem planRun_run (is : List Input) : Run (planRun is).1 (planRun is).2 :=
  Trace.Run.exec (.start ⟨_, rfl⟩) is

def collectsAt (n : Nat) (planLen : IoResult Nat) : Input :=
  .tick false { obsAt n with executorOutput := ⟨⟨absent, absent⟩, fun _ => planLen, git ""⟩ }

def revised (first second : IoResult Nat) : List Input :=
  executed.take 6 ++ [
    collectsAt 30 first,
    .tick false (obsAt 30),
    .tick false { obsAt 40 with dispatch := { dispatchAt 40 with outboxMtime := .ok (time 20) } },
    .exit 1,
    .tick false { obsAt 60 with probe := exitedAt 60 180 (time 50) },
    .tick false { obsAt 60 with
      reviewerOutput :=
        { reviewed (time 50) with outboxText := .ok (asBytes (text "add a test")) } },
    .tick false (obsAt 60),
    .tick false (obsAt 60),
    .tick false (obsAt 70),
    .exit 2,
    .tick false { obsAt 90 with probe := exitedAt 90 64 (time 80) },
    collectsAt 90 second]

theorem revised_collects :
    (planRun (revised (.ok 100) (.ok 120))).2.ctx.artifactPaths = ["PLAN.md", "PLAN.md"] ∧
      (planRun (revised Sample.absent (.ok 120))).2.ctx.args.workflowType = .plan ∧
      latestArtifacts .plan (collections (planRun (revised Sample.absent (.ok 120))).1) =
        ["PLAN.md"] ∧
      (collections (planRun (revised Sample.absent (.ok 120))).1).countP
        (fun o => !(foundArtifacts .plan o).isEmpty) = 1 := by
  simp only [revised, reviewed, asBytes_eq_toByteArray]
  decide +kernel

end Sample.Revise

open Sample.Revise in
theorem plan_listed_twice :
    Run (planRun (revised (.ok 100) (.ok 120))).1 (planRun (revised (.ok 100) (.ok 120))).2 ∧
      ¬OutputReported (latestArtifacts .plan
          (collections (planRun (revised (.ok 100) (.ok 120))).1))
        (buildReport (fun _ => none) (planRun (revised (.ok 100) (.ok 120))).2.ctx) := by
  refine ⟨planRun_run _, fun hreported => ?_⟩
  have hnodup := hreported.artifacts_nodup
  simp only [buildReport, revised_collects.1] at hnodup
  exact absurd hnodup (by decide)

open Sample.Revise in
theorem output_reported_late :
    OutputReported ["PLAN.md"]
      (buildReport (fun _ => none) (planRun (revised Sample.absent (.ok 120))).2.ctx) := by
  obtain ⟨-, hworkflow, hlatest, hcount⟩ := revised_collects
  rw [← hlatest, ← hworkflow]
  apply (output_reported_iff (planRun_run _)).mpr
  rw [hworkflow, hlatest, hcount]
  rfl

end Orchestrator

import Orchestrator.Lib.Search
import Orchestrator.Hang

namespace Orchestrator

open Rust Exec Trace Search

/-- What `procfs` says of one process: the children of each of its tasks that can be read, and the
state in its `stat`. -/
structure ProcEntry where
  tasks : Option (List (Option (List Nat)))
  stat : Option Char

abbrev ProcTable := Nat → Option ProcEntry

def processChildren (t : ProcTable) (pid : Nat) : List Nat :=
  (((t pid).bind ProcEntry.tasks).getD []).flatMap fun task => task.getD []

def isLive (t : ProcTable) (pid : Nat) : Bool :=
  match (t pid).bind ProcEntry.stat with
  | some state => state ≠ 'Z' && state ≠ 'X'
  | none => false

def maxDepth : Nat := 4

def hasLiveChildProcesses (t : ProcTable) (pid : Nat) : Bool :=
  below (processChildren t) (isLive t) maxDepth pid

def LiveBelow (t : ProcTable) (pid : Nat) : Prop :=
  ∃ n child, n ≤ maxDepth ∧ Descends (processChildren t) (n + 1) pid child ∧ isLive t child = true

def ProcTable.Forest (t : ProcTable) : Prop :=
  ∀ pid, Tree (processChildren t) pid

theorem hasLiveChildProcesses_iff {t : ProcTable} (ht : t.Forest) (pid : Nat) :
    hasLiveChildProcesses t pid = true ↔ LiveBelow t pid :=
  below_iff (ht pid)

section Probes

variable [Crates] {role : AgentRole} {ts : Int} {s : Orch} {obs : Nat → ProbeObs} {k : Nat}
  {tables : Nat → ProcTable} {a : AttemptStateData} {p : Probe}

def ReadsTables (role : AgentRole) (obs : Nat → ProbeObs) (s : Orch) (tables : Nat → ProcTable) :
    Prop :=
  ∀ k a p pid, Finds role obs s k a p → a.pid = some pid →
    (obs k).liveChildren = hasLiveChildProcesses (tables k) pid

def WorkingAt (role : AgentRole) (obs : Nat → ProbeObs) (s : Orch) (tables : Nat → ProcTable)
    (k : Nat) : Prop :=
  ∃ a p pid, Finds role obs s k a p ∧ a.pid = some pid ∧ LiveBelow (tables k) pid

theorem WorkingAt.changed (hreads : ReadsTables role obs s tables)
    (hforest : ∀ k, (tables k).Forest) (h : WorkingAt role obs s tables k) :
    ChangedAt role obs s k := by
  obtain ⟨a, p, pid, hf, hpid, hlive⟩ := h
  obtain ⟨-, hchanged, hsignals⟩ := observed_of_finds hf
  refine ⟨a, p, hf, ?_⟩
  have hchildren : p.signals.hasChildProcesses = true := by
    rw [(collectProbeSignals_ok hsignals).2.1, hpid, hreads k a p pid hf hpid,
      (hasLiveChildProcesses_iff (hforest k) pid).mpr hlive]
    rfl
  simp [hchanged, workSignalsChanged, hchildren]

end Probes

namespace Sample

def compiling : Nat → ProcTable
  | 0 => fun pid =>
    if pid = 4242 then some ⟨some [none, some [4243]], some 'S'⟩
    else if pid = 4243 then some ⟨some [some [4244]], some 'Z'⟩
    else if pid = 4244 then some ⟨some [some []], some 'R'⟩
    else none
  | _ + 1 => fun pid => if pid = 4242 then some ⟨some [none, some []], some 'S'⟩ else none

def built : Nat → ProbeObs
  | 0 => { logAt 5 (some 5) with liveChildren := true }
  | _ + 1 => logAt 430 (some 5)

theorem processChildren_compiling {x c : Nat} (k : Nat)
    (h : c ∈ processChildren (compiling k) x) : c = x + 1 ∧ (x = 4242 ∨ x = 4243) := by
  cases k with
  | zero =>
    simp only [processChildren, compiling] at h
    split at h
    · simp_all
    · split at h
      · simp_all
      · split at h <;> simp at h
  | succ k =>
    simp only [processChildren, compiling] at h
    split at h <;> simp at h

theorem compiling_forest (k : Nat) : (compiling k).Forest := by
  intro pid
  apply Tree.ofRank id
  · intro x c hc
    have heq := (processChildren_compiling k hc).1
    simp only [id]
    omega
  · intro x y c hx hy
    have hx := (processChildren_compiling k hx).1
    have hy := (processChildren_compiling k hy).1
    omega

theorem built_mono (i j : Nat) (hij : i ≤ j) : (built i).now ≤ (built j).now := by
  have hlater : time 5 ≤ time 430 := by decide
  cases i with
  | zero =>
    cases j with
    | zero => exact Int.le_refl _
    | succ j => exact hlater
  | succ i =>
    obtain ⟨j, rfl⟩ := Nat.exists_eq_add_of_le' (Nat.le_trans (Nat.succ_pos i) hij)
    exact Int.le_refl _

theorem built_readsTables : ReadsTables .executor built launched compiling := by
  intro k a p pid hf hpid
  have hk : k < 2 := lt_of_leavesFor
    (show leavesFor built 2 .roundRetryDecide = true by decide +kernel) hf
  obtain rfl | rfl : k = 0 ∨ k = 1 := by omega
  · have hagent := test_of_sees (show sees built 0
      (fun a _ => decide (a.pid = some 4242)) = true by decide +kernel) hf
    rw [decide_eq_true_eq, hpid, Option.some.injEq] at hagent
    rw [hagent]
    decide +kernel
  · have hagent := test_of_sees (show sees built 1
      (fun a _ => decide (a.pid = some 4242)) = true by decide +kernel) hf
    rw [decide_eq_true_eq, hpid, Option.some.injEq] at hagent
    rw [hagent]
    decide +kernel

theorem built_working : WorkingAt .executor built launched compiling 0 := by
  obtain ⟨a, p, hf, htest⟩ := exists_of_sees built 0
    (fun a _ => decide (a.pid = some 4242)) (by decide +kernel)
  refine ⟨a, p, 4242, hf, by simpa using htest, ?_⟩
  exact (hasLiveChildProcesses_iff (compiling_forest 0) 4242).mp (by decide +kernel)

end Sample

end Orchestrator

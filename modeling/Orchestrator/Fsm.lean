import Orchestrator.Data

namespace Orchestrator

open Rust

structure ProbeSnapshot where
  cancelled : Bool
  processExited : Bool
  processAlive : Bool
  outboxPresent : Bool
  providerError : Option ProviderErrorClass
  successContract : Bool
  softSuccessContract : Bool
  protocolInvalid : Bool
  providerActivityAfterExitIsFresh : Bool
  workSignalsChanged : Bool
  lastWorkSignalTs : Option Int
  providerStale : Bool
  graceDeadline : Option Int
  hangMaxWithWorkSignalsExceeded : Bool

def graceActive (deadline : Option Int) (now : Int) : Bool :=
  (deadline.map fun d => decide (now < d)).getD false

def workStale (lastWorkSignalTs : Option Int) (now : Int) : Bool :=
  (lastWorkSignalTs.map fun t => decide (hangConfirmSec ≤ secondsSince now t)).getD false

namespace ProbeSnapshot

def hangConfirmed (s : ProbeSnapshot) (now : Int) : Bool :=
  s.processAlive && workStale s.lastWorkSignalTs now && s.providerStale

def finalResultBoundaryReached (s : ProbeSnapshot) (now : Int) : Bool :=
  if graceActive s.graceDeadline now then false
  else if s.processExited && !s.providerActivityAfterExitIsFresh then true
  else (s.graceDeadline.map fun d => decide (d ≤ now)).getD false

end ProbeSnapshot

def classify (s : ProbeSnapshot) (now : Int) : AttemptState :=
  if s.cancelled then .cancelled
  else if s.providerError = some .serviceCap then .failedServiceCap
  else if s.providerError = some .permission ∨ s.providerError = some .auth then
    .failedProviderAccess
  else if s.providerError = some .transport then .failedTransport
  else if s.successContract then .success
  else if s.softSuccessContract then .softSuccess
  else if s.protocolInvalid && s.finalResultBoundaryReached now then .failedProtocol
  else if graceActive s.graceDeadline now then .waitingOutput
  else if s.processExited && s.providerActivityAfterExitIsFresh then .waitingOutput
  else if s.processExited then .failedSilent
  else if s.hangConfirmed now then .hangConfirmed
  else if s.hangMaxWithWorkSignalsExceeded && s.providerStale then .hangConfirmed
  else if s.processAlive && s.outboxPresent then .finalizing
  else if s.workSignalsChanged then .running
  else if s.processAlive then .waitingOutput
  else .unknown

namespace ProbeSnapshot

structure Undecided (s : ProbeSnapshot) : Prop where
  cancelled : s.cancelled = false
  error : s.providerError = none
  success : s.successContract = false
  soft : s.softSuccessContract = false
  protocol : s.protocolInvalid = false
  exited : s.processExited = false

def hangRule (s : ProbeSnapshot) (now : Int) : Bool :=
  s.hangConfirmed now || (s.hangMaxWithWorkSignalsExceeded && s.providerStale)

theorem hangRule_eq (s : ProbeSnapshot) (now : Int) :
    s.hangRule now = (s.providerStale && ((s.processAlive &&
      workStale s.lastWorkSignalTs now) || s.hangMaxWithWorkSignalsExceeded)) := by
  simp only [hangRule, hangConfirmed]
  cases s.providerStale <;> simp

end ProbeSnapshot

theorem classify_serviceCap {s : ProbeSnapshot} (hc : s.cancelled = false)
    (h : s.providerError = some .serviceCap) (now : Int) :
    classify s now = .failedServiceCap := by simp [classify, hc, h]

theorem classify_success {s : ProbeSnapshot} (hc : s.cancelled = false)
    (he : s.providerError = none) (h : s.successContract = true) (now : Int) :
    classify s now = .success := by simp [classify, hc, he, h]

/-- While the process runs and nothing decides the attempt, only an active grace window
comes before the hang rules, and only the hang rules come before `Finalizing`. -/
theorem classify_undecided {s : ProbeSnapshot} (h : s.Undecided) (now : Int) :
    classify s now =
      if graceActive s.graceDeadline now then .waitingOutput
      else if s.hangRule now then .hangConfirmed
      else if s.processAlive && s.outboxPresent then .finalizing
      else if s.workSignalsChanged then .running
      else if s.processAlive then .waitingOutput
      else .unknown := by
  simp [classify, h.cancelled, h.error, h.success, h.soft, h.protocol, h.exited,
    ProbeSnapshot.hangRule, ite_or]

def ProbeSnapshot.Justifies (s : ProbeSnapshot) (now : Int) : AttemptState → Prop
  | .cancelled => s.cancelled = true
  | .failedServiceCap => s.cancelled = false ∧ s.providerError = some .serviceCap
  | .failedProviderAccess => s.providerError = some .permission ∨ s.providerError = some .auth
  | .failedTransport => s.providerError = some .transport
  | .success => s.successContract = true
  | .softSuccess => s.softSuccessContract = true
  | .failedProtocol => s.protocolInvalid = true
  | .failedSilent => s.processExited = true
  | .hangConfirmed => graceActive s.graceDeadline now = false ∧ s.processExited = false ∧
      s.successContract = false ∧ s.cancelled = false ∧ s.providerError = none ∧
      s.hangRule now = true
  | .finalizing => s.processAlive = true ∧ s.outboxPresent = true
  | .running | .waitingOutput | .unknown => True
  | .dispatching | .terminatingStale | .retryPending | .retryExhausted => False

theorem providerError_none {e : Option ProviderErrorClass} (h₁ : e ≠ some .serviceCap)
    (h₂ : ¬(e = some .permission ∨ e = some .auth)) (h₃ : e ≠ some .transport) : e = none := by
  cases e with
  | none => rfl
  | some c => cases c <;> simp_all

theorem Justifies.ite {s : ProbeSnapshot} {now : Int} {c : Prop} [Decidable c]
    {a b : AttemptState} (ha : c → s.Justifies now a) (hb : ¬c → s.Justifies now b) :
    s.Justifies now (if c then a else b) := by
  by_cases h : c
  · rw [if_pos h]; exact ha h
  · rw [if_neg h]; exact hb h

theorem classify_justified (s : ProbeSnapshot) (now : Int) :
    s.Justifies now (classify s now) := by
  apply Justifies.ite
  · exact fun h => h
  intro hc
  have hc : s.cancelled = false := by simpa using hc
  apply Justifies.ite
  · exact fun h => ⟨hc, h⟩
  intro h₁
  apply Justifies.ite
  · exact fun h => h
  intro h₂
  apply Justifies.ite
  · exact fun h => h
  intro h₃
  apply Justifies.ite
  · exact fun h => h
  intro hs
  apply Justifies.ite
  · exact fun h => h
  intro _
  apply Justifies.ite
  · intro h
    simp only [Bool.and_eq_true] at h
    exact h.1
  intro _
  apply Justifies.ite
  · exact fun _ => trivial
  intro hg
  apply Justifies.ite
  · exact fun _ => trivial
  intro _
  apply Justifies.ite
  · exact fun h => h
  intro he
  rw [← ite_or]
  apply Justifies.ite
  · intro hr
    exact ⟨by simpa using hg, by simpa using he, by simpa using hs, hc,
      providerError_none h₁ h₂ h₃, by simpa [ProbeSnapshot.hangRule] using hr⟩
  intro _
  apply Justifies.ite
  · intro h
    simp only [Bool.and_eq_true] at h
    exact h
  intro _
  apply Justifies.ite
  · exact fun _ => trivial
  intro _
  apply Justifies.ite
  · exact fun _ => trivial
  · exact fun _ => trivial

end Orchestrator

import Orchestrator.Hang

namespace Orchestrator

open Rust Exec Trace

structure GraceProbe where
  gitDirty : Bool
  gitCommitted : Bool
  outboxPresent : Bool
  now : Int

def grace (probes : Nat → GraceProbe) : Nat → Option Int × Option Int
  | 0 => (none, none)
  | n + 1 => applyGraceTransitions (probes n).gitDirty (probes n).gitCommitted
      (probes n).outboxPresent (grace probes n).1 (grace probes n).2 (probes n).now

/-- When each grace was granted since the outbox was last seen. -/
structure Grants where
  commit : Option Int
  outbox : Option Int

namespace Grants

def empty : Grants := ⟨none, none⟩

def next (p : GraceProbe) (g : Grants) : Grants :=
  if p.outboxPresent then empty
  else if p.gitCommitted then { g with outbox := g.outbox.or (some p.now) }
  else if p.gitDirty && g.commit.isNone && g.outbox.isNone then { g with commit := some p.now }
  else g

def deadlines (g : Grants) : Option Int × Option Int :=
  (if g.outbox.isSome then none else g.commit.map (· + seconds commitGraceSec),
    g.outbox.map (· + seconds outboxGraceSec))

theorem deadlines_next (p : GraceProbe) (g : Grants) :
    (g.next p).deadlines = applyGraceTransitions p.gitDirty p.gitCommitted p.outboxPresent
      g.deadlines.1 g.deadlines.2 p.now := by
  obtain ⟨dirty, committed, present, now⟩ := p
  obtain ⟨commit, outbox⟩ := g
  cases present with
  | true => rfl
  | false =>
    cases committed with
    | true => cases outbox <;> rfl
    | false => cases dirty <;> cases outbox <;> cases commit <;> rfl

end Grants

def granted (probes : Nat → GraceProbe) : Nat → Grants
  | 0 => .empty
  | n + 1 => (granted probes n).next (probes n)

theorem grace_eq_deadlines (probes : Nat → GraceProbe) (n : Nat) :
    grace probes n = (granted probes n).deadlines := by
  induction n with
  | zero => rfl
  | succ n ih => rw [granted, Grants.deadlines_next, ← ih, grace]

theorem applyGraceTransitions_again (dirty committed present : Bool) (commit outbox : Option Int)
    (t t' : Int) :
    applyGraceTransitions dirty committed present
      (applyGraceTransitions dirty committed present commit outbox t).1
      (applyGraceTransitions dirty committed present commit outbox t).2 t' =
      applyGraceTransitions dirty committed present commit outbox t := by
  cases present with
  | true => rfl
  | false =>
    cases committed with
    | true => cases outbox <;> rfl
    | false => cases dirty <;> cases commit <;> cases outbox <;> rfl

def GraceProbe.SameFlags (p q : GraceProbe) : Prop :=
  q.gitDirty = p.gitDirty ∧ q.gitCommitted = p.gitCommitted ∧ q.outboxPresent = p.outboxPresent

theorem grace_settled {probes : Nat → GraceProbe} {f k : Nat} (hfk : f ≤ k)
    (hsame : ∀ i, f ≤ i → i ≤ k → (probes f).SameFlags (probes i)) :
    grace probes (k + 1) = grace probes (f + 1) := by
  induction hfk with
  | refl => rfl
  | @step k hfk ih =>
    obtain ⟨hdirty, hcommitted, hpresent⟩ := hsame (k + 1) (Nat.le_succ_of_le hfk) (le_refl _)
    rw [grace, ih fun i hfi hik => hsame i hfi (Nat.le_succ_of_le hik), hdirty, hcommitted,
      hpresent, grace]
    exact applyGraceTransitions_again _ _ _ _ _ _ _

def NoOutbox (probes : Nat → GraceProbe) (a n : Nat) : Prop :=
  a ≤ n ∧ ∀ i, a ≤ i → i ≤ n → (probes i).outboxPresent = false

def Opens (deadline : Option Int × Option Int → Option Int) (probes : Nat → GraceProbe) (n : Nat) :
    Prop :=
  deadline (grace probes n) = none ∧ (deadline (grace probes (n + 1))).isSome = true

section Stretch

variable {probes : Nat → GraceProbe} {p : GraceProbe} {g : Grants} {a i j n : Nat} {t : Int}

theorem Grants.next_commit (hp : p.outboxPresent = false) (hg : g.commit = some t) :
    (g.next p).commit = some t := by
  simp only [Grants.next, hp, hg]
  cases p.gitCommitted <;> simp [hg]

theorem Grants.next_outbox (hp : p.outboxPresent = false) (hg : g.outbox = some t) :
    (g.next p).outbox = some t := by
  simp only [Grants.next, hp, hg]
  cases p.gitCommitted <;> simp [hg]

theorem granted_kept (hm : NoOutbox probes a n) (hi : a ≤ i) (hij : i ≤ j) (hj : j ≤ n + 1) :
    ((granted probes i).commit = some t → (granted probes j).commit = some t) ∧
      ((granted probes i).outbox = some t → (granted probes j).outbox = some t) := by
  induction hij with
  | refl => exact ⟨id, id⟩
  | @step j hij ih =>
    have hmissing := hm.2 j (Nat.le_trans hi hij) (by omega)
    obtain ⟨hcommit, houtbox⟩ := ih (by omega)
    exact ⟨fun h => Grants.next_commit hmissing (hcommit h),
      fun h => Grants.next_outbox hmissing (houtbox h)⟩

theorem Grants.commit_opened (hclosed : g.deadlines.1 = none)
    (hopen : (g.next p).deadlines.1.isSome = true) :
    g.commit = none ∧ (g.next p).commit = some p.now ∧ (g.next p).outbox = none ∧
      p.gitDirty = true := by
  obtain ⟨dirty, committed, present, now⟩ := p
  obtain ⟨commit, outbox⟩ := g
  cases present with
  | true => simp [next, deadlines, empty] at hopen
  | false =>
    cases committed with
    | true => cases outbox <;> simp [next, deadlines] at hopen
    | false => cases dirty <;> cases outbox <;> cases commit <;> simp_all [next, deadlines]

theorem Grants.outbox_opened (hclosed : g.deadlines.2 = none)
    (hopen : (g.next p).deadlines.2.isSome = true) :
    g.outbox = none ∧ (g.next p).outbox = some p.now ∧ p.gitCommitted = true := by
  obtain ⟨dirty, committed, present, now⟩ := p
  obtain ⟨commit, outbox⟩ := g
  cases present with
  | true => simp [next, deadlines, empty] at hopen
  | false =>
    cases committed with
    | true => cases outbox <;> simp_all [next, deadlines]
    | false => cases dirty <;> cases outbox <;> cases commit <;> simp_all [next, deadlines]

theorem opens_commit (h : Opens Prod.fst probes n) : (granted probes n).commit = none ∧
    (granted probes (n + 1)).commit = some (probes n).now ∧
    (granted probes (n + 1)).outbox = none := by
  obtain ⟨hclosed, hopen⟩ := h
  rw [grace_eq_deadlines] at hclosed hopen
  obtain ⟨hnone, hsome, houtbox, -⟩ := Grants.commit_opened hclosed hopen
  exact ⟨hnone, hsome, houtbox⟩

theorem opens_outbox (h : Opens Prod.snd probes n) : (granted probes n).outbox = none ∧
    (granted probes (n + 1)).outbox = some (probes n).now := by
  obtain ⟨hclosed, hopen⟩ := h
  rw [grace_eq_deadlines] at hclosed hopen
  obtain ⟨hnone, hsome, -⟩ := Grants.outbox_opened hclosed hopen
  exact ⟨hnone, hsome⟩

theorem Grants.commit_source (h : (g.next p).commit = some t) :
    p.outboxPresent = false ∧ (g.commit = some t ∨ t = p.now ∧ p.gitDirty = true) := by
  obtain ⟨dirty, committed, present, now⟩ := p
  obtain ⟨commit, outbox⟩ := g
  cases present with
  | true => simp [next, empty] at h
  | false =>
    cases committed with
    | true => exact ⟨rfl, .inl h⟩
    | false => cases dirty <;> cases outbox <;> cases commit <;> simp_all [next]

theorem Grants.outbox_source (h : (g.next p).outbox = some t) :
    p.outboxPresent = false ∧ (g.outbox = some t ∨ t = p.now ∧ p.gitCommitted = true) := by
  obtain ⟨dirty, committed, present, now⟩ := p
  obtain ⟨commit, outbox⟩ := g
  cases present with
  | true => simp [next, empty] at h
  | false =>
    cases committed with
    | true => cases outbox <;> simp_all [next]
    | false => cases dirty <;> cases outbox <;> cases commit <;> simp_all [next]

/-- `t` is the time of a probe that met `flag`, and no probe has seen the outbox from then on. -/
def GrantedBy (flag : GraceProbe → Bool) (probes : Nat → GraceProbe) (n : Nat) (t : Int) : Prop :=
  ∃ i < n, t = (probes i).now ∧ flag (probes i) = true ∧
    ∀ j, i ≤ j → j < n → (probes j).outboxPresent = false

theorem GrantedBy.succ {flag : GraceProbe → Bool} (hp : (probes n).outboxPresent = false)
    (h : GrantedBy flag probes n t ∨ t = (probes n).now ∧ flag (probes n) = true) :
    GrantedBy flag probes (n + 1) t := by
  obtain ⟨i, hi, ht, hflag, hmissing⟩ | ⟨ht, hflag⟩ := h
  · refine ⟨i, by omega, ht, hflag, fun j hij hj => ?_⟩
    obtain hj | rfl := Nat.lt_succ_iff_lt_or_eq.mp hj
    · exact hmissing j hij hj
    · exact hp
  · refine ⟨n, by omega, ht, hflag, fun j hnj hj => ?_⟩
    obtain rfl : j = n := by omega
    exact hp

theorem granted_by (probes : Nat → GraceProbe) (n : Nat) :
    (∀ t, (granted probes n).commit = some t → GrantedBy GraceProbe.gitDirty probes n t) ∧
      ∀ t, (granted probes n).outbox = some t → GrantedBy GraceProbe.gitCommitted probes n t := by
  induction n with
  | zero => simp [granted, Grants.empty]
  | succ n ih =>
    constructor
    · intro t h
      obtain ⟨hp, hsource⟩ := Grants.commit_source h
      exact .succ hp (hsource.imp_left (ih.1 t))
    · intro t h
      obtain ⟨hp, hsource⟩ := Grants.outbox_source h
      exact .succ hp (hsource.imp_left (ih.2 t))

def Covered (probes : Nat → GraceProbe) (n : Nat) (t : Int) : Prop :=
  (probes n).now ≤ t ∧ (graceActive (grace probes (n + 1)).1 t = true ∨
    graceActive (grace probes (n + 1)).2 t = true)

def Window (since : Int) (length : Nat) (t : Int) : Prop :=
  since ≤ t ∧ t < since + seconds length

structure GraceLaw (probes : Nat → GraceProbe) (a : Nat) : Prop where
  commit_once : ∀ i j, NoOutbox probes a i → NoOutbox probes a j → Opens Prod.fst probes i →
    Opens Prod.fst probes j → i = j
  outbox_once : ∀ i j, NoOutbox probes a i → NoOutbox probes a j → Opens Prod.snd probes i →
    Opens Prod.snd probes j → i = j
  commit_first : ∀ i j, NoOutbox probes a i → NoOutbox probes a j → Opens Prod.snd probes i →
    Opens Prod.fst probes j → j < i
  commit_unmoved : ∀ n t, NoOutbox probes a n → (grace probes n).1 = some t →
    (grace probes (n + 1)).1 = some t ∨ (grace probes (n + 1)).1 = none
  outbox_unmoved : ∀ n t, NoOutbox probes a n → (grace probes n).2 = some t →
    (grace probes (n + 1)).2 = some t
  windows : ∃ c o, ∀ n t, NoOutbox probes a n → Covered probes n t →
    Window c commitGraceSec t ∨ Window o outboxGraceSec t

theorem grace_exclusive (probes : Nat → GraceProbe) (n : Nat) :
    (grace probes n).1 = none ∨ (grace probes n).2 = none := by
  rw [grace_eq_deadlines]
  simp only [Grants.deadlines]
  cases (granted probes n).outbox with
  | none => exact .inr rfl
  | some t => exact .inl rfl

theorem opens_commit_unique (hi : a ≤ i) (hj : NoOutbox probes a j) (hij : i < j)
    (hopen : Opens Prod.fst probes i) : ¬Opens Prod.fst probes j := by
  intro hagain
  obtain ⟨-, hgranted, -⟩ := opens_commit hopen
  have hkept := (granted_kept hj (Nat.le_succ_of_le hi) (Nat.succ_le_of_lt hij)
    (Nat.le_succ j)).1 hgranted
  rw [(opens_commit hagain).1] at hkept
  cases hkept

theorem opens_outbox_unique (hi : a ≤ i) (hj : NoOutbox probes a j) (hij : i < j)
    (hopen : Opens Prod.snd probes i) : ¬Opens Prod.snd probes j := by
  intro hagain
  obtain ⟨-, hgranted⟩ := opens_outbox hopen
  have hkept := (granted_kept hj (Nat.le_succ_of_le hi) (Nat.succ_le_of_lt hij)
    (Nat.le_succ j)).2 hgranted
  rw [(opens_outbox hagain).1] at hkept
  cases hkept

theorem commit_before_outbox (hi : a ≤ i) (hj : NoOutbox probes a j)
    (hopen : Opens Prod.snd probes i) (hcommit : Opens Prod.fst probes j) : j < i := by
  by_contra hij
  obtain ⟨-, hgranted⟩ := opens_outbox hopen
  have hkept := (granted_kept hj (by omega) (by omega) (le_refl (j + 1))).2 hgranted
  rw [(opens_commit hcommit).2.2] at hkept
  cases hkept

theorem granted_at (f : Grants → Option Int) (hkept : ∀ i j n t, NoOutbox probes a n → a ≤ i →
    i ≤ j → j ≤ n + 1 → f (granted probes i) = some t → f (granted probes j) = some t) :
    ∃ since, ∀ n t, NoOutbox probes a n → f (granted probes (n + 1)) = some t → t = since := by
  by_cases h : ∃ n t, NoOutbox probes a n ∧ f (granted probes (n + 1)) = some t
  · obtain ⟨n, since, hn, hsince⟩ := h
    refine ⟨since, fun k t hk ht => ?_⟩
    obtain hle | hle := Nat.le_total n k
    · have := hkept _ _ k _ hk (Nat.le_succ_of_le hn.1) (Nat.succ_le_succ hle) (le_refl _) hsince
      exact Option.some.inj (ht.symm.trans this)
    · have := hkept _ _ n _ hn (Nat.le_succ_of_le hk.1) (Nat.succ_le_succ hle) (le_refl _) ht
      exact Option.some.inj (this.symm.trans hsince)
  · exact ⟨0, fun n t hn ht => absurd ⟨n, t, hn, ht⟩ h⟩

theorem graceActive_iff {deadline : Option Int} :
    graceActive deadline t = true ↔ ∃ d, deadline = some d ∧ t < d := by
  cases deadline <;> simp [graceActive]

theorem le_of_grantedBy {flag : GraceProbe → Bool}
    (hclock : ∀ i j, i ≤ j → (probes i).now ≤ (probes j).now)
    (h : GrantedBy flag probes (n + 1) t) : t ≤ (probes n).now := by
  obtain ⟨i, hi, rfl, -⟩ := h
  exact hclock i n (by omega)

theorem covered_windows (hclock : ∀ i j, i ≤ j → (probes i).now ≤ (probes j).now) :
    ∃ c o, ∀ n t, NoOutbox probes a n → Covered probes n t →
      Window c commitGraceSec t ∨ Window o outboxGraceSec t := by
  obtain ⟨c, hc⟩ := granted_at Grants.commit fun i j n t (hn : NoOutbox probes a n) hi hij hj =>
    (granted_kept hn hi hij hj).1
  obtain ⟨o, ho⟩ := granted_at Grants.outbox fun i j n t (hn : NoOutbox probes a n) hi hij hj =>
    (granted_kept hn hi hij hj).2
  refine ⟨c, o, fun n t hn ⟨hnow, hactive⟩ => ?_⟩
  simp only [grace_eq_deadlines, graceActive_iff, Grants.deadlines] at hactive
  obtain ⟨d, hd, ht⟩ | ⟨d, hd, ht⟩ := hactive
  · split at hd
    · cases hd
    · obtain ⟨since, hsince, rfl⟩ := Option.map_eq_some_iff.mp hd
      obtain rfl := hc n since hn hsince
      have hbefore := le_of_grantedBy hclock ((granted_by probes (n + 1)).1 _ hsince)
      exact .inl ⟨le_trans hbefore hnow, ht⟩
  · obtain ⟨since, hsince, rfl⟩ := Option.map_eq_some_iff.mp hd
    obtain rfl := ho n since hn hsince
    have hbefore := le_of_grantedBy hclock ((granted_by probes (n + 1)).2 _ hsince)
    exact .inr ⟨le_trans hbefore hnow, ht⟩

theorem commit_unmoved (hp : (probes n).outboxPresent = false) (h : (grace probes n).1 = some t) :
    (grace probes (n + 1)).1 = some t ∨ (grace probes (n + 1)).1 = none := by
  simp only [grace, applyGraceTransitions, hp, h]
  cases (probes n).gitCommitted <;> simp

theorem outbox_unmoved (hp : (probes n).outboxPresent = false) (h : (grace probes n).2 = some t) :
    (grace probes (n + 1)).2 = some t := by
  simp only [grace, applyGraceTransitions, hp, h]
  cases (probes n).gitCommitted <;> simp

/-- Each grace is granted once while the outbox is missing, the one for a commit first. -/
theorem grace_law (probes : Nat → GraceProbe)
    (hclock : ∀ i j, i ≤ j → (probes i).now ≤ (probes j).now) :
    (∀ n, (grace probes n).1 = none ∨ (grace probes n).2 = none) ∧ ∀ a, GraceLaw probes a := by
  refine ⟨grace_exclusive probes, fun a => ?_⟩
  constructor
  case commit_once =>
    intro i j hi hj hopen hagain
    obtain hij | hij | hij := Nat.lt_trichotomy i j
    · exact absurd hagain (opens_commit_unique hi.1 hj hij hopen)
    · exact hij
    · exact absurd hopen (opens_commit_unique hj.1 hi hij hagain)
  case outbox_once =>
    intro i j hi hj hopen hagain
    obtain hij | hij | hij := Nat.lt_trichotomy i j
    · exact absurd hagain (opens_outbox_unique hi.1 hj hij hopen)
    · exact hij
    · exact absurd hopen (opens_outbox_unique hj.1 hi hij hagain)
  case commit_first => exact fun i j hi hj hopen hcommit =>
    commit_before_outbox hi.1 hj hopen hcommit
  case commit_unmoved => exact fun n t hn h => commit_unmoved (hn.2 n hn.1 (le_refl n)) h
  case outbox_unmoved => exact fun n t hn h => outbox_unmoved (hn.2 n hn.1 (le_refl n)) h
  case windows => exact covered_windows hclock

end Stretch

namespace Sample

def reverted : Nat → GraceProbe
  | 0 => ⟨true, false, false, time 0⟩
  | 1 => ⟨false, true, false, time 60⟩
  | n + 2 => ⟨true, false, false, time (n + 120)⟩

theorem reverted_clock {i j : Nat} (h : i ≤ j) : (reverted i).now ≤ (reverted j).now := by
  apply monotone_nat_of_le_succ (f := fun n => (reverted n).now) ?_ h
  intro n
  match n with
  | 0 => decide
  | 1 => decide
  | n + 2 => simp only [reverted, time, seconds]; omega

end Sample

open Sample in
theorem grace_law_reverted : Opens Prod.fst reverted 0 ∧ Opens Prod.snd reverted 1 ∧
    ∀ i j, Opens Prod.snd reverted i → NoOutbox reverted 0 i → NoOutbox reverted 0 j →
      Opens Prod.fst reverted j → j < i := by
  have hlaw := (grace_law reverted fun _ _ h => reverted_clock h).2 0
  exact ⟨⟨rfl, rfl⟩, ⟨rfl, rfl⟩, fun i j hopen hi hj => hlaw.commit_first i j hi hj hopen⟩

end Orchestrator

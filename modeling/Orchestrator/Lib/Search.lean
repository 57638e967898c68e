import Mathlib.Tactic.Common
import Mathlib.Data.List.Nodup

universe u

/-! A depth-first search below a node that stops at the first hit, goes down a bounded number of
levels and looks at no node twice. -/

namespace Search

variable {α : Type u}

def Descends (children : α → List α) : Nat → α → α → Prop
  | 0, x, y => x = y
  | n + 1, x, y => ∃ c ∈ children x, Descends children n c y

section Descends

variable {children : α → List α} {root x y z : α} {n k : Nat}

theorem Descends.snoc (h : Descends children n x y) (hz : z ∈ children y) :
    Descends children (n + 1) x z := by
  induction n generalizing x with
  | zero =>
    obtain rfl : x = y := h
    exact ⟨z, hz, rfl⟩
  | succ n ih =>
    obtain ⟨c, hc, hy⟩ := h
    exact ⟨c, hc, ih hy⟩

structure Tree (children : α → List α) (root : α) : Prop where
  parent : ∀ x y c, c ∈ children x → c ∈ children y → x = y
  root : ∀ n, ¬Descends children (n + 1) root root

theorem Tree.ofRank (rank : α → Nat) (hrank : ∀ x c, c ∈ children x → rank x < rank c)
    (hparent : ∀ x y c, c ∈ children x → c ∈ children y → x = y) : Tree children root := by
  have hlt (n : Nat) (x y : α) (h : Descends children (n + 1) x y) : rank x < rank y := by
    induction n generalizing x with
    | zero =>
      obtain ⟨c, hc, rfl⟩ := h
      exact hrank x c hc
    | succ n ih =>
      obtain ⟨c, hc, hy⟩ := h
      exact Nat.lt_trans (hrank x c hc) (ih c hy)
  exact ⟨hparent, fun n h => absurd (hlt n root root h) (Nat.lt_irrefl _)⟩

end Descends

/-- The nodes to look below, with their depths, the next one first, and those looked at. -/
structure State (α : Type u) where
  stack : List (α × Nat)
  visited : List α

section Program

variable [DecidableEq α] (children : α → List α) (hit : α → Bool) (limit : Nat)

def scan (depth : Nat) : List α → State α → Option (State α)
  | [], s => some s
  | c :: cs, s =>
    if c ∈ s.visited then scan depth cs s
    else if hit c then none
    else scan depth cs
      { visited := c :: s.visited
        stack := if depth < limit then (c, depth + 1) :: s.stack else s.stack }

def search : Nat → State α → Bool
  | 0, _ => false
  | fuel + 1, s =>
    match s.stack with
    | [] => false
    | (x, depth) :: stack =>
      match scan hit limit depth (children x) { s with stack := stack } with
      | none => true
      | some t => search fuel t

def total {β : Type u} (f : β → Nat) : List β → Nat
  | [] => 0
  | x :: xs => f x + total f xs

/-- The nodes within `n` levels below a node, counted once for each way down to them. -/
def size : Nat → α → Nat
  | 0, _ => 1
  | n + 1, x => 1 + total (size n) (children x)

def below (root : α) : Bool :=
  search children hit limit (size children limit root) ⟨[(root, 0)], [root]⟩

end Program

section Scan

variable [DecidableEq α] {hit : α → Bool} {limit depth : Nat} {cs : List α} {s t : State α} {c : α}

structure Scanned (hit : α → Bool) (limit depth : Nat) (cs : List α) (s t : State α) : Prop where
  visited : ∃ new, t.visited = new ++ s.visited ∧ (∀ c ∈ new, c ∈ cs ∧ c ∉ s.visited) ∧ new.Nodup ∧
    t.stack = (if depth < limit then new.map (·, depth + 1) else []) ++ s.stack
  missed : ∀ c ∈ cs, c ∉ s.visited → hit c = false
  covered : ∀ c ∈ cs, c ∈ t.visited

theorem scanned (h : scan hit limit depth cs s = some t) : Scanned hit limit depth cs s t := by
  induction cs generalizing s with
  | nil =>
    obtain rfl : s = t := Option.some.inj h
    exact ⟨⟨[], rfl, by simp, List.nodup_nil, by simp⟩, by simp, by simp⟩
  | cons c cs ih =>
    rw [scan] at h
    split at h
    · rename_i hc
      obtain ⟨⟨new, hnew, hcs, hnodup, hstack⟩, hmissed, hcovered⟩ := ih h
      refine ⟨⟨new, hnew, ?_, hnodup, hstack⟩, ?_, ?_⟩
      · exact fun d hd => ⟨List.mem_cons_of_mem _ (hcs d hd).1, (hcs d hd).2⟩
      · intro d hd hnot
        obtain rfl | hd := List.mem_cons.mp hd
        · exact absurd hc hnot
        · exact hmissed d hd hnot
      · intro d hd
        obtain rfl | hd := List.mem_cons.mp hd
        · rw [hnew]
          exact List.mem_append_right _ hc
        · exact hcovered d hd
    · rename_i hc
      split at h
      · cases h
      · rename_i hhit
        obtain ⟨⟨new, hnew, hcs, hnodup, hstack⟩, hmissed, hcovered⟩ := ih h
        refine ⟨⟨new ++ [c], ?_, ?_, ?_, ?_⟩, ?_, ?_⟩
        · simp [hnew]
        · intro d hd
          obtain hd | hd := List.mem_append.mp hd
          · have hd := hcs d hd
            exact ⟨List.mem_cons_of_mem _ hd.1, fun h => hd.2 (List.mem_cons_of_mem _ h)⟩
          · obtain rfl := List.mem_singleton.mp hd
            exact ⟨List.mem_cons_self, hc⟩
        · refine List.Nodup.append hnodup (List.nodup_singleton c) ?_
          intro d hd hdc
          obtain rfl := List.mem_singleton.mp hdc
          exact (hcs d hd).2 List.mem_cons_self
        · rw [hstack]
          split <;> simp
        · intro d hd hnot
          obtain rfl | hd := List.mem_cons.mp hd
          · simpa using hhit
          · by_cases hdc : d = c
            · subst hdc
              simpa using hhit
            · exact hmissed d hd (by simp [hdc, hnot])
        · intro d hd
          obtain rfl | hd := List.mem_cons.mp hd
          · simp [hnew]
          · exact hcovered d hd

theorem scan_hit (h : scan hit limit depth cs s = none) : ∃ c ∈ cs, hit c = true := by
  induction cs generalizing s with
  | nil => cases h
  | cons c cs ih =>
    rw [scan] at h
    split at h
    · obtain ⟨d, hd, hhit⟩ := ih h
      exact ⟨d, List.mem_cons_of_mem _ hd, hhit⟩
    · split at h
      · rename_i hhit
        exact ⟨c, List.mem_cons_self, hhit⟩
      · obtain ⟨d, hd, hhit⟩ := ih h
        exact ⟨d, List.mem_cons_of_mem _ hd, hhit⟩

end Scan

section Fuel

variable {children : α → List α} {hit : α → Bool} {limit : Nat}

theorem total_append {β : Type u} (f : β → Nat) (xs ys : List β) :
    total f (xs ++ ys) = total f xs + total f ys := by
  induction xs with
  | nil => simp [total]
  | cons x xs ih => rw [List.cons_append, total, total, ih, Nat.add_assoc]

theorem size_pos (children : α → List α) (n : Nat) (x : α) : 0 < size children n x := by
  cases n with
  | zero => exact Nat.one_pos
  | succ n => exact Nat.lt_of_lt_of_le Nat.one_pos (Nat.le_add_right _ _)

def weight (children : α → List α) (limit : Nat) (stack : List (α × Nat)) : Nat :=
  total (fun p => size children (limit - p.2) p.1) stack

theorem weight_cons (x : α) (d : Nat) (stack : List (α × Nat)) :
    weight children limit ((x, d) :: stack) =
      size children (limit - d) x + weight children limit stack := rfl

variable [DecidableEq α] {d : Nat} {s t : State α}

theorem weight_scan (children : α → List α) (hd : d < limit) {cs : List α}
    (h : scan hit limit d cs s = some t) :
    weight children limit t.stack ≤
      weight children limit s.stack + total (size children (limit - (d + 1))) cs := by
  induction cs generalizing s with
  | nil =>
    obtain rfl : s = t := Option.some.inj h
    exact Nat.le_add_right _ _
  | cons c cs ih =>
    rw [total]
    rw [scan] at h
    split at h
    · have hle := ih h
      omega
    · split at h
      · cases h
      · have hle := ih h
        rw [weight_cons] at hle
        omega

theorem weight_lt {x : α} {stack : List (α × Nat)} {visited : List α}
    (h : scan hit limit d (children x) ⟨stack, visited⟩ = some t) :
    weight children limit t.stack < weight children limit ((x, d) :: stack) := by
  rw [weight_cons]
  by_cases hd : d < limit
  · have hle := weight_scan children hd h
    obtain ⟨k, hk⟩ : ∃ k, limit - d = k + 1 := ⟨limit - d - 1, by omega⟩
    have hk' : limit - (d + 1) = k := by omega
    rw [hk'] at hle
    rw [hk, size]
    simp only at hle
    omega
  · obtain ⟨⟨new, -, -, -, hstack⟩, -, -⟩ := scanned h
    have hpos := size_pos children (limit - d) x
    simp only [hd, if_false, List.nil_append] at hstack
    rw [hstack]
    omega

end Fuel

section Found

variable [DecidableEq α] {children : α → List α} {hit : α → Bool} {limit : Nat} {root : α}
  {s t : State α} {fuel : Nat}

def Placed (children : α → List α) (limit : Nat) (root : α) (stack : List (α × Nat)) : Prop :=
  ∀ p ∈ stack, p.2 ≤ limit ∧ Descends children p.2 root p.1

theorem Placed.scanned {x : α} {d : Nat} {stack : List (α × Nat)} {visited : List α}
    (hp : Placed children limit root ((x, d) :: stack))
    (h : scan hit limit d (children x) ⟨stack, visited⟩ = some t) :
    Placed children limit root t.stack := by
  obtain ⟨⟨new, -, hcs, -, hstack⟩, -, -⟩ := Search.scanned h
  obtain ⟨hx, hrest⟩ := List.forall_mem_cons.mp hp
  rw [hstack]
  intro p hmem
  obtain hmem | hmem := List.mem_append.mp hmem
  · split at hmem
    · obtain ⟨c, hc, rfl⟩ := List.mem_map.mp hmem
      exact ⟨‹d < limit›, hx.2.snoc (hcs c hc).1⟩
    · cases hmem
  · exact hrest p hmem

theorem search_sound (hp : Placed children limit root s.stack)
    (h : search children hit limit fuel s = true) :
    ∃ n y, n ≤ limit ∧ Descends children (n + 1) root y ∧ hit y = true := by
  induction fuel generalizing s with
  | zero => cases h
  | succ fuel ih =>
    obtain ⟨stack, visited⟩ := s
    rw [search] at h
    cases stack with
    | nil => cases h
    | cons p stack =>
      obtain ⟨x, d⟩ := p
      simp only at h
      cases hscan : scan hit limit d (children x) ⟨stack, visited⟩ with
      | none =>
        obtain ⟨c, hc, hhit⟩ := scan_hit hscan
        obtain ⟨hd, hx⟩ := hp (x, d) List.mem_cons_self
        exact ⟨d, c, hd, hx.snoc hc, hhit⟩
      | some t =>
        rw [hscan] at h
        exact ih (hp.scanned hscan) h

structure Frontier (children : α → List α) (root : α) (s : State α) : Prop where
  reached : ∀ p ∈ s.stack, ∃ n, Descends children n root p.1
  nodup : (s.stack.map Prod.fst).Nodup
  seen : ∀ p ∈ s.stack, p.1 ∈ s.visited
  fresh : ∀ p ∈ s.stack, ∀ c ∈ children p.1, c ∉ s.visited
  parents : ∀ v ∈ s.visited, v = root ∨
    ∃ q ∈ s.visited, q ∉ s.stack.map Prod.fst ∧ v ∈ children q

def Pending (children : α → List α) (hit : α → Bool) (limit : Nat) (stack : List (α × Nat)) :
    Prop :=
  ∃ p ∈ stack, ∃ n y, p.2 + n ≤ limit ∧ Descends children (n + 1) p.1 y ∧ hit y = true

theorem Frontier.scanned {x : α} {d : Nat} {stack : List (α × Nat)} {visited : List α}
    (htree : Tree children root) (hf : Frontier children root ⟨(x, d) :: stack, visited⟩)
    (h : scan hit limit d (children x) ⟨stack, visited⟩ = some t) :
    Frontier children root t := by
  obtain ⟨⟨new, hnew, hcs, hnodup, hstack⟩, -, -⟩ := Search.scanned h
  obtain ⟨hreached, hdistinct, hseen, hfresh, hparents⟩ := hf
  obtain ⟨⟨k, hx⟩, hreached⟩ := List.forall_mem_cons.mp hreached
  obtain ⟨hxseen, hseen⟩ := List.forall_mem_cons.mp hseen
  obtain ⟨hxfresh, hfresh⟩ := List.forall_mem_cons.mp hfresh
  obtain ⟨hxstack, hdistinct⟩ := List.nodup_cons.mp hdistinct
  simp only at hnew hcs hstack hx hxseen hxfresh hseen hfresh hparents
  -- The nodes on the new stack are those of the old one, or children seen just now.
  have hmem : ∀ p ∈ t.stack, p ∈ stack ∨ p.1 ∈ new := by
    intro p hp
    rw [hstack] at hp
    obtain hp | hp := List.mem_append.mp hp
    · split at hp
      · obtain ⟨c, hc, rfl⟩ := List.mem_map.mp hp
        exact .inr hc
      · cases hp
    · exact .inl hp
  have hparents' : ∀ v ∈ t.visited, v = root ∨
      ∃ q ∈ t.visited, q ∉ t.stack.map Prod.fst ∧ v ∈ children q := by
    have hold : ∀ q ∈ visited, q ∉ ((x, d) :: stack).map Prod.fst → q ∉ t.stack.map Prod.fst := by
      intro q hq hnot hmap
      obtain ⟨p, hp, rfl⟩ := List.mem_map.mp hmap
      obtain hp | hp := hmem p hp
      · exact hnot (List.mem_map_of_mem (List.mem_cons_of_mem _ hp))
      · exact (hcs p.1 hp).2 hq
    intro v hv
    rw [hnew] at hv ⊢
    obtain hv | hv := List.mem_append.mp hv
    · refine .inr ⟨x, List.mem_append_right _ hxseen, ?_, (hcs v hv).1⟩
      intro hmap
      obtain ⟨p, hp, rfl⟩ := List.mem_map.mp hmap
      obtain hp | hp := hmem p hp
      · exact hxstack (List.mem_map.mpr ⟨p, hp, rfl⟩)
      · exact (hcs p.1 hp).2 hxseen
    · obtain hroot | ⟨q, hq, hnot, hvq⟩ := hparents v hv
      · exact .inl hroot
      · exact .inr ⟨q, List.mem_append_right _ hq, hold q hq hnot, hvq⟩
  refine ⟨?_, ?_, ?_, ?_, hparents'⟩
  · intro p hp
    obtain hp | hp := hmem p hp
    · exact hreached p hp
    · exact ⟨k + 1, hx.snoc (hcs p.1 hp).1⟩
  · have hmap : t.stack.map Prod.fst =
        (if d < limit then new else []) ++ stack.map Prod.fst := by
      rw [hstack]
      split <;> simp [Function.comp_def]
    have hapart : List.Disjoint new (stack.map Prod.fst) := by
      intro c hc hmap
      obtain ⟨p, hp, rfl⟩ := List.mem_map.mp hmap
      exact (hcs p.1 hc).2 (hseen p hp)
    rw [hmap]
    split
    · exact hnodup.append hdistinct hapart
    · exact hdistinct
  · intro p hp
    rw [hnew]
    obtain hp | hp := hmem p hp
    · exact List.mem_append_right _ (hseen p hp)
    · exact List.mem_append_left _ hp
  · intro p hp c hc hv
    obtain hold | hnewp := hmem p hp
    · rw [hnew] at hv
      obtain hv | hv := List.mem_append.mp hv
      · have heq := htree.parent _ _ _ hc (hcs c hv).1
        exact hxstack (List.mem_map.mpr ⟨p, hold, heq⟩)
      · exact hfresh p hold c hc hv
    · obtain rfl | ⟨q, -, hnot, hcq⟩ := hparents' c hv
      · exact htree.root _ ((hx.snoc (hcs p.1 hnewp).1).snoc hc)
      · have heq := htree.parent _ _ _ hc hcq
        exact hnot (List.mem_map.mpr ⟨p, hp, heq⟩)

theorem Pending.scanned {x : α} {d : Nat} {stack : List (α × Nat)} {visited : List α}
    (hp : Pending children hit limit ((x, d) :: stack))
    (hfresh : ∀ c ∈ children x, c ∉ visited)
    (h : scan hit limit d (children x) ⟨stack, visited⟩ = some t) :
    Pending children hit limit t.stack := by
  obtain ⟨⟨new, hnew, -, -, hstack⟩, hmissed, hcovered⟩ := Search.scanned h
  obtain ⟨p, hmem, n, y, hn, hy, hhit⟩ := hp
  obtain rfl | hmem := List.mem_cons.mp hmem
  · obtain ⟨c, hc, hy⟩ := hy
    cases n with
    | zero =>
      obtain rfl : c = y := hy
      rw [hmissed c hc (hfresh c hc)] at hhit
      cases hhit
    | succ n =>
      simp only at hn
      have hcnew : c ∈ new := by
        have hv := hcovered c hc
        rw [hnew] at hv
        exact (List.mem_append.mp hv).resolve_right (hfresh c hc)
      refine ⟨(c, d + 1), ?_, n, y, by simp only; omega, hy, hhit⟩
      rw [hstack, if_pos (by omega)]
      exact List.mem_append_left _ (List.mem_map_of_mem hcnew)
  · refine ⟨p, ?_, n, y, hn, hy, hhit⟩
    rw [hstack]
    exact List.mem_append_right _ hmem

theorem search_complete (htree : Tree children root) (hf : Frontier children root s)
    (hp : Pending children hit limit s.stack) (hfuel : weight children limit s.stack ≤ fuel) :
    search children hit limit fuel s = true := by
  induction fuel generalizing s with
  | zero =>
    obtain ⟨p, hmem, -⟩ := hp
    obtain ⟨front, back, heq⟩ := List.append_of_mem hmem
    have hpos := size_pos children (limit - p.2) p.1
    rw [heq] at hfuel
    rw [weight, total_append, total] at hfuel
    omega
  | succ fuel ih =>
    obtain ⟨stack, visited⟩ := s
    rw [search]
    cases stack with
    | nil =>
      obtain ⟨p, hmem, -⟩ := hp
      cases hmem
    | cons p stack =>
      obtain ⟨x, d⟩ := p
      simp only
      cases hscan : scan hit limit d (children x) ⟨stack, visited⟩ with
      | none => rfl
      | some t =>
        have hlt := weight_lt hscan
        apply ih (hf.scanned htree hscan)
        · exact hp.scanned (hf.fresh (x, d) List.mem_cons_self) hscan
        · simp only at hfuel
          omega

theorem below_sound (h : below children hit limit root = true) :
    ∃ n y, n ≤ limit ∧ Descends children (n + 1) root y ∧ hit y = true := by
  apply search_sound _ h
  intro p hp
  obtain rfl := List.mem_singleton.mp hp
  exact ⟨Nat.zero_le _, rfl⟩

/-- In a tree, the search finds a hit exactly when one stands at most `limit + 1` levels below
the root. -/
theorem below_iff (htree : Tree children root) : below children hit limit root = true ↔
    ∃ n y, n ≤ limit ∧ Descends children (n + 1) root y ∧ hit y = true := by
  refine ⟨below_sound, ?_⟩
  rintro ⟨n, y, hn, hy, hhit⟩
  have hroot (c : α) (hc : c ∈ children root) : c ≠ root := by
    rintro rfl
    exact htree.root 0 ⟨c, hc, rfl⟩
  apply search_complete htree
  · refine ⟨?_, by simp, by simp, by simpa using hroot, by simp⟩
    intro p hp
    obtain rfl := List.mem_singleton.mp hp
    exact ⟨0, rfl⟩
  · exact ⟨(root, 0), List.mem_singleton_self _, n, y, by simpa using hn, hy, hhit⟩
  · simp [weight, total]

end Found

end Search

import Mathlib.Data.List.Basic
import Mathlib.Data.List.Induction
import Mathlib.Data.List.Nodup
import Mathlib.Order.Lattice
import Mathlib.Tactic.Common

universe u v w

/-! Keeping, of a list of stamped entries, the latest of each key. -/

namespace Latest

section Keep

variable {α : Type u} {κ : Type v} {τ : Type w} [LinearOrder τ] (key : α → κ) (stamp : α → τ)

/-- `y` is the first entry of its key with the greatest stamp. -/
def IsLatest (xs : List α) (y : α) : Prop :=
  ∃ older newer, xs = older ++ y :: newer ∧ (∀ x ∈ older, key x = key y → stamp x < stamp y) ∧
    ∀ x ∈ newer, key x = key y → stamp x ≤ stamp y

def Untied (xs : List α) : Prop :=
  ∀ x ∈ xs, ∀ y ∈ xs, key x = key y → stamp x = stamp y → x = y

section Snoc

variable {key stamp} {x y : α} {xs : List α}

theorem isLatest_snoc : IsLatest key stamp (xs ++ [x]) y ↔
    (IsLatest key stamp xs y ∧ (key x = key y → stamp x ≤ stamp y)) ∨
      (y = x ∧ ∀ z ∈ xs, key z = key x → stamp z < stamp x) := by
  constructor
  · rintro ⟨older, newer, heq, holder, hnewer⟩
    obtain rfl | ⟨newer, z, rfl⟩ := List.eq_nil_or_concat newer
    · obtain ⟨rfl, hlast⟩ := List.append_inj' heq rfl
      obtain rfl := (List.cons.inj hlast).1
      exact .inr ⟨rfl, holder⟩
    · rw [List.concat_eq_append, ← List.cons_append, ← List.append_assoc] at heq
      obtain ⟨rfl, hlast⟩ := List.append_inj' heq rfl
      obtain rfl := (List.cons.inj hlast).1
      simp only [List.concat_eq_append, List.mem_append, List.mem_singleton] at hnewer
      exact .inl ⟨⟨older, newer, rfl, holder, fun z hz => hnewer z (.inl hz)⟩, hnewer x (.inr rfl)⟩
  · rintro (⟨⟨older, newer, rfl, holder, hnewer⟩, hx⟩ | ⟨rfl, hall⟩)
    · refine ⟨older, newer ++ [x], by simp, holder, fun z hz hkey => ?_⟩
      obtain hz | hz := List.mem_append.mp hz
      · exact hnewer z hz hkey
      · obtain rfl := List.mem_singleton.mp hz
        exact hx hkey
    · exact ⟨xs, [], rfl, hall, by simp⟩

end Snoc

variable [DecidableEq κ]

theorem isLatest_iff_find? [DecidableEq τ] {y : α} {xs : List α} : IsLatest key stamp xs y ↔
    (∀ x ∈ xs, key x = key y → stamp x ≤ stamp y) ∧
      xs.find? (fun x => key x = key y ∧ stamp x = stamp y) = some y := by
  constructor
  · rintro ⟨older, newer, rfl, holder, hnewer⟩
    constructor
    · intro x hx hkey
      obtain hx | rfl | hx := by simpa only [List.mem_append, List.mem_cons] using hx
      · exact le_of_lt (holder x hx hkey)
      · exact le_refl _
      · exact hnewer x hx hkey
    · rw [List.find?_eq_some_iff_append]
      refine ⟨by simp, older, newer, rfl, fun x hx => ?_⟩
      rw [Bool.not_eq_true', decide_eq_false_iff_not]
      exact fun ⟨hkey, heq⟩ => ne_of_lt (holder x hx hkey) heq
  · rintro ⟨hmax, hfind⟩
    rw [List.find?_eq_some_iff_append] at hfind
    obtain ⟨-, older, newer, rfl, holder⟩ := hfind
    refine ⟨older, newer, rfl, fun x hx hkey => ?_, fun x hx => hmax x (by simp [hx])⟩
    have hx' := holder x hx
    rw [Bool.not_eq_true', decide_eq_false_iff_not] at hx'
    exact lt_of_le_of_ne (hmax x (by simp [hx]) hkey) fun heq => hx' ⟨hkey, heq⟩

def insertLatest (x : α) : List α → List α
  | [] => [x]
  | y :: ys =>
    if key y = key x then (if stamp y < stamp x then x else y) :: ys else y :: insertLatest x ys

def keepLatest (xs : List α) : List α :=
  xs.foldl (fun kept x => insertLatest key stamp x kept) []

variable {key stamp} {x y z : α} {xs ys : List α}

theorem keys_insertLatest : (insertLatest key stamp x ys).map key =
    if key x ∈ ys.map key then ys.map key else ys.map key ++ [key x] := by
  induction ys with
  | nil => rfl
  | cons y ys ih =>
    rw [insertLatest]
    by_cases hkey : key y = key x
    · have hhead : key (if stamp y < stamp x then x else y) = key y := by
        split
        · exact hkey.symm
        · rfl
      simp [hkey, hhead]
    · by_cases hmem : key x ∈ ys.map key
      · simp only [if_neg hkey, List.map_cons, ih, if_pos hmem]
        rw [if_pos (List.mem_cons_of_mem _ hmem)]
      · simp only [if_neg hkey, List.map_cons, ih, if_neg hmem]
        rw [if_neg (by simpa [Ne.symm hkey] using hmem)]
        rfl

theorem nodup_insertLatest (h : (ys.map key).Nodup) :
    ((insertLatest key stamp x ys).map key).Nodup := by
  rw [keys_insertLatest]
  split
  · exact h
  · rename_i hnew
    rw [List.nodup_append]
    refine ⟨h, List.nodup_singleton _, ?_⟩
    rintro k hk _ hx rfl
    obtain rfl := List.mem_singleton.mp hx
    exact hnew hk

theorem mem_insertLatest (h : (ys.map key).Nodup) : y ∈ insertLatest key stamp x ys ↔
    (y ∈ ys ∧ (key y = key x → stamp x ≤ stamp y)) ∨
      (y = x ∧ ∀ z ∈ ys, key z = key x → stamp z < stamp x) := by
  induction ys with
  | nil => simp [insertLatest]
  | cons w ys ih =>
    obtain ⟨hw, hys⟩ := List.nodup_cons.mp h
    rw [insertLatest]
    by_cases hkey : key w = key x
    · have hother : ∀ z ∈ ys, key z ≠ key x := fun z hz heq =>
        hw (List.mem_map.mpr ⟨z, hz, heq.trans hkey.symm⟩)
      rw [if_pos hkey]
      by_cases hlt : stamp w < stamp x
      · rw [if_pos hlt]
        simp only [List.mem_cons]
        constructor
        · rintro (rfl | hy)
          · refine .inr ⟨rfl, ?_⟩
            rintro z (rfl | hz) hzkey
            · exact hlt
            · exact absurd hzkey (hother z hz)
          · exact .inl ⟨.inr hy, fun heq => absurd heq (hother y hy)⟩
        · rintro (⟨rfl | hy, hle⟩ | ⟨rfl, -⟩)
          · exact absurd (hle hkey) (not_le.mpr hlt)
          · exact .inr hy
          · exact .inl rfl
      · rw [if_neg hlt]
        simp only [List.mem_cons]
        constructor
        · rintro (rfl | hy)
          · exact .inl ⟨.inl rfl, fun _ => not_lt.mp hlt⟩
          · exact .inl ⟨.inr hy, fun heq => absurd heq (hother y hy)⟩
        · rintro (⟨hy, -⟩ | ⟨-, hall⟩)
          · exact hy
          · exact absurd (hall w (.inl rfl) hkey) hlt
    · rw [if_neg hkey, List.mem_cons, ih hys]
      simp only [List.mem_cons, forall_eq_or_imp, hkey, false_implies, true_and]
      constructor
      · rintro (rfl | ⟨hy, hle⟩ | hx)
        · exact .inl ⟨.inl rfl, fun heq => absurd heq hkey⟩
        · exact .inl ⟨.inr hy, hle⟩
        · exact .inr hx
      · rintro (⟨rfl | hy, hle⟩ | hx)
        · exact .inl rfl
        · exact .inr (.inl ⟨hy, hle⟩)
        · exact .inr (.inr hx)

theorem keepLatest_snoc : keepLatest key stamp (xs ++ [x]) =
    insertLatest key stamp x (keepLatest key stamp xs) := by
  simp [keepLatest]

theorem nodup_keepLatest : ((keepLatest key stamp xs).map key).Nodup := by
  induction xs using List.reverseRecOn with
  | nil => exact List.nodup_nil
  | append_singleton xs x ih =>
    rw [keepLatest_snoc]
    exact nodup_insertLatest ih

theorem mem_of_mem_keepLatest (h : y ∈ keepLatest key stamp xs) : y ∈ xs := by
  induction xs using List.reverseRecOn with
  | nil => exact h
  | append_singleton xs x ih =>
    rw [keepLatest_snoc, mem_insertLatest nodup_keepLatest] at h
    obtain ⟨hy, -⟩ | ⟨rfl, -⟩ := h
    · exact List.mem_append_left _ (ih hy)
    · exact List.mem_append_right _ (List.mem_singleton_self _)

variable (key stamp) in
theorem exists_keepLatest (h : z ∈ xs) :
    ∃ y ∈ keepLatest key stamp xs, key y = key z ∧ stamp z ≤ stamp y := by
  induction xs using List.reverseRecOn with
  | nil => cases h
  | append_singleton xs x ih =>
    simp only [keepLatest_snoc, mem_insertLatest nodup_keepLatest]
    by_cases hlast : ∀ y ∈ keepLatest key stamp xs, key y = key x → stamp y < stamp x
    · obtain hz | hz := List.mem_append.mp h
      · obtain ⟨y, hy, hkey, hle⟩ := ih hz
        by_cases hyx : key y = key x
        · have hyx' : stamp y < stamp x := hlast y hy hyx
          exact ⟨x, .inr ⟨rfl, hlast⟩, hyx.symm.trans hkey, le_trans hle (le_of_lt hyx')⟩
        · exact ⟨y, .inl ⟨hy, fun heq => absurd heq hyx⟩, hkey, hle⟩
      · obtain rfl := List.mem_singleton.mp hz
        exact ⟨z, .inr ⟨rfl, hlast⟩, rfl, le_refl _⟩
    · push Not at hlast
      obtain ⟨w, hw, hwx, hle⟩ := hlast
      obtain hz | hz := List.mem_append.mp h
      · obtain ⟨y, hy, hkey, hzy⟩ := ih hz
        refine ⟨y, .inl ⟨hy, fun hyx => ?_⟩, hkey, hzy⟩
        obtain rfl := List.inj_on_of_nodup_map nodup_keepLatest hy hw (hyx.trans hwx.symm)
        exact hle
      · obtain rfl := List.mem_singleton.mp hz
        exact ⟨w, .inl ⟨hw, fun _ => hle⟩, hwx, hle⟩

theorem mem_keepLatest : y ∈ keepLatest key stamp xs ↔ IsLatest key stamp xs y := by
  induction xs using List.reverseRecOn generalizing y with
  | nil => simp [keepLatest, IsLatest]
  | append_singleton xs x ih =>
    rw [keepLatest_snoc, mem_insertLatest nodup_keepLatest, isLatest_snoc, ih]
    have hall : (∀ z ∈ keepLatest key stamp xs, key z = key x → stamp z < stamp x) ↔
        ∀ z ∈ xs, key z = key x → stamp z < stamp x := by
      constructor
      · intro h z hz hkey
        obtain ⟨w, hw, hwz, hle⟩ := exists_keepLatest key stamp hz
        exact lt_of_le_of_lt hle (h w hw (hwz.trans hkey))
      · exact fun h z hz => h z (mem_of_mem_keepLatest hz)
    rw [hall, eq_comm (a := key y)]

theorem mem_keepLatest_of_untied (h : Untied key stamp xs) : y ∈ keepLatest key stamp xs ↔
    y ∈ xs ∧ ∀ x ∈ xs, key x = key y → stamp x ≤ stamp y := by
  constructor
  · intro hy
    refine ⟨mem_of_mem_keepLatest hy, fun x hx hkey => ?_⟩
    obtain ⟨w, hw, hwx, hle⟩ := exists_keepLatest key stamp hx
    obtain rfl := List.inj_on_of_nodup_map nodup_keepLatest hw hy (hwx.trans hkey)
    exact hle
  · rintro ⟨hy, hmax⟩
    obtain ⟨w, hw, hwy, hle⟩ := exists_keepLatest key stamp hy
    have hwxs := mem_of_mem_keepLatest hw
    obtain rfl := h w hwxs y hy hwy (le_antisymm (hmax w hwxs hwy) hle)
    exact hw

theorem keepLatest_perm (h : Untied key stamp xs) (hp : xs.Perm ys) :
    (keepLatest key stamp xs).Perm (keepLatest key stamp ys) := by
  have hys : Untied key stamp ys := fun x hx y hy =>
    h x (hp.mem_iff.mpr hx) y (hp.mem_iff.mpr hy)
  rw [List.perm_ext_iff_of_nodup nodup_keepLatest.of_map nodup_keepLatest.of_map]
  intro y
  simp only [mem_keepLatest_of_untied h, mem_keepLatest_of_untied hys, hp.mem_iff]

end Keep

end Latest

import Orchestrator.Lib.Lines

/-! UTF-8: what encoding and decoding do to each other, and to a text that is cut anywhere. -/

namespace Rust

inductive Encoded (n : Nat) : Bytes → Prop
  | one {b₀ : UInt8} : n < 0x80 → b₀.toNat = n → Encoded n [b₀]
  | two {b₀ b₁ : UInt8} : 0x80 ≤ n → n < 0x800 → b₀.toNat = 0xC0 + n / 64 →
      b₁.toNat = 0x80 + n % 64 → Encoded n [b₀, b₁]
  | three {b₀ b₁ b₂ : UInt8} : 0x800 ≤ n → n < 0xD800 ∨ 0xDFFF < n → n < 0x10000 →
      b₀.toNat = 0xE0 + n / 4096 → b₁.toNat = 0x80 + n / 64 % 64 → b₂.toNat = 0x80 + n % 64 →
      Encoded n [b₀, b₁, b₂]
  | four {b₀ b₁ b₂ b₃ : UInt8} : 0x10000 ≤ n → n < 0x110000 → b₀.toNat = 0xF0 + n / 262144 →
      b₁.toNat = 0x80 + n / 4096 % 64 → b₂.toNat = 0x80 + n / 64 % 64 →
      b₃.toNat = 0x80 + n % 64 → Encoded n [b₀, b₁, b₂, b₃]

variable {bs : Bytes} {b b₀ b₁ b₂ b₃ : UInt8}

theorem isContinuation_iff : isContinuation b = true ↔ 0x80 ≤ b.toNat ∧ b.toNat ≤ 0xBF := by
  simp [isContinuation, UInt8.le_iff_toNat_le]

theorem isSecond_iff : isSecond b₀ b₁ = true ↔ 0x80 ≤ b₁.toNat ∧ b₁.toNat ≤ 0xBF ∧
    (b₀.toNat = 0xE0 → 0xA0 ≤ b₁.toNat) ∧ (b₀.toNat = 0xED → b₁.toNat ≤ 0x9F) ∧
    (b₀.toNat = 0xF0 → 0x90 ≤ b₁.toNat) ∧ (b₀.toNat = 0xF4 → b₁.toNat ≤ 0x8F) := by
  simp only [isSecond, beq_iff_eq, ← UInt8.toNat_inj, UInt8.reduceToNat]
  split_ifs <;> simp [isContinuation, UInt8.le_iff_toNat_le] <;> omega

theorem toNat_byte {n : Nat} (h : n < 256) : (UInt8.ofNat n).toNat = n := by
  rw [UInt8.toNat_ofNat']
  exact Nat.mod_eq_of_lt h

theorem encoded (c : Char) : Encoded c.toNat (String.utf8EncodeChar c) := by
  have hvalid : c.toNat < 0xD800 ∨ 0xDFFF < c.toNat ∧ c.toNat < 0x110000 := c.valid
  have hn : c.val.toNat = c.toNat := rfl
  simp only [String.utf8EncodeChar, hn]
  split
  · exact .one (by omega) (toNat_byte (by omega))
  · split
    · apply Encoded.two
      all_goals first | omega | (rw [toNat_byte] <;> omega)
    · split
      · apply Encoded.three
        all_goals first | omega | (rw [toNat_byte] <;> omega)
      · apply Encoded.four
        all_goals first | omega | (rw [toNat_byte] <;> omega)

theorem utf8Chunks_encoded {n : Nat} {c : Bytes} (h : Encoded n c) (bs : Bytes) :
    utf8Chunks (c ++ bs) = some (Char.ofNat n) :: utf8Chunks bs := by
  cases h with
  | one h h₀ =>
    rw [List.singleton_append, utf8Chunks.eq_def]
    simp [UInt8.lt_iff_toNat_lt, h₀, h]
  | @two b₀ b₁ h h' h₀ h₁ =>
    have hn : b₀.toNat % 32 * 64 + b₁.toNat % 64 = n := by omega
    have hcont : isContinuation b₁ = true := isContinuation_iff.mpr (by omega)
    rw [List.cons_append, utf8Chunks.eq_def]
    simp only [List.singleton_append, hcont, if_true, low6, hn, UInt8.lt_iff_toNat_lt,
      UInt8.le_iff_toNat_le, UInt8.reduceToNat, Bool.and_eq_true, decide_eq_true_eq]
    rw [if_neg (by omega), if_pos (by omega)]
  | @three b₀ b₁ b₂ h h' h'' h₀ h₁ h₂ =>
    have hn : (b₀.toNat % 16 * 64 + b₁.toNat % 64) * 64 + b₂.toNat % 64 = n := by omega
    have hsecond : isSecond b₀ b₁ = true := isSecond_iff.mpr (by omega)
    have hcont : isContinuation b₂ = true := isContinuation_iff.mpr (by omega)
    rw [List.cons_append, utf8Chunks.eq_def]
    simp only [List.cons_append, List.nil_append, hsecond, hcont, if_true, low6, hn,
      UInt8.lt_iff_toNat_lt, UInt8.le_iff_toNat_le, UInt8.reduceToNat, Bool.and_eq_true,
      decide_eq_true_eq]
    rw [if_neg (by omega), if_neg (by omega), if_pos (by omega)]
  | @four b₀ b₁ b₂ b₃ h h' h₀ h₁ h₂ h₃ =>
    have hn : ((b₀.toNat % 8 * 64 + b₁.toNat % 64) * 64 + b₂.toNat % 64) * 64 +
        b₃.toNat % 64 = n := by omega
    have hsecond : isSecond b₀ b₁ = true := isSecond_iff.mpr (by omega)
    have hcont : isContinuation b₂ = true := isContinuation_iff.mpr (by omega)
    have hcont' : isContinuation b₃ = true := isContinuation_iff.mpr (by omega)
    rw [List.cons_append, utf8Chunks.eq_def]
    simp only [List.cons_append, List.nil_append, hsecond, hcont, hcont', if_true, low6, hn,
      UInt8.lt_iff_toNat_lt, UInt8.le_iff_toNat_le, UInt8.reduceToNat, Bool.and_eq_true,
      decide_eq_true_eq]
    rw [if_neg (by omega), if_neg (by omega), if_neg (by omega), if_pos (by omega)]

def encode (cs : List Char) : Bytes := cs.flatMap String.utf8EncodeChar

@[simp] theorem encode_nil : encode [] = [] := rfl

@[simp] theorem encode_cons (c : Char) (cs : List Char) :
    encode (c :: cs) = String.utf8EncodeChar c ++ encode cs := rfl

@[simp] theorem encode_append (cs ds : List Char) : encode (cs ++ ds) = encode cs ++ encode ds :=
  List.flatMap_append

theorem length_encode_ascii {cs : List Char} (h : ∀ c ∈ cs, c.toNat < 0x80) :
    (encode cs).length = cs.length := by
  induction cs with
  | nil => rfl
  | cons c cs ih =>
    obtain ⟨hc, hcs⟩ := List.forall_mem_cons.mp h
    have hsize : (String.utf8EncodeChar c).length = 1 := by
      have hx := encoded c
      generalize String.utf8EncodeChar c = xs at hx ⊢
      cases hx <;> first | rfl | omega
    rw [encode_cons, List.length_append, hsize, ih hcs, List.length_cons, Nat.add_comm]

theorem utf8Chunks_encode (cs : List Char) : utf8Chunks (encode cs) = cs.map some := by
  induction cs with
  | nil => rfl
  | cons c cs ih =>
    rw [encode_cons, utf8Chunks_encoded (encoded c), Char.ofNat_toNat, ih, List.map_cons]

theorem Encoded.unique {n : Nat} {xs ys : Bytes} (hx : Encoded n xs) (hy : Encoded n ys) :
    xs = ys := by
  cases hx with
  | one => cases hy <;> simp [← UInt8.toNat_inj] <;> omega
  | two => cases hy <;> simp [← UInt8.toNat_inj] <;> omega
  | three => cases hy <;> simp [← UInt8.toNat_inj] <;> omega
  | four => cases hy <;> simp [← UInt8.toNat_inj] <;> omega

theorem Encoded.valid {n : Nat} {xs : Bytes} (h : Encoded n xs) : n.isValidChar := by
  cases h with
  | one => exact .inl (by omega)
  | two => exact .inl (by omega)
  | three _ hn => exact hn.imp id fun hn => ⟨hn, by omega⟩
  | four => exact .inr ⟨by omega, by omega⟩

theorem encode_of_encoded {n : Nat} {xs : Bytes} (h : Encoded n xs) :
    String.utf8EncodeChar (Char.ofNat n) = xs := by
  have hn : (Char.ofNat n).toNat = n := by
    rw [Char.ofNat, dif_pos h.valid]
    rfl
  exact (hn ▸ encoded (Char.ofNat n)).unique h

/-- How the bytes fall into encoded characters and invalid parts. -/
inductive Decoded : Bytes → List (Option Char) → Prop
  | nil : Decoded [] []
  | char {n : Nat} {bs : Bytes} {cs : List (Option Char)} (xs : Bytes) :
      Encoded n xs → Decoded bs cs → Decoded (xs ++ bs) (some (Char.ofNat n) :: cs)
  | invalid {bs : Bytes} {cs : List (Option Char)} (xs : Bytes) :
      Decoded bs cs → Decoded (xs ++ bs) (none :: cs)

theorem decoded (bs : Bytes) : Decoded bs (utf8Chunks bs) := by
  fun_induction utf8Chunks bs
  case case1 => exact .nil
  case case2 b₀ bs h₀ ih => exact .char [b₀] (.one (UInt8.lt_iff_toNat_lt.mp h₀) rfl) ih
  case case4 b₀ h₀ h₁ b₁ bs hb₁ ih =>
    rw [isContinuation_iff] at hb₁
    simp only [Bool.and_eq_true, decide_eq_true_eq, UInt8.le_iff_toNat_le, UInt8.reduceToNat] at h₁
    refine .char [b₀, b₁] (.two ?_ ?_ ?_ ?_) ih
    all_goals simp only [low6]; omega
  case case8 b₀ h₀ h₁ h₂ b₁ hb₁ b₂ bs hb₂ ih =>
    rw [isContinuation_iff] at hb₂
    rw [isSecond_iff] at hb₁
    simp only [Bool.and_eq_true, decide_eq_true_eq, UInt8.le_iff_toNat_le, UInt8.reduceToNat] at h₂
    refine .char [b₀, b₁, b₂] (.three ?_ ?_ ?_ ?_ ?_ ?_) ih
    all_goals simp only [low6]; omega
  case case14 b₀ h₀ h₁ h₂ h₃ b₁ hb₁ b₂ hb₂ b₃ bs hb₃ ih =>
    rw [isContinuation_iff] at hb₂ hb₃
    rw [isSecond_iff] at hb₁
    simp only [Bool.and_eq_true, decide_eq_true_eq, UInt8.le_iff_toNat_le, UInt8.reduceToNat] at h₃
    refine .char [b₀, b₁, b₂, b₃] (.four ?_ ?_ ?_ ?_ ?_ ?_) ih
    all_goals simp only [low6]; omega
  -- Of an invalid part one to three bytes are left out.
  all_goals first
    | exact .invalid [_] ‹_›
    | exact .invalid [_, _] ‹_›
    | exact .invalid [_, _, _] ‹_›
    | exact .invalid [_] .nil
    | exact .invalid [_, _] .nil
    | exact .invalid [_, _, _] .nil

theorem encode_of_utf8Chunks {bs : Bytes} {cs : List Char} (h : utf8Chunks bs = cs.map some) :
    bs = encode cs := by
  have hd := decoded bs
  generalize utf8Chunks bs = chunks at h hd
  induction hd generalizing cs with
  | nil =>
    obtain rfl := List.map_eq_nil_iff.mp h.symm
    rfl
  | char xs hx _ ih =>
    obtain ⟨c, ds, rfl, hc, hds⟩ := List.map_eq_cons_iff.mp h.symm
    rw [encode_cons, Option.some.inj hc, encode_of_encoded hx, ← ih hds.symm]
  | invalid =>
    obtain ⟨_, _, _, hc, _⟩ := List.map_eq_cons_iff.mp h.symm
    cases hc

theorem encode_subset_of_mem {bs : Bytes} {c : Char} (h : some c ∈ utf8Chunks bs) :
    String.utf8EncodeChar c ⊆ bs := by
  have hd := decoded bs
  generalize utf8Chunks bs = chunks at h hd
  induction hd with
  | nil => cases h
  | char xs hx _ ih =>
    obtain hc | h := List.mem_cons.mp h
    · rw [Option.some.inj hc, encode_of_encoded hx]
      exact List.subset_append_left _ _
    · exact List.Subset.trans (ih h) (List.subset_append_right _ _)
  | invalid xs _ ih =>
    obtain hc | h := List.mem_cons.mp h
    · cases hc
    · exact List.Subset.trans (ih h) (List.subset_append_right _ _)

theorem asBytes_eq_encode (s : String) : asBytes s = encode s.toList := rfl

theorem fromUtf8_eq_some_iff {bs : Bytes} {s : String} : fromUtf8 bs = some s ↔ bs = asBytes s := by
  have hall : ∀ (l : List (Option Char)) (cs : List Char),
      fromUtf8.allSome l = some cs ↔ l = cs.map some := by
    intro l cs
    induction l generalizing cs with
    | nil => cases cs <;> simp [fromUtf8.allSome]
    | cons c l ih => cases c <;> cases cs <;> simp [fromUtf8.allSome, ih, and_comm]
  have hchunks : utf8Chunks bs = s.toList.map some ↔ bs = asBytes s := by
    constructor
    · exact encode_of_utf8Chunks
    · rintro rfl
      exact utf8Chunks_encode _
  rw [← hchunks, ← hall, fromUtf8, Option.map_eq_some_iff]
  constructor
  · rintro ⟨cs, hcs, rfl⟩
    rw [hcs, String.toList_ofList]
  · intro h
    exact ⟨s.toList, h, String.ofList_toList⟩

theorem fromUtf8_asBytes (s : String) : fromUtf8 (asBytes s) = some s :=
  fromUtf8_eq_some_iff.mpr rfl

theorem readToString_asBytes (s : String) : readToString (.ok (asBytes s)) = .ok s := by
  rw [readToString, fromUtf8_asBytes]

theorem isSome_fromUtf8 {bs : Bytes} : (fromUtf8 bs).isSome ↔ none ∉ utf8Chunks bs := by
  have hall : ∀ l : List (Option Char), (fromUtf8.allSome l).isSome ↔ none ∉ l := by
    intro l
    induction l with
    | nil => simp [fromUtf8.allSome]
    | cons c l ih => cases c <;> simp [fromUtf8.allSome, ih]
  rw [fromUtf8, Option.isSome_map, hall]

theorem utf8Chunks_append (xs : Bytes) (h : isContinuation b = false) (ys : Bytes) :
    utf8Chunks (xs ++ b :: ys) = utf8Chunks xs ++ utf8Chunks (b :: ys) := by
  have hsecond : ∀ b₀, isSecond b₀ b = false := by
    intro b₀
    rw [← Bool.not_eq_true, isContinuation_iff] at h
    rw [← Bool.not_eq_true, isSecond_iff]
    omega
  fun_induction utf8Chunks xs with
  | case1 => rfl
  | _ =>
    rw [List.cons_append, utf8Chunks.eq_def]
    grind

theorem utf8Chunks_stray (h : isContinuation b = true) :
    utf8Chunks (b :: bs) = none :: utf8Chunks bs := by
  rw [isContinuation_iff] at h
  rw [utf8Chunks.eq_def]
  simp only [UInt8.lt_iff_toNat_lt, UInt8.le_iff_toNat_le, UInt8.reduceToNat, Bool.and_eq_true,
    decide_eq_true_eq]
  rw [if_neg (by omega), if_neg (by omega), if_neg (by omega), if_neg (by omega)]

theorem utf8Chunks_strays {xs : Bytes} (h : ∀ b ∈ xs, isContinuation b = true) (bs : Bytes) :
    utf8Chunks (xs ++ bs) = List.replicate xs.length none ++ utf8Chunks bs := by
  induction xs with
  | nil => rfl
  | cons b xs ih =>
    rw [List.forall_mem_cons] at h
    rw [List.cons_append, utf8Chunks_stray h.1, ih h.2, List.length_cons, List.replicate_succ,
      List.cons_append]

theorem Encoded.eq_cons {n : Nat} {xs : Bytes} (h : Encoded n xs) :
    ∃ b ys, xs = b :: ys ∧ isContinuation b = false ∧ ∀ y ∈ ys, isContinuation y = true := by
  cases h with
  | one => exact ⟨_, _, rfl, by rw [← Bool.not_eq_true, isContinuation_iff]; omega, by simp⟩
  | two | three | four =>
    refine ⟨_, _, rfl, ?_, ?_⟩
    · rw [← Bool.not_eq_true, isContinuation_iff]
      omega
    · simp only [List.forall_mem_cons, isContinuation_iff, List.not_mem_nil, IsEmpty.forall_iff,
        implies_true, and_true]
      omega

theorem Encoded.utf8Chunks_isPrefix {n : Nat} {xs ys : Bytes} (h : Encoded n xs) (hy : ys <+: xs)
    (hne : ys ≠ xs) : utf8Chunks ys = [] ∨ utf8Chunks ys = [none] := by
  cases h with
  | one => simp_all [List.prefix_cons_iff, utf8Chunks]
  | @two b₀ b₁ h h' h₀ h₁ =>
    obtain rfl | rfl : ys = [] ∨ ys = [b₀] := by
      simpa [← List.mem_inits, hne] using hy
    · exact .inl rfl
    · right
      rw [utf8Chunks.eq_def]
      simp only [UInt8.lt_iff_toNat_lt, UInt8.le_iff_toNat_le, UInt8.reduceToNat,
        Bool.and_eq_true, decide_eq_true_eq]
      rw [if_neg (by omega), if_pos (by omega)]
  | @three b₀ b₁ b₂ h h' h'' h₀ h₁ h₂ =>
    have hsecond : isSecond b₀ b₁ = true := isSecond_iff.mpr (by omega)
    obtain rfl | rfl | rfl : ys = [] ∨ ys = [b₀] ∨ ys = [b₀, b₁] := by
      simpa [← List.mem_inits, hne] using hy
    · exact .inl rfl
    all_goals
      right
      rw [utf8Chunks.eq_def]
      simp only [UInt8.lt_iff_toNat_lt, UInt8.le_iff_toNat_le, UInt8.reduceToNat,
        Bool.and_eq_true, decide_eq_true_eq, hsecond, if_true]
      rw [if_neg (by omega), if_neg (by omega), if_pos (by omega)]
  | @four b₀ b₁ b₂ b₃ h h' h₀ h₁ h₂ h₃ =>
    have hsecond : isSecond b₀ b₁ = true := isSecond_iff.mpr (by omega)
    have hcont : isContinuation b₂ = true := isContinuation_iff.mpr (by omega)
    obtain rfl | rfl | rfl | rfl : ys = [] ∨ ys = [b₀] ∨ ys = [b₀, b₁] ∨ ys = [b₀, b₁, b₂] := by
      simpa [← List.mem_inits, hne] using hy
    · exact .inl rfl
    all_goals
      right
      rw [utf8Chunks.eq_def]
      simp only [UInt8.lt_iff_toNat_lt, UInt8.le_iff_toNat_le, UInt8.reduceToNat,
        Bool.and_eq_true, decide_eq_true_eq, hsecond, hcont, if_true]
      rw [if_neg (by omega), if_neg (by omega), if_neg (by omega), if_pos (by omega)]

theorem utf8Chunks_suffix {xs : Bytes} {cs : List Char} (h : xs <:+ encode cs) :
    ∃ n t, t <:+ cs ∧ utf8Chunks xs = List.replicate n none ++ t.map some ∧
      (n = 0 → xs = encode t) := by
  induction cs with
  | nil =>
    obtain rfl := List.suffix_nil.mp h
    exact ⟨0, [], List.suffix_rfl, rfl, fun _ => rfl⟩
  | cons c cs ih =>
    obtain ⟨b, ys, hb, -, hys⟩ := (encoded c).eq_cons
    rw [encode_cons, hb, List.cons_append, List.suffix_cons_iff] at h
    obtain rfl | h := h
    · refine ⟨0, c :: cs, List.suffix_rfl, ?_, ?_⟩
      · rw [← List.cons_append, ← hb, ← encode_cons, utf8Chunks_encode, List.replicate_zero,
          List.nil_append]
      · rw [encode_cons, hb, List.cons_append]
        exact fun _ => rfl
    · obtain ⟨zs, hzs⟩ := h
      obtain ⟨ws, rfl, hws⟩ | ⟨ws, rfl, hws⟩ := List.append_eq_append_iff.mp hzs
      · have hstray : ∀ b ∈ ws, isContinuation b = true := fun b hb => hys b (by simp [hb])
        refine ⟨ws.length, cs, List.suffix_cons _ _, ?_, ?_⟩
        · rw [hws, utf8Chunks_strays hstray, utf8Chunks_encode]
        · intro h0
          rw [hws, List.length_eq_zero_iff.mp h0, List.nil_append]
      · obtain ⟨n, t, ht, hchunks, henc⟩ := ih ⟨ws, hws.symm⟩
        exact ⟨n, t, ht.trans (List.suffix_cons _ _), hchunks, henc⟩

theorem utf8Chunks_isPrefix {xs : Bytes} {cs : List Char} (h : xs <+: encode cs)
    (hne : xs ≠ encode cs) :
    ∃ t r, t <+: cs ∧ t ≠ cs ∧ utf8Chunks xs = t.map some ++ r ∧ (r = [] ∨ r = [none]) := by
  induction cs generalizing xs with
  | nil => exact absurd (List.prefix_nil.mp h) hne
  | cons c cs ih =>
    have hc : String.utf8EncodeChar c <+: encode (c :: cs) := List.prefix_append _ _
    by_cases hle : String.utf8EncodeChar c <+: xs
    · obtain ⟨ys, rfl⟩ := hle
      have hys : ys <+: encode cs := (List.prefix_append_right_inj _).mp h
      have hys' : ys ≠ encode cs := by
        rintro rfl
        exact hne rfl
      obtain ⟨t, r, ht, htne, hchunks, hr⟩ := ih hys hys'
      refine ⟨c :: t, r, (List.prefix_cons_inj c).mpr ht, by simpa using htne, ?_, hr⟩
      rw [utf8Chunks_encoded (encoded c), hchunks, Char.ofNat_toNat, List.map_cons,
        List.cons_append]
    · have hlt : xs <+: String.utf8EncodeChar c :=
        (List.prefix_or_prefix_of_prefix h hc).resolve_right hle
      have hlt' : xs ≠ String.utf8EncodeChar c := by
        rintro rfl
        exact hle List.prefix_rfl
      refine ⟨[], utf8Chunks xs, List.nil_prefix, by simp, rfl, ?_⟩
      exact (encoded c).utf8Chunks_isPrefix hlt hlt'

theorem utf8Chunks_newline (xs ys : Bytes) :
    utf8Chunks (xs ++ 10 :: ys) = utf8Chunks xs ++ some '\n' :: utf8Chunks ys := by
  have hline : utf8Chunks (10 :: ys) = some '\n' :: utf8Chunks ys :=
    utf8Chunks_encoded (encoded '\n') ys
  rw [utf8Chunks_append xs (by decide), hline]

theorem isSome_fromUtf8_newline {xs ys : Bytes} :
    (fromUtf8 (xs ++ 10 :: ys)).isSome ↔ (fromUtf8 xs).isSome ∧ (fromUtf8 ys).isSome := by
  simp [isSome_fromUtf8, utf8Chunks_newline]

theorem newline_mem_encode {cs : List Char} : 10 ∈ encode cs ↔ '\n' ∈ cs := by
  constructor
  · intro h
    obtain ⟨c, hc, hb⟩ := List.mem_flatMap.mp h
    have hn : c.toNat = 10 := by
      have hx := encoded c
      revert hb
      generalize String.utf8EncodeChar c = xs at hx ⊢
      cases hx <;> simp [← UInt8.toNat_inj] <;> omega
    have hc' : c = '\n' := by rw [← Char.ofNat_toNat c, hn]
    exact hc' ▸ hc
  · intro h
    exact List.mem_flatMap.mpr ⟨'\n', h, by decide⟩

def lossy (bs : Bytes) : List Char := (utf8Chunks bs).map fun c => c.getD '\uFFFD'

theorem toList_fromUtf8Lossy (bs : Bytes) : (fromUtf8Lossy bs).toList = lossy bs :=
  String.toList_ofList

@[simp] theorem lossy_encode (cs : List Char) : lossy (encode cs) = cs := by
  rw [lossy, utf8Chunks_encode, List.map_map]
  exact List.map_id cs

theorem fromUtf8Lossy_encode (cs : List Char) : fromUtf8Lossy (encode cs) = String.ofList cs := by
  rw [← String.toList_inj, toList_fromUtf8Lossy, lossy_encode, String.toList_ofList]

theorem lossy_newline (xs ys : Bytes) : lossy (xs ++ 10 :: ys) = lossy xs ++ '\n' :: lossy ys := by
  rw [lossy, utf8Chunks_newline, List.map_append]
  rfl

theorem not_newline_lossy {bs : Bytes} (h : 10 ∉ bs) : '\n' ∉ lossy bs := by
  intro hmem
  obtain ⟨chunk, hchunk, hc⟩ := List.mem_map.mp hmem
  cases chunk with
  | none => exact absurd hc (by decide)
  | some c =>
    obtain rfl : c = '\n' := hc
    exact h (encode_subset_of_mem hchunk (by decide))

def endByteLine : Bytes → Bytes
  | 13 :: bs => bs.reverse
  | bs => bs.reverse

def byteLinesAux (acc : Bytes) : Bytes → List Bytes
  | [] => if acc.isEmpty then [] else [acc.reverse]
  | 10 :: bs => endByteLine acc :: byteLinesAux [] bs
  | b :: bs => byteLinesAux (b :: acc) bs

def byteLines (bs : Bytes) : List Bytes := byteLinesAux [] bs

theorem byteLinesAux_skip {xs : Bytes} (h : 10 ∉ xs) (acc bs : Bytes) :
    byteLinesAux acc (xs ++ bs) = byteLinesAux (xs.reverse ++ acc) bs := by
  induction xs generalizing acc with
  | nil => rfl
  | cons b xs ih =>
    obtain ⟨hb, hxs⟩ := not_or.mp (mt List.mem_cons.mpr h)
    rw [List.cons_append, byteLinesAux, ih hxs, List.reverse_cons, List.append_assoc]
    · rfl
    · exact fun h => hb h.symm

theorem byteLinesAux_append (acc xs bs : Bytes) :
    byteLinesAux acc (xs ++ 10 :: bs) = byteLinesAux acc (xs ++ [10]) ++ byteLinesAux [] bs := by
  induction xs generalizing acc with
  | nil => rfl
  | cons b xs ih =>
    by_cases hb : b = 10
    · subst hb
      simp only [List.cons_append, byteLinesAux, ih]
    · rw [List.cons_append, List.cons_append, byteLinesAux, byteLinesAux, ih]
      all_goals exact hb

theorem byteLines_append (xs bs : Bytes) :
    byteLines (xs ++ 10 :: bs) = byteLines (xs ++ [10]) ++ byteLines bs :=
  byteLinesAux_append [] xs bs

theorem endByteLine_of_ne {bs : Bytes} (h : ∀ as, bs ≠ 13 :: as) :
    endByteLine bs = bs.reverse := by
  unfold endByteLine
  split
  · exact absurd rfl (h _)
  · rfl

theorem last_byte_ne {c : Char} (h : c ≠ '\r') :
    ∃ b bs, (String.utf8EncodeChar c).reverse = b :: bs ∧ b ≠ 13 := by
  have hn : c.toNat ≠ 13 := by
    intro hn
    exact h (by rw [← Char.ofNat_toNat c, hn])
  have hx := encoded c
  generalize String.utf8EncodeChar c = xs at hx ⊢
  cases hx <;> exact ⟨_, _, rfl, by simp [← UInt8.toNat_inj]; omega⟩

theorem endByteLine_encode (cs : List Char) :
    endByteLine (encode cs.reverse).reverse = encode (endLine cs) := by
  cases cs with
  | nil => rfl
  | cons c cs =>
    by_cases hc : c = '\r'
    · subst hc
      have hr : (encode ('\r' :: cs).reverse).reverse = 13 :: (encode cs.reverse).reverse := by
        rw [List.reverse_cons, encode_append, List.reverse_append]
        rfl
      rw [hr, endByteLine, endLine, List.reverse_reverse]
    · obtain ⟨b, bs, hb, hne⟩ := last_byte_ne hc
      have hr : (encode (c :: cs).reverse).reverse = b :: (bs ++ (encode cs.reverse).reverse) := by
        rw [List.reverse_cons, encode_append, List.reverse_append, encode_cons, encode_nil,
          List.append_nil, hb, List.cons_append]
      rw [endLine_of_ne fun _ h => hc (List.cons.inj h).1, hr,
        endByteLine_of_ne fun _ h => hne (List.cons.inj h).1, ← hr, List.reverse_reverse]

theorem byteLinesAux_encode (acc cs : List Char) :
    byteLinesAux (encode acc.reverse).reverse (encode cs) = (linesAux acc cs).map encode := by
  induction cs generalizing acc with
  | nil =>
    rw [encode_nil, byteLinesAux, linesAux]
    cases acc with
    | nil => rfl
    | cons c acc => simp
  | cons c cs ih =>
    by_cases hc : c = '\n'
    · subst hc
      have h10 : encode ('\n' :: cs) = 10 :: encode cs := rfl
      rw [h10, byteLinesAux, linesAux, List.map_cons, endByteLine_encode, ← ih []]
      rfl
    · have hnot : 10 ∉ String.utf8EncodeChar c := by
        intro h
        have hmem : 10 ∈ encode [c] := by simpa [encode] using h
        exact hc (List.mem_singleton.mp (newline_mem_encode.mp hmem)).symm
      rw [encode_cons, byteLinesAux_skip hnot, linesAux, ← ih, List.reverse_cons, encode_append,
        List.reverse_append]
      · simp
      · exact hc

theorem byteLines_asBytes (s : String) : byteLines (asBytes s) = (lines s).map asBytes := by
  have h := byteLinesAux_encode [] s.toList
  have hcomp : asBytes ∘ String.ofList = encode := by
    funext cs
    rw [Function.comp_apply, asBytes_eq_encode, String.toList_ofList]
  rw [byteLines, asBytes_eq_encode, lines, List.map_map, hcomp, ← h]
  rfl

def isCharBoundary (s : String) (index : Nat) : Bool :=
  index == 0 ||
    match (asBytes s)[index]? with
    | some b => !isContinuation b
    | none => index == (asBytes s).length

/-- `String::truncate`; it panics off a character boundary. -/
def truncate (s : String) (len : Nat) : Option String :=
  if s.utf8ByteSize < len then some s
  else if isCharBoundary s len then fromUtf8 ((asBytes s).take len)
  else none

example : (List.range 7).map (isCharBoundary "aé€") =
    [true, true, false, true, false, false, true] := by
  decide

theorem length_asBytes (s : String) : (asBytes s).length = s.utf8ByteSize := by
  rw [asBytes_eq_toByteArray]
  rfl

theorem prefix_cons_of_ne_nil {ps cs : List Char} {c : Char} (h : ps <+: c :: cs) (hne : ps ≠ []) :
    ∃ qs, ps = c :: qs ∧ qs <+: cs :=
  (List.prefix_cons_iff.mp h).resolve_left hne

theorem boundary_iff {cs : List Char} {n : Nat} :
    (∀ b ∈ (encode cs)[n]?, isContinuation b = false) ∧ n ≤ (encode cs).length ↔
      ∃ ps, ps <+: cs ∧ (encode ps).length = n := by
  induction cs generalizing n with
  | nil =>
    simp only [encode_nil, List.prefix_nil, exists_eq_left, List.length_nil, List.getElem?_nil]
    simpa using eq_comm
  | cons c cs ih =>
    obtain ⟨b, ys, hx, hlead, hys⟩ := (encoded c).eq_cons
    have hsize : (String.utf8EncodeChar c).length = ys.length + 1 := by rw [hx, List.length_cons]
    by_cases hn : n = 0
    · subst hn
      refine iff_of_true ⟨?_, Nat.zero_le _⟩ ⟨[], List.nil_prefix, rfl⟩
      simp [hx, hlead]
    · have hwhole : (∃ ps, ps <+: c :: cs ∧ (encode ps).length = n) ↔
          ∃ qs, qs <+: cs ∧ (encode qs).length + (ys.length + 1) = n := by
        constructor
        · rintro ⟨ps, hps, hlen⟩
          obtain ⟨qs, rfl, hqs⟩ := prefix_cons_of_ne_nil hps (by rintro rfl; exact hn hlen.symm)
          exact ⟨qs, hqs, by rw [← hlen, encode_cons, List.length_append, hsize, Nat.add_comm]⟩
        · rintro ⟨qs, hqs, rfl⟩
          refine ⟨c :: qs, List.cons_prefix_cons.mpr ⟨rfl, hqs⟩, ?_⟩
          rw [encode_cons, List.length_append, hsize, Nat.add_comm]
      rw [hwhole, encode_cons, List.length_append]
      by_cases hle : ys.length + 1 ≤ n
      · obtain ⟨m, rfl⟩ := Nat.exists_eq_add_of_le' hle
        rw [List.getElem?_append_right (by omega), hsize, Nat.add_sub_cancel, Nat.add_comm m,
          Nat.add_le_add_iff_left, ih]
        simp only [Nat.add_comm (ys.length + 1), Nat.add_right_cancel_iff]
      · have hcont : ¬∀ y ∈ (String.utf8EncodeChar c ++ encode cs)[n]?,
            isContinuation y = false := by
          intro h
          obtain ⟨m, rfl⟩ := Nat.exists_eq_succ_of_ne_zero hn
          have hm : m < ys.length := by omega
          rw [hx, List.cons_append, List.getElem?_cons_succ, List.getElem?_append_left hm,
            List.getElem?_eq_getElem hm] at h
          have hy := h _ rfl
          rw [hys _ (List.getElem_mem hm)] at hy
          cases hy
        refine iff_of_false (fun h => hcont h.1) ?_
        rintro ⟨qs, -, hlen⟩
        omega

theorem isCharBoundary_iff {s : String} {n : Nat} :
    isCharBoundary s n = true ↔ ∃ p : String, p.toList <+: s.toList ∧ p.utf8ByteSize = n := by
  have hends : (∃ p : String, p.toList <+: s.toList ∧ p.utf8ByteSize = n) ↔
      ∃ ps, ps <+: s.toList ∧ (encode ps).length = n := by
    simp only [← length_asBytes, asBytes_eq_encode]
    constructor
    · exact fun ⟨p, hp, hlen⟩ => ⟨p.toList, hp, hlen⟩
    · exact fun ⟨ps, hps, hlen⟩ => ⟨String.ofList ps, by simpa using hps, by simpa using hlen⟩
  rw [hends, ← boundary_iff, isCharBoundary, asBytes_eq_encode]
  by_cases hn : n = 0
  · subst hn
    have hzero : (∀ b ∈ (encode s.toList)[0]?, isContinuation b = false) ∧
        0 ≤ (encode s.toList).length := boundary_iff.mpr ⟨[], List.nil_prefix, rfl⟩
    exact iff_of_true rfl hzero
  · cases hb : (encode s.toList)[n]? with
    | none =>
      have hle : (encode s.toList).length ≤ n := List.getElem?_eq_none_iff.mp hb
      simp [hn]
      omega
    | some b =>
      have hlt : n < (encode s.toList).length := (List.getElem?_eq_some_iff.mp hb).1
      simp [hn]
      omega

theorem truncate_isPrefix {s p : String} (h : p.toList <+: s.toList) :
    truncate s p.utf8ByteSize = some p := by
  obtain ⟨rest, hrest⟩ := h
  have hbytes : asBytes s = asBytes p ++ encode rest := by
    rw [asBytes_eq_encode, ← hrest, encode_append, asBytes_eq_encode]
  have hle : ¬s.utf8ByteSize < p.utf8ByteSize := by
    rw [← length_asBytes s, ← length_asBytes p, hbytes, List.length_append]
    omega
  have hboundary : isCharBoundary s p.utf8ByteSize = true :=
    isCharBoundary_iff.mpr ⟨p, ⟨rest, hrest⟩, rfl⟩
  rw [truncate, if_neg hle, if_pos hboundary, hbytes, ← length_asBytes p, List.take_left,
    fromUtf8_asBytes]

theorem prefix_of_size_le {s p q : String} (hp : p.toList <+: s.toList) (hq : q.toList <+: s.toList)
    (h : q.utf8ByteSize ≤ p.utf8ByteSize) : q.toList <+: p.toList := by
  cases List.prefix_or_prefix_of_prefix hq hp with
  | inl hqp => exact hqp
  | inr hpq =>
    have hbytes : asBytes p <+: asBytes q := by
      obtain ⟨rest, hrest⟩ := hpq
      exact ⟨encode rest, by rw [asBytes_eq_encode, ← encode_append, hrest, asBytes_eq_encode]⟩
    have hsame : asBytes p = asBytes q := by
      apply hbytes.eq_of_length_le
      rw [length_asBytes, length_asBytes]
      exact h
    have heq : some q = some p := by rw [← fromUtf8_asBytes q, ← hsame, fromUtf8_asBytes]
    rw [Option.some.inj heq]

end Rust

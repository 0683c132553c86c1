import Mathlib.Data.Nat.Init
import ScriptLower.Proofs.Text.Quotes

/-!
# Bodies that can be read

A body is read escape by escape, and what is read behind the letter of an escape is digits, a line
feed or the rest of a character, never a backslash. So whether a body can be read is settled at its
backslashes alone, and a byte that is no backslash may be read as part of an escape or on its own.
-/

namespace ScriptLower

/-! ## Digits -/

namespace Bytes

variable {base n : Nat} {b : UInt8} {s : Bytes}

/-- A digit of a number in a radix. -/
def IsDigitOf (base : Nat) (b : UInt8) : Prop := ∃ d, digitVal b = some d ∧ d < base

/-- A text is a number in a radix if and only if it is digits. -/
theorem isSome_toNatBase?_iff :
    (toNatBase? base s).isSome = true ↔ s ≠ [] ∧ ∀ b ∈ s, IsDigitOf base b := by
  have hnone : ∀ s : Bytes, s.foldl (fun acc b => do
      let n ← acc
      let d ← digitVal b
      if d < base then some (n * base + d) else none) none = none := by
    intro s
    induction s with
    | nil => rfl
    | cons b s ih => exact ih
  have hfold : ∀ (s : Bytes) (n : Nat), (s.foldl (fun acc b => do
      let n ← acc
      let d ← digitVal b
      if d < base then some (n * base + d) else none) (some n)).isSome = true ↔
        ∀ b ∈ s, IsDigitOf base b := by
    intro s
    induction s with
    | nil => exact fun n => iff_of_true rfl (List.forall_mem_nil _)
    | cons b s ih =>
      intro n
      simp only [List.foldl_cons, List.forall_mem_cons, Option.bind_eq_bind, Option.bind_some]
        at ih hnone ⊢
      cases hd : digitVal b with
      | none =>
        rw [Option.bind_none, hnone]
        refine iff_of_false Bool.false_ne_true fun h => ?_
        obtain ⟨d, hd', -⟩ := h.1
        cases hd.symm.trans hd'
      | some d =>
        rw [Option.bind_some]
        by_cases hlt : d < base
        · rw [if_pos hlt, ih]
          exact ⟨fun h => ⟨⟨d, hd, hlt⟩, h⟩, fun h => h.2⟩
        · rw [if_neg hlt, hnone]
          refine iff_of_false Bool.false_ne_true fun h => ?_
          obtain ⟨d', hd', hlt'⟩ := h.1
          cases hd.symm.trans hd'
          exact hlt hlt'
  unfold toNatBase?
  cases s with
  | nil => simp
  | cons b s => simpa using hfold (b :: s) 0

/-- A number is bounded by its digits. -/
theorem toNatBase?_lt {v : Nat} (h : toNatBase? base s = some v) : v < base ^ s.length := by
  have hdigits := (isSome_toNatBase?_iff.1 (Option.isSome_iff_exists.2 ⟨v, h⟩))
  have hfold : ∀ (s : Bytes) (n v : Nat), (∀ b ∈ s, IsDigitOf base b) → s.foldl (fun acc b => do
      let n ← acc
      let d ← digitVal b
      if d < base then some (n * base + d) else none) (some n) = some v →
        v < (n + 1) * base ^ s.length := by
    intro s
    induction s with
    | nil =>
      intro n v _ hv
      cases hv
      simp
    | cons b s ih =>
      intro n v hs hv
      obtain ⟨⟨d, hd, hlt⟩, hs⟩ := List.forall_mem_cons.1 hs
      rw [List.foldl_cons, Option.bind_eq_bind, Option.bind_some, hd, Option.bind_some,
        if_pos hlt] at hv
      refine Nat.lt_of_lt_of_le (ih _ _ hs hv) ?_
      have hstep : n * base + d + 1 ≤ (n + 1) * base := by
        rw [Nat.add_mul, Nat.one_mul]
        omega
      rw [List.length_cons, Nat.pow_succ', ← Nat.mul_assoc]
      exact Nat.mul_le_mul_right _ hstep
  unfold toNatBase? at h
  rw [if_neg (by simpa using hdigits.1)] at h
  have hv := hfold s 0 v hdigits.2 h
  rwa [Nat.zero_add, Nat.one_mul] at hv

theorem isDigitOf_hex : IsDigitOf 16 b ↔ isHexDigit b = true := by
  unfold IsDigitOf
  simp only [digitVal_eq, isHexDigit, isDigit, Bool.or_eq_true, Bool.and_eq_true, decide_eq_true_eq,
    UInt8.le_iff_toNat_le]
  constructor
  · rintro ⟨d, hd, hlt⟩
    split at hd
    · simp; omega
    split at hd
    · cases hd
      simp; omega
    split at hd
    · cases hd
      simp; omega
    · cases hd
  · intro h
    simp at h
    split
    · exact ⟨_, rfl, by omega⟩
    split
    · exact ⟨_, rfl, by omega⟩
    split
    · exact ⟨_, rfl, by omega⟩
    · omega

end Bytes

namespace StringLiteral

open Utf8

/-- The number that hexadecimal digits denote. -/
def hexValue (s : Bytes) : Nat := (Bytes.toNatBase? 16 s).getD 0

section

variable {s : Bytes}

theorem hex32?_eq (hne : s ≠ []) (h : ∀ b ∈ s, Bytes.isHexDigit b = true) :
    hex32? s = if hexValue s < 2 ^ 32 then some (hexValue s) else none := by
  obtain ⟨v, hv⟩ := Option.isSome_iff_exists.1
    (Bytes.isSome_toNatBase?_iff.2 ⟨hne, fun b hb => Bytes.isDigitOf_hex.2 (h b hb)⟩)
  rw [hexValue, hex32?, hv]
  rfl

theorem isHexDigit_of_hex32? {v : Nat} (h : hex32? s = some v) :
    ∀ b ∈ s, Bytes.isHexDigit b = true := by
  obtain ⟨w, hw, -⟩ := Option.bind_eq_some_iff.1 h
  have hdigits := (Bytes.isSome_toNatBase?_iff.1 (Option.isSome_iff_exists.2 ⟨w, hw⟩)).2
  exact fun b hb => Bytes.isDigitOf_hex.1 (hdigits b hb)

theorem hexValue_of_hex32? {v : Nat} (h : hex32? s = some v) : hexValue s = v := by
  obtain ⟨w, hw, hv⟩ := Option.bind_eq_some_iff.1 h
  split at hv
  · cases hv
    rw [hexValue, hw, Option.getD_some]
  · cases hv

/-- Four digits make a small number. -/
theorem hexValue_small (hlen : s.length ≤ 4) : hexValue s < 0x10000 := by
  unfold hexValue
  cases hv : Bytes.toNatBase? 16 s with
  | none => decide
  | some v =>
    refine Nat.lt_of_lt_of_le (Bytes.toNatBase?_lt hv) ?_
    calc
      16 ^ s.length ≤ 16 ^ 4 := Nat.pow_le_pow_right (by decide) hlen
      _ = 0x10000 := by decide

end

/-! ## Escapes by their letters -/

section

variable {c : UInt8} {e : Escape} {s : Bytes}

theorem escape?_x (s : Bytes) : escape? (120 :: s) =
    if s.length < 2 then none else (hex32? (s.take 2)).map fun v => ⟨some v, 3⟩ := rfl

theorem escape?_braced (s : Bytes) : escape? (117 :: 0x7B :: s) = (do
      let i ← s.findIdx? (· == 0x7D)
      let v ← hex32? (s.take i)
      if v ≤ 0x10FFFF then some ⟨some v, i + 3⟩ else none) := rfl

theorem escape?_u (hs : s.head? ≠ some 0x7B) : escape? (117 :: s) =
    if s.length < 4 then none else (hex32? (s.take 4)).map fun v => ⟨some v, 5⟩ := by
  cases s with
  | nil => rfl
  | cons b s =>
    have hb : ¬(b == 0x7B) = true := fun hb => hs (congrArg some (eq_of_beq hb))
    exact if_neg hb

/-- An octal escape takes its first digit unless the number is too large, and no more than
digits. -/
theorem octalEscape_bounds (c : UInt8) (s : Bytes) :
    0 < (octalEscape c s).size ∧ (octalEscape c s).size ≤ 1 + (octalRun 2 s).length ∧
      ∀ v ∈ (octalEscape c s).unit, v ≤ 0xFF := by
  have hlen : (octalRun 2 s).length ≤ 2 := by
    have hprefix : octalRun 2 s <+: s.take 2 := List.takeWhile_prefix _
    exact Nat.le_trans hprefix.length_le (List.length_take_le _ _)
  -- three digits at most, and a single one is small
  have hvalue : (Bytes.toNatBase? 8 (c :: octalRun 2 s)).getD 0 < 512 := by
    cases hv : Bytes.toNatBase? 8 (c :: octalRun 2 s) with
    | none => decide
    | some v =>
      refine Nat.lt_of_lt_of_le (Bytes.toNatBase?_lt hv) ?_
      calc
        8 ^ (c :: octalRun 2 s).length ≤ 8 ^ 3 :=
          Nat.pow_le_pow_right (by decide) (by rw [List.length_cons]; omega)
        _ = 512 := by decide
  have hone : ∀ n < 256, ¬0xFF < (Bytes.toNatBase? 8 [n.toUInt8]).getD 0 := by decide +kernel
  have hsmall := hone c.toNat c.toNat_lt
  rw [toUInt8_eq rfl] at hsmall
  unfold octalEscape
  dsimp only
  split
  · rename_i hlarge
    refine ⟨?_, Nat.le_add_left _ _, fun v hv => ?_⟩
    · rw [List.length_pos_iff]
      intro hnil
      rw [hnil] at hlarge
      exact hsmall hlarge
    · cases hv
      omega
  · refine ⟨Nat.lt_add_right _ Nat.zero_lt_one, Nat.le_refl _, fun v hv => ?_⟩
    cases hv
    omega

/-- A character beyond ASCII is escaped as a whole, and means itself or nothing. -/
theorem escape?_beyond (hc : ¬c < 0x80) (s : Bytes) :
    ∃ u : Option Nat, (∀ v ∈ u, v = (decode (c :: s)).1) ∧
      escape? (c :: s) = some ⟨u, (decode (c :: s)).2⟩ := by
  have hother : c ∉ ([110, 116, 114, 98, 102, 118, 120, 117, 13, 10] : List UInt8) := fun hmem =>
    hc ((by decide : ∀ c ∈ ([110, 116, 114, 98, 102, 118, 120, 117, 13, 10] : List UInt8), c < 0x80)
      c hmem)
  have hoctal : ¬(48 ≤ c && c ≤ 55) = true := by
    rw [Bool.and_eq_true, decide_eq_true_eq, decide_eq_true_eq]
    exact fun h => hc (UInt8.lt_of_le_of_lt h.2 (by decide))
  refine ⟨_, fun v hv => ?_, (escape?_other hother).trans (if_neg hoctal)⟩
  split at hv
  · cases hv
  · exact (Option.some.inj hv).symm

/-- What the letter of an escape says: how the escape goes on is settled by it, apart from `x` and
`u`. -/
theorem escape?_letter (c : UInt8) : c = 120 ∨ c = 117 ∨ c = 13 ∨
    (48 ≤ c ∧ c ≤ 55 ∧ ∀ s, escape? (c :: s) = some (octalEscape c s)) ∨
    (∃ u : Option Nat, (∀ v ∈ u, v < 0x80) ∧ ∀ s, escape? (c :: s) = some ⟨u, 1⟩) ∨
    (0x80 ≤ c ∧ ∀ s, ∃ u : Option Nat, (∀ v ∈ u, v = (decode (c :: s)).1) ∧
      escape? (c :: s) = some ⟨u, (decode (c :: s)).2⟩) := by
  by_cases hsingle : c ∈ ([110, 116, 114, 98, 102, 118, 10] : List UInt8)
  · right; right; right; right; left
    simp only [List.mem_cons, List.not_mem_nil, or_false] at hsingle
    rcases hsingle with rfl | rfl | rfl | rfl | rfl | rfl | rfl <;>
      exact ⟨_, (by decide), fun s => rfl⟩
  by_cases hx : c = 120
  · exact Or.inl hx
  by_cases hu : c = 117
  · exact Or.inr (Or.inl hu)
  by_cases hreturn : c = 13
  · exact Or.inr (Or.inr (Or.inl hreturn))
  have hother : c ∉ ([110, 116, 114, 98, 102, 118, 120, 117, 13, 10] : List UInt8) := by
    simp only [List.mem_cons, List.not_mem_nil, or_false, not_or] at hsingle ⊢
    exact ⟨hsingle.1, hsingle.2.1, hsingle.2.2.1, hsingle.2.2.2.1, hsingle.2.2.2.2.1,
      hsingle.2.2.2.2.2.1, hx, hu, hreturn, hsingle.2.2.2.2.2.2⟩
  by_cases hoctal : 48 ≤ c ∧ c ≤ 55
  · refine Or.inr (Or.inr (Or.inr (Or.inl ⟨hoctal.1, hoctal.2, fun s => ?_⟩)))
    rw [escape?_other hother, if_pos (by simpa using hoctal)]
  have hread (s : Bytes) : escape? (c :: s) =
      some ⟨if (decode (c :: s)).1 == 0x2028 || (decode (c :: s)).1 == 0x2029 then none
        else some (decode (c :: s)).1, (decode (c :: s)).2⟩ := by
    rw [escape?_other hother, if_neg (by simpa using hoctal)]
  by_cases hlow : c.toNat < 0x80
  · refine Or.inr (Or.inr (Or.inr (Or.inr (Or.inl ⟨some c.toNat, ?_, fun s => ?_⟩))))
    · intro v hv
      cases hv
      exact hlow
    · have hplain : ¬(c.toNat == 0x2028 || c.toNat == 0x2029) = true := by
        simp only [Bool.or_eq_true, beq_iff_eq]
        omega
      rw [hread, decode_one s hlow, if_neg hplain]
  · have hlow : ¬c < 0x80 := fun h => hlow (UInt8.lt_iff_toNat_lt.1 h)
    exact Or.inr (Or.inr (Or.inr (Or.inr (Or.inr ⟨UInt8.not_lt.1 hlow, escape?_beyond hlow⟩))))

/-- The letters of an escape, apart from `x` and `u`: what is read behind them is no backslash. -/
theorem escape?_plain (hx : c ≠ 120) (hu : c ≠ 117) (s : Bytes) :
    ∃ e, escape? (c :: s) = some e ∧ 0 < e.size ∧ 92 ∉ s.take (e.size - 1) := by
  rcases escape?_letter c with h | h | rfl | ⟨-, -, hread⟩ | ⟨u, -, hread⟩ | ⟨-, hread⟩
  · exact absurd h hx
  · exact absurd h hu
  · refine ⟨_, rfl, ?_⟩
    dsimp only
    cases s with
    | nil => exact ⟨Nat.one_pos, List.not_mem_nil⟩
    | cons b s =>
      by_cases hb : b = 10
      · rw [hb]
        simp
      · rw [if_neg (by simpa using hb)]
        exact ⟨Nat.one_pos, List.not_mem_nil⟩
  · obtain ⟨hpos, hsize, -⟩ := octalEscape_bounds c s
    refine ⟨_, hread s, hpos, fun hmem => ?_⟩
    -- the digits that belong to an octal escape
    have hrun : ∀ b ∈ octalRun 2 s, 48 ≤ b ∧ b ≤ 55 := by
      intro b hb
      simpa using List.all_eq_true.1 List.all_takeWhile b hb
    have hprefix : octalRun 2 s <+: s := (List.takeWhile_prefix _).trans (List.take_prefix 2 s)
    have htake : s.take ((octalEscape c s).size - 1) <+: octalRun 2 s := by
      rw [List.prefix_iff_eq_take.1 hprefix]
      exact List.take_prefix_take_left (by omega)
    exact absurd (hrun 92 (htake.subset hmem)) (by decide)
  · exact ⟨_, hread s, Nat.one_pos, List.not_mem_nil⟩
  · obtain ⟨u, -, hread⟩ := hread s
    exact ⟨_, hread, decode_pos c s, fun hmem => absurd (decode_tail 92 hmem) (by decide)⟩

/-- What is read of an escape is its letter and what is no backslash behind it. -/
theorem escape?_take (he : escape? (c :: s) = some e) :
    0 < e.size ∧ 92 ∉ s.take (e.size - 1) := by
  have hdigits {n v : Nat} (hv : hex32? (s.take n) = some v) : 92 ∉ s.take n := fun hmem =>
    absurd (isHexDigit_of_hex32? hv 92 hmem) (by decide)
  by_cases hx : c = 120
  · rw [hx, escape?_x] at he
    split at he
    · cases he
    · obtain ⟨v, hv, rfl⟩ := Option.map_eq_some_iff.1 he
      exact ⟨Nat.succ_pos 2, hdigits hv⟩
  by_cases hu : c = 117
  · rw [hu] at he
    by_cases hs : s.head? = some 0x7B
    · obtain ⟨r, rfl⟩ := List.head?_eq_some_iff.1 hs
      rw [escape?_braced] at he
      obtain ⟨i, hi, he⟩ := Option.bind_eq_some_iff.1 he
      obtain ⟨v, hv, he⟩ := Option.bind_eq_some_iff.1 he
      split at he
      · cases he
        -- an opening brace, the digits, and the closing brace
        have hclose : (r.drop i).take 1 = [0x7D] := by
          obtain ⟨hlt, hbrace, -⟩ := List.findIdx?_eq_some_iff_getElem.1 hi
          rw [List.drop_eq_getElem_cons hlt, List.take_succ_cons, List.take_zero]
          exact congrArg (fun b => [b]) (eq_of_beq hbrace)
        have htake : (0x7B :: r).take (i + 3 - 1) = 0x7B :: (r.take i ++ [0x7D]) := by
          rw [show i + 3 - 1 = i + 1 + 1 by omega, List.take_succ_cons, List.take_add, hclose]
        rw [htake]
        refine ⟨Nat.succ_pos _, fun hmem => ?_⟩
        rcases List.mem_cons.1 hmem with hmem | hmem
        · exact absurd hmem (by decide)
        rcases List.mem_append.1 hmem with hmem | hmem
        · exact absurd (isHexDigit_of_hex32? hv 92 hmem) (by decide)
        · exact absurd hmem (by decide)
      · cases he
    · rw [escape?_u hs] at he
      split at he
      · cases he
      · obtain ⟨v, hv, rfl⟩ := Option.map_eq_some_iff.1 he
        exact ⟨Nat.succ_pos 4, hdigits hv⟩
  · obtain ⟨e', he', htake⟩ := escape?_plain hx hu s
    cases he.symm.trans he'
    exact htake

end

/-! ## How far an escape is read -/

/-- A text that goes on with no digit, no brace and no line end: a backslash or a byte beyond ASCII
begins it, or it is empty. -/
def Foreign (u : Bytes) : Prop := ∀ b, u.head? = some b → b = 92 ∨ 0x80 ≤ b

section

variable {c : UInt8} {e : Escape} {p s u : Bytes}

theorem Foreign.head {b : UInt8} (hu : Foreign u) (h : u.head? = some b) :
    b ≠ 10 ∧ b ≠ 0x7B ∧ b ≠ 0x7D ∧ Bytes.isHexDigit b = false ∧ ¬(48 ≤ b ∧ b ≤ 55) := by
  rcases hu b h with rfl | hhigh
  · decide
  · have hall : ∀ n < 256, 0x80 ≤ n → n.toUInt8 ≠ 10 ∧ n.toUInt8 ≠ 0x7B ∧ n.toUInt8 ≠ 0x7D ∧
        Bytes.isHexDigit n.toUInt8 = false ∧ ¬(48 ≤ n.toUInt8 ∧ n.toUInt8 ≤ 55) := by decide +kernel
    have hb := hall b.toNat b.toNat_lt (UInt8.le_iff_toNat_le.1 hhigh)
    rwa [toUInt8_eq rfl] at hb

/-- Digits end where a foreign text begins. -/
theorem hex32?_beyond {n : Nat} (hu : Foreign u) (hlt : p.length < n) (hn : n ≤ (p ++ u).length) :
    hex32? ((p ++ u).take n) = none := by
  rw [List.take_append, List.take_of_length_le (Nat.le_of_lt hlt)]
  cases hv : hex32? (p ++ u.take (n - p.length)) with
  | none => rfl
  | some v =>
    cases u with
    | nil =>
      rw [List.append_nil] at hn
      omega
    | cons b u =>
      obtain ⟨k, hk⟩ := Nat.exists_eq_add_of_lt hlt
      have hmem : b ∈ p ++ (b :: u).take (n - p.length) := by
        rw [hk, show p.length + k + 1 - p.length = k + 1 by omega, List.take_succ_cons]
        exact List.mem_append_right _ List.mem_cons_self
      have hdigit := isHexDigit_of_hex32? hv b hmem
      rw [(hu.head rfl).2.2.2.1] at hdigit
      cases hdigit

/-- A number of so many digits stands in front of a foreign text or not at all. -/
theorem hex32?_front (hu : Foreign u) (n : Nat) :
    (if (p ++ u).length < n then none else hex32? ((p ++ u).take n)) =
      if p.length < n then none else hex32? (p.take n) := by
  by_cases hlt : p.length < n
  · rw [if_pos hlt]
    split
    · rfl
    · rename_i hn
      exact hex32?_beyond hu hlt (Nat.le_of_not_lt hn)
  · have hle : n ≤ p.length := Nat.le_of_not_lt hlt
    rw [if_neg hlt, List.take_append_of_le_length hle, if_neg]
    rw [List.length_append]
    omega

theorem octalRun_front (hu : Foreign u) (n : Nat) : octalRun n (p ++ u) = octalRun n p := by
  have hstop (k : Nat) : (u.take k).takeWhile (fun b => 48 ≤ b && b ≤ 55) = [] := by
    cases u with
    | nil => rw [List.take_nil, List.takeWhile_nil]
    | cons b u =>
      cases k with
      | zero => rfl
      | succ k =>
        rw [List.take_succ_cons, List.takeWhile_cons_of_neg]
        simpa using (hu.head rfl).2.2.2.2
  rw [octalRun, octalRun, List.take_append, List.takeWhile_append]
  split
  · rename_i hall
    rw [hstop, List.append_nil]
    exact ((List.takeWhile_prefix _).eq_of_length hall).symm
  · rfl

/-- Braces close in front of a foreign text or hold no number. -/
theorem braces_front (hu : Foreign u) :
    escape? (117 :: (0x7B :: p ++ u)) = escape? (117 :: 0x7B :: p) := by
  rw [List.cons_append, escape?_braced, escape?_braced, List.findIdx?_append]
  cases hi : p.findIdx? (· == 0x7D) with
  | some i =>
    have hlt : i < p.length := (List.findIdx?_eq_some_iff_getElem.1 hi).1
    rw [Option.some_or, Option.bind_eq_bind, Option.bind_some, Option.bind_some,
      List.take_append_of_le_length (Nat.le_of_lt hlt)]
  | none =>
    rw [Option.none_or]
    cases hj : u.findIdx? (· == 0x7D) with
    | none => rfl
    | some j =>
      obtain ⟨hlt, hbrace, -⟩ := List.findIdx?_eq_some_iff_getElem.1 hj
      -- a foreign text does not begin with the closing brace
      have hpos : 0 < j := by
        refine Nat.pos_of_ne_zero ?_
        rintro rfl
        refine (hu.head (List.head?_eq_getElem? ▸ List.getElem?_eq_getElem hlt)).2.2.1 ?_
        exact eq_of_beq hbrace
      rw [Option.map_some, Option.bind_eq_bind, Option.bind_some, hex32?_beyond hu]
      · rfl
      · omega
      · rw [List.length_append]
        omega

/-- A foreign text is no part of the escape in front of it. -/
theorem escape?_front (hc : c < 0x80) (hu : Foreign u) :
    escape? (c :: (p ++ u)) = escape? (c :: p) := by
  rcases escape?_letter c with rfl | rfl | rfl | ⟨-, -, hread⟩ | ⟨u, -, hread⟩ | ⟨hhigh, -⟩
  · rw [escape?_x, escape?_x]
    have hfront :=
      congrArg (Option.map fun v => (⟨some v, 3⟩ : Escape)) (hex32?_front (p := p) hu 2)
    simpa only [apply_ite (Option.map fun v => (⟨some v, 3⟩ : Escape)), Option.map_none]
      using hfront
  · by_cases hp : (p ++ u).head? = some 0x7B
    · cases p with
      | nil => exact absurd rfl (hu.head hp).2.1
      | cons b p =>
        cases hp
        exact braces_front hu
    · have hp' : p.head? ≠ some 0x7B := by
        intro h
        obtain ⟨r, rfl⟩ := List.head?_eq_some_iff.1 h
        exact hp rfl
      rw [escape?_u hp, escape?_u hp']
      have hfront :=
        congrArg (Option.map fun v => (⟨some v, 5⟩ : Escape)) (hex32?_front (p := p) hu 4)
      simpa only [apply_ite (Option.map fun v => (⟨some v, 5⟩ : Escape)), Option.map_none]
        using hfront
  · -- a line feed behind a carriage return belongs to it
    have hfeed : ((p ++ u).head? == some 10) = (p.head? == some 10) := by
      cases p with
      | nil =>
        rw [List.nil_append]
        refine beq_false_of_ne fun h => ?_
        exact (hu.head h).1 rfl
      | cons b p => rfl
    show some (Escape.mk none (if (p ++ u).head? == some 10 then 2 else 1)) = _
    rw [hfeed]
    rfl
  · rw [hread, hread, octalEscape, octalEscape, octalRun_front hu]
  · rw [hread, hread]
  · exact absurd hhigh (UInt8.not_le.2 hc)

theorem hexValue_le {n v : Nat} (hn : n ≤ 4) (hv : hex32? (s.take n) = some v) : v ≤ 0x10FFFF := by
  have hsmall := hexValue_small (Nat.le_trans (List.length_take_le n s) hn)
  rw [hexValue_of_hex32? hv] at hsmall
  omega

/-- An escape stands for no more than the last code point, and is no longer than the text. -/
theorem escape?_bounds (he : escape? (c :: s) = some e) :
    e.size ≤ s.length + 1 ∧ ∀ v ∈ e.unit, v ≤ 0x10FFFF := by
  rcases escape?_letter c with rfl | rfl | rfl | ⟨-, -, hread⟩ | ⟨u, hu, hread⟩ | ⟨-, hread⟩
  · rw [escape?_x] at he
    split at he
    · cases he
    · rename_i hlen
      obtain ⟨v, hv, rfl⟩ := Option.map_eq_some_iff.1 he
      exact ⟨by dsimp only; omega, fun w hw => Option.some.inj hw ▸ hexValue_le (by decide) hv⟩
  · by_cases hs : s.head? = some 0x7B
    · obtain ⟨r, rfl⟩ := List.head?_eq_some_iff.1 hs
      rw [escape?_braced] at he
      obtain ⟨i, hi, he⟩ := Option.bind_eq_some_iff.1 he
      obtain ⟨v, hv, he⟩ := Option.bind_eq_some_iff.1 he
      have hlt : i < r.length := (List.findIdx?_eq_some_iff_getElem.1 hi).1
      split at he
      · rename_i hmax
        cases he
        refine ⟨by dsimp only; rw [List.length_cons]; omega, fun w hw => ?_⟩
        cases hw
        exact hmax
      · cases he
    · rw [escape?_u hs] at he
      split at he
      · cases he
      · rename_i hlen
        obtain ⟨v, hv, rfl⟩ := Option.map_eq_some_iff.1 he
        exact ⟨by dsimp only; omega, fun w hw => Option.some.inj hw ▸ hexValue_le (by decide) hv⟩
  · cases he
    refine ⟨?_, fun w hw => by cases hw⟩
    dsimp only
    split
    · rename_i hfeed
      obtain ⟨r, rfl⟩ := List.head?_eq_some_iff.1 (eq_of_beq hfeed)
      rw [List.length_cons]
      omega
    · omega
  · obtain rfl := Option.some.inj ((hread s).symm.trans he)
    obtain ⟨-, hsize, hunit⟩ := octalEscape_bounds c s
    have hprefix : octalRun 2 s <+: s := (List.takeWhile_prefix _).trans (List.take_prefix 2 s)
    have hlen := hprefix.length_le
    exact ⟨by omega, fun v hv => Nat.le_trans (hunit v hv) (by decide)⟩
  · obtain rfl := Option.some.inj ((hread s).symm.trans he)
    exact ⟨Nat.le_add_left _ _, fun v hv => Nat.le_trans (Nat.le_of_lt (hu v hv)) (by decide)⟩
  · obtain ⟨u, hu, hread⟩ := hread s
    obtain rfl := Option.some.inj (hread.symm.trans he)
    refine ⟨decode_le (c :: s), fun v hv => ?_⟩
    rw [hu v hv]
    exact (isCharacter_iff.1 (isCharacter_decode _)).2

end

/-! ## Bodies -/

/-- A body whose escapes can all be read. -/
def Readable (s : Bytes) : Prop := (unitsFrom 0 s).isSome = true

section

variable {b c : UInt8} {p s : Bytes}

theorem readable_nil : Readable [] := rfl

theorem unitsFrom_cons (hb : b ≠ 92) (s : Bytes) : unitsFrom 0 (b :: s) =
    (unitsFrom 0 (s.drop ((decode (b :: s)).2 - 1))).map ((decode (b :: s)).1 :: ·) := by
  have hplain : ¬(b == ascii '\\') = true := fun hback => hb (eq_of_beq hback)
  rw [← unitsFrom_drop]
  exact if_neg hplain

theorem unitsFrom_backslash (s : Bytes) : unitsFrom 0 (92 :: s) =
    (escape? s).bind fun e => (unitsFrom 0 (s.drop e.size)).map (e.unit.toList ++ ·) := by
  conv => lhs; unfold unitsFrom
  rw [if_pos (by decide)]
  cases escape? s with
  | none => rfl
  | some e => exact congrArg (Option.map (e.unit.toList ++ ·)) (unitsFrom_drop e.size s)

theorem bodyUnits_cons (hb : b ≠ 92) (s : Bytes) : bodyUnits (b :: s) =
    (bodyUnits (s.drop ((decode (b :: s)).2 - 1))).map (units16 (decode (b :: s)).1 ++ ·) := by
  rw [bodyUnits, unitsFrom_cons hb, bodyUnits, Option.map_map, Option.map_map]
  rfl

theorem bodyUnits_backslash (s : Bytes) : bodyUnits (92 :: s) = (escape? s).bind fun e =>
    (bodyUnits (s.drop e.size)).map (e.unit.toList.flatMap units16 ++ ·) := by
  rw [bodyUnits, unitsFrom_backslash, Option.map_bind]
  refine congrArg (escape? s).bind (funext fun e => ?_)
  rw [Function.comp_apply, bodyUnits, Option.map_map, Option.map_map]
  exact congrArg (fun f => Option.map f _) (funext fun us => List.flatMap_append)

/-- Bytes that are no backslashes can be left out: they are read on their own or with the byte in
front. -/
theorem readable_append (hp : 92 ∉ p) : Readable (p ++ s) ↔ Readable s := by
  induction hn : (p ++ s).length using Nat.strong_induction_on generalizing p s with
  | _ n ih =>
    cases p with
    | nil => exact Iff.rfl
    | cons b p =>
      rw [List.mem_cons, not_or] at hp
      have hlength : (p ++ s).length < n := by
        rw [← hn, List.cons_append, List.length_cons]
        omega
      have htail : 92 ∉ (p ++ s).take ((decode (b :: (p ++ s))).2 - 1) := fun hmem =>
        absurd (decode_tail 92 hmem) (by decide)
      -- what is read with the first byte may as well be read on its own
      have hchar := ih _ hlength htail (congrArg List.length (List.take_append_drop _ _))
      rw [List.take_append_drop] at hchar
      rw [← ih _ hlength hp.2 rfl, hchar, Readable, List.cons_append, unitsFrom_cons (Ne.symm hp.1),
        Option.isSome_map, Readable]

/-- An escape is read, and then what stands behind its letter. -/
theorem readable_escape :
    Readable (92 :: c :: s) ↔ (escape? (c :: s)).isSome = true ∧ Readable s := by
  rw [Readable, unitsFrom_backslash]
  cases he : escape? (c :: s) with
  | none => simp
  | some e =>
    obtain ⟨hpos, htake⟩ := escape?_take he
    have hsplit := readable_append (s := s.drop (e.size - 1)) htake
    rw [List.take_append_drop] at hsplit
    have hsize : (c :: s).drop e.size = s.drop (e.size - 1) := by
      obtain ⟨k, hk⟩ := Nat.exists_eq_add_of_lt hpos
      rw [hk]
      rfl
    rw [Option.bind_some, Option.isSome_map, hsize, hsplit, Readable]
    simp

theorem cook_isSome (body : Bytes) : (cook body).isSome = true ↔ Readable body := by
  unfold cook
  split
  · rw [Option.isSome_map, Readable]
  · rename_i hno
    have hplain : 92 ∉ body := fun hmem => hno (List.elem_eq_true_of_mem hmem)
    have hreadable := (readable_append (s := []) hplain).2 readable_nil
    rw [List.append_nil] at hreadable
    exact iff_of_true rfl hreadable

end

/-! ## Values of bodies -/

section

variable {b : UInt8} {s : Bytes} {is : List Nat}

/-- What is read of a body are code points. -/
theorem unitsFrom_le (h : unitsFrom 0 s = some is) : ∀ i ∈ is, i ≤ 0x10FFFF := by
  induction hn : s.length using Nat.strong_induction_on generalizing s is with
  | _ n ih =>
    have hdrop {k : Nat} {b : UInt8} {r : Bytes} (hs : s = b :: r) := length_drop_lt (hs ▸ hn) k
    cases s with
    | nil =>
      cases h
      exact List.forall_mem_nil _
    | cons b r =>
      by_cases hb : b = 92
      · rw [hb, unitsFrom_backslash] at h
        obtain ⟨e, he, h⟩ := Option.bind_eq_some_iff.1 h
        obtain ⟨js, hjs, rfl⟩ := Option.map_eq_some_iff.1 h
        refine List.forall_mem_append.2 ⟨fun i hi => ?_, ih _ (hdrop rfl) hjs rfl⟩
        cases r with
        | nil => cases he
        | cons c r => exact (escape?_bounds he).2 i (by simpa using hi)
      · rw [unitsFrom_cons hb] at h
        obtain ⟨js, hjs, rfl⟩ := Option.map_eq_some_iff.1 h
        exact List.forall_mem_cons.2
          ⟨(isCharacter_iff.1 (isCharacter_decode _)).2, ih _ (hdrop rfl) hjs rfl⟩

/-- What is read of a body without a backslash are its characters. -/
theorem unitsFrom_codePoints (h : 92 ∉ s) : unitsFrom 0 s = some (codePoints s) := by
  induction hn : s.length using Nat.strong_induction_on generalizing s with
  | _ n ih =>
    cases s with
    | nil => rfl
    | cons b r =>
      rw [List.mem_cons, not_or] at h
      have hlength := length_drop_lt hn ((decode (b :: r)).2 - 1)
      have hrest : 92 ∉ r.drop ((decode (b :: r)).2 - 1) := fun hmem =>
        h.2 (List.mem_of_mem_drop hmem)
      rw [unitsFrom_cons (Ne.symm h.1), ih _ hlength hrest rfl, codePoints, codePoints, chars_cons]
      rfl

/-- The value of a body is that of the units read of it, but for bytes that cannot be read. -/
theorem cook_sanitize (body : Bytes) :
    (cook body).map sanitize = (unitsFrom 0 body).map fun is => ofCodePoints (joinUnits is) := by
  unfold cook
  split
  · cases h : unitsFrom 0 body with
    | none => rfl
    | some is =>
      have hchars := (units16_joinUnits (unitsFrom_le h)).1
      exact congrArg some (sanitize_of_isValid (isValid_ofCodePoints hchars))
  · rename_i hno
    have hplain : 92 ∉ body := fun hmem => hno (List.elem_eq_true_of_mem hmem)
    rw [unitsFrom_codePoints hplain, Option.map_some, Option.map_some,
      joinUnits_characters (isCharacter_codePoints body), sanitize]

/-- A body that is well-formed, or holds a backslash, has a well-formed value. -/
theorem cook_valid {body : Bytes} (h : isValid body = true ∨ 92 ∈ body) :
    (cook body).map sanitize = cook body := by
  unfold cook
  split
  · cases h : unitsFrom 0 body with
    | none => rfl
    | some is =>
      have hchars := (units16_joinUnits (unitsFrom_le h)).1
      exact congrArg some (sanitize_of_isValid (isValid_ofCodePoints hchars))
  · rename_i hno
    rcases h with h | h
    · exact congrArg some (sanitize_of_isValid h)
    · exact absurd (List.elem_eq_true_of_mem h) hno

/-- The value of a body is made of its units, but for bytes that cannot be read. -/
theorem cook_bodyUnits (s : Bytes) :
    (cook s).map sanitize = (bodyUnits s).map fun us => ofCodePoints (joinUnits us) := by
  rw [cook_sanitize, bodyUnits, Option.map_map]
  cases his : unitsFrom 0 s with
  | none => rfl
  | some is => exact congrArg (some ∘ ofCodePoints) (joinUnits_units16 (unitsFrom_le his)).symm

/-- Bodies with the same value have as many units. -/
theorem length_of_cook {s t : Bytes} {us vs : List Nat} (hs : bodyUnits s = some us)
    (ht : bodyUnits t = some vs) (h : (cook s).map sanitize = (cook t).map sanitize) :
    us.length = vs.length := by
  obtain ⟨is, his, rfl⟩ := Option.map_eq_some_iff.1 hs
  obtain ⟨js, hjs, rfl⟩ := Option.map_eq_some_iff.1 ht
  obtain ⟨hichars, hiunits⟩ := units16_joinUnits (unitsFrom_le his)
  obtain ⟨hjchars, hjunits⟩ := units16_joinUnits (unitsFrom_le hjs)
  rw [cook_sanitize, cook_sanitize, his, hjs] at h
  have hjoin := congrArg codePoints (Option.some.inj h)
  rw [codePoints_ofCodePoints hichars, codePoints_ofCodePoints hjchars] at hjoin
  rw [← length_wellFormed16, ← hiunits, hjoin, hjunits, length_wellFormed16]

end

/-! ## Escapes of a text -/

/-- What stands behind each backslash that begins an escape. -/
def escapeTexts : Bytes → List Bytes
  | 92 :: c :: r => (c :: r) :: escapeTexts r
  | _ :: r => escapeTexts r
  | [] => []

/-- The number between the braces of an escape that begins with its letter. -/
def bracedNumber? : Bytes → Option Nat
  | 117 :: 0x7B :: r => some (hexValue (r.takeWhile Bytes.isHexDigit))
  | _ => none

/-- The numbers between the braces of a text's escapes. -/
def bracedEscapes (s : Bytes) : List Nat := (escapeTexts s).filterMap bracedNumber?

/-- What stands behind the backslash of an escape that is well-formed as far as its digits go. -/
inductive WellFormed : Bytes → Prop
  /-- Any letter but `x` and `u`, with further digits or the rest of a character. -/
  | plain {c : UInt8} {p : Bytes} (hx : c ≠ 120) (hu : c ≠ 117) (hp : 92 ∉ p) : WellFormed (c :: p)
  /-- Two hexadecimal digits. -/
  | hex {ds : Bytes} (hds : ∀ d ∈ ds, Bytes.isHexDigit d = true) (length : ds.length = 2) :
      WellFormed (120 :: ds)
  /-- Four hexadecimal digits. -/
  | unicode {ds : Bytes} (hds : ∀ d ∈ ds, Bytes.isHexDigit d = true) (length : ds.length = 4) :
      WellFormed (117 :: ds)
  /-- Hexadecimal digits between braces. -/
  | braced {ds : Bytes} (hds : ∀ d ∈ ds, Bytes.isHexDigit d = true) (hne : ds ≠ []) :
      WellFormed (117 :: 0x7B :: (ds ++ [0x7D]))

section

variable {b c : UInt8} {ds e p s : Bytes}

theorem escapeTexts_cons (hb : b ≠ 92) (s : Bytes) : escapeTexts (b :: s) = escapeTexts s := by
  rw [escapeTexts.eq_def]
  split
  · rename_i heq
    exact absurd (List.cons.inj heq).1 hb
  · rename_i heq
    rw [(List.cons.inj heq).2]
  · rename_i heq
    cases heq

theorem escapeTexts_append (hp : 92 ∉ p) : escapeTexts (p ++ s) = escapeTexts s := by
  induction p with
  | nil => rfl
  | cons b p ih =>
    rw [List.mem_cons, not_or] at hp
    rw [List.cons_append, escapeTexts_cons (Ne.symm hp.1), ih hp.2]

theorem bracedEscapes_cons (hb : b ≠ 92) (s : Bytes) :
    bracedEscapes (b :: s) = bracedEscapes s := by
  rw [bracedEscapes, escapeTexts_cons hb, bracedEscapes]

theorem bracedEscapes_append (hp : 92 ∉ p) : bracedEscapes (p ++ s) = bracedEscapes s := by
  rw [bracedEscapes, escapeTexts_append hp, bracedEscapes]

theorem bracedEscapes_nil : bracedEscapes [] = [] := rfl

theorem bracedEscapes_braced (s : Bytes) : bracedEscapes (92 :: 117 :: 0x7B :: s) =
    hexValue (s.takeWhile Bytes.isHexDigit) :: bracedEscapes s := by
  rw [← bracedEscapes_cons (b := 0x7B) (by decide)]
  rfl

theorem bracedEscapes_plain (h : c = 117 → s.head? ≠ some 0x7B) :
    bracedEscapes (92 :: c :: s) = bracedEscapes s := by
  have hnone : bracedNumber? (c :: s) = none := by
    unfold bracedNumber?
    split
    · rename_i heq
      obtain ⟨rfl, rfl⟩ := List.cons.inj heq
      exact absurd rfl (h rfl)
    · rfl
  rw [bracedEscapes, escapeTexts, List.filterMap_cons_none hnone, bracedEscapes]

theorem takeWhile_hex (hds : ∀ d ∈ ds, Bytes.isHexDigit d = true) (s : Bytes) :
    (ds ++ 0x7D :: s).takeWhile Bytes.isHexDigit = ds := by
  rw [List.takeWhile_append_of_pos hds, List.takeWhile_cons_of_neg (by decide), List.append_nil]

/-- The first braces close an escape behind its digits. -/
theorem findIdx?_hex (hds : ∀ d ∈ ds, Bytes.isHexDigit d = true) (s : Bytes) :
    (ds ++ 0x7D :: s).findIdx? (· == 0x7D) = some ds.length := by
  have hnone : ds.findIdx? (· == 0x7D) = none := by
    rw [List.findIdx?_eq_none_iff]
    intro d hd
    refine beq_false_of_ne ?_
    rintro rfl
    exact absurd (hds _ hd) (by decide)
  rw [List.findIdx?_append, hnone, List.findIdx?_cons, if_pos (beq_self_eq_true _)]
  simp

/-- Hexadecimal digits of an escape without braces. -/
theorem hex32?_short (hds : ∀ d ∈ ds, Bytes.isHexDigit d = true) (hne : ds ≠ [])
    (hlen : ds.length ≤ 4) :
    hex32? ds = some (hexValue ds) := by
  have hsmall := hexValue_small hlen
  have htwo : 2 ^ 32 = 0x100000000 := by decide
  rw [hex32?_eq hne hds, if_pos (by omega)]

theorem escape?_braces (hds : ∀ d ∈ ds, Bytes.isHexDigit d = true) (hne : ds ≠ []) (s : Bytes) :
    (escape? (117 :: 0x7B :: (ds ++ 0x7D :: s))).isSome = true ↔ hexValue ds ≤ 0x10FFFF := by
  have htwo : 2 ^ 32 = 0x100000000 := by decide
  rw [escape?_braced, findIdx?_hex hds, Option.bind_eq_bind, Option.bind_some, List.take_left,
    hex32?_eq hne hds]
  by_cases hmax : hexValue ds ≤ 0x10FFFF
  · rw [if_pos (by omega), Option.bind_some, if_pos hmax]
    exact iff_of_true rfl hmax
  · refine iff_of_false ?_ hmax
    by_cases hlarge : hexValue ds < 2 ^ 32
    · rw [if_pos hlarge, Option.bind_some, if_neg hmax]
      exact Bool.false_ne_true
    · rw [if_neg hlarge]
      exact Bool.false_ne_true

/-- A well-formed escape is read unless it names too large a number between braces. -/
theorem WellFormed.read (he : WellFormed e) (s : Bytes) :
    (Readable (92 :: (e ++ s)) ↔ (∀ v ∈ bracedEscapes (92 :: e), v ≤ 0x10FFFF) ∧ Readable s) ∧
      bracedEscapes (92 :: (e ++ s)) = bracedEscapes (92 :: e) ++ bracedEscapes s := by
  have hdigits {ds : Bytes} (hds : ∀ d ∈ ds, Bytes.isHexDigit d = true) : 92 ∉ ds := fun hmem =>
    absurd (hds 92 hmem) (by decide)
  -- all but an escape with braces is read, and has no number between braces
  have hsimple {c : UInt8} {p : Bytes} (hp : 92 ∉ p)
      (hread : (escape? (c :: (p ++ s))).isSome = true)
      (hbrace : ∀ s : Bytes, c = 117 → (p ++ s).head? ≠ some 0x7B) :
      (Readable (92 :: (c :: p ++ s)) ↔
          (∀ v ∈ bracedEscapes (92 :: c :: p), v ≤ 0x10FFFF) ∧ Readable s) ∧
        bracedEscapes (92 :: (c :: p ++ s)) = bracedEscapes (92 :: c :: p) ++ bracedEscapes s := by
    have hnone : bracedEscapes (92 :: c :: p) = [] := by
      have hp' := bracedEscapes_append (s := []) hp
      rw [List.append_nil] at hp'
      rw [bracedEscapes_plain (by simpa using hbrace []), hp', bracedEscapes_nil]
    rw [hnone, List.cons_append, readable_escape, hread, readable_append hp,
      bracedEscapes_plain (hbrace s), bracedEscapes_append hp]
    simp
  cases he with
  | @plain c p hx hu hp =>
    obtain ⟨e, he, -⟩ := escape?_plain hx hu (p ++ s)
    exact hsimple hp (by rw [he]; rfl) fun _ h => absurd h hu
  | @hex ds hds length =>
    have hne : ds ≠ [] := List.ne_nil_of_length_eq_add_one length
    refine hsimple (hdigits hds) ?_ fun _ h => absurd h (by decide)
    rw [escape?_x, if_neg (by rw [List.length_append]; omega), List.take_left' length,
      hex32?_short hds hne (by omega)]
    rfl
  | @unicode ds hds length =>
    have hne : ds ≠ [] := List.ne_nil_of_length_eq_add_one length
    have hbrace : ∀ s : Bytes, (ds ++ s).head? ≠ some 0x7B := by
      intro s h
      obtain ⟨d, ds, rfl⟩ := List.exists_cons_of_ne_nil hne
      cases h
      exact absurd (hds 0x7B List.mem_cons_self) (by decide)
    refine hsimple (hdigits hds) ?_ fun s _ => hbrace s
    rw [escape?_u (hbrace s), if_neg (by rw [List.length_append]; omega), List.take_left' length,
      hex32?_short hds hne (by omega)]
    rfl
  | @braced ds hds hne =>
    have hclose : ∀ s : Bytes, bracedEscapes (92 :: 117 :: 0x7B :: (ds ++ 0x7D :: s)) =
        hexValue ds :: bracedEscapes s := by
      intro s
      have hplain : 92 ∉ ds ++ [0x7D] := by
        simpa using hdigits hds
      have hbehind := bracedEscapes_append (s := s) hplain
      rw [List.append_assoc, List.singleton_append] at hbehind
      rw [bracedEscapes_braced, takeWhile_hex hds, hbehind]
    have hplain : 92 ∉ 0x7B :: (ds ++ [0x7D]) := by
      simpa using hdigits hds
    have hbehind := readable_append (s := s) hplain
    have htext : 117 :: 0x7B :: (ds ++ [0x7D]) ++ s = 117 :: 0x7B :: (ds ++ 0x7D :: s) := by simp
    have htail : 0x7B :: (ds ++ [0x7D]) ++ s = 0x7B :: (ds ++ 0x7D :: s) := by simp
    rw [htail] at hbehind
    rw [htext, readable_escape, escape?_braces hds hne, hbehind, hclose s, hclose []]
    simp [bracedEscapes_nil]

end

end StringLiteral

end ScriptLower

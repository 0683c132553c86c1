import ScriptLower.Proofs.Text.Utf8
import ScriptLower.Text.StringLiteral
import Mathlib.Algebra.Group.Nat.Defs

/-!
# The values of string literals

The body of a string literal is a list of characters that stand for themselves and of escapes.
`StringValue` gives the grammar and, piece by piece, the UTF-16 units a body stands for; it knows
nothing of bytes. The reader works on the bytes of the body and gives these units, with each half
that belongs to no pair replaced (`cook_stringValue`).

The reader decides by the first byte of an escape and by how many digits follow, so what comes
behind an escape matters where the grammar looks ahead: behind a zero, behind an octal digit and
behind a carriage return.
-/

namespace ScriptLower

/-! ## Numbers in a radix -/

namespace Bytes

/-- Digits with their values in a radix denote the number that the values make. -/
theorem toNatBase?_digits {base : Nat} {s : Bytes} {vs : List Nat} (hne : s ≠ [])
    (h : s.map digitVal = vs.map some) (hlt : ∀ v ∈ vs, v < base) :
    toNatBase? base s = some (vs.foldl (fun n v => n * base + v) 0) := by
  have hfold : ∀ n, s.foldl (fun acc b => do
      let n ← acc
      let d ← digitVal b
      if d < base then some (n * base + d) else none) (some n) =
        some (vs.foldl (fun n v => n * base + v) n) := by
    clear hne
    induction s generalizing vs with
    | nil =>
      obtain rfl := List.map_eq_nil_iff.1 h.symm
      exact fun n => rfl
    | cons b s ih =>
      obtain ⟨v, vs, rfl, hb, hs⟩ := List.map_eq_cons_iff.1 h.symm
      obtain ⟨hv, hvs⟩ := List.forall_mem_cons.1 hlt
      intro n
      have hstep : (do
          let n ← some n
          let d ← digitVal b
          if d < base then some (n * base + d) else none) = some (n * base + v) := by
        rw [← hb]
        exact if_pos hv
      rw [List.foldl_cons, hstep, List.foldl_cons, ih hs.symm hvs]
  rw [toNatBase?, if_neg (by simpa using hne)]
  exact hfold 0

theorem digitVal_eq (b : UInt8) : digitVal b =
    if 48 ≤ b.toNat ∧ b.toNat ≤ 57 then some (b.toNat - 48)
    else if 97 ≤ b.toNat ∧ b.toNat ≤ 122 then some (b.toNat - 87)
    else if 65 ≤ b.toNat ∧ b.toNat ≤ 90 then some (b.toNat - 55) else none := by
  simp [digitVal, isDigit, UInt8.le_iff_toNat_le]

end Bytes

namespace StringLiteral

open Utf8

/-! ## The grammar -/

/-- A decimal digit. -/
def IsDigit (c : Nat) : Prop := 48 ≤ c ∧ c ≤ 57

/-- An octal digit. -/
def IsOctal (c : Nat) : Prop := 48 ≤ c ∧ c ≤ 55

/-- What ends a line. -/
def IsLineEnd (c : Nat) : Prop := c = 10 ∨ c = 13 ∨ c = 0x2028 ∨ c = 0x2029

/-- The value of a hexadecimal digit. -/
def hexValue? (c : Nat) : Option Nat :=
  if 48 ≤ c ∧ c ≤ 57 then some (c - 48)
  else if 97 ≤ c ∧ c ≤ 102 then some (c - 87)
  else if 65 ≤ c ∧ c ≤ 70 then some (c - 55)
  else none

/-- The number of hexadecimal digits by their values. -/
def hexNumber (vs : List Nat) : Nat := vs.foldl (fun n v => n * 16 + v) 0

/-- The characters that stand for one unit behind a backslash, each with its unit: the quotes and
the backslash for themselves, and `b`, `t`, `n`, `v`, `f` and `r` for control characters. -/
def singleEscapes : List (Nat × Nat) :=
  [(39, 39), (34, 34), (92, 92), (98, 8), (116, 9), (110, 10), (118, 11), (102, 12), (114, 13)]

/-- `EscapeValue e rest us`: behind a backslash, the characters `e` are an escape when `rest`
follows, and it stands for the units `us`. -/
inductive EscapeValue : List Nat → List Nat → List Nat → Prop
  /-- A quote, a backslash or a control character. -/
  | single {c u rest} (h : (c, u) ∈ singleEscapes) : EscapeValue [c] rest [u]
  /-- A character without a meaning of its own stands for itself. -/
  | itself {c rest} (hs : c ∉ singleEscapes.map Prod.fst) (hd : ¬IsDigit c) (hx : c ≠ 120)
      (hu : c ≠ 117) (hl : ¬IsLineEnd c) : EscapeValue [c] rest (units16 c)
  /-- Zero, when no digit follows. -/
  | null {rest} (h : ∀ d, rest.head? = some d → ¬IsDigit d) : EscapeValue [48] rest [0]
  /-- Zero in front of a digit that is not octal. -/
  | nullBefore {rest} (h : rest.head? = some 56 ∨ rest.head? = some 57) : EscapeValue [48] rest [0]
  /-- The digits eight and nine stand for themselves. -/
  | decimal {c rest} (h : c = 56 ∨ c = 57) : EscapeValue [c] rest [c]
  /-- One octal digit, not zero, when no other follows. -/
  | octal₁ {a rest} (hpos : 0 < a) (ha : a < 8) (h : ∀ d, rest.head? = some d → ¬IsOctal d) :
      EscapeValue [48 + a] rest [a]
  /-- Two octal digits, the first below four, when no other follows. -/
  | octal₂ {a b rest} (ha : a < 4) (hb : b < 8) (h : ∀ d, rest.head? = some d → ¬IsOctal d) :
      EscapeValue [48 + a, 48 + b] rest [a * 8 + b]
  /-- Two octal digits, the first from four on. -/
  | octalHigh {a b rest} (hlo : 4 ≤ a) (ha : a < 8) (hb : b < 8) :
      EscapeValue [48 + a, 48 + b] rest [a * 8 + b]
  /-- Three octal digits, the first below four. -/
  | octal₃ {a b c rest} (ha : a < 4) (hb : b < 8) (hc : c < 8) :
      EscapeValue [48 + a, 48 + b, 48 + c] rest [(a * 8 + b) * 8 + c]
  /-- `x` and two hexadecimal digits. -/
  | hex {ds vs rest} (hds : ds.map hexValue? = vs.map some) (hlen : ds.length = 2) :
      EscapeValue (120 :: ds) rest [hexNumber vs]
  /-- `u` and four hexadecimal digits. -/
  | unicode {ds vs rest} (hds : ds.map hexValue? = vs.map some) (hlen : ds.length = 4) :
      EscapeValue (117 :: ds) rest [hexNumber vs]
  /-- `u` and hexadecimal digits in braces, up to the last code point. -/
  | codePoint {ds vs rest} (hds : ds.map hexValue? = vs.map some) (hne : ds ≠ [])
      (hmax : hexNumber vs ≤ 0x10FFFF) :
      EscapeValue (117 :: 123 :: (ds ++ [125])) rest (units16 (hexNumber vs))
  /-- A line feed, a line separator or a paragraph separator continues the line. -/
  | continuation {c rest} (h : c = 10 ∨ c = 0x2028 ∨ c = 0x2029) : EscapeValue [c] rest []
  /-- A carriage return does so without a line feed behind it … -/
  | carriageReturn {rest} (h : rest.head? ≠ some 10) : EscapeValue [13] rest []
  /-- … and with it. -/
  | carriageReturnLineFeed {rest} : EscapeValue [13, 10] rest []

/-- `StringValue q cs us`: the characters `cs` are the body of a string literal between two `q`, and
its value is the units `us`. -/
inductive StringValue (q : Nat) : List Nat → List Nat → Prop
  | nil : StringValue q [] []
  /-- A character that stands for itself; the separators of lines may. -/
  | char {c cs us} (hq : c ≠ q) (hb : c ≠ 92) (hlf : c ≠ 10) (hcr : c ≠ 13)
      (h : StringValue q cs us) : StringValue q (c :: cs) (units16 c ++ us)
  | escape {e cs us vs} (he : EscapeValue e cs us) (h : StringValue q cs vs) :
      StringValue q (92 :: e ++ cs) (us ++ vs)

/-! ## Bytes of digits -/

theorem head_ofCodePoints {cs : List Nat} {b : UInt8} (h : (ofCodePoints cs).head? = some b) :
    ∃ c, cs.head? = some c ∧ (b.toNat = c ∨ 0x80 ≤ b.toNat ∧ 0x80 ≤ c) := by
  cases cs with
  | nil => cases h
  | cons c cs =>
    obtain ⟨b', r, he, hb⟩ := head_encode c
    rw [ofCodePoints_cons, he] at h
    obtain rfl := Option.some.inj h
    exact ⟨c, rfl, hb⟩

/-- The bytes of octal digits, with what follows no octal digit. -/
theorem octalRun_stop {rest : List Nat} (n : Nat) (h : ∀ d, rest.head? = some d → ¬IsOctal d) :
    octalRun n (ofCodePoints rest) = [] := by
  unfold octalRun
  cases hs : ofCodePoints rest with
  | nil => simp
  | cons b s =>
    cases n with
    | zero => rfl
    | succ n =>
      obtain ⟨d, hd, hb⟩ := head_ofCodePoints (by rw [hs]; rfl)
      have hno := h d hd
      rw [List.take_succ_cons, List.takeWhile_cons_of_neg]
      simp only [Bool.and_eq_true, decide_eq_true_eq, UInt8.le_iff_toNat_le]
      unfold IsOctal at hno
      simp
      omega

theorem octalRun_digit {a : Nat} {s : Bytes} (n : Nat) (ha : a < 8) :
    octalRun (n + 1) ((48 + a).toUInt8 :: s) = (48 + a).toUInt8 :: octalRun n s := by
  unfold octalRun
  rw [List.take_succ_cons, List.takeWhile_cons_of_pos]
  simp only [Bool.and_eq_true, decide_eq_true_eq, UInt8.le_iff_toNat_le]
  rw [toNat_toUInt8 (by omega)]
  simp
  omega

theorem digitVal_octal {a : Nat} (ha : a < 8) : Bytes.digitVal (48 + a).toUInt8 = some a := by
  rw [Bytes.digitVal_eq, toNat_toUInt8 (by omega), if_pos (by omega), Nat.add_sub_cancel_left]

/-- A text of octal digits by their values. -/
theorem octal_number {vs : List Nat} (hne : vs ≠ []) (h : ∀ v ∈ vs, v < 8) :
    Bytes.toNatBase? 8 (vs.map fun v => (48 + v).toUInt8) =
      some (vs.foldl (fun n v => n * 8 + v) 0) := by
  refine Bytes.toNatBase?_digits (by simpa using hne) ?_ h
  rw [List.map_map]
  exact List.map_congr_left fun v hv => digitVal_octal (h v hv)

/-- The value of an octal escape by its digits: no more of them follow that belong to it. -/
theorem octalEscape_eq {a : Nat} {vs : List Nat} {r : Bytes} (ha : a < 8) (hvs : ∀ v ∈ vs, v < 8)
    (hrun : octalRun 2 r = vs.map fun v => (48 + v).toUInt8) :
    octalEscape (48 + a).toUInt8 r =
      if 0xFF < vs.foldl (fun n v => n * 8 + v) a then
        ⟨some (vs.foldl (fun n v => n * 8 + v) a / 8), vs.length⟩
      else ⟨some (vs.foldl (fun n v => n * 8 + v) a), 1 + vs.length⟩ := by
  have hnumber := octal_number (List.cons_ne_nil a vs) (List.forall_mem_cons.2 ⟨ha, hvs⟩)
  rw [List.map_cons, List.foldl_cons, Nat.zero_mul, Nat.zero_add] at hnumber
  simp only [octalEscape, hrun, hnumber, Option.getD_some, List.length_map]

/-- A hexadecimal digit is ASCII, and the reader gives it the same value. -/
theorem digitVal_hex {c v : Nat} (h : hexValue? c = some v) :
    c < 0x80 ∧ v < 16 ∧ Bytes.digitVal c.toUInt8 = some v := by
  unfold hexValue? at h
  split at h
  · rename_i hc
    cases h
    rw [Bytes.digitVal_eq, toNat_toUInt8 (by omega), if_pos hc]
    exact ⟨by omega, by omega, rfl⟩
  split at h
  · rename_i hno hc
    cases h
    rw [Bytes.digitVal_eq, toNat_toUInt8 (by omega), if_neg hno, if_pos (by omega)]
    exact ⟨by omega, by omega, rfl⟩
  split at h
  · rename_i hno _ hc
    cases h
    rw [Bytes.digitVal_eq, toNat_toUInt8 (by omega), if_neg hno, if_neg (by omega),
      if_pos (by omega)]
    exact ⟨by omega, by omega, rfl⟩
  · cases h

/-- A text of hexadecimal digits is written byte by byte, and the reader gives it its number. -/
theorem hex_number {ds vs : List Nat} (hne : ds ≠ []) (h : ds.map hexValue? = vs.map some) :
    ofCodePoints ds = ds.map (·.toUInt8) ∧ (∀ d ∈ ds, d < 0x80 ∧ d ≠ 123 ∧ d ≠ 125) ∧
      Bytes.toNatBase? 16 (ofCodePoints ds) = some (hexNumber vs) := by
  have hdigit : ∀ d ∈ ds, ∃ v, hexValue? d = some v := by
    intro d hd
    have hmem : hexValue? d ∈ vs.map some := h ▸ List.mem_map_of_mem hd
    obtain ⟨v, -, hv⟩ := List.mem_map.1 hmem
    exact ⟨v, hv.symm⟩
  have hvalue : ∀ v ∈ vs, v < 16 := by
    intro v hv
    have hmem : some v ∈ ds.map hexValue? := h ▸ List.mem_map_of_mem hv
    obtain ⟨d, -, hd⟩ := List.mem_map.1 hmem
    exact (digitVal_hex hd).2.1
  have hascii : ∀ d ∈ ds, d < 0x80 := by
    intro d hd
    obtain ⟨v, hv⟩ := hdigit d hd
    exact (digitVal_hex hv).1
  rw [ofCodePoints_map_ascii hascii]
  refine ⟨rfl, fun d hd => ⟨hascii d hd, ?_, ?_⟩, ?_⟩
  · rintro rfl
    obtain ⟨v, hv⟩ := hdigit _ hd
    cases hv
  · rintro rfl
    obtain ⟨v, hv⟩ := hdigit _ hd
    cases hv
  · refine Bytes.toNatBase?_digits (by simpa using hne) ?_ hvalue
    rw [List.map_map, ← h]
    refine List.map_congr_left fun d hd => ?_
    obtain ⟨v, hv⟩ := hdigit d hd
    rw [hv]
    exact (digitVal_hex hv).2.2

/-! ## Escapes -/

section

variable {b : UInt8} {r : Bytes}

/-- An escape that no letter and no line feed begins. -/
theorem escape?_other (h : b ∉ ([110, 116, 114, 98, 102, 118, 120, 117, 13, 10] : List UInt8)) :
    escape? (b :: r) =
      if 48 ≤ b && b ≤ 55 then some (octalEscape b r)
      else
        some ⟨if (decode (b :: r)).1 == 0x2028 || (decode (b :: r)).1 == 0x2029 then none
          else some (decode (b :: r)).1, (decode (b :: r)).2⟩ := by
  have hchar {c : Char} (he : Char.ofNat b.toNat = c) : b = c.toNat.toUInt8 :=
    (toUInt8_eq (toNat_of_ofNat_eq b.toNat_lt he).symm).symm
  rw [escape?.eq_def]
  dsimp only
  split
  all_goals try
    rename_i he
    exact absurd (hchar he) fun hb => h (by rw [hb]; decide)
  rfl

end

/-- The letters, digits and line ends that an escape may begin with are ASCII. -/
theorem escape?_character {c : Nat} (hc : IsCharacter c)
    (hletter : c ∉ [110, 116, 114, 98, 102, 118, 120, 117, 13, 10]) (hoctal : ¬IsOctal c)
    (r : Bytes) :
    escape? (encode c ++ r) =
      some ⟨if c == 0x2028 || c == 0x2029 then none else some c, (encode c).length⟩ := by
  obtain ⟨b, t, he, hb⟩ := head_encode c
  have hdecode := decode_encode hc r
  rw [he, List.cons_append] at hdecode
  rw [he, List.cons_append, escape?_other, hdecode, if_neg]
  · simp only [Bool.and_eq_true, decide_eq_true_eq, UInt8.le_iff_toNat_le]
    unfold IsOctal at hoctal
    simp
    omega
  · intro hmem
    have hmem : b.toNat ∈ [110, 116, 114, 98, 102, 118, 120, 117, 13, 10] :=
      List.mem_map_of_mem hmem
    rcases hb with hb | hb
    · exact hletter (hb ▸ hmem)
    · have hlow : ∀ n ∈ [110, 116, 114, 98, 102, 118, 120, 117, 13, 10], n < 0x80 := by decide
      have := hlow _ hmem
      omega

/-- In front of the characters `rest`, the escape `e` is read whole and stands for the units
`us`. -/
def EscapeRead (e rest us : List Nat) : Prop :=
  ∃ u : Option Nat, escape? (ofCodePoints e ++ ofCodePoints rest) =
    some ⟨u, (ofCodePoints e).length⟩ ∧
    u.toList.flatMap units16 = us ∧ ∀ i ∈ u, i ≤ 0x10FFFF

section

variable {a c : Nat} {e rest us vs : List Nat}

/-- An escape that is read as one code point. -/
theorem EscapeRead.one {u : Nat} (hmax : u ≤ 0x10FFFF)
    (h : escape? (ofCodePoints e ++ ofCodePoints rest) = some ⟨some u, (ofCodePoints e).length⟩) :
    EscapeRead e rest (units16 u) := by
  refine ⟨some u, h, List.append_nil _, fun i hi => ?_⟩
  cases hi
  exact hmax

theorem escapeRead_single {u : Nat} (h : (c, u) ∈ singleEscapes) : EscapeRead [c] rest [u] := by
  have hsmall : u < 0x10000 := (by decide : ∀ p ∈ singleEscapes, p.2 < 0x10000) _ h
  rw [← units16_small hsmall]
  refine .one (by omega) ?_
  simp only [singleEscapes, List.mem_cons, Prod.mk.injEq, List.not_mem_nil, or_false] at h
  rcases h with ⟨rfl, rfl⟩ | ⟨rfl, rfl⟩ | ⟨rfl, rfl⟩ | ⟨rfl, rfl⟩ | ⟨rfl, rfl⟩ | ⟨rfl, rfl⟩ |
    ⟨rfl, rfl⟩ | ⟨rfl, rfl⟩ | ⟨rfl, rfl⟩ <;> rfl

theorem escapeRead_itself (hc : IsCharacter c) (hs : c ∉ singleEscapes.map Prod.fst)
    (hd : ¬IsDigit c)
    (hx : c ≠ 120) (hu : c ≠ 117) (hl : ¬IsLineEnd c) : EscapeRead [c] rest (units16 c) := by
  have hletter : c ∉ [110, 116, 114, 98, 102, 118, 120, 117, 13, 10] := by
    simp only [singleEscapes, List.map_cons, List.map_nil, List.mem_cons,
      List.not_mem_nil, or_false,
      not_or] at hs ⊢
    unfold IsLineEnd at hl
    omega
  unfold IsLineEnd at hl
  unfold IsDigit at hd
  have hmax : c ≤ 0x10FFFF := (isCharacter_iff.1 hc).2
  refine .one hmax ?_
  rw [ofCodePoints_cons, ofCodePoints_nil, List.append_nil,
    escape?_character hc hletter (by unfold IsOctal; omega), if_neg]
  simp only [Bool.or_eq_true, beq_iff_eq]
  omega

/-- The digits of an octal escape: the first of them and those that belong to it. -/
theorem escape?_octal {r : Bytes} (ha : a < 8) (hvs : ∀ v ∈ vs, v < 8)
    (hrun : octalRun 2 r = vs.map fun v => (48 + v).toUInt8) :
    escape? ((48 + a).toUInt8 :: r) = some (
      if 0xFF < vs.foldl (fun n v => n * 8 + v) a then
        ⟨some (vs.foldl (fun n v => n * 8 + v) a / 8), vs.length⟩
      else ⟨some (vs.foldl (fun n v => n * 8 + v) a), 1 + vs.length⟩) := by
  have hn : (48 + a).toUInt8.toNat = 48 + a := toNat_toUInt8 (by omega)
  rw [escape?_other, if_pos, octalEscape_eq ha hvs hrun]
  · simp only [Bool.and_eq_true, decide_eq_true_eq, UInt8.le_iff_toNat_le, hn]
    simp
    omega
  · intro hmem
    have hmem : (48 + a).toUInt8.toNat ∈ [110, 116, 114, 98, 102, 118, 120, 117, 13, 10] :=
      List.mem_map_of_mem hmem
    rw [hn] at hmem
    simp only [List.mem_cons, List.not_mem_nil, or_false] at hmem
    omega

theorem octalRun_zero (r : Bytes) : octalRun 0 r = [] := rfl

theorem octalRun_digits {n : Nat} {r : Bytes} (hvs : ∀ v ∈ vs, v < 8) (hn : vs.length ≤ n) :
    octalRun n ((vs.map fun v => (48 + v).toUInt8) ++ r) =
      (vs.map fun v => (48 + v).toUInt8) ++ octalRun (n - vs.length) r := by
  induction vs generalizing n with
  | nil => rfl
  | cons v vs ih =>
    obtain ⟨hv, hvs⟩ := List.forall_mem_cons.1 hvs
    obtain ⟨m, rfl⟩ := Nat.exists_eq_add_of_le' (Nat.le_trans (Nat.succ_le_succ (Nat.zero_le _)) hn)
    rw [List.length_cons] at hn
    rw [List.map_cons, List.cons_append, octalRun_digit _ hv, ih hvs (by omega), List.length_cons,
      Nat.add_sub_add_right, List.cons_append]

theorem ofCodePoints_octal (hvs : ∀ v ∈ vs, v < 8) :
    ofCodePoints (vs.map (48 + ·)) = vs.map fun v => (48 + v).toUInt8 := by
  rw [ofCodePoints_map_ascii, List.map_map]
  · rfl
  · intro c hc
    obtain ⟨v, hv, rfl⟩ := List.mem_map.1 hc
    have := hvs v hv
    omega

/-- Octal digits with no other behind them that belongs to them. -/
theorem escapeRead_octal (ha : a < 8) (hvs : ∀ v ∈ vs, v < 8) (hlen : vs.length ≤ 2)
    (hmax : vs.foldl (fun n v => n * 8 + v) a ≤ 0xFF)
    (hrest : octalRun (2 - vs.length) (ofCodePoints rest) = []) :
    EscapeRead ((48 + a) :: vs.map (48 + ·)) rest [vs.foldl (fun n v => n * 8 + v) a] := by
  rw [← units16_small (u := vs.foldl (fun n v => n * 8 + v) a) (by omega)]
  refine .one (by omega) ?_
  have hrun : octalRun 2 ((vs.map fun v => (48 + v).toUInt8) ++ ofCodePoints rest) =
      vs.map fun v => (48 + v).toUInt8 := by
    rw [octalRun_digits hvs hlen, hrest, List.append_nil]
  rw [ofCodePoints_ascii (by omega), ofCodePoints_octal hvs, List.cons_append,
    escape?_octal ha hvs hrun, if_neg (by omega), List.length_cons, List.length_map, Nat.add_comm]

/-- Two octal digits from four on make the whole escape: a third would make it too large. -/
theorem escapeRead_octalHigh {b : Nat} (hlo : 4 ≤ a) (ha : a < 8) (hb : b < 8) :
    EscapeRead [48 + a, 48 + b] rest [a * 8 + b] := by
  by_cases hrest : ∃ d cs, rest = d :: cs ∧ IsOctal d
  · obtain ⟨d, cs, rfl, hd⟩ := hrest
    unfold IsOctal at hd
    obtain ⟨v, rfl⟩ := Nat.exists_eq_add_of_le hd.1
    have hdigits : ∀ x ∈ [b, v], x < 8 := by
      intro x hx
      simp only [List.mem_cons, List.not_mem_nil, or_false] at hx
      omega
    have hrun : octalRun 2 ([b, v].map (fun v => (48 + v).toUInt8) ++ ofCodePoints cs) =
        [b, v].map fun v => (48 + v).toUInt8 := by
      rw [octalRun_digits hdigits (Nat.le_refl 2)]
      exact List.append_nil _
    rw [← units16_small (u := a * 8 + b) (by omega)]
    refine .one (by omega) ?_
    have hvalue : [b, v].foldl (fun n v => n * 8 + v) a = (a * 8 + b) * 8 + v := rfl
    rw [ofCodePoints_ascii (by omega), ofCodePoints_ascii (by omega), ofCodePoints_nil,
      ofCodePoints_ascii (by omega)]
    refine (escape?_octal ha hdigits hrun).trans ?_
    rw [hvalue, if_pos (by omega), show ((a * 8 + b) * 8 + v) / 8 = a * 8 + b by omega]
    rfl
  · have hdigit : ∀ v ∈ [b], v < 8 := List.forall_mem_singleton.2 hb
    refine escapeRead_octal ha hdigit (Nat.le_succ 1) ?_ ?_
    · change a * 8 + b ≤ 0xFF
      omega
    · refine octalRun_stop _ fun d hd hoctal => hrest ?_
      obtain ⟨cs, rfl⟩ := List.head?_eq_some_iff.1 hd
      exact ⟨d, cs, rfl, hoctal⟩

/-! ### Hexadecimal digits -/

theorem hexNumber_lt (hvs : ∀ v ∈ vs, v < 16) : hexNumber vs < 16 ^ vs.length := by
  have hfold : ∀ n, vs.foldl (fun n v => n * 16 + v) n < (n + 1) * 16 ^ vs.length := by
    induction vs with
    | nil => exact fun n => by simp
    | cons v vs ih =>
      obtain ⟨hv, hvs⟩ := List.forall_mem_cons.1 hvs
      intro n
      refine Nat.lt_of_lt_of_le (ih hvs _) ?_
      rw [List.length_cons, Nat.pow_succ', ← Nat.mul_assoc]
      have hstep : n * 16 + v + 1 ≤ (n + 1) * 16 := by omega
      exact Nat.mul_le_mul_right _ hstep
  simpa [hexNumber] using hfold 0

section

variable {ds : List Nat} (hds : ds.map hexValue? = vs.map some)

include hds

theorem hex32?_digits (hne : ds ≠ []) (hmax : hexNumber vs < 2 ^ 32) :
    hex32? (ofCodePoints ds) = some (hexNumber vs) := by
  rw [hex32?, (hex_number hne hds).2.2, Option.bind_eq_bind, Option.bind_some]
  exact if_pos hmax

theorem hexNumber_small {k : Nat} (hlen : ds.length = k) : hexNumber vs < 16 ^ k := by
  have hvs : vs.length = k := by
    rw [← hlen, ← List.length_map (f := some), ← hds, List.length_map]
  rw [← hvs]
  refine hexNumber_lt fun v hv => ?_
  have hmem : some v ∈ ds.map hexValue? := hds ▸ List.mem_map_of_mem hv
  obtain ⟨d, -, hd⟩ := List.mem_map.1 hmem
  exact (digitVal_hex hd).2.1

theorem length_ofCodePoints_hex (hne : ds ≠ []) : (ofCodePoints ds).length = ds.length := by
  rw [(hex_number hne hds).1, List.length_map]

theorem escapeRead_hex (hlen : ds.length = 2) : EscapeRead (120 :: ds) rest [hexNumber vs] := by
  have hne : ds ≠ [] := List.ne_nil_of_length_eq_add_one hlen
  have hsmall := hexNumber_small hds hlen
  have hbytes := (length_ofCodePoints_hex hds hne).trans hlen
  rw [← units16_small (u := hexNumber vs) (by omega)]
  refine .one (by omega) ?_
  rw [ofCodePoints_ascii (by decide), List.length_cons, hbytes]
  have hread (r : Bytes) : escape? (120 :: r) =
      if r.length < 2 then none else (hex32? (r.take 2)).map fun v => ⟨some v, 3⟩ := rfl
  refine (hread (ofCodePoints ds ++ ofCodePoints rest)).trans ?_
  rw [if_neg (by rw [List.length_append]; omega), List.take_left' hbytes,
    hex32?_digits hds hne (by omega)]
  rfl

theorem escapeRead_unicode (hlen : ds.length = 4) : EscapeRead (117 :: ds) rest [hexNumber vs] := by
  have hne : ds ≠ [] := List.ne_nil_of_length_eq_add_one hlen
  have hsmall := hexNumber_small hds hlen
  have hbytes := (length_ofCodePoints_hex hds hne).trans hlen
  rw [← units16_small (u := hexNumber vs) (by omega)]
  refine .one (by omega) ?_
  rw [ofCodePoints_ascii (by decide), List.length_cons, hbytes]
  obtain ⟨-, hascii, -⟩ := hex_number hne hds
  obtain ⟨d, ds', rfl⟩ := List.exists_cons_of_ne_nil hne
  obtain ⟨hd, hbrace, -⟩ := hascii d List.mem_cons_self
  have hopen : (d.toUInt8 == 0x7B) = false := by
    rw [beq_eq_false_iff_ne, ne_eq, ← UInt8.toNat_inj, toNat_toUInt8 (by omega)]
    exact hbrace
  have hread (r : Bytes) : escape? (117 :: d.toUInt8 :: r) =
      if (d.toUInt8 :: r).length < 4 then none
      else (hex32? ((d.toUInt8 :: r).take 4)).map fun v => ⟨some v, 5⟩ :=
    if_neg (by rw [hopen]; exact Bool.false_ne_true)
  have htext : ofCodePoints (d :: ds') = d.toUInt8 :: ofCodePoints ds' := ofCodePoints_ascii hd _
  rw [htext] at hbytes
  refine Eq.trans ?_ (b := escape? (117 :: d.toUInt8 :: (ofCodePoints ds' ++ ofCodePoints rest))) ?_
  · rw [htext]
    rfl
  rw [hread, ← List.cons_append, if_neg (by rw [List.length_append]; omega), List.take_left' hbytes,
    ← htext, hex32?_digits hds hne (by omega)]
  rfl

theorem escapeRead_codePoint (hne : ds ≠ []) (hmax : hexNumber vs ≤ 0x10FFFF) :
    EscapeRead (117 :: 123 :: (ds ++ [125])) rest (units16 (hexNumber vs)) := by
  refine .one hmax ?_
  obtain ⟨hbytes, hascii, -⟩ := hex_number hne hds
  have hread (r : Bytes) : escape? (117 :: 123 :: r) = (do
      let i ← r.findIdx? (· == 0x7D)
      let v ← hex32? (r.take i)
      if v ≤ 0x10FFFF then some ⟨some v, i + 3⟩ else none) := rfl
  have hclose (r : Bytes) :
      (ofCodePoints ds ++ 125 :: r).findIdx? (· == 0x7D) = some ds.length := by
    rw [List.findIdx?_append, List.findIdx?_eq_none_iff.2]
    · simp [length_ofCodePoints_hex hds hne, List.findIdx?_cons]
    · intro b hb
      rw [hbytes] at hb
      obtain ⟨d, hd, rfl⟩ := List.mem_map.1 hb
      rw [beq_eq_false_iff_ne, ne_eq, ← UInt8.toNat_inj,
        toNat_toUInt8 (by have := hascii d hd; omega)]
      exact (hascii d hd).2.2
  rw [ofCodePoints_ascii (by decide), ofCodePoints_ascii (by decide), ofCodePoints_append,
    ofCodePoints_ascii (by decide), ofCodePoints_nil]
  refine (congrArg escape? ?_).trans
    ((hread (ofCodePoints ds ++ 125 :: ofCodePoints rest)).trans ?_)
  · simp
  · rw [hclose, Option.bind_eq_bind, Option.bind_some,
      List.take_left' (length_ofCodePoints_hex hds hne), hex32?_digits hds hne (by omega),
      Option.bind_some, if_pos hmax]
    simp [length_ofCodePoints_hex hds hne]

end

/-! ### All escapes -/

theorem IsOctal.isDigit (h : IsOctal c) : IsDigit c := ⟨h.1, Nat.le_trans h.2 (by decide)⟩

/-- A line end behind a backslash is read whole and stands for nothing. -/
theorem EscapeRead.none
    (h :
      escape? (ofCodePoints e ++ ofCodePoints rest) = some ⟨Option.none, (ofCodePoints e).length⟩) :
    EscapeRead e rest [] := ⟨Option.none, h, rfl, fun _ hi => by cases hi⟩

/-- The escapes of the grammar are read as they are, one case per form. -/
theorem EscapeValue.read (h : EscapeValue e rest us) (he : ∀ c ∈ e, IsCharacter c) :
    EscapeRead e rest us := by
  cases h with
  | single h => exact escapeRead_single h
  | itself hs hd hx hu hl =>
    exact escapeRead_itself (he _ List.mem_cons_self) hs hd hx hu hl
  | null h =>
    exact escapeRead_octal (a := 0) (by decide) (List.forall_mem_nil (· < 8))
      (by decide) (by decide)
      (octalRun_stop _ fun d hd ho => h d hd ho.isDigit)
  | nullBefore h =>
    refine escapeRead_octal (a := 0) (by decide) (List.forall_mem_nil (· < 8)) (by decide)
      (by decide) (octalRun_stop _ fun d hd ho => ?_)
    unfold IsOctal at ho
    rcases h with h | h <;> cases h.symm.trans hd <;> omega
  | decimal h =>
    rcases h with rfl | rfl
    · exact .one (u := 56) (by decide) rfl
    · exact .one (u := 57) (by decide) rfl
  | octal₁ hpos ha h =>
    exact escapeRead_octal ha (List.forall_mem_nil (· < 8)) (by decide) (by simp; omega)
      (octalRun_stop _ h)
  | octal₂ ha hb h =>
    exact escapeRead_octal (by omega) (List.forall_mem_singleton.2 hb) (Nat.le_succ 1)
      (by simp; omega) (octalRun_stop _ h)
  | octalHigh hlo ha hb => exact escapeRead_octalHigh hlo ha hb
  | @octal₃ _ b c _ ha hb hc =>
    have hdigits : ∀ v ∈ [b, c], v < 8 :=
      List.forall_mem_cons.2 ⟨hb, List.forall_mem_singleton.2 hc⟩
    exact escapeRead_octal (by omega) hdigits (Nat.le_refl 2) (by simp; omega) (octalRun_zero _)
  | hex hds hlen => exact escapeRead_hex hds hlen
  | unicode hds hlen => exact escapeRead_unicode hds hlen
  | codePoint hds hne hmax => exact escapeRead_codePoint hds hne hmax
  | continuation h =>
    rcases h with rfl | h
    · exact .none rfl
    · refine .none ?_
      rw [ofCodePoints_cons, ofCodePoints_nil, List.append_nil,
        escape?_character (he _ List.mem_cons_self), if_pos]
      · rcases h with rfl | rfl <;> rfl
      · rcases h with rfl | rfl <;> decide
      · unfold IsOctal
        omega
  | carriageReturn h =>
    refine .none ?_
    have hread (r : Bytes) :
        escape? (13 :: r) = some ⟨Option.none, if r.head? == some 10 then 2 else 1⟩ :=
      rfl
    refine (hread (ofCodePoints rest)).trans ?_
    rw [if_neg]
    · rfl
    rw [beq_iff_eq]
    intro hhead
    obtain ⟨d, hd, hb⟩ := head_ofCodePoints hhead
    rw [show (10 : UInt8).toNat = 10 from rfl] at hb
    rcases hb with hb | hb
    · exact h (hb ▸ hd)
    · omega
  | carriageReturnLineFeed => exact .none rfl

end

/-! ## Bodies -/

theorem unitsFrom_drop (k : Nat) (s : Bytes) : unitsFrom k s = unitsFrom 0 (s.drop k) := by
  induction s generalizing k with
  | nil => cases k <;> rfl
  | cons b s ih =>
    cases k with
    | zero => rfl
    | succ k => exact ih k

/-- A character that stands for itself. -/
theorem unitsFrom_character {c : Nat} (hc : IsCharacter c) (hb : c ≠ 92) (cs : List Nat) :
    unitsFrom 0 (ofCodePoints (c :: cs)) = (unitsFrom 0 (ofCodePoints cs)).map (c :: ·) := by
  obtain ⟨b, t, he, hhead⟩ := head_encode c
  have hdecode := decode_encode hc (ofCodePoints cs)
  rw [he, List.cons_append] at hdecode
  have hplain : (b == ascii '\\') = false := by
    rw [beq_eq_false_iff_ne]
    rintro rfl
    rw [show (ascii '\\').toNat = 92 from rfl] at hhead
    omega
  rw [ofCodePoints_cons, he, List.cons_append, unitsFrom, hplain, if_neg Bool.false_ne_true,
    hdecode]
  dsimp only
  rw [List.length_cons, Nat.add_sub_cancel, unitsFrom_drop, List.drop_left]

theorem unitsFrom_escape {e rest us : List Nat} (h : EscapeRead e rest us) :
    ∃ u : Option Nat, unitsFrom 0 (ofCodePoints (92 :: e ++ rest)) =
        (unitsFrom 0 (ofCodePoints rest)).map (u.toList ++ ·) ∧
      u.toList.flatMap units16 = us ∧ ∀ i ∈ u, i ≤ 0x10FFFF := by
  obtain ⟨u, hread, hunits, hmax⟩ := h
  refine ⟨u, ?_, hunits, hmax⟩
  rw [List.cons_append, ofCodePoints_ascii (by decide), ofCodePoints_append, unitsFrom,
    if_pos (by decide : (Nat.toUInt8 92 == ascii '\\') = true), hread]
  dsimp only
  rw [unitsFrom_drop (ofCodePoints e).length, List.drop_left]

/-- What is read of a body stands for the units of its value. -/
theorem StringValue.read {q : Nat} {cs us : List Nat} (h : StringValue q cs us)
    (hcs : ∀ c ∈ cs, IsCharacter c) :
    ∃ is, unitsFrom 0 (ofCodePoints cs) = some is ∧ is.flatMap units16 = us ∧
      ∀ i ∈ is, i ≤ 0x10FFFF := by
  induction h with
  | nil => exact ⟨[], rfl, rfl, List.forall_mem_nil _⟩
  | @char c cs us hq hb hlf hcr h ih =>
    obtain ⟨hc, hcs⟩ := List.forall_mem_cons.1 hcs
    obtain ⟨is, hread, hunits, hmax⟩ := ih hcs
    refine ⟨c :: is, ?_, ?_, List.forall_mem_cons.2 ⟨(isCharacter_iff.1 hc).2, hmax⟩⟩
    · rw [unitsFrom_character hc hb, hread, Option.map_some]
    · rw [List.flatMap_cons, hunits]
  | @escape e cs us vs he h ih =>
    have hsplit := List.forall_mem_append.1 (List.forall_mem_cons.1 hcs).2
    obtain ⟨u, hescape, hfirst, hfirstMax⟩ := unitsFrom_escape (he.read hsplit.1)
    obtain ⟨is, hread, hunits, hmax⟩ := ih hsplit.2
    refine ⟨u.toList ++ is, ?_, ?_, ?_⟩
    · rw [hescape, hread, Option.map_some]
    · rw [List.flatMap_append, hfirst, hunits]
    · exact List.forall_mem_append.2 ⟨fun i hi => hfirstMax i (Option.mem_toList.1 hi), hmax⟩

theorem unitsFrom_plain {cs : List Nat} (hcs : ∀ c ∈ cs, IsCharacter c)
    (hplain : ∀ c ∈ cs, c ≠ 92) :
    unitsFrom 0 (ofCodePoints cs) = some cs := by
  induction cs with
  | nil => rfl
  | cons c cs ih =>
    obtain ⟨hc, hcs⟩ := List.forall_mem_cons.1 hcs
    obtain ⟨hb, hbs⟩ := List.forall_mem_cons.1 hplain
    rw [unitsFrom_character hc hb, ih hcs hbs, Option.map_some]

/-- A body without a backslash could as well be read character by character. -/
theorem cook_ofCodePoints {cs : List Nat} (hcs : ∀ c ∈ cs, IsCharacter c) :
    cook (ofCodePoints cs) = (unitsFrom 0 (ofCodePoints cs)).map fun is =>
    ofCodePoints (joinUnits is) := by
  unfold cook
  split
  · rfl
  rename_i hno
  have hplain : ∀ c ∈ cs, c ≠ 92 := by
    rintro c hc rfl
    refine hno (List.elem_eq_true_of_mem ?_)
    exact List.mem_flatMap.2 ⟨92, hc, List.mem_singleton.2 rfl⟩
  rw [unitsFrom_plain hcs hplain, Option.map_some, joinUnits_characters hcs]

/-- The body of a string literal is read, and what is read is its value: a well-formed text that has
the units of the value, with each half that belongs to no pair replaced. So halves of two escapes
that stand side by side are one character, whatever the forms of the escapes. -/
theorem cook_stringValue {q : UInt8} {body : Bytes} {us : List Nat} (hq : q = 34 ∨ q = 39)
    (hvalid : isValid body = true) (h : StringValue q.toNat (codePoints body) us) :
    ∃ t, cook body = some t ∧ unquote (q :: body ++ [q]) = some t ∧ isValid t = true ∧
      text16 t = wellFormed16 us := by
  obtain ⟨cs, hcs, rfl⟩ := exists_ofCodePoints hvalid
  rw [codePoints_ofCodePoints hcs] at h
  obtain ⟨is, hread, hunits, hmax⟩ := h.read hcs
  obtain ⟨hchars, hjoined⟩ := units16_joinUnits hmax
  have hcook : cook (ofCodePoints cs) = some (ofCodePoints (joinUnits is)) := by
    rw [cook_ofCodePoints hcs, hread, Option.map_some]
  refine ⟨ofCodePoints (joinUnits is), hcook, ?_, isValid_ofCodePoints hchars, ?_⟩
  · have hquoted :
        (!(ofCodePoints cs ++ [q]).isEmpty && (ofCodePoints cs ++ [q]).getLast? == some q &&
        (q == 34 || q == 39)) = true := by
      rcases hq with rfl | rfl <;> simp
    exact (if_pos hquoted).trans ((congrArg cook List.dropLast_concat).trans hcook)
  · rw [text16, codePoints_ofCodePoints hchars, hjoined, hunits]

/-- The halves of a character in two forms of escape, two octal digits in front of a third, a line
that is continued, a zero in front of a nine, and a half alone. -/
theorem cook_halves_and_octals :
    let body : Bytes := "\\uD83D\\u\x7bDE00\x7d\\477\\\r\n\\09\\uD800"
    let us : List Nat := [0xD83D, 0xDE00, 39, 55, 0, 57, 0xD800]
    isValid body = true ∧ StringValue 34 (codePoints body) us ∧
      ∃ t, cook body = some t ∧ unquote (34 :: body ++ [34]) = some t ∧ isValid t = true ∧
        text16 t = [0xD83D, 0xDE00, 39, 55, 0, 57, 0xFFFD] := by
  intro body us
  have hvalid : isValid body = true := by decide
  have hchars :
      codePoints body = [92, 117, 68, 56, 51, 68, 92, 117, 123, 68, 69, 48, 48, 125, 92, 52, 55, 55,
      92, 13, 10, 92, 48, 57, 92, 117, 68, 56, 48, 48] := by decide
  have hhalf : StringValue 34 [92, 117, 68, 56, 48, 48] [0xD800] :=
    @StringValue.escape 34 [117, 68, 56, 48, 48] [] _ _
      (@EscapeValue.unicode _ [13, 8, 0, 0] _ rfl rfl) .nil
  have hnine : StringValue 34 [57, 92, 117, 68, 56, 48, 48] [57, 0xD800] :=
    .char (c := 57) (by decide) (by decide) (by decide) (by decide) hhalf
  have hzero : StringValue 34 [92, 48, 57, 92, 117, 68, 56, 48, 48] [0, 57, 0xD800] :=
    .escape (e := [48]) (.nullBefore (Or.inr rfl)) hnine
  have hline : StringValue 34 [92, 13, 10, 92, 48, 57, 92, 117, 68, 56, 48, 48] [0, 57, 0xD800] :=
    .escape (e := [13, 10]) .carriageReturnLineFeed hzero
  have hseven : StringValue 34 [55, 92, 13, 10, 92, 48, 57, 92, 117, 68, 56, 48, 48]
      [55, 0, 57, 0xD800] := .char (c := 55) (by decide) (by decide) (by decide) (by decide) hline
  have hoctal : StringValue 34 [92, 52, 55, 55, 92, 13, 10, 92, 48, 57, 92, 117, 68, 56, 48, 48]
      [39, 55, 0, 57, 0xD800] :=
    .escape (e := [52, 55]) (.octalHigh (a := 4) (b := 7) (by decide) (by decide) (by decide))
      hseven
  have hlow : StringValue 34 (92 :: [117, 123, 68, 69, 48, 48, 125] ++
      [92, 52, 55, 55, 92, 13, 10, 92, 48, 57, 92, 117, 68, 56, 48, 48])
      [0xDE00, 39, 55, 0, 57, 0xD800] :=
    .escape (e := [117, 123, 68, 69, 48, 48, 125])
      (@EscapeValue.codePoint [68, 69, 48, 48] [13, 14, 0, 0] _ rfl (by simp) (by decide)) hoctal
  have hbody : StringValue 34 (codePoints body) us := by
    rw [hchars]
    exact .escape (e := [117, 68, 56, 51, 68]) (@EscapeValue.unicode _ [13, 8, 3, 13] _ rfl rfl)
      hlow
  exact ⟨hvalid, hbody, cook_stringValue (q := 34) (Or.inl rfl) hvalid hbody⟩

end StringLiteral

end ScriptLower

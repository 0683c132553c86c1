import ScriptLower.Proofs.Text.Utf8
import ScriptLower.Proofs.Token.Head

/-!
# Decimal numbers that are printed and read again

A number is printed as it is spelled. What is read of it again is all of it, except behind a leading
zero: there reading stops at the end of the first digits, so that a fraction or an exponent is cut
off.
-/

namespace ScriptLower

/-- A decimal number as it is spelled: its first digits, the digits behind a point, and the sign and
the digits of an exponent. -/
structure Decimal where
  /-- The first digits. -/
  whole : Bytes
  /-- The digits behind the point. -/
  fraction : Option Bytes := none
  /-- The sign and the digits of the exponent. -/
  exponent : Option (Bytes × Bytes) := none

namespace Decimal

/-- The point and the digits behind it. -/
def fractionText (d : Decimal) : Bytes := d.fraction.elim [] fun ds => 46 :: ds

/-- The mark, the sign and the digits of the exponent. -/
def exponentText (d : Decimal) : Bytes := d.exponent.elim [] fun e => ascii 'e' :: (e.1 ++ e.2)

/-- The number as it is printed. -/
def text (d : Decimal) : Bytes := d.whole ++ (d.fractionText ++ d.exponentText)

/-- Whether the parts hold digits, and the first one and the exponent some. -/
def isSpelled (d : Decimal) : Bool :=
  !d.whole.isEmpty && d.whole.all Bytes.isDigit && d.fraction.all (·.all Bytes.isDigit)
    && d.exponent.all fun e =>
      [[], [ascii '+'], [ascii '-']].contains e.1 && !e.2.isEmpty && e.2.all Bytes.isDigit

/-- Whether a zero stands before another digit. -/
def hasLeadingZero (d : Decimal) : Bool := 2 ≤ d.whole.length && d.whole.head? == some 48

/-- Whether a number ends before a text: what comes next is neither a digit nor a point, and begins
no name. -/
def endsBefore (rest : Bytes) : Bool :=
  rest.head?.all fun b => b < 128 && !Bytes.isDigit b && !Bytes.isAlpha b && b !=
    95 && b != 36 && b != 46

end Decimal

namespace Lexeme

/-! ## Runs of digits -/

/-- Whether a run of digits ends before a text. -/
def stopsDigits (s : Bytes) : Bool := s.head?.all fun b => !Bytes.isDigit b && b != 95

theorem digitRun_append {ds s : Bytes} (hd : ds.all Bytes.isDigit = true)
    (hs : stopsDigits s = true) : digitRun Bytes.isDigit (ds ++ s) = ds.length := by
  induction ds with
  | nil =>
    cases s with
    | nil => rfl
    | cons b r =>
      simp only [stopsDigits, List.head?_cons, Option.all_some, Bool.and_eq_true, Bool.not_eq_true',
        bne_iff_ne] at hs
      simp [digitRun, hs.1, hs.2]
  | cons d ds ih =>
    rw [List.all_cons, Bool.and_eq_true] at hd
    simp [digitRun, hd.1, ih hd.2]

theorem takeWhile_append {ds s : Bytes} (hd : ds.all Bytes.isDigit = true)
    (hs : stopsDigits s = true) : (ds ++ s).takeWhile Bytes.isDigit = ds := by
  have hnone : s.takeWhile Bytes.isDigit = [] := by
    cases s with
    | nil => rfl
    | cons b r =>
      simp only [stopsDigits, List.head?_cons, Option.all_some, Bool.and_eq_true,
        Bool.not_eq_true'] at hs
      simp [hs.1]
  rw [List.takeWhile_append_of_pos (List.all_eq_true.1 hd), hnone, List.append_nil]

theorem finishNumber_size {s : Bytes} {n : Nat} {integer : Bool} (faults : List Fault)
    (hs : (s.drop n).head? ≠ some (ascii 'n')) : (finishNumber integer n faults s).size = n := by
  unfold finishNumber
  split
  · rename_i hn
    rw [Bool.and_eq_true, beq_iff_eq] at hn
    exact absurd hn.2 hs
  · exact numberTail_size _ _

end Lexeme

namespace Decimal

open Lexeme

variable {d : Decimal} {rest : Bytes}

/-! ## The parts of a number -/

theorem isDigit_toNat {b : UInt8} (h : Bytes.isDigit b = true) : 48 ≤ b.toNat ∧ b.toNat ≤ 57 := by
  simpa [Bytes.isDigit, UInt8.le_iff_toNat_le] using h

/-- What a spelled number is made of. -/
structure Spelled (d : Decimal) : Prop where
  some_digit : d.whole ≠ []
  whole : d.whole.all Bytes.isDigit = true
  fraction : ∀ ds ∈ d.fraction, ds.all Bytes.isDigit = true
  exponent : ∀ e ∈ d.exponent, (e.1 = [] ∨ e.1 = [ascii '+'] ∨ e.1 = [ascii '-']) ∧ e.2 ≠ [] ∧
    e.2.all Bytes.isDigit = true

theorem spelled_of_isSpelled (h : d.isSpelled = true) : d.Spelled := by
  simp only [isSpelled, Bool.and_eq_true, Bool.not_eq_true', List.isEmpty_eq_false_iff,
    Option.all_eq_true, List.contains_iff_mem, List.mem_cons, List.not_mem_nil, or_false] at h
  exact ⟨h.1.1.1, h.1.1.2, h.1.2, fun e he => ⟨(h.2 e he).1.1, (h.2 e he).1.2, (h.2 e he).2⟩⟩

/-- What may stand behind the digits of a number. -/
structure Ends (rest : Bytes) : Prop where
  digits : stopsDigits rest = true
  point : rest.head? ≠ some 46
  letter : ∀ b ∈ rest.head?, Bytes.isAlpha b = false

theorem ends_of_endsBefore (h : endsBefore rest = true) : Ends rest := by
  cases rest with
  | nil => exact ⟨rfl, by simp, by simp⟩
  | cons b r =>
    simp only [endsBefore, List.head?_cons, Option.all_some, Bool.and_eq_true, Bool.not_eq_true',
      bne_iff_ne] at h
    exact ⟨by simp [stopsDigits, h.1.1.1.1.2, h.1.1.2], by simp [h.2], by simp [h.1.1.1.2]⟩

theorem Ends.not_letter (h : Ends rest) {b : UInt8} (hb : Bytes.isAlpha b = true) :
    rest.head? ≠ some b := by
  intro e
  exact absurd (h.letter b e) (by simp [hb])

theorem stops_exponent (d : Decimal) (h : Ends rest) :
    stopsDigits (d.exponentText ++ rest) = true := by
  unfold exponentText
  cases d.exponent with
  | none => exact h.digits
  | some e => rfl

theorem stops_fraction (d : Decimal) (h : Ends rest) :
    stopsDigits (d.fractionText ++ (d.exponentText ++ rest)) = true := by
  unfold fractionText
  cases d.fraction with
  | none => exact stops_exponent d h
  | some ds => rfl

theorem point_exponent (d : Decimal) (h : Ends rest) :
    (d.exponentText ++ rest).head? ≠ some 46 := by
  unfold exponentText
  cases d.exponent with
  | none => exact h.point
  | some e => simp [ascii]

theorem mantissa_text (hd : d.Spelled) (h : Ends rest) :
    mantissa (d.whole ++ (d.fractionText ++ (d.exponentText ++ rest))) =
      ((d.whole ++ d.fractionText).length, d.fraction.isNone) := by
  unfold mantissa
  rw [digitRun_append hd.whole (stops_fraction d h)]
  dsimp only
  rw [List.drop_left]
  cases hf : d.fraction with
  | none =>
    have hpoint := point_exponent d h
    simp only [fractionText, hf, Option.elim_none, List.nil_append, List.append_nil]
    split
    · rename_i heq
      rw [heq] at hpoint
      exact absurd rfl hpoint
    · rfl
  | some ds =>
    have hrun := digitRun_append (hd.fraction ds hf) (stops_exponent d h)
    simp only [fractionText, hf, Option.elim_some, List.cons_append]
    rw [hrun]
    simp
    omega

theorem exponent_text (hd : d.Spelled) (h : Ends rest) :
    Lexeme.exponent (d.exponentText ++ rest) =
      d.exponent.map fun _ => (d.exponentText.length, true) := by
  unfold exponentText
  cases he : d.exponent with
  | none =>
    have hsmall : rest.head? ≠ some (ascii 'e') := h.not_letter rfl
    have hlarge : rest.head? ≠ some (ascii 'E') := h.not_letter rfl
    cases rest with
    | nil => rfl
    | cons b r =>
      simp only [List.head?_cons, ne_eq, Option.some.injEq] at hsmall hlarge
      simp [Lexeme.exponent, hsmall, hlarge]
  | some e =>
    obtain ⟨hsign, hne, hdigits⟩ := hd.exponent e he
    obtain ⟨sign, ds⟩ := e
    dsimp only at hsign hne hdigits
    have hrun := digitRun_append hdigits h.digits
    cases ds with
    | nil => exact absurd rfl hne
    | cons x ds =>
      have hx : Bytes.isDigit x = true := by
        rw [List.all_cons, Bool.and_eq_true] at hdigits
        exact hdigits.1
      have hnosign : (x == ascii '+' || x == ascii '-') = false := by
        have hrange := isDigit_toNat hx
        simp only [Bool.or_eq_false_iff, beq_eq_false_iff_ne, ne_eq, ← UInt8.toNat_inj]
        constructor
        · intro e; rw [e] at hrange; exact absurd hrange.1 (by decide)
        · intro e; rw [e] at hrange; exact absurd hrange.1 (by decide)
      have hlen : exponentSign (sign ++ (x :: ds ++ rest)) = sign.length := by
        rcases hsign with rfl | rfl | rfl
        · simp [exponentSign, hnosign]
        · rfl
        · rfl
      show Lexeme.exponent (ascii 'e' :: (sign ++ x :: ds ++ rest)) = some (_, true)
      rw [List.append_assoc]
      unfold Lexeme.exponent
      dsimp only
      rw [hlen, List.drop_left, hrun, if_pos (show (ascii 'e' == ascii 'e' || _) = true from rfl),
        if_pos (by simp [hx])]
      simp
      omega

/-! ## Numbers that are read again -/

theorem length_text (d : Decimal) :
    d.text.length = (d.whole ++ d.fractionText).length + d.exponentText.length := by
  simp [text]
  omega

theorem text_append (d : Decimal) (rest : Bytes) :
    d.text ++ rest = d.whole ++ (d.fractionText ++ (d.exponentText ++ rest)) := by
  simp [text]

theorem decimalNumber_text (hd : d.Spelled) (h : Ends rest) :
    (decimalNumber (d.text ++ rest)).size = d.text.length := by
  have hsplit := text_append d rest
  have hdrop :
      (d.text ++ rest).drop (d.whole ++ d.fractionText).length = d.exponentText ++ rest := by
    rw [hsplit, ← List.append_assoc, List.drop_left]
  have hrest : (d.text ++ rest).drop d.text.length = rest := List.drop_left
  have hletter : ((d.text ++ rest).drop d.text.length).head? ≠ some (ascii 'n') := by
    rw [hrest]
    exact h.not_letter rfl
  unfold decimalNumber
  rw [hsplit, mantissa_text hd h, ← hsplit]
  dsimp only
  rw [hdrop, exponent_text hd h]
  have hlength := length_text d
  cases he : d.exponent with
  | none =>
    have hnone : d.exponentText.length = 0 := by simp [exponentText, he]
    rw [hnone, Nat.add_zero] at hlength
    rw [← hlength]
    exact finishNumber_size _ hletter
  | some e =>
    dsimp only [Option.map_some]
    rw [← hlength]
    exact finishNumber_size _ hletter

/-- The mark of a radix is a letter, and not that of an exponent. -/
theorem radix_letter {b : UInt8} {c : Char} (hc : c = 'b' ∨ c = 'o' ∨ c = 'x')
    (h : Char.ofNat (Bytes.lowerByte b).toNat = c) : Bytes.isAlpha b = true ∧ b ≠ ascii 'e' := by
  have hn := Utf8.toNat_of_ofNat_eq (Bytes.lowerByte b).toNat_lt h
  have hcode : c.toNat = 98 ∨ c.toNat = 111 ∨ c.toNat = 120 := by
    rcases hc with rfl | rfl | rfl
    · exact .inl rfl
    · exact .inr (.inl rfl)
    · exact .inr (.inr rfl)
  have hb : b.toNat < 256 := b.toNat_lt
  simp only [Bytes.isAlpha, Bool.or_eq_true, Bool.and_eq_true, decide_eq_true_eq,
    UInt8.le_iff_toNat_le, UInt8.reduceToNat, ne_eq, ← UInt8.toNat_inj]
  have he : (ascii 'e').toNat = 101 := rfl
  rw [he]
  unfold Bytes.lowerByte at hn
  split at hn
  · rename_i hcap
    simp only [Bool.and_eq_true, decide_eq_true_eq, UInt8.le_iff_toNat_le,
      UInt8.reduceToNat] at hcap
    have hadd : (b + 32).toNat = b.toNat + 32 := by
      rw [UInt8.toNat_add]
      exact Nat.mod_eq_of_lt (by simp; omega)
    omega
  · omega

/-- What stands behind the first digits is no digit, and no letter but the mark of an exponent. -/
theorem head_of_tail (d : Decimal) (h : Ends rest) {b : UInt8} {r : Bytes}
    (htail : d.fractionText ++ (d.exponentText ++ rest) = b :: r) :
    Bytes.isDigit b = false ∧ (Bytes.isAlpha b = false ∨ b = ascii 'e') := by
  have hstop := stops_fraction d h
  rw [htail] at hstop
  simp only [stopsDigits, List.head?_cons, Option.all_some, Bool.and_eq_true,
    Bool.not_eq_true'] at hstop
  refine ⟨hstop.1, ?_⟩
  cases hf : d.fraction with
  | some ds =>
    simp only [fractionText, hf, Option.elim_some, List.cons_append, List.cons.injEq] at htail
    rw [← htail.1]
    exact .inl rfl
  | none =>
    cases he : d.exponent with
    | some e =>
      simp only [fractionText, hf, exponentText, he, Option.elim_none, Option.elim_some,
        List.nil_append, List.cons_append, List.cons.injEq] at htail
      exact .inr htail.1.symm
    | none =>
      simp only [fractionText, hf, exponentText, he, Option.elim_none, List.nil_append] at htail
      exact .inl (h.letter b (by simp [htail]))

/-- Without a leading zero a spelled number is read as a decimal number. -/
theorem number_eq_decimalNumber (strict : Bool) (hd : d.Spelled) (h : Ends rest)
    (hz : d.hasLeadingZero = false) :
    number strict (d.text ++ rest) = decimalNumber (d.text ++ rest) := by
  unfold number
  split
  · rename_i b r heq
    -- a zero alone: what follows it is no digit and no mark of a radix
    have hb : Bytes.isDigit b = false ∧ (Bytes.isAlpha b = false ∨ b = ascii 'e') := by
      rw [text_append] at heq
      cases hw : d.whole with
      | nil => exact absurd hw hd.some_digit
      | cons x w =>
        rw [hw, List.cons_append, List.cons.injEq] at heq
        cases w with
        | nil => exact head_of_tail d h heq.2
        | cons y w => simp [hasLeadingZero, hw, heq.1] at hz
    have hno {c : Char} (hc : c = 'b' ∨ c = 'o' ∨ c = 'x')
        (e : Char.ofNat (Bytes.lowerByte b).toNat = c) : False := by
      have hletter := radix_letter hc e
      rcases hb.2 with hb | hb
      · rw [hb] at hletter
        exact absurd hletter.1 (by decide)
      · exact hletter.2 hb
    split
    · exact (hno (.inl rfl) ‹_›).elim
    · exact (hno (.inr (.inl rfl)) ‹_›).elim
    · exact (hno (.inr (.inr rfl)) ‹_›).elim
    · rw [if_neg (by simp [hb.1])]
  · rfl

/-- Behind a leading zero reading ends with the first digits. -/
theorem number_size_of_leadingZero (strict : Bool) (hd : d.Spelled) (h : Ends rest)
    (hz : d.hasLeadingZero = true) : (number strict (d.text ++ rest)).size = d.whole.length := by
  rw [text_append]
  have hwhole := hd.whole
  cases hw : d.whole with
  | nil => exact absurd hw hd.some_digit
  | cons x w =>
    cases w with
    | nil => simp [hasLeadingZero, hw] at hz
    | cons y w =>
      have hx : x = 48 := by simpa [hasLeadingZero, hw] using hz
      rw [hw, List.all_cons, Bool.and_eq_true] at hwhole
      have hy : Bytes.isDigit y = true := by
        rw [List.all_cons, Bool.and_eq_true] at hwhole
        exact hwhole.2.1
      have hno {c : Char} (hc : c = 'b' ∨ c = 'o' ∨ c = 'x')
          (e : Char.ofNat (Bytes.lowerByte y).toNat = c) : False := by
        have hletter := (radix_letter hc e).1
        have hrange := isDigit_toNat hy
        simp only [Bytes.isAlpha, Bool.or_eq_true, Bool.and_eq_true, decide_eq_true_eq,
          UInt8.le_iff_toNat_le, UInt8.reduceToNat] at hletter
        omega
      have htake := takeWhile_append hwhole.2 (stops_fraction d h)
      subst hx
      rw [List.cons_append, List.cons_append]
      unfold number
      split
      · rename_i b r heq
        rw [List.cons.injEq, List.cons.injEq] at heq
        obtain ⟨-, rfl, rfl⟩ := heq
        split
        · exact (hno (.inl rfl) ‹_›).elim
        · exact (hno (.inr (.inl rfl)) ‹_›).elim
        · exact (hno (.inr (.inr rfl)) ‹_›).elim
        · rw [if_pos hy, numberTail_size, ← List.cons_append, htake]
          simp
          omega
      · rename_i hne
        exact absurd rfl (hne y _)

/-- A spelled number begins with a digit, so it is read as a number. -/
theorem next_text (strict : Bool) (hd : d.Spelled) :
    next strict (d.text ++ rest) = number strict (d.text ++ rest) := by
  have hwhole := hd.whole
  rw [text_append]
  cases hw : d.whole with
  | nil => exact absurd hw hd.some_digit
  | cons x w =>
    rw [hw, List.all_cons, Bool.and_eq_true] at hwhole
    have hrange := isDigit_toNat hwhole.1
    rw [List.cons_append]
    unfold next
    dsimp only
    rw [if_neg, if_pos (by simp [hwhole.1])]
    simp only [isNameStartByte, Bytes.isAlpha, Bool.or_eq_true, Bool.and_eq_true, beq_iff_eq,
      decide_eq_true_eq, UInt8.le_iff_toNat_le, ← UInt8.toNat_inj, UInt8.reduceToNat]
    omega

end Decimal

open Decimal in
/-- A decimal number that is printed is read again as one token, unless a zero stands before its
first digits and a fraction or an exponent behind them. -/
theorem printed_decimal_read_whole_iff (d : Decimal) (strict : Bool) (rest : Bytes)
    (hd : d.isSpelled = true) (hrest : endsBefore rest = true) :
    (Lexeme.next strict (d.text ++ rest)).size = d.text.length ↔
      d.hasLeadingZero = false ∨ d.fraction = none ∧ d.exponent = none := by
  have hspelled := spelled_of_isSpelled hd
  have hends := ends_of_endsBefore hrest
  rw [next_text strict hspelled]
  cases hz : d.hasLeadingZero with
  | false =>
    rw [number_eq_decimalNumber strict hspelled hends hz]
    simpa using decimalNumber_text hspelled hends
  | true =>
    rw [number_size_of_leadingZero strict hspelled hends hz]
    simp only [text, List.length_append, Bool.true_eq_false, false_or]
    constructor
    · intro hlength
      have hfraction : d.fractionText.length = 0 := by omega
      have hexponent : d.exponentText.length = 0 := by omega
      refine ⟨?_, ?_⟩
      · cases hf : d.fraction with
        | none => rfl
        | some ds => simp [fractionText, hf] at hfraction
      · cases he : d.exponent with
        | none => rfl
        | some e => simp [exponentText, he] at hexponent
    · rintro ⟨hf, he⟩
      simp [fractionText, exponentText, hf, he]

/-- A fraction behind a leading zero is cut off. -/
example : (Lexeme.next true "08.5;").size = 2 := by decide

end ScriptLower

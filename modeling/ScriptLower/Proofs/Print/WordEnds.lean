import ScriptLower.Print.Piece
import ScriptLower.Proofs.Print.Decimals

/-!
# Names and numbers in a text

A name or a number goes on as long as bytes of a name follow. So when it is followed by a byte of
another kind, it is read in the text as it is read alone. There are two exceptions: a number may
also go on at a dot, and an escape that is cut off may be completed by what follows.
-/

namespace ScriptLower

open Lexeme

/-! ## Bytes that end a word -/

/-- Whether a text is empty or begins with a byte that is no part of a name or number. -/
def Bytes.apart (r : Bytes) : Bool := r.head?.all fun b => !Writer.isWordByte b

section

variable {b : UInt8} {r s : Bytes}

/-- What is known of a byte that is no part of a name or number. -/
structure EndsWord (b : UInt8) : Prop where
  /-- It is an ASCII character. -/
  low : b < 0x80
  /-- It opens no escape. -/
  escape : b ≠ 92
  /-- It is no letter, digit or sign of a name. -/
  part : isNamePartByte b = false
  /-- As a character neither. -/
  char : CharClass.isNamePart b.toNat = false

theorem endsWord_of_not (h : Writer.isWordByte b = false) : EndsWord b := by
  simp only [Writer.isWordByte, Bool.or_eq_false_iff, beq_eq_false_iff_ne, decide_eq_false_iff_not,
    Bytes.isAlpha, Bytes.isDigit, Bool.and_eq_false_iff, UInt8.le_iff_toNat_le, ne_eq,
    ← UInt8.toNat_inj, show (ascii '_').toNat = 95 from rfl, show (ascii '$').toNat = 36 from rfl,
    show (ascii '\\').toNat = 92 from rfl, UInt8.reduceToNat] at h
  have hlow : b.toNat < 0x80 := by omega
  refine ⟨UInt8.lt_iff_toNat_lt.2 hlow, fun he => ?_, ?_, ?_⟩
  · rw [he] at h
    simp at h
  · simp only [isNamePartByte, isNameStartByte, Bytes.isAlpha, Bytes.isDigit, Bool.or_eq_false_iff,
      beq_eq_false_iff_ne, Bool.and_eq_false_iff, decide_eq_false_iff_not, ne_eq, ← UInt8.toNat_inj,
      UInt8.le_iff_toNat_le, UInt8.reduceToNat]
    omega
  · simp only [CharClass.isNamePart, CharClass.isNameStart, hlow, if_true, Bool.or_eq_false_iff,
      beq_eq_false_iff_ne, Bool.and_eq_false_iff, decide_eq_false_iff_not, ne_eq]
    omega

theorem apart_cons : Bytes.apart (b :: r) = !Writer.isWordByte b := rfl

theorem EndsWord.of_apart (h : Bytes.apart (b :: r) = true) : EndsWord b := by
  rw [apart_cons, Bool.not_eq_true'] at h
  exact endsWord_of_not h

theorem EndsWord.start (h : EndsWord b) : isNameStartByte b = false :=
  (Bool.or_eq_false_iff.1 h.part).1

theorem EndsWord.digit (h : EndsWord b) : Bytes.isDigit b = false :=
    (Bool.or_eq_false_iff.1 h.part).2

theorem EndsWord.charStart (h : EndsWord b) : CharClass.isNameStart b.toNat = false := by
  cases hs : CharClass.isNameStart b.toNat with
  | false => rfl
  | true => exact absurd (isNamePart_of_isNameStart hs) (Bool.eq_false_iff.1 h.char)

/-- A character that is cut off does not come to its end in what follows. -/
theorem decode_apart (a : UInt8) (hr : r.apart = true) :
    Utf8.decode (a :: s ++ r) = Utf8.decode (a :: s) := by
  cases r with
  | nil => rw [List.append_nil]
  | cons b r =>
    have hlow : b < 0x80 := (EndsWord.of_apart hr).low
    have htail : Utf8.isTail b = false := by
      simp [Utf8.isTail, UInt8.not_le.2 hlow]
    have hlo (c : Prop) [Decidable c] {d : UInt8} (hd : 0x80 ≤ d) :
        ¬(if c then d else 0x80) ≤ b := by
      split
      · exact fun h => UInt8.lt_irrefl b (UInt8.lt_of_lt_of_le hlow (UInt8.le_trans hd h))
      · exact UInt8.not_le.2 hlow
    rcases s with _ | ⟨x, _ | ⟨y, _ | ⟨z, t⟩⟩⟩
    · cases r with
      | nil => simp [Utf8.decode, htail]
      | cons b' r =>
        cases r <;> simp [Utf8.decode, htail, hlo]
    · cases r with
      | nil => simp [Utf8.decode, htail]
      | cons b' r => simp [Utf8.decode, htail]
    · simp [Utf8.decode, htail]
    · rfl

end

namespace Lexeme

/-! ## Names -/

section

variable {r s : Bytes}

/-- An escape that is complete is read as such, whatever follows. -/
theorem unicodeEscape_append {n : Nat} (h : unicodeEscape s = (n, true)) :
    unicodeEscape (s ++ r) = (n, true) := by
  unfold unicodeEscape at h
  split at h
  · rename_i t
    dsimp only at h
    split at h
    · cases h
    · rename_i hpos
      split at h
      · rename_i t' hdrop
        -- the digits end at the closing brace
        have hlt := congrArg List.length hdrop
        rw [List.length_drop, List.length_cons] at hlt
        have hdigits : (t ++ r).takeWhile Bytes.isHexDigit = t.takeWhile Bytes.isHexDigit := by
          rw [List.takeWhile_append, if_neg (by omega)]
        have hrest : (t ++ r).drop (t.takeWhile Bytes.isHexDigit).length = 0x7D :: (t' ++ r) := by
          rw [List.drop_append_of_le_length (by omega), hdrop, List.cons_append]
        rw [List.cons_append, List.cons_append, List.cons_append, unicodeEscape]
        rw [hdigits, if_neg hpos, hrest]
        exact h
      · cases h
  · rename_i t hbrace
    obtain ⟨hn, hfour⟩ := Prod.mk.inj h
    have hlen := (List.takeWhile_sublist (p := Bytes.isHexDigit) (l := t.take 4)).length_le
    rw [beq_iff_eq.1 hfour, List.length_take] at hlen
    have htake : (t ++ r).take 4 = t.take 4 := List.take_append_of_le_length (by omega)
    cases t with
    | nil => cases hfour
    | cons x t =>
      rw [List.cons_append, List.cons_append, List.cons_append, unicodeEscape]
      · rw [← List.cons_append, htake]
        exact h
      · intro t' ht'
        exact hbrace t (by rw [(List.cons.inj ht').1])
  · cases h

theorem nameFrom_apart (first : Bool) (skip n : Nat) (escaped : Bool) (h : skip ≤ s.length)
    (hr : r.apart = true) (hdone : (nameFrom first skip n escaped s).1 = .done) :
    nameFrom first skip n escaped (s ++ r) = nameFrom first skip n escaped s := by
  fun_induction nameFrom first skip n escaped s with
  | case1 first skip n escaped =>
    obtain rfl : skip = 0 := by simpa using h
    cases r with
    | nil => rfl
    | cons b r =>
      have hb := EndsWord.of_apart hr
      simp [nameFrom, hb.escape, hb.low, hb.part, hb.start]
  | case2 first n escaped b t k ih => exact ih (by simpa using h) hdone
  | case3 first n escaped b t hb size hesc ih =>
    have hle := unicodeEscape_le (b :: t)
    rw [hesc, List.length_cons] at hle
    rw [List.cons_append, nameFrom, if_pos hb, ← List.cons_append, unicodeEscape_append hesc]
    exact ih (by omega) hdone
  | case4 first n escaped b t hb size hesc => cases hdone
  | case5 first n escaped b t hb hlow hpart ih =>
    rw [List.cons_append, nameFrom, if_neg hb, if_pos hlow, if_pos hpart]
    exact ih (Nat.zero_le _) hdone
  | case6 first n escaped b t hb hlow hpart =>
    rw [List.cons_append, nameFrom, if_neg hb, if_pos hlow, if_neg hpart]
  | case7 first n escaped b t hb hlow c size hdec hpart ih =>
    have hle := Utf8.decode_le (b :: t)
    rw [hdec, List.length_cons] at hle
    rw [List.cons_append, nameFrom, if_neg hb, if_neg hlow, ← List.cons_append,
      decode_apart b hr, hdec]
    dsimp only
    rw [if_pos hpart]
    exact ih (by omega) hdone
  | case8 n escaped b t hb hlow c size hdec hpart => cases hdone
  | case9 first n escaped b t hb hlow c size hdec hpart hfirst =>
    rw [List.cons_append, nameFrom, if_neg hb, if_neg hlow, ← List.cons_append,
      decode_apart b hr, hdec]
    dsimp only
    rw [if_neg hpart, if_neg hfirst]

/-- A name ends in a text where it ends alone. -/
theorem name_apart (hr : r.apart = true) (hk : (name s).kind ≠ .invalid) :
    name (s ++ r) = name s := by
  have hbound := (nameFrom_bounds true 0 0 false s (Nat.zero_le _)).2
  have hdone : (nameFrom true 0 0 false s).1 = .done := by
    unfold name at hk
    split at hk
    · rename_i h
      rw [h]
    · rename_i h
      rw [h]
    · exact absurd rfl hk
    · exact absurd rfl hk
  unfold name
  rw [nameFrom_apart true 0 0 false (Nat.zero_le _) hr hdone]
  split <;> rename_i hwalk
  · rfl
  · rw [hwalk] at hbound
    rw [List.take_append_of_le_length (by simpa using hbound)]
  · rfl
  · rw [hwalk] at hdone
    cases hdone

theorem privateName_apart {b : UInt8} (hr : r.apart = true)
    (hf : (privateName (b :: s)).faults = []) :
    privateName (b :: s ++ r) = privateName (b :: s) := by
  unfold privateName at hf ⊢
  simp only [List.cons_append, List.drop_succ_cons, List.drop_zero] at hf ⊢
  cases s with
  | nil => cases hf
  | cons a s =>
    rw [decode_apart a hr]
    split at hf
    · cases hf
    · rename_i hstart
      rw [if_neg hstart, if_neg hstart]
      have hname : (name (a :: s)).kind ≠ .invalid :=
        fun hk => (name_within (a :: s)).told hk (List.map_eq_nil_iff.1 hf)
      rw [name_apart hr hname]

end

/-! ## Numbers -/

section

variable {r s : Bytes}

/-- A byte that ends a word is no digit of any radix. -/
theorem digitRun_apart {ok : UInt8 → Bool} (hok : ∀ b, ok b = true → isNamePartByte b = true)
    (hr : r.apart = true) : digitRun ok (s ++ r) = digitRun ok s := by
  have hhead : ∀ b ∈ r.head?, ok b = false ∧ b ≠ 95 := by
    intro b hb
    obtain ⟨r', rfl⟩ := List.head?_eq_some_iff.1 hb
    have hends := EndsWord.of_apart hr
    refine ⟨Bool.eq_false_iff.2 fun h => ?_, ?_⟩
    · exact absurd (hok _ h) (Bool.eq_false_iff.1 hends.part)
    · rintro rfl
      exact absurd hends.part (by decide)
  have hany : r.head?.any ok = false := by
    cases r with
    | nil => rfl
    | cons b r => exact (hhead b rfl).1
  induction s with
  | nil =>
    cases r with
    | nil => rfl
    | cons b r =>
      obtain ⟨hb, hsep⟩ := hhead b rfl
      simp [digitRun, hb, hsep]
  | cons b s ih =>
    have hnext : (s ++ r).head?.any ok = s.head?.any ok := by
      cases s with
      | nil => exact hany
      | cons c s => rfl
    rw [List.cons_append, digitRun, digitRun, hnext, ih]

theorem runFrom_apart (skip : Nat) (h : skip ≤ s.length) (hr : r.apart = true) :
    runFrom CharClass.isNamePart skip (s ++ r) = runFrom CharClass.isNamePart skip s := by
  fun_induction runFrom CharClass.isNamePart skip s with
  | case1 skip =>
    obtain rfl : skip = 0 := by simpa using h
    cases r with
    | nil => rfl
    | cons b r =>
      have hb := EndsWord.of_apart hr
      simp [runFrom, decode_ascii r hb.low, hb.char]
  | case2 skip b t ih => exact congrArg (· + 1) (ih (by simpa using h))
  | case3 b t c size hdec hp ih =>
    have hle := Utf8.decode_le (b :: t)
    rw [hdec, List.length_cons] at hle
    rw [List.cons_append, runFrom, ← List.cons_append, decode_apart b hr, hdec]
    dsimp only
    rw [if_pos hp, ih (by omega)]
  | case4 b t c size hdec hp =>
    rw [List.cons_append, runFrom, ← List.cons_append, decode_apart b hr, hdec]
    dsimp only
    rw [if_neg hp]

theorem numberTail_apart {l : Lexeme} (h : l.size ≤ s.length) (hr : r.apart = true) :
    numberTail l (s ++ r) = numberTail l s := by
  unfold numberTail
  dsimp only
  rw [List.drop_append_of_le_length h]
  cases hs : s.drop l.size with
  | nil =>
    cases r with
    | nil => rfl
    | cons b r =>
      have hb := EndsWord.of_apart hr
      simp [decode_ascii r hb.low, hb.charStart, hb.digit, show Utf8.decode [] =
        (Utf8.replacement, 0) from rfl]
  | cons b t =>
    have hrun : run CharClass.isNamePart (b :: t ++ r) = run CharClass.isNamePart (b :: t) :=
      runFrom_apart 0 (Nat.zero_le _) hr
    rw [decode_apart b hr, hrun]
    rfl

theorem finishNumber_apart {integer : Bool} {size : Nat} {faults : List Fault} (h : size ≤ s.length)
    (hr : r.apart = true) :
    finishNumber integer size faults (s ++ r) = finishNumber integer size faults s := by
  have hn : ((s ++ r).drop size).head? == some (ascii 'n') ↔
      (s.drop size).head? == some (ascii 'n') := by
    rw [List.drop_append_of_le_length h]
    cases hs : s.drop size with
    | nil =>
      cases r with
      | nil => rfl
      | cons b r =>
        have hb := EndsWord.of_apart hr
        have hne : b ≠ ascii 'n' := by
          rintro rfl
          exact absurd hb.part (by decide)
        simp [hne]
    | cons b t => rfl
  unfold finishNumber
  rw [Bool.eq_iff_iff.2 hn]
  split
  · rename_i hbig
    have hsize : size + 1 ≤ s.length := by
      have hsome := (Bool.and_eq_true_iff.1 hbig).2
      obtain ⟨t, ht⟩ := List.head?_eq_some_iff.1 (beq_iff_eq.1 hsome)
      have hlen := congrArg List.length ht
      rw [List.length_drop, List.length_cons] at hlen
      omega
    exact numberTail_apart hsize hr
  · exact numberTail_apart h hr

theorem isNamePartByte_of_hex {b : UInt8} (h : Bytes.isHexDigit b = true) :
    isNamePartByte b = true := by
  simp only [Bytes.isHexDigit, Bytes.isDigit, isNamePartByte, isNameStartByte, Bytes.isAlpha,
    Bool.or_eq_true, Bool.and_eq_true, decide_eq_true_eq, UInt8.le_iff_toNat_le, beq_iff_eq,
    UInt8.reduceToNat] at h ⊢
  omega

theorem isHexDigit_of_digit {b : UInt8} (h : Bytes.isDigit b = true) :
    Bytes.isHexDigit b = true := by
  simp [Bytes.isHexDigit, h]

theorem isHexDigit_of_octal {b : UInt8} (h : isOctalDigit b = true) :
    Bytes.isHexDigit b = true := by
  simp only [isOctalDigit, Bytes.isHexDigit, Bytes.isDigit, Bool.or_eq_true, Bool.and_eq_true,
    decide_eq_true_eq, UInt8.le_iff_toNat_le, UInt8.reduceToNat] at h ⊢
  omega

theorem isHexDigit_of_binary {b : UInt8} (h : isBinaryDigit b = true) :
    Bytes.isHexDigit b = true := by
  rcases Bool.or_eq_true_iff.1 h with h | h <;> rw [beq_iff_eq.1 h] <;> rfl

theorem radixNumber_apart {ok : UInt8 → Bool} (hok : ∀ b, ok b = true → Bytes.isHexDigit b = true)
    (h : 2 ≤ s.length) (hr : r.apart = true) : radixNumber ok (s ++ r) = radixNumber ok s := by
  have hrun : digitRun ok ((s ++ r).drop 2) = digitRun ok (s.drop 2) := by
    rw [List.drop_append_of_le_length h]
    exact digitRun_apart (fun b hb => isNamePartByte_of_hex (hok b hb)) hr
  have hle := digitRun_le ok (s.drop 2)
  rw [List.length_drop] at hle
  unfold radixNumber
  rw [hrun]
  exact finishNumber_apart (by omega) hr

theorem digits_apart (hr : r.apart = true) :
    digitRun Bytes.isDigit (s ++ r) = digitRun Bytes.isDigit s :=
  digitRun_apart (fun _ hb => isNamePartByte_of_hex (isHexDigit_of_digit hb)) hr

theorem mantissa_apart (hr : r.apart = true)
    (hdot : s.drop (digitRun Bytes.isDigit s) = [] → r.head? ≠ some 46) :
    mantissa (s ++ r) = mantissa s := by
  unfold mantissa
  dsimp only
  rw [digits_apart hr, List.drop_append_of_le_length (digitRun_le _ s)]
  cases hs : s.drop (digitRun Bytes.isDigit s) with
  | nil =>
    rw [List.nil_append]
    split
    · exact absurd rfl (hdot hs)
    · rfl
  | cons b t =>
    rw [List.cons_append]
    split
    · rename_i t' ht
      obtain ⟨rfl, rfl⟩ := List.cons.inj ht
      rw [digits_apart hr]
      rfl
    · rename_i hne
      split
      · rename_i t' ht
        exact absurd (by rw [(List.cons.inj ht).1]) (hne (t ++ r))
      · rfl

/-- An exponent with digits ends where it ends alone. -/
theorem exponent_apart (hr : r.apart = true) (h : ∀ k, exponent s ≠ some (k, false)) :
    exponent (s ++ r) = exponent s := by
  cases s with
  | nil =>
    cases r with
    | nil => rfl
    | cons b r =>
      have hb := EndsWord.of_apart hr
      have he : b ≠ ascii 'e' := by
        rintro rfl
        exact absurd hb.part (by decide)
      have hE : b ≠ ascii 'E' := by
        rintro rfl
        exact absurd hb.part (by decide)
      simp [exponent, he, hE]
  | cons b t =>
    unfold exponent at h ⊢
    rw [List.cons_append]
    dsimp only at h ⊢
    split
    · rename_i he
      simp only [if_pos he] at h
      cases t with
      | nil => exact absurd rfl (h _)
      | cons c t =>
        have hsign : exponentSign (c :: t ++ r) = exponentSign (c :: t) := rfl
        rw [hsign, List.drop_append_of_le_length (exponentSign_le _), digits_apart hr]
        cases hd : (c :: t).drop (exponentSign (c :: t)) with
        | nil =>
          rw [hd] at h
          exact absurd rfl (h _)
        | cons d t' => rfl
    · rfl

/-- Digits alone are a number, and no big integer. -/
theorem decimalNumber_digits (h : s.drop (digitRun Bytes.isDigit s) = []) :
    (decimalNumber s).kind = .numberLit := by
  have hm : mantissa s = (digitRun Bytes.isDigit s, true) := by
    unfold mantissa
    dsimp only
    rw [h]
  unfold decimalNumber
  rw [hm]
  dsimp only
  rw [h]
  unfold exponent finishNumber
  dsimp only
  rw [h, if_neg (by simp)]
  exact numberTail_kind _ _

theorem decimalNumber_apart (hr : r.apart = true)
    (hdot : (decimalNumber s).kind = .numberLit → r.head? ≠ some 46)
    (hf : (decimalNumber s).faults = []) : decimalNumber (s ++ r) = decimalNumber s := by
  have hle := mantissa_le s
  have hm := mantissa_apart hr fun h => hdot (decimalNumber_digits h)
  unfold decimalNumber at hf ⊢
  rw [hm]
  cases hm : mantissa s with
  | mk n integer =>
    rw [hm] at hf hle
    dsimp only at hf hle ⊢
    have hexp : ∀ k, exponent (s.drop n) ≠ some (k, false) := by
      intro k hk
      rw [hk] at hf
      cases hf
    rw [List.drop_append_of_le_length hle, exponent_apart hr hexp]
    split
    · rename_i k hk
      have hk' := exponent_le _ _ hk
      rw [List.length_drop] at hk'
      exact finishNumber_apart (by omega) hr
    · rename_i k hk
      exact absurd hk (hexp k)
    · exact finishNumber_apart hle hr

/-- A number that begins with a zero and a further digit: the digits alone, whatever follows. -/
def zeroDigits (strict : Bool) (s : Bytes) : Lexeme :=
  let n := (s.takeWhile Bytes.isDigit).length
  { kind := .numberLit, size := n
    faults := if strict then
      [⟨.legacyOctal, 0, n, "legacy octal literals are not allowed in strict mode"⟩] else [] }

/-- A number with a leading zero by the byte behind the zero. -/
theorem number_zero_cons (strict : Bool) (c : UInt8) (t : Bytes) : number strict (48 :: c :: t) =
    match Char.ofNat (Bytes.lowerByte c).toNat with
    | 'b' => radixNumber isBinaryDigit (48 :: c :: t)
    | 'o' => radixNumber isOctalDigit (48 :: c :: t)
    | 'x' => radixNumber Bytes.isHexDigit (48 :: c :: t)
    | _ =>
      if Bytes.isDigit c then numberTail (zeroDigits strict (48 :: c :: t)) (48 :: c :: t)
      else decimalNumber (48 :: c :: t) := by
  have hn : ((48 :: c :: t).takeWhile Bytes.isDigit).length =
      1 + ((c :: t).takeWhile Bytes.isDigit).length := by
    rw [List.takeWhile_cons_of_pos rfl, List.length_cons, Nat.add_comm]
  rw [zeroDigits, hn]
  rfl

/-- How a number with a leading zero is read depends on the byte behind the zero. -/
theorem number_zero (strict : Bool) (c : UInt8) :
    (∃ ok, (∀ b, ok b = true → Bytes.isHexDigit b = true) ∧ isNameStartByte c = true ∧
      ∀ t, number strict (48 :: c :: t) = radixNumber ok (48 :: c :: t)) ∨
    (Bytes.isDigit c = true ∧
      ∀ t, number strict (48 :: c :: t) = numberTail (zeroDigits strict (48 :: c :: t))
        (48 :: c :: t)) ∨
    ∀ t, number strict (48 :: c :: t) = decimalNumber (48 :: c :: t) := by
  have hstart {m : Char} (hm : m = 'b' ∨ m = 'o' ∨ m = 'x')
      (h : Char.ofNat (Bytes.lowerByte c).toNat = m) : isNameStartByte c = true := by
    rw [isNameStartByte, (Decimal.radix_letter hm h).1, Bool.or_true]
  by_cases hb : Char.ofNat (Bytes.lowerByte c).toNat = 'b'
  · exact .inl ⟨_, fun _ => isHexDigit_of_binary, hstart (.inl rfl) hb,
      fun t => by rw [number_zero_cons, hb]; rfl⟩
  by_cases ho : Char.ofNat (Bytes.lowerByte c).toNat = 'o'
  · exact .inl ⟨_, fun _ => isHexDigit_of_octal, hstart (.inr (.inl rfl)) ho,
      fun t => by rw [number_zero_cons, ho]; rfl⟩
  by_cases hx : Char.ofNat (Bytes.lowerByte c).toNat = 'x'
  · exact .inl
      ⟨_, fun _ h => h, hstart (.inr (.inr rfl)) hx, fun t => by rw [number_zero_cons, hx]; rfl⟩
  have hplain (t : Bytes) : number strict (48 :: c :: t) =
      if Bytes.isDigit c then numberTail (zeroDigits strict (48 :: c :: t)) (48 :: c :: t)
      else decimalNumber (48 :: c :: t) := by
    rw [number_zero_cons]
    split
    · exact absurd ‹_› hb
    · exact absurd ‹_› ho
    · exact absurd ‹_› hx
    · rfl
  by_cases hd : Bytes.isDigit c = true
  · exact .inr (.inl ⟨hd, fun t => by rw [hplain, if_pos hd]⟩)
  · exact .inr (.inr fun t => by rw [hplain, if_neg hd])

theorem zeroDigits_apart (strict : Bool) (hr : r.apart = true) :
    zeroDigits strict (s ++ r) = zeroDigits strict s := by
  have hnone : r.takeWhile Bytes.isDigit = [] := by
    cases r with
    | nil => rfl
    | cons d r =>
      exact List.takeWhile_cons_of_neg (Bool.eq_false_iff.1 (EndsWord.of_apart hr).digit)
  have hdigits : (s ++ r).takeWhile Bytes.isDigit = s.takeWhile Bytes.isDigit := by
    rw [List.takeWhile_append]
    split
    · rename_i hall
      rw [hnone, List.append_nil]
      exact ((List.takeWhile_prefix _).eq_of_length hall).symm
    · rfl
  rw [zeroDigits, zeroDigits, hdigits]

theorem number_apart (strict : Bool) {b : UInt8} (hr : r.apart = true)
    (hdot : (number strict (b :: s)).kind = .numberLit → r.head? ≠ some 46)
    (hf : (number strict (b :: s)).faults = []) :
    number strict (b :: s ++ r) = number strict (b :: s) := by
  by_cases hzero : b = 48
  · subst hzero
    cases s with
    | nil =>
      cases r with
      | nil => rfl
      | cons c r =>
        have hc := EndsWord.of_apart hr
        have hdecimal : number strict (48 :: c :: r) = decimalNumber (48 :: c :: r) := by
          rcases number_zero strict c with ⟨-, -, hstart, -⟩ | ⟨hd, -⟩ | h
          · exact absurd hstart (Bool.eq_false_iff.1 hc.start)
          · exact absurd hd (Bool.eq_false_iff.1 hc.digit)
          · exact h r
        exact hdecimal.trans (decimalNumber_apart (s := [48]) hr hdot hf)
    | cons c t =>
      rw [List.cons_append, List.cons_append]
      rcases number_zero strict c with ⟨ok, hok, -, h⟩ | ⟨-, h⟩ | h
      · rw [h, h]
        exact radixNumber_apart (s := 48 :: c :: t) hok (by simp) hr
      · rw [h, h, ← List.cons_append, ← List.cons_append, zeroDigits_apart strict hr]
        exact numberTail_apart (List.takeWhile_prefix _).length_le hr
      · rw [h] at hf hdot
        rw [h, h]
        exact decimalNumber_apart (s := 48 :: c :: t) hr hdot hf
  · have hdecimal (t : Bytes) : number strict (b :: t) = decimalNumber (b :: t) := by
      unfold number
      split
      · rename_i heq
        exact absurd (List.cons.inj heq).1 hzero
      · rfl
    rw [hdecimal] at hf hdot
    rw [List.cons_append, hdecimal, hdecimal]
    exact decimalNumber_apart hr hdot hf

end

end Lexeme

end ScriptLower

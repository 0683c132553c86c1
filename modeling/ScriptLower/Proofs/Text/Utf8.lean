import ScriptLower.Text.Utf8

/-!
# Characters and their bytes

The bytes of a character are read back as that character, whatever follows them
(`Utf8.decode_encode`). So a text that is made of characters splits into these again, and is
well-formed.

In UTF-16 a character is one unit or two halves. A list that holds characters and halves in any
order is joined to characters alone; in units that is to replace each half that has no other half
beside it (`Utf8.units16_joinUnits`).
-/

namespace ScriptLower.Utf8

open ScriptLower

/-- What a text is made of: a code point that is no surrogate half. -/
def IsCharacter (c : Nat) : Prop := c < 0xD800 ∨ 0xE000 ≤ c ∧ c ≤ 0x10FFFF

instance (c : Nat) : Decidable (IsCharacter c) := inferInstanceAs (Decidable (_ ∨ _))

theorem isSurrogate_iff {c : Nat} : isSurrogate c = true ↔ 0xD800 ≤ c ∧ c ≤ 0xDFFF := by
  simp [isSurrogate]

theorem isCharacter_iff {c : Nat} : IsCharacter c ↔ isSurrogate c = false ∧ c ≤ 0x10FFFF := by
  rw [Bool.eq_false_iff, ne_eq, isSurrogate_iff, IsCharacter]
  omega

theorem isCharacter_replacement : IsCharacter replacement := by decide

/-! ## Reading what was written -/

section

variable {a b c d : UInt8}

theorem decode_one (r : Bytes) (ha : a.toNat < 0x80) : decode (a :: r) = (a.toNat, 1) := by
  simp [decode, UInt8.lt_iff_toNat_lt, ha]

theorem decode_two (r : Bytes) (ha : 0xC2 ≤ a.toNat ∧ a.toNat ≤ 0xDF)
    (hb : 0x80 ≤ b.toNat ∧ b.toNat ≤ 0xBF) :
    decode (a :: b :: r) = ((a.toNat - 0xC0) * 64 + (b.toNat - 0x80), 2) := by
  have h1 : ¬a.toNat < 0x80 := by omega
  simp [decode, isTail, UInt8.le_iff_toNat_le, UInt8.lt_iff_toNat_lt, ha, hb, h1]

theorem decode_three (r : Bytes) (ha : 0xE0 ≤ a.toNat ∧ a.toNat ≤ 0xEF)
    (hb : 0x80 ≤ b.toNat ∧ b.toNat ≤ 0xBF) (hc : 0x80 ≤ c.toNat ∧ c.toNat ≤ 0xBF)
    (hlo : a.toNat = 0xE0 → 0xA0 ≤ b.toNat) (hhi : a.toNat = 0xED → b.toNat ≤ 0x9F) :
    decode (a :: b :: c :: r) =
      ((a.toNat - 0xE0) * 4096 + (b.toNat - 0x80) * 64 + (c.toNat - 0x80), 3) := by
  have h1 : ¬a.toNat < 0x80 := by omega
  have h2 : ¬a.toNat ≤ 0xDF := by omega
  simp [decode, isTail, UInt8.le_iff_toNat_le, UInt8.lt_iff_toNat_lt, ← UInt8.toNat_inj,
    ha, hc, h1, h2]
  split <;> split <;> simp <;> omega

theorem decode_four (r : Bytes) (ha : 0xF0 ≤ a.toNat ∧ a.toNat ≤ 0xF4)
    (hb : 0x80 ≤ b.toNat ∧ b.toNat ≤ 0xBF) (hc : 0x80 ≤ c.toNat ∧ c.toNat ≤ 0xBF)
    (hd : 0x80 ≤ d.toNat ∧ d.toNat ≤ 0xBF)
    (hlo : a.toNat = 0xF0 → 0x90 ≤ b.toNat) (hhi : a.toNat = 0xF4 → b.toNat ≤ 0x8F) :
    decode (a :: b :: c :: d :: r) =
      ((a.toNat - 0xF0) * 262144 + (b.toNat - 0x80) * 4096 + (c.toNat - 0x80) * 64
        + (d.toNat - 0x80), 4) := by
  have h1 : ¬a.toNat < 0x80 := by omega
  have h2 : ¬a.toNat ≤ 0xDF := by omega
  have h3 : ¬a.toNat ≤ 0xEF := by omega
  simp [decode, isTail, UInt8.le_iff_toNat_le, UInt8.lt_iff_toNat_lt, ← UInt8.toNat_inj,
    ha, hc, hd, h1,
    h2, h3]
  split <;> split <;> simp <;> omega

end

theorem toNat_toUInt8 {n : Nat} (h : n < 256) : n.toUInt8.toNat = n := by
  simp [Nat.toUInt8, UInt8.toNat_ofNat', Nat.mod_eq_of_lt h]

section

variable {c : Nat}

theorem encode_ascii (h : c < 0x80) : encode c = [c.toUInt8] := if_pos h

theorem encode_two (h1 : 0x80 ≤ c) (h2 : c < 0x800) :
    encode c = [(0xC0 + c / 64).toUInt8, (0x80 + c % 64).toUInt8] := by
  rw [encode, if_neg (by omega), if_pos h2]

theorem encode_three (h : IsCharacter c) (h1 : 0x800 ≤ c) (h2 : c < 0x10000) :
    encode c =
      [(0xE0 + c / 4096).toUInt8, (0x80 + c / 64 % 64).toUInt8, (0x80 + c % 64).toUInt8] := by
  have hbad : ¬(isSurrogate c || decide (0x10FFFF < c)) = true := by
    rw [Bool.or_eq_true, isSurrogate_iff, decide_eq_true_eq]
    unfold IsCharacter at h
    omega
  rw [encode, if_neg (by omega), if_neg (by omega), if_neg hbad, if_pos h2]

theorem encode_four (h : IsCharacter c) (h1 : 0x10000 ≤ c) :
    encode c = [(0xF0 + c / 262144).toUInt8, (0x80 + c / 4096 % 64).toUInt8,
      (0x80 + c / 64 % 64).toUInt8, (0x80 + c % 64).toUInt8] := by
  have hbad : ¬(isSurrogate c || decide (0x10FFFF < c)) = true := by
    rw [Bool.or_eq_true, isSurrogate_iff, decide_eq_true_eq]
    unfold IsCharacter at h
    omega
  rw [encode, if_neg (by omega), if_neg (by omega), if_neg hbad, if_neg (by omega)]

/-- Reading the bytes of a character gives the character and their number, whatever stands
behind. -/
theorem decode_encode (h : IsCharacter c) (r : Bytes) :
    decode (encode c ++ r) = (c, (encode c).length) := by
  have hc := h
  unfold IsCharacter at hc
  have h64 : c / 64 / 64 = c / 4096 := Nat.div_div_eq_div_mul c 64 64
  have h4096 : c / 4096 / 64 = c / 262144 := Nat.div_div_eq_div_mul c 4096 64
  have htail : (0x80 + c % 64).toUInt8.toNat = 0x80 + c % 64 := toNat_toUInt8 (by omega)
  have hmid : (0x80 + c / 64 % 64).toUInt8.toNat = 0x80 + c / 64 % 64 := toNat_toUInt8 (by omega)
  by_cases h1 : c < 0x80
  · have ha : c.toUInt8.toNat = c := toNat_toUInt8 (by omega)
    rw [encode_ascii h1, List.singleton_append, decode_one _ (by omega), ha]
    rfl
  by_cases h2 : c < 0x800
  · rw [encode_two (by omega) h2]
    have ha : (0xC0 + c / 64).toUInt8.toNat = 0xC0 + c / 64 := toNat_toUInt8 (by omega)
    refine (decode_two _ (by omega) (by omega)).trans (Prod.ext ?_ rfl)
    rw [ha, htail]
    omega
  by_cases h3 : c < 0x10000
  · rw [encode_three h (by omega) h3]
    have ha : (0xE0 + c / 4096).toUInt8.toNat = 0xE0 + c / 4096 := toNat_toUInt8 (by omega)
    refine (decode_three _ (by omega) (by omega) (by omega) (by omega) (by omega)).trans
      (Prod.ext ?_ rfl)
    rw [ha, hmid, htail]
    omega
  · rw [encode_four h (by omega)]
    have ha : (0xF0 + c / 262144).toUInt8.toNat = 0xF0 + c / 262144 := toNat_toUInt8 (by omega)
    have hb : (0x80 + c / 4096 % 64).toUInt8.toNat = 0x80 + c / 4096 % 64 :=
      toNat_toUInt8 (by omega)
    refine (decode_four _ (by omega) (by omega) (by omega) (by omega) (by omega) (by omega)).trans
      (Prod.ext ?_ rfl)
    rw [ha, hb, hmid, htail]
    omega

end

/-- The bytes of a character begin with the character itself, or beyond ASCII as it does. -/
theorem head_encode (c : Nat) :
    ∃ b r, encode c = b :: r ∧ (b.toNat = c ∨ 0x80 ≤ b.toNat ∧ 0x80 ≤ c) := by
  unfold encode
  split
  · exact ⟨_, _, rfl, Or.inl (toNat_toUInt8 (by omega))⟩
  split
  · exact ⟨_, _, rfl, Or.inr ⟨by rw [toNat_toUInt8] <;> omega, by omega⟩⟩
  split
  · exact ⟨_, _, rfl, Or.inr ⟨by decide, by omega⟩⟩
  rename_i hbad
  simp only [Bool.or_eq_true, decide_eq_true_eq, not_or] at hbad
  split
  · exact ⟨_, _, rfl, Or.inr ⟨by rw [toNat_toUInt8] <;> omega, by omega⟩⟩
  · exact ⟨_, _, rfl, Or.inr ⟨by rw [toNat_toUInt8] <;> omega, by omega⟩⟩

/-- A code below 256 is that of the character it makes. -/
theorem toNat_of_ofNat_eq {n : Nat} {c : Char} (hn : n < 256) (h : Char.ofNat n = c) :
    n = c.toNat := by
  have hvalid : n.isValidChar := .inl (by omega)
  rw [← h, Char.ofNat, dif_pos hvalid]
  rfl

/-! ## Writing what was read -/

theorem toUInt8_eq {n : Nat} {a : UInt8} (h : n = a.toNat) : n.toUInt8 = a := by
  rw [h, ← UInt8.toNat_inj, toNat_toUInt8 a.toNat_lt]

section

variable {a : UInt8} {r : Bytes}

/-- What is not read as a byte alone is the bytes of a character and what stands behind them. -/
theorem exists_character (h : decode (a :: r) ≠ (replacement, 1)) :
    ∃ c t, IsCharacter c ∧ a :: r = encode c ++ t := by
  revert h
  generalize hs : a :: r = s
  fun_cases decode s
  case case2 b t hb =>
    intro _
    have hb : b.toNat < 0x80 := UInt8.lt_iff_toNat_lt.1 hb
    refine ⟨b.toNat, t, Or.inl (by omega), ?_⟩
    rw [encode_ascii hb, toUInt8_eq rfl, List.singleton_append]
  case case3 x _ hx y t hy =>
    intro _
    simp only [Bool.and_eq_true, decide_eq_true_eq, UInt8.le_iff_toNat_le, isTail] at hx hy
    simp at hx hy
    generalize hc : (x.toNat - 0xC0) * 64 + (y.toNat - 0x80) = c
    refine ⟨c, t, Or.inl (by omega), ?_⟩
    rw [encode_two (by omega) (by omega), toUInt8_eq (a := x) (by omega),
      toUInt8_eq (a := y) (by omega)]
    rfl
  case case6 x _ _ hx y z t lo hi hy =>
    intro _
    simp only [Bool.and_eq_true, decide_eq_true_eq, UInt8.le_iff_toNat_le, isTail] at hx hy
    have hlo : lo.toNat = if x.toNat = 0xE0 then 0xA0 else 0x80 := by
      simp only [lo, beq_iff_eq, ← UInt8.toNat_inj]
      split <;> simp_all
    have hhi : hi.toNat = if x.toNat = 0xED then 0x9F else 0xBF := by
      simp only [hi, beq_iff_eq, ← UInt8.toNat_inj]
      split <;> simp_all
    simp at hx hy
    generalize hc : (x.toNat - 0xE0) * 4096 + (y.toNat - 0x80) * 64 + (z.toNat - 0x80) = c
    have hchar : 0x800 ≤ c ∧ c < 0x10000 ∧ IsCharacter c := by
      unfold IsCharacter
      split at hlo <;> split at hhi <;> omega
    have h80 : 0x80 ≤ y.toNat ∧ y.toNat ≤ 0xBF := by split at hlo <;> split at hhi <;> omega
    have h64 : c / 64 = (x.toNat - 0xE0) * 64 + (y.toNat - 0x80) := by omega
    refine ⟨c, t, hchar.2.2, ?_⟩
    rw [encode_three hchar.2.2 hchar.1 hchar.2.1, toUInt8_eq (a := x) (by omega),
      toUInt8_eq (a := y) (by omega), toUInt8_eq (a := z) (by omega)]
    rfl
  case case9 x _ _ _ hx y z u t lo hi hy =>
    intro _
    simp only [Bool.and_eq_true, decide_eq_true_eq, UInt8.le_iff_toNat_le, isTail] at hx hy
    have hlo : lo.toNat = if x.toNat = 0xF0 then 0x90 else 0x80 := by
      simp only [lo, beq_iff_eq, ← UInt8.toNat_inj]
      split <;> simp_all
    have hhi : hi.toNat = if x.toNat = 0xF4 then 0x8F else 0xBF := by
      simp only [hi, beq_iff_eq, ← UInt8.toNat_inj]
      split <;> simp_all
    simp at hx hy
    generalize hc : (x.toNat - 0xF0) * 262144 + (y.toNat - 0x80) * 4096 + (z.toNat - 0x80) * 64
      + (u.toNat - 0x80) = c
    have hchar : 0x10000 ≤ c ∧ IsCharacter c := by
      unfold IsCharacter
      split at hlo <;> split at hhi <;> omega
    have h80 : 0x80 ≤ y.toNat ∧ y.toNat ≤ 0xBF := by split at hlo <;> split at hhi <;> omega
    have h64 : c / 64 = (x.toNat - 0xF0) * 4096 + (y.toNat - 0x80) * 64 + (z.toNat - 0x80) := by
      omega
    have h4096 : c / 4096 = (x.toNat - 0xF0) * 64 + (y.toNat - 0x80) := by omega
    refine ⟨c, t, hchar.2, ?_⟩
    rw [encode_four hchar.2 hchar.1, toUInt8_eq (a := x) (by omega), toUInt8_eq (a := y) (by omega),
      toUInt8_eq (a := z) (by omega), toUInt8_eq (a := u) (by omega)]
    rfl
  all_goals
    intro h
    first | exact absurd rfl h | cases hs

end

theorem decode_le (s : Bytes) : (decode s).2 ≤ s.length := by
  fun_cases decode s <;> simp only [List.length_cons, List.length_nil] <;> omega

theorem decode_pos (b : UInt8) (r : Bytes) : 0 < (decode (b :: r)).2 := by
  generalize hs : b :: r = s
  fun_cases decode s <;> cases hs <;> exact Nat.succ_pos _

/-- Only the first byte of a character can be an ASCII byte. -/
theorem encode_tail {c : Nat} : ∀ x ∈ (encode c).tail, 0x80 ≤ x.toNat := by
  unfold encode
  intro x hx
  split at hx
  · exact absurd hx List.not_mem_nil
  split at hx
  · rw [List.tail_cons, List.mem_singleton] at hx
    rw [hx, toNat_toUInt8 (by omega)]
    omega
  split at hx
  · revert x
    decide
  -- each further byte of a character carries six bits below a mark of `0x80`
  split at hx <;>
    simp only [List.tail_cons, List.mem_cons, List.not_mem_nil, or_false] at hx
  · rcases hx with rfl | rfl <;> rw [toNat_toUInt8 (by omega)] <;> omega
  · rcases hx with rfl | rfl | rfl <;> rw [toNat_toUInt8 (by omega)] <;> omega

/-- Reading a character passes over no ASCII byte behind its first. -/
theorem decode_tail {a : UInt8} {r : Bytes} :
    ∀ x ∈ r.take ((decode (a :: r)).2 - 1), 0x80 ≤ x.toNat := by
  by_cases hd : decode (a :: r) = (replacement, 1)
  · rw [hd]
    exact List.forall_mem_nil _
  · obtain ⟨c, t, hc, he⟩ := exists_character hd
    obtain ⟨b, u, hu, -⟩ := head_encode c
    have htail := encode_tail (c := c)
    have hdecode := decode_encode hc t
    rw [hu] at htail hdecode he
    rw [List.cons_append] at hdecode he
    obtain ⟨rfl, rfl⟩ := List.cons.inj he
    rw [hdecode, List.length_cons, Nat.add_sub_cancel, List.take_left]
    exact htail

/-! ## Texts and their characters -/

theorem charsFrom_eq (k : Nat) (s : Bytes) : charsFrom k s = chars (s.drop k) := by
  induction s generalizing k with
  | nil => cases k <;> rfl
  | cons b s ih =>
    cases k with
    | zero => rfl
    | succ k => exact ih k

theorem chars_cons (b : UInt8) (r : Bytes) :
    chars (b :: r) = decode (b :: r) :: chars (r.drop ((decode (b :: r)).2 - 1)) := by
  rw [← charsFrom_eq]
  rfl

/-- No ASCII byte belongs to a character that began before it. -/
theorem decode_append_ascii {a : UInt8} (ha : a.toNat < 0x80) (b : UInt8) (r : Bytes) :
    decode (b :: (r ++ [a])) = decode (b :: r) := by
  by_cases hd : decode (b :: r) = (replacement, 1)
  · refine Decidable.byContradiction fun hne => ?_
    obtain ⟨c, t, hc, he⟩ := exists_character (hd ▸ hne)
    obtain ⟨x, u, hu, -⟩ := head_encode c
    have htail := encode_tail (c := c)
    have hwhole := decode_encode hc t
    rw [← he] at hwhole
    rw [hu, List.cons_append] at he
    obtain ⟨rfl, hr⟩ := List.cons.inj he
    rw [hu, List.tail_cons] at htail
    rcases List.eq_nil_or_concat t with rfl | ⟨t, z, rfl⟩
    · rw [List.append_nil] at hr
      have hlast := htail a (hr ▸ List.mem_append_right r List.mem_cons_self)
      omega
    · -- the character is whole without that byte
      rw [List.concat_eq_append, ← List.append_assoc] at hr
      obtain ⟨rfl, -⟩ := List.append_inj' hr rfl
      have hfront := decode_encode hc t
      rw [hu, List.cons_append, ← hu] at hfront
      exact hne (hwhole.trans hfront.symm)
  · obtain ⟨c, t, hc, he⟩ := exists_character hd
    rw [← List.cons_append, he, List.append_assoc, decode_encode hc, decode_encode hc]

/-- What follows the head of a text is shorter than the text. -/
theorem length_drop_lt {n : Nat} {b : UInt8} {r : Bytes} (hn : (b :: r).length = n) (k : Nat) :
    (r.drop k).length < n := by
  rw [← hn, List.length_drop, List.length_cons]
  omega

theorem chars_append_ascii {a : UInt8} (ha : a.toNat < 0x80) (s : Bytes) :
    chars (s ++ [a]) = chars s ++ [(a.toNat, 1)] := by
  induction hn : s.length using Nat.strongRecOn generalizing s with
  | _ n ih =>
    cases s with
    | nil => rw [List.nil_append, chars_cons, decode_one [] ha]; rfl
    | cons b r =>
      have hlength := length_drop_lt hn ((decode (b :: r)).2 - 1)
      have hle := decode_le (b :: r)
      rw [List.length_cons] at hle
      rw [List.cons_append, chars_cons, chars_cons, decode_append_ascii ha,
        List.drop_append_of_le_length (by omega), ih _ hlength _ rfl, List.cons_append]

theorem ofCodePoints_nil : ofCodePoints [] = [] := rfl

theorem ofCodePoints_cons (c : Nat) (cs : List Nat) :
    ofCodePoints (c :: cs) = encode c ++ ofCodePoints cs := rfl

theorem ofCodePoints_append (cs ds : List Nat) :
    ofCodePoints (cs ++ ds) = ofCodePoints cs ++ ofCodePoints ds := List.flatMap_append

theorem ofCodePoints_ascii {c : Nat} (h : c < 0x80) (cs : List Nat) :
    ofCodePoints (c :: cs) = c.toUInt8 :: ofCodePoints cs := by
  rw [ofCodePoints_cons, encode_ascii h]
  rfl

theorem ofCodePoints_map_ascii {cs : List Nat} (h : ∀ c ∈ cs, c < 0x80) :
    ofCodePoints cs = cs.map (·.toUInt8) := by
  induction cs with
  | nil => rfl
  | cons c cs ih =>
    obtain ⟨hc, hcs⟩ := List.forall_mem_cons.1 h
    rw [ofCodePoints_ascii hc, ih hcs, List.map_cons]

/-- A text made of characters splits into them. -/
theorem chars_ofCodePoints {cs : List Nat} (h : ∀ c ∈ cs, IsCharacter c) :
    chars (ofCodePoints cs) = cs.map fun c => (c, (encode c).length) := by
  induction cs with
  | nil => rfl
  | cons c cs ih =>
    obtain ⟨hc, hcs⟩ := List.forall_mem_cons.1 h
    obtain ⟨b, r, he, -⟩ := head_encode c
    have hdecode := decode_encode hc (ofCodePoints cs)
    rw [he, List.cons_append] at hdecode
    rw [ofCodePoints_cons, he, List.cons_append, chars_cons, hdecode, List.length_cons,
      Nat.add_sub_cancel, List.drop_left, ih hcs, List.map_cons, he, List.length_cons]

theorem codePoints_ofCodePoints {cs : List Nat} (h : ∀ c ∈ cs, IsCharacter c) :
    codePoints (ofCodePoints cs) = cs := by
  rw [codePoints, chars_ofCodePoints h, List.map_map]
  exact List.map_id cs

theorem isValid_ofCodePoints {cs : List Nat} (h : ∀ c ∈ cs, IsCharacter c) :
    isValid (ofCodePoints cs) = true := by
  rw [isValid, chars_ofCodePoints h, List.all_map, List.all_eq_true]
  intro c _
  by_cases hc : c = replacement
  · subst hc
    decide
  · simp [hc]

/-- A well-formed text is made of characters. -/
theorem exists_ofCodePoints {s : Bytes} (h : isValid s = true) :
    ∃ cs, (∀ c ∈ cs, IsCharacter c) ∧ s = ofCodePoints cs := by
  induction hn : s.length using Nat.strongRecOn generalizing s with
  | _ n ih =>
    cases s with
    | nil => exact ⟨[], List.forall_mem_nil _, rfl⟩
    | cons a r =>
      rw [isValid, chars_cons, List.all_cons, Bool.and_eq_true] at h
      obtain ⟨hfirst, hrest⟩ := h
      obtain ⟨c, t, hc, hs⟩ := exists_character (a := a) (r := r) fun hd => by simp [hd] at hfirst
      obtain ⟨b, e, he, -⟩ := head_encode c
      have hdrop : r.drop ((decode (a :: r)).2 - 1) = t := by
        rw [hs, decode_encode hc]
        rw [he, List.cons_append] at hs
        rw [he, (List.cons.inj hs).2]
        exact List.drop_left
      have hlength : t.length < n := by
        rw [← hn, hs, he, List.length_append, List.length_cons]
        omega
      rw [hdrop] at hrest
      obtain ⟨cs, hcs, ht⟩ := ih _ hlength hrest rfl
      exact ⟨c :: cs, List.forall_mem_cons.2 ⟨hc, hcs⟩, by rw [hs, ht, ofCodePoints_cons]⟩

/-! ## Unreadable bytes -/

/-- The bytes of a text, the replacement character for each that cannot be read; `skip` bytes belong
to a character already read. -/
def replaceFrom : Nat → Bytes → Bytes
  | _, [] => []
  | skip + 1, b :: r => b :: replaceFrom skip r
  | 0, b :: r =>
    if decode (b :: r) = (replacement, 1) then encode replacement ++ replaceFrom 0 r
    else b :: replaceFrom ((decode (b :: r)).2 - 1) r

/-- What is read at the head of a text is a character. -/
theorem isCharacter_decode (s : Bytes) : IsCharacter (decode s).1 := by
  cases s with
  | nil => exact isCharacter_replacement
  | cons b r =>
    by_cases hd : decode (b :: r) = (replacement, 1)
    · rw [hd]
      exact isCharacter_replacement
    · obtain ⟨c, t, hc, he⟩ := exists_character hd
      rwa [he, decode_encode hc]

theorem isCharacter_codePoints (s : Bytes) : ∀ c ∈ codePoints s, IsCharacter c := by
  induction hn : s.length using Nat.strongRecOn generalizing s with
  | _ n ih =>
    cases s with
    | nil => exact List.forall_mem_nil _
    | cons b r =>
      have hlength := length_drop_lt hn ((decode (b :: r)).2 - 1)
      rw [codePoints, chars_cons, List.map_cons]
      exact List.forall_mem_cons.2 ⟨isCharacter_decode _, ih _ hlength _ rfl⟩

theorem isValid_sanitize (s : Bytes) : isValid (sanitize s) = true :=
  isValid_ofCodePoints (isCharacter_codePoints s)

/-- Nothing is replaced in a well-formed text. -/
theorem sanitize_of_isValid {s : Bytes} (h : isValid s = true) : sanitize s = s := by
  obtain ⟨cs, hcs, rfl⟩ := exists_ofCodePoints h
  rw [sanitize, codePoints_ofCodePoints hcs]

theorem isValid_append {s t : Bytes} (hs : isValid s = true) (ht : isValid t = true) :
    isValid (s ++ t) = true := by
  obtain ⟨cs, hcs, rfl⟩ := exists_ofCodePoints hs
  obtain ⟨ds, hds, rfl⟩ := exists_ofCodePoints ht
  rw [← ofCodePoints_append]
  exact isValid_ofCodePoints (List.forall_mem_append.2 ⟨hcs, hds⟩)

theorem isValid_ascii {s : Bytes} (h : ∀ b ∈ s, b < 0x80) : isValid s = true := by
  have hlow : ∀ c ∈ s.map UInt8.toNat, c < 0x80 :=
    List.forall_mem_map.2 fun b hb => UInt8.lt_iff_toNat_lt.1 (h b hb)
  have hs : ofCodePoints (s.map UInt8.toNat) = s := by
    rw [ofCodePoints_map_ascii hlow, List.map_map]
    exact List.map_id'' (fun _ => toUInt8_eq rfl) s
  exact hs ▸ isValid_ofCodePoints fun c hc => .inl (by have := hlow c hc; omega)

/-! ## Units -/

/-- The UTF-16 units of a code point; a surrogate half is its own unit. -/
def units16 (c : Nat) : List Nat :=
  if c < 0x10000 then [c] else [(splitSurrogates c).1, (splitSurrogates c).2]

/-- The UTF-16 units of a text. -/
def text16 (s : Bytes) : List Nat := (codePoints s).flatMap units16

/-- A half that begins a pair. -/
def isHighHalf (u : Nat) : Bool := 0xD800 ≤ u && u ≤ 0xDBFF

/-- A half that ends a pair. -/
def isLowHalf (u : Nat) : Bool := 0xDC00 ≤ u && u ≤ 0xDFFF

theorem isHighHalf_iff {u : Nat} : isHighHalf u = true ↔ 0xD800 ≤ u ∧ u ≤ 0xDBFF := by
  simp [isHighHalf]

theorem isLowHalf_iff {u : Nat} : isLowHalf u = true ↔ 0xDC00 ≤ u ∧ u ≤ 0xDFFF := by
  simp [isLowHalf]

/-- Units with each half that belongs to no pair replaced. -/
def wellFormed16 : List Nat → List Nat
  | [] => []
  | [u] => [if isSurrogate u then replacement else u]
  | u :: v :: r =>
    if isHighHalf u && isLowHalf v then u :: v :: wellFormed16 r
    else (if isSurrogate u then replacement else u) :: wellFormed16 (v :: r)

section

variable {u v : Nat} {us : List Nat}

theorem pair_iff : (isHighHalf u && isLowHalf v) = true ↔
    (isSurrogate u && decide (u < 0xDC00) && isSurrogate v && decide (0xDC00 ≤ v)) = true := by
  simp only [isSurrogate, isHighHalf, isLowHalf, Bool.and_eq_true, decide_eq_true_eq]
  omega

theorem wellFormed16_pair (h : (isHighHalf u && isLowHalf v) = true) :
    wellFormed16 (u :: v :: us) = u :: v :: wellFormed16 us := by
  rw [wellFormed16, if_pos h]

theorem length_wellFormed16 (us : List Nat) : (wellFormed16 us).length = us.length := by
  fun_induction wellFormed16 us with
  | case1 => rfl
  | case2 => rfl
  | case3 u v r hpair ih => rw [List.length_cons, List.length_cons, ih]; rfl
  | case4 u v r hpair ih => rw [List.length_cons, ih]; rfl

/-- A unit that does not begin a pair stays, unless it is a half. -/
theorem wellFormed16_alone (h : ∀ v, us.head? = some v → ¬(isHighHalf u && isLowHalf v) = true) :
    wellFormed16 (u :: us) = (if isSurrogate u then replacement else u) :: wellFormed16 us := by
  cases us with
  | nil => rfl
  | cons v us => rw [wellFormed16, if_neg (h v rfl)]

theorem wellFormed16_of_not_half (h : isSurrogate u = false) :
    wellFormed16 (u :: us) = u :: wellFormed16 us := by
  rw [wellFormed16_alone, h, if_neg Bool.false_ne_true]
  intro v _ hpair
  rw [pair_iff, h] at hpair
  simp at hpair

theorem units16_small (h : u < 0x10000) : units16 u = [u] := if_pos h

theorem units16_split (h : 0x10000 ≤ u) :
    units16 u = [(splitSurrogates u).1, (splitSurrogates u).2] := if_neg (by omega)

theorem pair_splitSurrogates (h : 0x10000 ≤ u) (hmax : u ≤ 0x10FFFF) :
    (isHighHalf (splitSurrogates u).1 && isLowHalf (splitSurrogates u).2) = true := by
  rw [Bool.and_eq_true, isHighHalf_iff, isLowHalf_iff, splitSurrogates]
  dsimp only
  omega

/-- A character beyond the first plane is a pair. -/
theorem units16_large (h : 0x10000 ≤ u) (hmax : u ≤ 0x10FFFF) :
    ∃ x y, units16 u = [x, y] ∧ (isHighHalf x && isLowHalf y) = true :=
  ⟨_, _, units16_split h, pair_splitSurrogates h hmax⟩

theorem units16_joinSurrogates (h : (isHighHalf u && isLowHalf v) = true) :
    IsCharacter (joinSurrogates u v) ∧ units16 (joinSurrogates u v) = [u, v] := by
  rw [Bool.and_eq_true, isHighHalf_iff, isLowHalf_iff] at h
  obtain ⟨a, rfl⟩ := Nat.exists_eq_add_of_le h.1.1
  obtain ⟨b, rfl⟩ := Nat.exists_eq_add_of_le h.2.1
  have hjoin : joinSurrogates (0xD800 + a) (0xDC00 + b) = 0x10000 + (a * 1024 + b) := by
    unfold joinSurrogates
    omega
  have ha : a < 1024 := by omega
  have hb : b < 1024 := by omega
  rw [hjoin, units16, if_neg (by omega), splitSurrogates, Nat.add_sub_cancel_left]
  have hdiv : (a * 1024 + b) / 1024 = a := by omega
  have hmod : (a * 1024 + b) % 1024 = b := by omega
  rw [hdiv, hmod]
  exact ⟨Or.inr (by omega), rfl⟩

end

/-- No first unit ends a pair that the unit before it begins, unless both are halves. -/
theorem head_units16 {i u : Nat} {us : List Nat} (hi : i ≤ 0x10FFFF)
    (h : ∀ v, i = v → ¬(isHighHalf u && isLowHalf v) = true) :
    ∀ v, (units16 i ++ us).head? = some v → ¬(isHighHalf u && isLowHalf v) = true := by
  intro v hv
  by_cases hsmall : i < 0x10000
  · rw [units16_small hsmall] at hv
    exact h v (Option.some.inj hv)
  · obtain ⟨x, y, hunits, hpair⟩ := units16_large (by omega) hi
    rw [hunits] at hv
    obtain rfl := Option.some.inj hv
    -- the first unit of a pair is a high half
    rw [Bool.and_eq_true, isHighHalf_iff] at hpair
    rw [Bool.and_eq_true, isLowHalf_iff]
    omega

/-- A code point that begins no pair with what follows: only a half is replaced. -/
theorem units16_replaced {u : Nat} {us : List Nat} (hu : u ≤ 0x10FFFF)
    (h : ∀ v, us.head? = some v → ¬(isHighHalf u && isLowHalf v) = true) :
    IsCharacter (if isSurrogate u then replacement else u) ∧
      units16 (if isSurrogate u then replacement else u) ++ wellFormed16 us =
        wellFormed16 (units16 u ++ us) := by
  by_cases hs : isSurrogate u = true
  · have hsmall := isSurrogate_iff.1 hs
    rw [if_pos hs, units16_small (u := u) (by omega)]
    refine ⟨isCharacter_replacement, ?_⟩
    rw [List.singleton_append, wellFormed16_alone h, if_pos hs]
    rfl
  · rw [Bool.not_eq_true] at hs
    rw [hs, if_neg Bool.false_ne_true]
    refine ⟨isCharacter_iff.2 ⟨hs, hu⟩, ?_⟩
    by_cases hsmall : u < 0x10000
    · rw [units16_small hsmall, List.singleton_append, List.singleton_append,
        wellFormed16_of_not_half hs]
    · obtain ⟨x, y, hunits, hpair⟩ := units16_large (by omega) hu
      rw [hunits]
      exact (wellFormed16_pair hpair).symm

/-- Joining halves gives characters; in units, only halves that belong to no pair are replaced. -/
theorem units16_joinUnits {is : List Nat} (h : ∀ i ∈ is, i ≤ 0x10FFFF) :
    (∀ c ∈ joinUnits is, IsCharacter c) ∧
      (joinUnits is).flatMap units16 = wellFormed16 (is.flatMap units16) := by
  fun_induction joinUnits is with
  | case1 => exact ⟨List.forall_mem_nil _, rfl⟩
  | case2 u =>
    obtain ⟨hchar, hunits⟩ := @units16_replaced u [] (h u List.mem_cons_self) (by simp)
    exact ⟨List.forall_mem_singleton.2 hchar, hunits⟩
  | case3 u v r hpair ih =>
    obtain ⟨ihc, ihu⟩ := ih fun i hi => h i (List.mem_cons_of_mem _ (List.mem_cons_of_mem _ hi))
    have hpair := pair_iff.2 hpair
    obtain ⟨hchar, hunits⟩ := units16_joinSurrogates hpair
    refine ⟨List.forall_mem_cons.2 ⟨hchar, ihc⟩, ?_⟩
    have hhalves := hpair
    rw [Bool.and_eq_true, isHighHalf_iff, isLowHalf_iff] at hhalves
    rw [List.flatMap_cons, hunits, ihu, List.flatMap_cons, List.flatMap_cons,
      units16_small (by omega),
      units16_small (by omega)]
    exact (wellFormed16_pair hpair).symm
  | case4 u v r hpair ih =>
    obtain ⟨hu, hvr⟩ := List.forall_mem_cons.1 h
    obtain ⟨ihc, ihu⟩ := ih hvr
    have hhead := @head_units16 v u (r.flatMap units16) (hvr v List.mem_cons_self) fun w hw =>
      hw ▸ fun hp => hpair (pair_iff.1 hp)
    rw [← List.flatMap_cons] at hhead
    obtain ⟨hchar, hunits⟩ := units16_replaced hu hhead
    refine ⟨List.forall_mem_cons.2 ⟨hchar, ihc⟩, ?_⟩
    rw [List.flatMap_cons, ihu, hunits]
    rfl

/-- The halves of a character are joined again. -/
theorem joinUnits_large {u : Nat} (h : 0x10000 ≤ u) (hmax : u ≤ 0x10FFFF) (us : List Nat) :
    joinUnits (units16 u ++ us) = u :: joinUnits us := by
  have hjoin : joinSurrogates (splitSurrogates u).1 (splitSurrogates u).2 = u := by
    unfold joinSurrogates splitSurrogates
    dsimp only
    omega
  rw [units16_split h, List.cons_append, List.singleton_append, joinUnits,
    if_pos (pair_iff.1 (pair_splitSurrogates h hmax)), hjoin]

/-- A unit that does not begin a pair stands alone. -/
theorem joinUnits_alone {u : Nat} {us : List Nat}
    (h : ∀ v, us.head? = some v → ¬(isHighHalf u && isLowHalf v) = true) :
    joinUnits (u :: us) = (if isSurrogate u then replacement else u) :: joinUnits us := by
  cases us with
  | nil => rfl
  | cons v us => rw [joinUnits, if_neg fun hpair => h v rfl (pair_iff.2 hpair)]

/-- Units may be written apart: a character beyond the first plane as its two halves. -/
theorem joinUnits_units16 {is : List Nat} (h : ∀ i ∈ is, i ≤ 0x10FFFF) :
    joinUnits (is.flatMap units16) = joinUnits is := by
  have hwhole {u : Nat} (hu : 0x10000 ≤ u) : (if isSurrogate u then replacement else u) = u := by
    rw [if_neg]
    rw [isSurrogate_iff]
    omega
  fun_induction joinUnits is with
  | case1 => rfl
  | case2 u =>
    have hmax := List.forall_mem_singleton.1 h
    rw [List.flatMap_singleton]
    by_cases hu : u < 0x10000
    · rw [units16_small hu]
      rfl
    · have hlarge := joinUnits_large (Nat.le_of_not_lt hu) hmax []
      rw [List.append_nil] at hlarge
      rw [hlarge, hwhole (Nat.le_of_not_lt hu)]
      rfl
  | case3 u v r hpair ih =>
    obtain ⟨-, h⟩ := List.forall_mem_cons.1 h
    obtain ⟨-, h⟩ := List.forall_mem_cons.1 h
    have hhalves := pair_iff.2 hpair
    rw [Bool.and_eq_true, isHighHalf_iff, isLowHalf_iff] at hhalves
    rw [List.flatMap_cons, List.flatMap_cons, units16_small (by omega), units16_small (by omega),
      List.singleton_append, List.singleton_append, joinUnits, if_pos hpair, ih h]
  | case4 u v r hpair ih =>
    obtain ⟨hmax, h⟩ := List.forall_mem_cons.1 h
    rw [List.flatMap_cons]
    by_cases hu : u < 0x10000
    · have hnext := @head_units16 v u (r.flatMap units16) (List.forall_mem_cons.1 h).1
        fun w hw hhalves => hpair (pair_iff.1 (hw ▸ hhalves))
      rw [← List.flatMap_cons] at hnext
      rw [units16_small hu, List.singleton_append, joinUnits_alone hnext, ih h]
    · rw [joinUnits_large (Nat.le_of_not_lt hu) hmax, ih h, hwhole (Nat.le_of_not_lt hu)]

/-- Characters have nothing to join. -/
theorem joinUnits_characters {cs : List Nat} (h : ∀ c ∈ cs, IsCharacter c) : joinUnits cs = cs := by
  fun_induction joinUnits cs with
  | case1 => rfl
  | case2 u => rw [(isCharacter_iff.1 (h u List.mem_cons_self)).1, if_neg Bool.false_ne_true]
  | case3 u v r hpair ih =>
    rw [(isCharacter_iff.1 (h u List.mem_cons_self)).1] at hpair
    simp at hpair
  | case4 u v r hpair ih =>
    obtain ⟨hu, hvr⟩ := List.forall_mem_cons.1 h
    rw [(isCharacter_iff.1 hu).1, if_neg Bool.false_ne_true, ih hvr]

end ScriptLower.Utf8

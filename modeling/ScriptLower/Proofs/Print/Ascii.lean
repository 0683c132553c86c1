import Mathlib.Algebra.Group.Nat.Defs
import ScriptLower.Print.Expression
import ScriptLower.Proofs.Token.Strings

/-!
# Printing in ASCII

Each character beyond ASCII is replaced on its own, whatever stands before it. That keeps what is
read of a text as long as no backslash is read with the character behind it: a character beyond
ASCII is no part of an escape that began before, and neither is the backslash that is put in its
place. Only an escape that begins with such a character is taken apart, since its backslash then
escapes the new one, and more units are read than before. Besides, bytes that cannot be read are
printed as the replacement character, which they stand for in any text but one without a backslash,
which is its own value.

In names a backslash begins nothing but a Unicode escape, so names always keep their characters.
-/

namespace ScriptLower.Print

open ScriptLower StringLiteral Utf8

/-! ## Digits -/

/-- The digits of a number have its value. -/
theorem digits_values (n : Nat) : ∃ vs : List Nat,
    ((Bytes.ofNatHex n).map fun b => if 97 ≤ b then b - 32 else b).map Bytes.digitVal =
    vs.map some ∧
      (∀ v ∈ vs, v < 16) ∧ hexNumber vs = n := by
  have hdigit : ∀ v < 16, Bytes.digitVal (if 97 ≤ ascii v.digitChar then ascii v.digitChar - 32
      else ascii v.digitChar) = some v := by decide
  induction n using Nat.strong_induction_on with
  | _ n ih =>
    unfold Bytes.ofNatHex at ih ⊢
    by_cases hn : n < 16
    · refine ⟨[n], ?_, List.forall_mem_singleton.2 hn, by rw [hexNumber]; simp⟩
      rw [Nat.toDigits_of_lt_base hn]
      exact congrArg (fun v => [v]) (hdigit n hn)
    · obtain ⟨vs, hvs, hlt, hvalue⟩ := ih (n / 16) (by omega)
      have hlast : n % 16 < 16 := Nat.mod_lt _ (by decide)
      refine ⟨vs ++ [n % 16], ?_,
        List.forall_mem_append.2 ⟨hlt, List.forall_mem_singleton.2 hlast⟩, ?_⟩
      · rw [Nat.toDigits_of_base_le (by decide) (by omega), List.map_append, List.map_append,
          List.map_append, hvs, List.map_append]
        exact congrArg (fun v => vs.map some ++ [v]) (hdigit _ hlast)
      · unfold hexNumber at hvalue ⊢
        rw [List.foldl_append, hvalue, List.foldl_cons, List.foldl_nil]
        omega

theorem hex4_values (n : Nat) : ∃ vs : List Nat, (hex4 n).map Bytes.digitVal = vs.map some ∧
    (∀ v ∈ vs, v < 16) ∧ hexNumber vs = n := by
  obtain ⟨vs, hvs, hlt, hvalue⟩ := digits_values n
  unfold hex4 Bytes.padLeft
  generalize ((Bytes.ofNatHex n).map fun b => if 97 ≤ b then b - 32 else b) = ds at hvs ⊢
  refine ⟨List.replicate (4 - ds.length) 0 ++ vs, ?_, ?_, ?_⟩
  · rw [List.map_append, List.map_append, hvs, List.map_replicate, List.map_replicate]
    rfl
  · exact List.forall_mem_append.2 ⟨fun v hv => by rw [List.eq_of_mem_replicate hv]; decide, hlt⟩
  · -- zeros in front change nothing
    have hzeros (k : Nat) : (List.replicate k 0).foldl (fun n v => n * 16 + v) 0 = 0 := by
      induction k with
      | zero => rfl
      | succ k ih => rw [List.replicate_succ, List.foldl_cons, ih]
    unfold hexNumber at hvalue ⊢
    rw [List.foldl_append, hzeros, hvalue]

theorem hex4_isHexDigit (n : Nat) : ∀ b ∈ hex4 n, Bytes.isHexDigit b = true := by
  obtain ⟨vs, hvs, hlt, -⟩ := hex4_values n
  intro b hb
  have hmem : Bytes.digitVal b ∈ vs.map some := hvs ▸ List.mem_map_of_mem hb
  obtain ⟨v, hv, hb⟩ := List.mem_map.1 hmem
  exact Bytes.isDigitOf_hex.1 ⟨v, hb.symm, hlt v hv⟩

theorem hex4_ne_nil (n : Nat) : hex4 n ≠ [] := by
  unfold hex4 Bytes.padLeft Bytes.ofNatHex
  simp [Nat.toDigits_ne_nil]

theorem hexValue_hex4 (n : Nat) : hexValue (hex4 n) = n := by
  obtain ⟨vs, hvs, hlt, hvalue⟩ := hex4_values n
  rw [hexValue, Bytes.toNatBase?_digits (hex4_ne_nil n) hvs hlt]
  exact hvalue

theorem hex4_length {n : Nat} (h : n < 0x10000) : (hex4 n).length = 4 := by
  have hlen : (Nat.toDigits 16 n).length ≤ 4 :=
    (Nat.length_toDigits_le_iff (by decide) (by decide)).2 (Nat.lt_of_lt_of_le h (by decide))
  unfold hex4 Bytes.padLeft Bytes.ofNatHex
  rw [List.length_append, List.length_replicate, List.length_map, List.length_map]
  omega

/-! ## Escapes that are put in -/

section

variable {b c : UInt8} {m : Bool} {n : Nat} {p r s t u : Bytes}

theorem escape?_hex4 (h : n < 0x10000) (t : Bytes) :
    escape? (117 :: (hex4 n ++ t)) = some ⟨some n, 5⟩ := by
  have hlen := hex4_length h
  have hbrace : (hex4 n ++ t).head? ≠ some 0x7B := by
    obtain ⟨d, ds, hds⟩ := List.exists_cons_of_ne_nil (hex4_ne_nil n)
    have hdigit := hex4_isHexDigit n d (by rw [hds]; exact List.mem_cons_self)
    rw [hds]
    rintro ⟨⟩
    exact absurd hdigit (by decide)
  rw [escape?_u hbrace, if_neg (by rw [List.length_append]; omega), List.take_left' hlen,
    hex32?_short (hex4_isHexDigit n) (hex4_ne_nil n) (Nat.le_of_eq hlen), hexValue_hex4]
  rfl

theorem escape?_hex4_braces (h : n ≤ 0x10FFFF) (t : Bytes) :
    escape? (117 :: 0x7B :: (hex4 n ++ 0x7D :: t)) = some ⟨some n, (hex4 n).length + 3⟩ := by
  have htwo : 2 ^ 32 = 0x100000000 := by decide
  rw [escape?_braced, findIdx?_hex (hex4_isHexDigit n), Option.bind_eq_bind, Option.bind_some,
    List.take_left, hex32?_eq (hex4_ne_nil n) (hex4_isHexDigit n), hexValue_hex4, if_pos (by omega),
    Option.bind_some, if_pos h]

/-- A unit that is written as an escape is read again. -/
theorem bodyUnits_hex4 (h : n < 0x10000) (t : Bytes) :
    bodyUnits (92 :: 117 :: (hex4 n ++ t)) = (bodyUnits t).map (n :: ·) := by
  have hdrop : (117 :: (hex4 n ++ t)).drop 5 = t := by
    rw [List.drop_succ_cons]
    exact List.drop_left' (hex4_length h)
  rw [bodyUnits, bodyUnits, unitsFrom_backslash, escape?_hex4 h, Option.bind_some]
  dsimp only
  rw [hdrop, Option.map_map, Option.map_map]
  refine congrArg (fun f => Option.map f _) (funext fun us => ?_)
  show units16 n ++ us.flatMap units16 = _
  rw [units16_small h]
  rfl

/-- A code point that is written as an escape with braces is read again. -/
theorem bodyUnits_hex4_braces (h : n ≤ 0x10FFFF) (t : Bytes) :
    bodyUnits (92 :: 117 :: 0x7B :: (hex4 n ++ 0x7D :: t)) =
    (bodyUnits t).map (units16 n ++ ·) := by
  have hdrop : (117 :: 0x7B :: (hex4 n ++ 0x7D :: t)).drop ((hex4 n).length + 3) = t := by
    rw [List.drop_succ_cons, List.drop_succ_cons, List.append_cons]
    exact List.drop_left' List.length_append
  rw [bodyUnits_backslash, escape?_hex4_braces h, Option.bind_some, hdrop]
  exact congrArg (fun us => Option.map (us ++ ·) (bodyUnits t)) (List.flatMap_singleton units16 n)

theorem escapeChar_ascii (h : n < 0x80) : escapeChar m n = [n.toUInt8] :=
  (if_pos h).trans (encode_ascii h)

/-- A character beyond ASCII is written as escapes of its units, or of itself. -/
theorem bodyUnits_escapeChar (hlow : 0x80 ≤ n) (hmax : n ≤ 0x10FFFF) (t : Bytes) :
    bodyUnits (escapeChar m n ++ t) = (bodyUnits t).map (units16 n ++ ·) := by
  unfold escapeChar
  rw [if_neg (by omega)]
  split
  · rename_i hsmall
    have hsmall : n < 0x10000 := by omega
    rw [units16_small hsmall]
    exact bodyUnits_hex4 hsmall t
  rename_i hlarge
  split
  · rw [List.append_assoc, List.append_assoc]
    exact bodyUnits_hex4_braces hmax t
  · have hpair := pair_splitSurrogates (u := n) (by omega) hmax
    rw [Bool.and_eq_true, isHighHalf_iff, isLowHalf_iff] at hpair
    rw [units16_split (by omega)]
    show bodyUnits
      (("\\u" ++ hex4 (splitSurrogates n).1 ++ "\\u" ++ hex4 (splitSurrogates n).2) ++ t) = _
    rw [List.append_assoc, List.append_assoc, List.append_assoc]
    show bodyUnits (92 :: 117 :: (hex4 (splitSurrogates n).1 ++
      92 :: 117 :: (hex4 (splitSurrogates n).2 ++ t))) = _
    rw [bodyUnits_hex4 (by omega), bodyUnits_hex4 (by omega), Option.map_map]
    rfl

/-- An escape begins with a backslash and a unit of the character. -/
theorem escapeChar_beyond (hlow : 0x80 ≤ n) (hmax : n ≤ 0x10FFFF) : ∃ v t, v < 0x10000 ∧
    escapeChar false n = 92 :: 117 :: (hex4 v ++ t) ∧
      (t = [] ∨ ∃ w < 0x10000, t = 92 :: 117 :: hex4 w) := by
  unfold escapeChar
  rw [if_neg (by omega)]
  split
  · exact ⟨n, [], by omega, by rw [List.append_nil]; rfl, Or.inl rfl⟩
  · have hpair := pair_splitSurrogates (u := n) (by omega) hmax
    rw [Bool.and_eq_true, isHighHalf_iff, isLowHalf_iff] at hpair
    refine ⟨(splitSurrogates n).1, 92 :: 117 :: hex4 (splitSurrogates n).2, by omega, ?_,
      Or.inr ⟨_, by omega, rfl⟩⟩
    rw [if_neg Bool.false_ne_true]
    show "\\u" ++ hex4 (splitSurrogates n).1 ++ "\\u" ++ hex4 (splitSurrogates n).2 = _
    rw [List.append_assoc, List.append_assoc]
    rfl

end

/-! ## Texts -/

section

variable {b c : UInt8} {m : Bool} {n : Nat} {e : Escape} {p r s t u : Bytes} {us : List Nat}

theorem ascii_of_isHexDigit (h : Bytes.isHexDigit b = true) : b < 0x80 ∧ b ≠ 92 := by
  simp only [Bytes.isHexDigit, Bytes.isDigit, Bool.or_eq_true, Bool.and_eq_true, decide_eq_true_eq,
    UInt8.le_iff_toNat_le, UInt8.reduceToNat] at h
  refine ⟨UInt8.lt_iff_toNat_lt.2 (show b.toNat < 0x80 by omega), ?_⟩
  rintro rfl
  exact absurd h (by decide)

theorem ascii_hex4 (n : Nat) : ∀ b ∈ hex4 n, b < 0x80 ∧ b ≠ 92 := fun b hb =>
  ascii_of_isHexDigit (hex4_isHexDigit n b hb)

theorem ascii_escapeChar (m : Bool) (n : Nat) : ∀ b ∈ escapeChar m n, b < 0x80 := by
  have hopen : ∀ b ∈ Bytes.ofString "\\u", b < 0x80 := by decide
  have hhex (n : Nat) : ∀ b ∈ hex4 n, b < 0x80 := fun b hb => (ascii_hex4 n b hb).1
  unfold escapeChar
  split
  · rename_i hlow
    rw [encode_ascii hlow, List.forall_mem_singleton, UInt8.lt_iff_toNat_lt,
      toNat_toUInt8 (by omega)]
    exact hlow
  split
  · exact List.forall_mem_append.2 ⟨hopen, hhex n⟩
  split
  · exact List.forall_mem_append.2
      ⟨List.forall_mem_append.2 ⟨by decide, hhex n⟩, by decide⟩
  · exact List.forall_mem_append.2 ⟨List.forall_mem_append.2
      ⟨List.forall_mem_append.2 ⟨hopen, hhex _⟩, hopen⟩, hhex _⟩

/-- What is printed is ASCII. -/
theorem ascii_escapeText (m : Bool) (s : Bytes) : ∀ b ∈ escapeText m s, b < 0x80 := by
  intro b hb
  obtain ⟨n, -, hb⟩ := List.mem_flatMap.1 hb
  exact ascii_escapeChar m n b hb

theorem escapeText_cons (m : Bool) (b : UInt8) (r : Bytes) : escapeText m (b :: r) =
    escapeChar m (decode (b :: r)).1 ++ escapeText m (r.drop ((decode (b :: r)).2 - 1)) := by
  rw [escapeText, codePoints, chars_cons]
  rfl

theorem escapeText_cons_ascii (hb : b < 0x80) (r : Bytes) :
    escapeText m (b :: r) = b :: escapeText m r := by
  have hb : b.toNat < 0x80 := UInt8.lt_iff_toNat_lt.1 hb
  rw [escapeText_cons, decode_one r hb, escapeChar_ascii hb, toUInt8_eq rfl]
  rfl

theorem escapeText_ascii_append (hp : ∀ b ∈ p, b < 0x80) (u : Bytes) :
    escapeText m (p ++ u) = p ++ escapeText m u := by
  induction p with
  | nil => rfl
  | cons b p ih =>
    obtain ⟨hb, hp⟩ := List.forall_mem_cons.1 hp
    rw [List.cons_append, escapeText_cons_ascii hb, ih hp, List.cons_append]

/-- A byte beyond ASCII begins a character beyond ASCII. -/
theorem decode_beyond (hb : ¬b < 0x80) (r : Bytes) :
    0x80 ≤ (decode (b :: r)).1 ∧ (decode (b :: r)).1 ≤ 0x10FFFF := by
  refine ⟨?_, (isCharacter_iff.1 (isCharacter_decode _)).2⟩
  by_cases hd : decode (b :: r) = (replacement, 1)
  · rw [hd]
    decide
  · obtain ⟨n, t, hn, he⟩ := exists_character hd
    obtain ⟨a, u, hu, ha⟩ := head_encode n
    have hdecode := decode_encode hn t
    rw [← he] at hdecode
    rw [hdecode]
    rw [hu] at he
    obtain rfl := (List.cons.inj he).1
    have hb : ¬b.toNat < 0x80 := fun h => hb (UInt8.lt_iff_toNat_lt.2 h)
    rcases ha with ha | ha
    · dsimp only
      omega
    · exact ha.2

/-- Where a text goes on beyond ASCII or ends, so does what is printed, with a backslash. -/
theorem foreign_escapeText (hu : ∀ b, u.head? = some b → ¬b < 0x80) : Foreign (escapeText m u) := by
  cases u with
  | nil => exact fun b hb => by cases hb
  | cons b r =>
    obtain ⟨hlow, -⟩ := decode_beyond (hu b rfl) r
    intro c hc
    refine Or.inl ?_
    rw [escapeText_cons] at hc
    unfold escapeChar at hc
    rw [if_neg (by omega)] at hc
    split at hc
    · exact (Option.some.inj hc).symm
    split at hc
    · exact (Option.some.inj hc).symm
    · exact (Option.some.inj hc).symm

/-- A text is ASCII up to a place where it goes on beyond ASCII or ends. -/
theorem exists_ascii_front (r : Bytes) :
    ∃ p u, r = p ++ u ∧ (∀ b ∈ p, b < 0x80) ∧ ∀ b, u.head? = some b → ¬b < 0x80 := by
  induction r with
  | nil => exact ⟨[], [], rfl, List.forall_mem_nil _, fun b hb => by cases hb⟩
  | cons b r ih =>
    by_cases hb : b < 0x80
    · obtain ⟨p, u, rfl, hp, hu⟩ := ih
      exact ⟨b :: p, u, rfl, List.forall_mem_cons.2 ⟨hb, hp⟩, hu⟩
    · exact ⟨[], b :: r, rfl, List.forall_mem_nil _, fun c hc => Option.some.inj hc ▸ hb⟩

/-- An escape that begins in ASCII is read as before, up to the same place. -/
theorem escape?_escapeText (hc : c < 0x80) : escape? (c :: escapeText m r) = escape? (c :: r) ∧
    ∀ e, escape? (c :: r) = some e →
      (c :: escapeText m r).drop e.size = escapeText m ((c :: r).drop e.size) := by
  obtain ⟨p, u, rfl, hp, hu⟩ := exists_ascii_front r
  have hforeign : Foreign u := fun b hb => Or.inr (UInt8.not_lt.1 (hu b hb))
  rw [escapeText_ascii_append hp, escape?_front hc (foreign_escapeText hu),
    escape?_front hc hforeign]
  refine ⟨rfl, fun e he => ?_⟩
  have hsize : e.size ≤ (c :: p).length := (escape?_bounds he).1
  have hdrop (w : Bytes) : (c :: (p ++ w)).drop e.size = (c :: p).drop e.size ++ w :=
    List.drop_append_of_le_length hsize
  rw [hdrop, hdrop, escapeText_ascii_append]
  have hall : ∀ b ∈ c :: p, b < 0x80 := List.forall_mem_cons.2 ⟨hc, hp⟩
  exact fun b hb => hall b (List.mem_of_mem_drop hb)

/-! ## Escapes that begin in ASCII -/

/-- No escape of a text begins beyond ASCII. -/
def PlainEscapes (s : Bytes) : Prop := ∀ e ∈ escapeTexts s, e.headD 0 < 0x80

instance (s : Bytes) : Decidable (PlainEscapes s) :=
  inferInstanceAs (Decidable (∀ e ∈ escapeTexts s, e.headD 0 < 0x80))

theorem plainEscapes_nil : PlainEscapes [] := List.forall_mem_nil _

theorem plainEscapes_append (hp : 92 ∉ p) : PlainEscapes (p ++ s) ↔ PlainEscapes s := by
  rw [PlainEscapes, escapeTexts_append hp, PlainEscapes]

theorem plainEscapes_escape : PlainEscapes (92 :: c :: r) ↔ c < 0x80 ∧ PlainEscapes r :=
  List.forall_mem_cons

/-- Nothing that is read with an escape is an escape. -/
theorem plainEscapes_drop (he : escape? (c :: r) = some e) :
    PlainEscapes ((c :: r).drop e.size) ↔ PlainEscapes r := by
  obtain ⟨hpos, htake⟩ := escape?_take he
  obtain ⟨k, hk⟩ := Nat.exists_eq_add_of_lt hpos
  rw [Nat.zero_add] at hk
  rw [hk, Nat.add_sub_cancel] at htake
  rw [hk, List.drop_succ_cons, ← plainEscapes_append htake, List.take_append_drop]

theorem plainEscapes_character (hb : b ≠ 92) :
    PlainEscapes (b :: r) ↔ PlainEscapes (r.drop ((decode (b :: r)).2 - 1)) := by
  have htake : 92 ∉ r.take ((decode (b :: r)).2 - 1) := fun hmem =>
    absurd (decode_tail 92 hmem) (by decide)
  have hsplit := plainEscapes_append (s := r.drop ((decode (b :: r)).2 - 1)) htake
  rw [List.take_append_drop] at hsplit
  rw [← hsplit, PlainEscapes, escapeTexts_cons hb, PlainEscapes]

/-- The same units are read of what is printed, if no escape begins beyond ASCII. -/
theorem bodyUnits_escapeText (h : PlainEscapes s) : bodyUnits (escapeText m s) = bodyUnits s := by
  induction hn : s.length using Nat.strong_induction_on generalizing s with
  | _ n ih =>
    have hlength {b : UInt8} {r : Bytes} (hs : s = b :: r) := length_drop_lt (hs ▸ hn)
    cases s with
    | nil => rfl
    | cons b r =>
      by_cases hb : b = 92
      · subst hb
        rw [escapeText_cons_ascii (by decide), bodyUnits_backslash, bodyUnits_backslash]
        cases r with
        | nil => rfl
        | cons c r =>
          obtain ⟨hc, hr⟩ := plainEscapes_escape.1 h
          obtain ⟨hread, hdrop⟩ := @escape?_escapeText c m r hc
          rw [escapeText_cons_ascii hc, hread]
          refine Option.bind_congr fun e he => ?_
          rw [hdrop e he, ih _ (hlength rfl e.size) ((plainEscapes_drop he).2 hr) rfl]
      · have hrest := ih _ (hlength rfl _) ((plainEscapes_character hb).1 h) rfl
        by_cases hlow : b < 0x80
        · rw [escapeText_cons_ascii hlow, bodyUnits_cons hb, bodyUnits_cons hb, ]
          have hone (r : Bytes) := decode_one r (UInt8.lt_iff_toNat_lt.1 hlow)
          rw [hone] at hrest
          rw [hone, hone]
          exact congrArg _ hrest
        · obtain ⟨hchar, hmax⟩ := decode_beyond hlow r
          rw [escapeText_cons, bodyUnits_escapeChar hchar hmax, hrest, bodyUnits_cons hb]

/-- An escape that begins beyond ASCII is read as text, with more units than it had. -/
theorem bodyUnits_escapeChar_escaped (hlow : 0x80 ≤ n) (hmax : n ≤ 0x10FFFF)
    (ht : bodyUnits t = some us) :
    ∃ vs, bodyUnits (92 :: (escapeChar false n ++ t)) = some vs ∧ us.length + 2 < vs.length := by
  obtain ⟨v, more, hv, he, hmore⟩ := escapeChar_beyond hlow hmax
  -- the escape of the second half, if there is one, is read as that half
  obtain ⟨ws, hws, hlength⟩ : ∃ ws, bodyUnits (more ++ t) = some ws ∧ us.length ≤ ws.length := by
    rcases hmore with rfl | ⟨w, hw, rfl⟩
    · exact ⟨us, ht, Nat.le_refl _⟩
    · refine ⟨w :: us, ?_, Nat.le_succ _⟩
      rw [List.cons_append, List.cons_append, bodyUnits_hex4 hw, ht, Option.map_some]
  -- the backslash is read as itself, and so are the letter and the digits behind it
  have hplain {p : Bytes} (hp : ∀ b ∈ p, b < 0x80 ∧ b ≠ 92) :
      ∃ vs, bodyUnits (p ++ (more ++ t)) = some vs ∧ vs.length = p.length + ws.length := by
    induction p with
    | nil => exact ⟨ws, hws, (Nat.zero_add _).symm⟩
    | cons b p ih =>
      obtain ⟨⟨hb, hback⟩, hp⟩ := List.forall_mem_cons.1 hp
      have hb : b.toNat < 0x80 := UInt8.lt_iff_toNat_lt.1 hb
      obtain ⟨vs, hvs, hlength⟩ := ih hp
      refine ⟨b.toNat :: vs, ?_, by rw [List.length_cons, List.length_cons]; omega⟩
      rw [List.cons_append, bodyUnits_cons hback, decode_one _ hb, units16_small (by omega)]
      exact congrArg (Option.map ([b.toNat] ++ ·)) hvs
  have hdigits : ∀ b ∈ 117 :: hex4 v, b < 0x80 ∧ b ≠ 92 :=
    List.forall_mem_cons.2 ⟨by decide, ascii_hex4 v⟩
  obtain ⟨vs, hvs, hlength'⟩ := hplain hdigits
  refine ⟨92 :: vs, ?_, ?_⟩
  · rw [he, List.cons_append, List.cons_append, List.append_assoc, bodyUnits_backslash]
    exact congrArg (Option.map ([92] ++ ·)) hvs
  · rw [List.length_cons, hlength', List.length_cons, hex4_length hv]
    omega

/-- No unit is lost where escapes begin beyond ASCII: there are more of them. -/
theorem bodyUnits_escapeText_length (h : bodyUnits s = some us) :
    ∃ vs, bodyUnits (escapeText false s) = some vs ∧ us.length ≤ vs.length ∧
      (¬PlainEscapes s → us.length < vs.length) := by
  induction hn : s.length using Nat.strong_induction_on generalizing s us with
  | _ n ih =>
    have hlength {b : UInt8} {r : Bytes} (hs : s = b :: r) := length_drop_lt (hs ▸ hn)
    cases s with
    | nil => exact ⟨us, h, Nat.le_refl _, fun hnot => absurd plainEscapes_nil hnot⟩
    | cons b r =>
      by_cases hb : b = 92
      · subst hb
        rw [bodyUnits_backslash] at h
        obtain ⟨e, he, h⟩ := Option.bind_eq_some_iff.1 h
        obtain ⟨us, hus, rfl⟩ := Option.map_eq_some_iff.1 h
        obtain ⟨vs, hvs, hle, hlt⟩ := ih _ (hlength rfl e.size) hus rfl
        cases r with
        | nil => cases he
        | cons c r =>
          by_cases hc : c < 0x80
          · obtain ⟨hread, hdrop⟩ := @escape?_escapeText c false r hc
            refine ⟨e.unit.toList.flatMap units16 ++ vs, ?_, ?_, fun hnot => ?_⟩
            · rw [escapeText_cons_ascii (by decide), escapeText_cons_ascii hc, bodyUnits_backslash,
                hread, he, Option.bind_some, hdrop e he, hvs, Option.map_some]
            · rw [List.length_append, List.length_append]
              exact Nat.add_le_add_left hle _
            · rw [List.length_append, List.length_append]
              refine Nat.add_lt_add_left (hlt fun hplain => hnot ?_) _
              exact plainEscapes_escape.2 ⟨hc, (plainEscapes_drop he).1 hplain⟩
          · -- at most two units, where now there are the backslash, the letter and the digits
            obtain ⟨hlow, hmax⟩ := decode_beyond hc r
            have hcons : escapeText false (92 :: c :: r) = 92 ::
                (escapeChar false (decode (c :: r)).1 ++
                  escapeText false ((c :: r).drop (decode (c :: r)).2)) := by
              obtain ⟨k, hk⟩ := Nat.exists_eq_add_of_lt (decode_pos c r)
              rw [escapeText_cons_ascii (by decide), escapeText_cons, hk]
              rfl
            obtain ⟨u, hu, hread⟩ := escape?_beyond hc r
            obtain rfl := Option.some.inj (he.symm.trans hread)
            dsimp only at hvs hle hlt ⊢
            have htwo : (u.toList.flatMap units16).length ≤ 2 := by
              cases u with
              | none => exact Nat.zero_le 2
              | some v =>
                rw [Option.toList_some, List.flatMap_singleton, units16]
                split
                · exact Nat.le_succ 1
                · exact Nat.le_refl 2
            obtain ⟨ws, hws, hlength⟩ := bodyUnits_escapeChar_escaped hlow hmax hvs
            refine ⟨ws, hcons ▸ hws, ?_, fun _ => ?_⟩ <;> rw [List.length_append] <;> omega
      · rw [bodyUnits_cons hb] at h
        obtain ⟨us, hus, rfl⟩ := Option.map_eq_some_iff.1 h
        obtain ⟨vs, hvs, hle, hlt⟩ := ih _ (hlength rfl _) hus rfl
        refine ⟨units16 (decode (b :: r)).1 ++ vs, ?_, ?_, fun hnot => ?_⟩
        · by_cases hlow : b < 0x80
          · have hone (r : Bytes) := decode_one r (UInt8.lt_iff_toNat_lt.1 hlow)
            rw [hone] at hvs ⊢
            rw [escapeText_cons_ascii hlow, bodyUnits_cons hb, hone]
            exact congrArg (Option.map (units16 b.toNat ++ ·)) hvs
          · obtain ⟨hchar, hmax⟩ := decode_beyond hlow r
            rw [escapeText_cons, bodyUnits_escapeChar hchar hmax, hvs, Option.map_some]
        · rw [List.length_append, List.length_append]
          exact Nat.add_le_add_left hle _
        · rw [List.length_append, List.length_append]
          exact Nat.add_lt_add_left
            (hlt fun hplain => hnot ((plainEscapes_character hb).2 hplain)) _

/-! ## Values -/

/-- A text whose value is kept in ASCII: no escape begins beyond ASCII, and a text without a
backslash is well-formed. -/
def KeepsInAscii (s : Bytes) : Prop := PlainEscapes s ∧ (isValid s = true ∨ 92 ∈ s)

instance (s : Bytes) : Decidable (KeepsInAscii s) := inferInstanceAs (Decidable (_ ∧ _))

theorem cook_ascii (hs : ∀ b ∈ s, b < 0x80) : (cook s).map sanitize = cook s :=
  cook_valid (Or.inl (isValid_ascii hs))

theorem cook_escapeText (h : KeepsInAscii s) : cook (escapeText m s) = cook s := by
  rw [← cook_ascii (ascii_escapeText m s), ← cook_valid h.2, cook_bodyUnits, cook_bodyUnits,
    bodyUnits_escapeText h.1]

/-- A value that is kept is that of a text whose value is always kept. -/
theorem keeps_of_cook_escapeText (hread : (cook s).isSome = true)
    (h : cook (escapeText false s) = cook s) : KeepsInAscii s := by
  have hvalid : (cook s).map sanitize = cook s := h ▸ cook_ascii (ascii_escapeText false s)
  constructor
  · obtain ⟨is, his⟩ := Option.isSome_iff_exists.1 ((cook_isSome s).1 hread)
    have hus : bodyUnits s = some (is.flatMap units16) :=
      congrArg (Option.map (List.flatMap units16)) his
    obtain ⟨vs, hvs, -, hlt⟩ := bodyUnits_escapeText_length hus
    have hlength := length_of_cook hus hvs (congrArg (Option.map sanitize) h.symm)
    exact Decidable.byContradiction fun hnot => Nat.ne_of_lt (hlt hnot) hlength
  · by_cases hback : 92 ∈ s
    · exact Or.inr hback
    · -- the text is its own value
      have hself : cook s = some s := if_neg fun hmem => hback (List.mem_of_elem_eq_true hmem)
      rw [hself] at hvalid
      exact Or.inl (Option.some.inj hvalid ▸ isValid_sanitize s)

/-! ## Quotes -/

theorem escapeText_append_ascii (hq : b < 0x80) (s : Bytes) :
    escapeText m (s ++ [b]) = escapeText m s ++ [b] := by
  have hq : b.toNat < 0x80 := UInt8.lt_iff_toNat_lt.1 hq
  rw [escapeText, codePoints, chars_append_ascii hq, List.map_append, List.flatMap_append]
  refine congrArg (escapeText m s ++ ·) ?_
  rw [List.map_singleton, List.flatMap_singleton, escapeChar_ascii hq, toUInt8_eq rfl]

theorem plainEscapes_append_ascii (hq : b < 0x80) (s : Bytes) :
    PlainEscapes (s ++ [b]) ↔ PlainEscapes s := by
  fun_induction escapeTexts s with
  | case1 c r ih =>
    rw [List.cons_append, List.cons_append, plainEscapes_escape, plainEscapes_escape, ih]
  | case2 c r hne ih =>
    by_cases hc : c = 92
    · subst hc
      cases r with
      | nil =>
        exact iff_of_true (plainEscapes_escape.2 ⟨hq, plainEscapes_nil⟩) (List.forall_mem_nil _)
      | cons d r => exact absurd rfl (hne d r rfl)
    · rw [List.cons_append, PlainEscapes, PlainEscapes, escapeTexts_cons hc, escapeTexts_cons hc]
      exact ih
  | case3 =>
    by_cases hb : b = 92
    · subst hb
      exact iff_of_true (List.forall_mem_nil _) plainEscapes_nil
    · rw [List.nil_append, PlainEscapes, escapeTexts_cons hb, PlainEscapes]

/-- Quotes keep the value of what stands between them. -/
theorem keeps_quoted {q : UInt8} (hq : q = 34 ∨ q = 39) (s : Bytes) :
    KeepsInAscii (q :: s ++ [q]) ↔ KeepsInAscii s := by
  have hlow : q < 0x80 := by
    rcases hq with rfl | rfl <;> decide
  have hback : q ≠ 92 := by
    rcases hq with rfl | rfl <;> decide
  have hplain : PlainEscapes (q :: s ++ [q]) ↔ PlainEscapes s := by
    rw [List.cons_append, PlainEscapes, escapeTexts_cons hback]
    exact plainEscapes_append_ascii hlow s
  have hvalid : isValid (q :: s ++ [q]) = isValid s := by
    have hone : q.toNat < 0x80 := UInt8.lt_iff_toNat_lt.1 hlow
    have hnot : (q.toNat == replacement) = false := by
      rcases hq with rfl | rfl <;> rfl
    rw [isValid, List.cons_append, chars_cons, decode_one _ hone, List.all_cons]
    show (_ && (chars (s ++ [q])).all _) = _
    rw [chars_append_ascii hone, List.all_append, List.all_cons, List.all_nil]
    show (!(_ && _) && (_ && (!(_ && _) && true))) = _
    rw [hnot, isValid]
    simp
  have hmem : 92 ∈ q :: s ++ [q] ↔ 92 ∈ s := by simp [Ne.symm hback]
  rw [KeepsInAscii, hplain, hvalid, hmem, KeepsInAscii]

/-- A string is read as a string again, with what is printed for its body. -/
theorem escapeText_quoted {q : UInt8} (hq : q = 34 ∨ q = 39) (s : Bytes) :
    escapeText m (q :: s ++ [q]) = q :: escapeText m s ++ [q] := by
  have hlow : q < 0x80 := by
    rcases hq with rfl | rfl <;> decide
  rw [List.cons_append, escapeText_cons_ascii hlow, escapeText_append_ascii hlow, List.cons_append]

end

end ScriptLower.Print

/-! ## Names -/

namespace ScriptLower.Lexeme

open ScriptLower StringLiteral Utf8 Print

section

variable {b : UInt8} {m n skip : Nat} {first escaped escaped' strict : Bool} {e r s : Bytes}

/-- A Unicode escape is ASCII, and no further one is in it. -/
theorem ascii_of_wellFormed (he : WellFormed e) (h : e.head? = some 117) :
    ∀ b ∈ e, b < 0x80 ∧ b ≠ 92 := by
  have hdigits {ds : Bytes} (hds : ∀ d ∈ ds, Bytes.isHexDigit d = true) :
      ∀ d ∈ ds, d < 0x80 ∧ d ≠ 92 :=
    fun d hd => ascii_of_isHexDigit (hds d hd)
  cases he with
  | plain hx hu hp => exact absurd (Option.some.inj h) hu
  | hex hds => exact absurd (Option.some.inj h) (by decide)
  | unicode hds => exact List.forall_mem_cons.2 ⟨by decide, hdigits hds⟩
  | braced hds =>
    refine List.forall_mem_cons.2 ⟨by decide, List.forall_mem_cons.2 ⟨by decide, ?_⟩⟩
    exact List.forall_mem_append.2 ⟨hdigits hds, by decide⟩

/-- What is walked over as a name is made of characters and Unicode escapes. -/
theorem nameFrom_keeps (h : nameFrom first skip n escaped s = (.done, m, escaped')) :
    ∃ body rest, s.drop skip = body ++ rest ∧ m = n + body.length ∧
      PlainEscapes body ∧ isValid body = true := by
  -- a character stands in front of what follows it
  have hfront {p body : Bytes} (hp : 92 ∉ p) (hvalid : isValid p = true)
      (hbody : PlainEscapes body ∧ isValid body = true) :
      PlainEscapes (p ++ body) ∧ isValid (p ++ body) = true :=
    ⟨(plainEscapes_append hp).2 hbody.1, isValid_append hvalid hbody.2⟩
  fun_induction nameFrom first skip n escaped s with
  | case1 first skip n escaped =>
    cases h
    exact ⟨[], [], List.drop_nil, rfl, plainEscapes_nil, rfl⟩
  | case2 first n escaped b r k ih => exact ih h
  | case3 first n escaped b r hb size hesc ih =>
    obtain rfl := eq_of_beq hb
    obtain ⟨body, rest, hdrop, rfl, hplain, hvalid⟩ := ih h
    obtain ⟨e, t, rfl, rfl, he, hhead⟩ := unicodeEscape_wellFormed hesc
    rw [Nat.add_sub_cancel, List.drop_left] at hdrop
    subst hdrop
    have hascii := ascii_of_wellFormed he hhead
    obtain ⟨r, rfl⟩ := List.head?_eq_some_iff.1 hhead
    obtain ⟨hbody, hbodyValid⟩ :=
      hfront (fun hmem => (hascii 92 (List.mem_cons_of_mem _ hmem)).2 rfl)
      (isValid_ascii fun b hb => (hascii b (List.mem_cons_of_mem _ hb)).1) ⟨hplain, hvalid⟩
    refine ⟨92 :: 117 :: (r ++ body), rest, by simp, by simp; omega,
      plainEscapes_escape.2 ⟨by decide, hbody⟩, ?_⟩
    exact isValid_append (s := [92, 117]) (by decide) hbodyValid
  | case4 first n escaped b r hb size hesc => cases h
  | case5 first n escaped b r hb hlow hpart ih =>
    obtain ⟨body, rest, hdrop, rfl, hbody⟩ := ih h
    have hback : 92 ∉ [b] := fun hmem => hb (beq_iff_eq.2 (List.mem_singleton.1 hmem).symm)
    refine ⟨b :: body, rest, congrArg (b :: ·) hdrop, by rw [List.length_cons]; omega, ?_⟩
    exact hfront hback (isValid_ascii (List.forall_mem_singleton.2 hlow)) hbody
  | case6 first n escaped b r hb hlow hpart =>
    cases h
    exact ⟨[], b :: r, rfl, rfl, plainEscapes_nil, rfl⟩
  | case7 first n escaped b r hb hlow c size hdecode hpart ih =>
    obtain ⟨body, rest, hdrop, rfl, hbody⟩ := ih h
    have hreplacement : CharClass.isNamePart replacement = false := by decide +kernel
    have hpart : CharClass.isNamePart c = true := by
      split at hpart
      · exact isNamePart_of_isNameStart hpart
      · exact hpart
    -- what cannot be read is no part of a name
    obtain ⟨d, t, hd, he⟩ := @exists_character b r fun hbad => by
      rw [← (Prod.mk.inj (hdecode.symm.trans hbad)).1, hpart] at hreplacement
      cases hreplacement
    obtain ⟨x, u, hu, -⟩ := head_encode d
    have htail := encode_tail (c := d)
    rw [he, decode_encode hd] at hdecode
    obtain ⟨rfl, rfl⟩ := Prod.mk.inj hdecode
    rw [hu, List.cons_append] at he
    obtain ⟨rfl, rfl⟩ := List.cons.inj he
    rw [hu, List.length_cons, Nat.add_sub_cancel, List.drop_left] at hdrop
    subst hdrop
    have hback : 92 ∉ encode d := by
      rw [hu] at htail ⊢
      refine fun hmem => (List.mem_cons.1 hmem).elim (fun h => hb (beq_iff_eq.2 h.symm))
        fun hmem => ?_
      exact absurd (htail 92 hmem) (by decide)
    have hvalid : isValid (encode d) = true := by
      have hone := isValid_ofCodePoints (List.forall_mem_singleton.2 hd)
      rwa [ofCodePoints_cons, ofCodePoints_nil, List.append_nil] at hone
    refine ⟨encode d ++ body, rest, ?_, ?_, hfront hback hvalid hbody⟩
    · rw [hu, List.drop_zero, List.cons_append, List.cons_append, List.append_assoc]
    · rw [List.length_append, Nat.add_assoc]
  | case8 => cases h
  | case9 first n escaped b r hb hlow =>
    cases h
    exact ⟨[], b :: r, rfl, rfl, plainEscapes_nil, rfl⟩

/-- A name without a fault is kept. -/
theorem name_keeps (h : (name s).faults = []) : KeepsInAscii (s.take (name s).size) := by
  have hkeeps {n : Nat} {escaped : Bool} (hrun : nameFrom true 0 0 false s = (.done, n, escaped)) :
      KeepsInAscii (s.take n) := by
    obtain ⟨body, rest, hs, rfl, hplain, hvalid⟩ := nameFrom_keeps hrun
    rw [List.drop_zero] at hs
    rw [hs, Nat.zero_add, List.take_left]
    exact ⟨hplain, Or.inl hvalid⟩
  unfold name at h ⊢
  split at h <;> rename_i hrun
  · exact hkeeps hrun
  · exact hkeeps hrun
  · cases h
  · cases h

/-- A name is read where one may begin. -/
theorem next_name (h : (next strict s).kind.isPropertyName = true) : next strict s = name s := by
  cases s with
  | nil => cases h
  | cons b r =>
    unfold next at h ⊢
    dsimp only at h ⊢
    split at h
    · rename_i hb
      exact if_pos hb
    split at h
    · rcases number_kind strict (b :: r) with hk | hk <;> rw [hk] at h <;> cases h
    split at h
    · rcases string_kind strict (b :: r) with hk | hk <;> rw [hk] at h <;> cases h
    split at h
    · rcases template_head_kind (b :: r) with hk | hk | hk <;> rw [hk] at h <;> cases h
    split at h
    · rcases privateName_kind (b :: r) with hk | hk <;> rw [hk] at h <;> cases h
    · rw [(mark_heads b r).2.2.1] at h
      cases h

/-- A private name is read at a hash sign. -/
theorem next_privateName (h : (next strict s).kind = .privateName) :
    ∃ r, s = 35 :: r ∧ next strict s = privateName s := by
  cases s with
  | nil => cases h
  | cons b r =>
    unfold next at h ⊢
    dsimp only at h ⊢
    split at h
    · rcases name_kind (b :: r) with hk | hk <;> rw [h] at hk <;> cases hk
    split at h
    · rcases number_kind strict (b :: r) with hk | hk <;> rw [h] at hk <;> cases hk
    split at h
    · rcases string_kind strict (b :: r) with hk | hk <;> rw [h] at hk <;> cases hk
    split at h
    · rcases template_head_kind (b :: r) with hk | hk | hk <;> rw [h] at hk <;> cases hk
    split at h
    · rename_i hname hnumber hstring htemplate hb
      refine ⟨r, by rw [eq_of_beq hb], ?_⟩
      rw [if_neg hname, if_neg hnumber, if_neg hstring, if_neg htemplate, if_pos hb]
    · exact absurd h (mark_heads b r).2.2.2.2

/-- A name of any kind that is read without a fault is kept. -/
theorem next_keeps (h :
      (next strict s).kind.isPropertyName = true ∨ (next strict s).kind = .privateName)
    (hf : (next strict s).faults = []) : KeepsInAscii (s.take (next strict s).size) := by
  rcases h with h | h
  · rw [next_name h] at hf ⊢
    exact name_keeps hf
  · obtain ⟨r, rfl, hnext⟩ := next_privateName h
    rw [hnext] at h hf ⊢
    unfold privateName at h hf ⊢
    dsimp only at h hf ⊢
    split at h
    · cases h
    · rename_i hstart
      rw [if_neg hstart] at hf ⊢
      obtain ⟨hplain, hread⟩ := name_keeps (List.map_eq_nil_iff.1 hf)
      have hhash : 92 ∉ ([35] : Bytes) := by decide
      refine ⟨(plainEscapes_append hhash).2 hplain,
        hread.imp (isValid_append (s := [35]) (by decide)) ?_⟩
      exact List.mem_cons_of_mem 35

end

end ScriptLower.Lexeme

/-! ## Accepted tokens -/

namespace ScriptLower.Print

open ScriptLower StringLiteral

/-- A token without a fault is what the readers take of the text at its place. -/
theorem next_lexeme {lx lx' : Lexer} {t : Token} (hheld : lx.held = none)
    (h : lx.next = (t, lx', [])) : ∃ strict s, (Lexeme.next strict s).faults = [] ∧
      t.kind = (Lexeme.next strict s).kind ∧ t.text = s.take (Lexeme.next strict s).size := by
  unfold Lexer.next at h
  rw [hheld] at h
  unfold Lexer.scan at h
  dsimp only at h
  generalize Lexer.placeTrivia lx (TriviaRun.pieces (lx.offset == 0) lx.rest) = placed at h
  obtain ⟨leading, at_, faults⟩ := placed
  simp only [Lexer.accept, Prod.mk.injEq, List.append_eq_nil_iff, Lexer.diagnose,
    List.map_eq_nil_iff] at h
  obtain ⟨rfl, -, -, hfaults⟩ := h
  exact ⟨_, _, hfaults, rfl, rfl⟩

/-- **Printing in ASCII keeps values**, unless an escape begins beyond ASCII. Whatever is printed is
ASCII. The body of a string or a template that can be read keeps its value if and only if it is
kept, and so does a string without a fault as a whole. A name or private name without a fault is
always kept. -/
theorem ascii_keeps_values (s : Bytes) (lx lx' : Lexer) (t : Token) :
    ((∀ b ∈ literalText true s, b < 0x80) ∧ ∀ b ∈ nameText true s, b < 0x80) ∧
    (KeepsInAscii s → cook (literalText true s) = cook s) ∧
    ((cook s).isSome = true → cook (literalText true s) = cook s → KeepsInAscii s) ∧
    (lx.held = none → lx.next = (t, lx', []) →
      (t.kind = .stringLit →
        (KeepsInAscii t.text → unquote (literalText true t.text) = unquote t.text) ∧
        ((unquote t.text).isSome = true → unquote (literalText true t.text) = unquote t.text →
          KeepsInAscii t.text)) ∧
      (t.kind.isPropertyName = true ∨ t.kind = .privateName →
        KeepsInAscii t.text ∧ cook (nameText true t.text) = cook t.text)) := by
  refine ⟨⟨ascii_escapeText false s, ascii_escapeText true s⟩, cook_escapeText,
    keeps_of_cook_escapeText, fun hheld h => ?_⟩
  obtain ⟨strict, s, hfaults, hkind, htext⟩ := next_lexeme hheld h
  rw [hkind, htext]
  constructor
  · intro hstring
    obtain ⟨q, body, hq, hbody, -⟩ := Lexeme.next_quoted hstring hfaults
    have hprinted : literalText true (q :: body ++ [q]) = q :: literalText true body ++ [q] :=
      escapeText_quoted hq body
    rw [hbody, hprinted, unquote_quoted hq, unquote_quoted hq, keeps_quoted hq]
    exact ⟨cook_escapeText, keeps_of_cook_escapeText⟩
  · intro hname
    have hkeeps := Lexeme.next_keeps hname hfaults
    exact ⟨hkeeps, cook_escapeText hkeeps⟩

/-- A letter beyond ASCII is printed as an escape, and the string keeps its value. -/
theorem escaped_string_keeps_value :
    let lx : Lexer := { file := { content := "'é'" } }
    ∃ t lx', lx.next = (t, lx', []) ∧ t.kind = .stringLit ∧ KeepsInAscii t.text ∧
      literalText true t.text = Bytes.ofString "'\\u00E9'" ∧
      unquote (literalText true t.text) = unquote t.text := by
  intro lx
  obtain ⟨t, lx', hnext, hkind, hkeeps, hprinted⟩ : ∃ t lx', lx.next = (t, lx', []) ∧
      t.kind = .stringLit ∧ KeepsInAscii t.text ∧
      literalText true t.text = Bytes.ofString "'\\u00E9'" :=
    ⟨_, _, rfl, rfl, by decide, rfl⟩
  have hvalues := (ascii_keeps_values t.text lx lx' t).2.2.2 rfl hnext
  exact ⟨t, lx', hnext, hkind, hkeeps, hprinted, (hvalues.1 hkind).1 hkeeps⟩

/-- An escape that begins beyond ASCII does not keep its value: the backslash is read with the one
that is put behind it. -/
theorem escaped_letter_loses_value :
    let lx : Lexer := { file := { content := "'\\é'" } }
    ∃ t lx', lx.next = (t, lx', []) ∧ t.kind = .stringLit ∧
      unquote t.text = some (Bytes.ofString "é") ∧
      unquote (literalText true t.text) = some (Bytes.ofString "\\u00E9") ∧
        ¬KeepsInAscii t.text := by
  intro lx
  exact ⟨_, _, rfl, rfl, rfl, rfl, by decide⟩

end ScriptLower.Print

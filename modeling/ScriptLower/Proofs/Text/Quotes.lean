import ScriptLower.Proofs.Text.StringValues

/-!
# Literals that keep their units

A body is exact when it is valid and no half in it belongs to no pair. Its value then has the units
that are read of it, nothing replaced. What a string value is written as is exact, and its value is
that string (`cook_quoted`): each character is written as itself or as an escape that stands for it
alone.
-/

namespace ScriptLower.StringLiteral

open Utf8

/-! ## Units of a body -/

/-- The UTF-16 units that a body stands for. -/
def bodyUnits (body : Bytes) : Option (List Nat) :=
  (unitsFrom 0 body).map fun is => is.flatMap units16

/-- A valid body that can be read, in which every half belongs to a pair. -/
structure Exact (body : Bytes) : Prop where
  /-- The body is a text. -/
  valid : isValid body = true
  /-- What is read of it loses nothing when halves are joined. -/
  read : ∃ is, unitsFrom 0 body = some is ∧ (∀ i ∈ is, i ≤ 0x10FFFF) ∧
    wellFormed16 (is.flatMap units16) = is.flatMap units16

/-- The value of an exact body has its units. -/
theorem Exact.cook {body : Bytes} (h : Exact body) :
    ∃ t, cook body = some t ∧ isValid t = true ∧ bodyUnits body = some (text16 t) := by
  obtain ⟨hvalid, is, hread, hmax, hwhole⟩ := h
  obtain ⟨cs, hcs, rfl⟩ := exists_ofCodePoints hvalid
  obtain ⟨hchars, hunits⟩ := units16_joinUnits hmax
  refine ⟨ofCodePoints (joinUnits is), ?_, isValid_ofCodePoints hchars, ?_⟩
  · rw [cook_ofCodePoints hcs, hread, Option.map_some]
  · rw [bodyUnits, hread, Option.map_some, text16, codePoints_ofCodePoints hchars, hunits, hwhole]

/-- A body between quotes is what is cooked of a literal. -/
theorem unquote_quoted {q : UInt8} (hq : q = 34 ∨ q = 39) (body : Bytes) :
    unquote (q :: body ++ [q]) = cook body := by
  have hquoted :
      (!(body ++ [q]).isEmpty && (body ++ [q]).getLast? == some q && (q == 34 || q == 39)) =
      true := by
    rcases hq with rfl | rfl <;> simp
  exact (if_pos hquoted).trans (congrArg cook List.dropLast_concat)

/-- Characters have no halves. -/
theorem wellFormed16_units16 {cs : List Nat} (h : ∀ c ∈ cs, IsCharacter c) :
    wellFormed16 (cs.flatMap units16) = cs.flatMap units16 := by
  obtain ⟨-, hunits⟩ := units16_joinUnits fun c hc => (isCharacter_iff.1 (h c hc)).2
  rw [← hunits, joinUnits_characters h]

/-! ## Writing -/

/-- The hexadecimal digit of a value. -/
def hexDigit (v : Nat) : Nat := if v < 10 then 48 + v else 55 + v

theorem hexValue?_hexDigit {v : Nat} (h : v < 16) : hexValue? (hexDigit v) = some v :=
  (by decide : ∀ v < 16, hexValue? (hexDigit v) = some v) v h

/-- The escape of a control character is two hexadecimal digits. -/
theorem escape_control {c : Nat} (h : c < 0x20 ∨ c = 0x7F) :
    (ascii '\\' :: ascii 'x' :: (if c < 0x10 then [ascii '0'] else []) ++
      (Nat.toDigits 16 c).map fun d => ascii d.toUpper) =
      ofCodePoints (92 :: 120 :: [hexDigit (c / 16), hexDigit (c % 16)]) :=
  (by decide : ∀ c < 0x80, c < 0x20 ∨ c = 0x7F →
    (ascii '\\' :: ascii 'x' :: (if c < 0x10 then [ascii '0'] else []) ++
      (Nat.toDigits 16 c).map fun d => ascii d.toUpper) =
      ofCodePoints (92 :: 120 :: [hexDigit (c / 16), hexDigit (c % 16)])) c (by omega) h

/-- A text is an escape that stands for a character. -/
def Escapes (c : Nat) (s : Bytes) : Prop :=
  ∃ e, s = ofCodePoints (92 :: e) ∧ (∀ x ∈ e, IsCharacter x) ∧ ∀ rest, EscapeValue e rest [c]

theorem escapes_single {c x : Nat} (hx : (x, c) ∈ singleEscapes) :
    Escapes c (ofCodePoints [92, x]) := by
  have hchar := (by decide : ∀ p ∈ singleEscapes, IsCharacter p.1) _ hx
  exact ⟨[x], rfl, List.forall_mem_singleton.2 hchar, fun _ => .single hx⟩

theorem escapes_control {c : Nat} (h : c < 0x20 ∨ c = 0x7F) :
    Escapes c (ofCodePoints (92 :: 120 :: [hexDigit (c / 16), hexDigit (c % 16)])) := by
  have hvalue : hexNumber [c / 16, c % 16] = c := by
    show (0 * 16 + c / 16) * 16 + c % 16 = c
    omega
  have hvalues :
      [hexDigit (c / 16), hexDigit (c % 16)].map hexValue? = [c / 16, c % 16].map some := by
    rw [List.map_cons, List.map_cons, hexValue?_hexDigit (by omega), hexValue?_hexDigit (by omega)]
    rfl
  have hdigit (v : Nat) (hv : v < 16) : IsCharacter (hexDigit v) :=
    (by decide : ∀ v < 16, IsCharacter (hexDigit v)) v hv
  refine ⟨_, rfl, ?_, fun rest => ?_⟩
  · rw [List.forall_mem_cons, List.forall_mem_cons, List.forall_mem_singleton]
    exact ⟨by decide, hdigit _ (by omega), hdigit _ (by omega)⟩
  · have hread := @EscapeValue.hex _ _ rest hvalues rfl
    rwa [hvalue] at hread

/-- The characters that are escaped by themselves are the quotes and the backslash. -/
theorem escaped_cases {q : UInt8} {c : Nat} (hq : q = 34 ∨ q = 39)
    (h : (c == q.toNat || c == 92) = true) : c = 34 ∨ c = 39 ∨ c = 92 := by
  have hself : c = q.toNat ∨ c = 92 := by simpa using h
  rcases hself with rfl | rfl
  · rcases hq with rfl | rfl <;> decide
  · decide

/-- A character is written as itself or as an escape that stands for it. -/
theorem escape_cases {q : UInt8} (hq : q = 34 ∨ q = 39) (c : Nat) :
    (c ≠ 92 ∧ escape q c = encode c) ∨ Escapes c (escape q c) := by
  unfold escape
  split
  · rename_i hself
    right
    rcases escaped_cases hq hself with rfl | rfl | rfl
    · exact escapes_single (x := 34) (by decide)
    · exact escapes_single (x := 39) (by decide)
    · exact escapes_single (x := 92) (by decide)
  rename_i hself
  have hback : c ≠ 92 := by
    rintro rfl
    simp at hself
  split
  · exact Or.inr (escapes_single (x := 110) (by decide))
  · exact Or.inr (escapes_single (x := 114) (by decide))
  · exact Or.inr (escapes_single (x := 116) (by decide))
  · exact Or.inr (escapes_single (x := 98) (by decide))
  · exact Or.inr (escapes_single (x := 102) (by decide))
  · exact Or.inr (escapes_single (x := 118) (by decide))
  · exact Or.inr ⟨[117, 50, 48, 50, 56], rfl, by decide, fun _ =>
      @EscapeValue.unicode _ [2, 0, 2, 8] _ rfl rfl⟩
  · exact Or.inr ⟨[117, 50, 48, 50, 57], rfl, by decide, fun _ =>
      @EscapeValue.unicode _ [2, 0, 2, 9] _ rfl rfl⟩
  · split
    · rename_i hcontrol
      have hcontrol : c < 0x20 ∨ c = 0x7F := by simpa using hcontrol
      rw [escape_control hcontrol]
      exact Or.inr (escapes_control hcontrol)
    · exact Or.inl ⟨hback, rfl⟩

/-- An escape that stands for one unit is read as that unit. -/
theorem EscapeRead.unit {e rest : List Nat} {c : Nat} (h : EscapeRead e rest [c]) :
    unitsFrom 0 (ofCodePoints (92 :: e ++ rest)) =
    (unitsFrom 0 (ofCodePoints rest)).map (c :: ·) := by
  obtain ⟨u, hread, hunits, hmax⟩ := unitsFrom_escape h
  cases u with
  | none => cases hunits
  | some i =>
    have hunit : units16 i = [c] := by simpa using hunits
    by_cases hsmall : i < 0x10000
    · rw [units16_small hsmall] at hunit
      cases hunit
      exact hread
    · obtain ⟨x, y, hpair, -⟩ := units16_large (by omega) (hmax i rfl)
      rw [hpair] at hunit
      cases hunit

/-- What characters are written as is characters again, and is read as the ones that were
written. -/
theorem unitsFrom_escaped {q : UInt8} (hq : q = 34 ∨ q = 39) {cs : List Nat}
    (h : ∀ c ∈ cs, IsCharacter c) :
    ∃ ds, (∀ d ∈ ds, IsCharacter d) ∧ cs.flatMap (escape q) = ofCodePoints ds ∧
      unitsFrom 0 (ofCodePoints ds) = some cs := by
  induction cs with
  | nil => exact ⟨[], List.forall_mem_nil _, rfl, rfl⟩
  | cons c cs ih =>
    obtain ⟨hc, hcs⟩ := List.forall_mem_cons.1 h
    obtain ⟨ds, hds, hwritten, hread⟩ := ih hcs
    rw [List.flatMap_cons, hwritten]
    rcases escape_cases hq c with ⟨hb, he⟩ | ⟨e, he, hchars, hvalue⟩
    · refine ⟨c :: ds, List.forall_mem_cons.2 ⟨hc, hds⟩, by rw [he, ofCodePoints_cons], ?_⟩
      rw [unitsFrom_character hc hb, hread, Option.map_some]
    · have hall : ∀ x ∈ (92 :: e), IsCharacter x := List.forall_mem_cons.2 ⟨by decide, hchars⟩
      refine ⟨92 :: e ++ ds, List.forall_mem_append.2 ⟨hall, hds⟩, ?_, ?_⟩
      · rw [he, ofCodePoints_append]
      · rw [((hvalue ds).read hchars).unit, hread, Option.map_some]

/-- A string value is written as a quoted exact body whose value it is. -/
theorem quote_exact {q : UInt8} (hq : q = 34 ∨ q = 39) {s : Bytes} (hs : isValid s = true) :
    ∃ body, quote s q = q :: body ++ [q] ∧ Exact body ∧ cook body = some s := by
  obtain ⟨cs, hcs, rfl⟩ := exists_ofCodePoints hs
  obtain ⟨ds, hds, hwritten, hread⟩ := unitsFrom_escaped hq hcs
  refine ⟨ofCodePoints ds, ?_,
    ⟨isValid_ofCodePoints hds, cs, hread, ?_, wellFormed16_units16 hcs⟩, ?_⟩
  · rw [quote, codePoints_ofCodePoints hcs, hwritten]
  · exact fun c hc => (isCharacter_iff.1 (hcs c hc)).2
  · rw [cook_ofCodePoints hds, hread, Option.map_some, joinUnits_characters hcs]

end ScriptLower.StringLiteral

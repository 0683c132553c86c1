import ScriptLower.Proofs.Print.Words
import ScriptLower.Proofs.Text.Utf8
import ScriptLower.Proofs.Token.Place

/-!
# A written text as a stream of words

A text that is written of names, reserved words and a few marks is read word by word, whatever
blanks and line ends stand between them: a lexer in front of such a text gives the first word and
stands in front of the rest.

A name need not be ASCII. What is used of its characters is that none of them is a blank, a line end
or a byte of a mark.
-/

namespace ScriptLower

open Lexeme Utf8

/-! ## Names -/

/-- A text that is a name or a reserved word, spelled without escapes. -/
structure IsSpelled (x : Bytes) : Prop where
  /-- It is well-formed. -/
  valid : isValid x = true
  /-- It begins with a name start, and name parts follow. -/
  name : StringLiteral.isName x = true

instance (x : Bytes) : Decidable (IsSpelled x) :=
  decidable_of_iff (isValid x = true ∧ StringLiteral.isName x = true)
    ⟨fun h => ⟨h.1, h.2⟩, fun h => ⟨h.1, h.2⟩⟩

section

variable {c : Nat} {cs : List Nat} {x r : Bytes} {b : UInt8}

/-- A name is a name start and name parts, each a character. -/
theorem IsSpelled.characters (h : IsSpelled x) : ∃ c cs, x = ofCodePoints (c :: cs) ∧
    (∀ d ∈ c :: cs, IsCharacter d) ∧ CharClass.isNameStart c = true ∧
      ∀ d ∈ cs, CharClass.isNamePart d = true := by
  obtain ⟨cs, hcs, rfl⟩ := exists_ofCodePoints h.valid
  have hname := h.name
  rw [StringLiteral.isName, codePoints_ofCodePoints hcs] at hname
  cases cs with
  | nil => cases hname
  | cons c cs =>
    obtain ⟨hstart, hparts⟩ := Bool.and_eq_true_iff.1 hname
    exact ⟨c, cs, rfl, hcs, hstart, List.all_eq_true.1 hparts⟩

/-- The bytes of a character beyond ASCII are beyond ASCII. -/
theorem encode_high (h : IsCharacter c) (hc : 0x80 ≤ c) : ∀ b ∈ encode c, 0x80 ≤ b := by
  have hhigh {n : Nat} (hn : 0x80 ≤ n ∧ n < 256) : 0x80 ≤ n.toUInt8 := by
    rw [UInt8.le_iff_toNat_le, toNat_toUInt8 hn.2]
    exact hn.1
  unfold IsCharacter at h
  by_cases h2 : c < 0x800
  · rw [encode_two hc h2]
    exact List.forall_mem_cons.2 ⟨hhigh (by omega), List.forall_mem_singleton.2 (hhigh (by omega))⟩
  by_cases h3 : c < 0x10000
  · rw [encode_three h (by omega) h3]
    exact List.forall_mem_cons.2 ⟨hhigh (by omega), List.forall_mem_cons.2 ⟨hhigh (by omega),
      List.forall_mem_singleton.2 (hhigh (by omega))⟩⟩
  · rw [encode_four h (by omega)]
    exact List.forall_mem_cons.2 ⟨hhigh (by omega), List.forall_mem_cons.2 ⟨hhigh (by omega),
      List.forall_mem_cons.2 ⟨hhigh (by omega), List.forall_mem_singleton.2 (hhigh (by omega))⟩⟩⟩

theorem isNamePartByte_of_char (h : c < 0x80) (hpart : CharClass.isNamePart c = true) :
    isNamePartByte c.toUInt8 = true ∧ c.toUInt8 ≠ 92 := by
  have hnat : c.toUInt8.toNat = c := toNat_toUInt8 (by omega)
  simp only [CharClass.isNamePart, CharClass.isNameStart, h, if_true, Bool.or_eq_true,
    Bool.and_eq_true,
    beq_iff_eq, decide_eq_true_eq] at hpart
  simp only [isNamePartByte, isNameStartByte, Bytes.isAlpha, Bytes.isDigit, Bool.or_eq_true,
    Bool.and_eq_true, beq_iff_eq, decide_eq_true_eq, UInt8.le_iff_toNat_le, ← UInt8.toNat_inj, hnat,
    UInt8.reduceToNat, ne_eq]
  omega

theorem isNameStartByte_of_char (h : c < 0x80) (hstart : CharClass.isNameStart c = true) :
    isNameStartByte c.toUInt8 = true := by
  have hnat : c.toUInt8.toNat = c := toNat_toUInt8 (by omega)
  simp only [CharClass.isNameStart, h, if_true, Bool.or_eq_true, Bool.and_eq_true, beq_iff_eq,
    decide_eq_true_eq] at hstart
  simp only [isNameStartByte, Bytes.isAlpha, Bool.or_eq_true, Bool.and_eq_true, beq_iff_eq,
    decide_eq_true_eq, UInt8.le_iff_toNat_le, ← UInt8.toNat_inj, hnat, UInt8.reduceToNat]
  omega

/-- A byte of a name is a byte of a word, and opens no escape. -/
theorem isWordByte_of_part (h : IsCharacter c) (hpart : CharClass.isNamePart c = true) :
    ∀ b ∈ encode c, Writer.isWordByte b = true ∧ b ≠ 92 := by
  by_cases hc : c < 0x80
  · rw [encode_ascii hc]
    obtain ⟨hbyte, hslash⟩ := isNamePartByte_of_char hc hpart
    refine List.forall_mem_singleton.2 ⟨?_, hslash⟩
    cases hword : Writer.isWordByte c.toUInt8 with
    | true => rfl
    | false => exact absurd hbyte (Bool.eq_false_iff.1 (endsWord_of_not hword).part)
  · intro b hb
    have hhigh := encode_high h (by omega) b hb
    refine ⟨by simp [Writer.isWordByte, hhigh], ?_⟩
    rintro rfl
    exact absurd hhigh (by decide)

theorem IsSpelled.bytes (h : IsSpelled x) : ∀ b ∈ x, Writer.isWordByte b = true ∧ b ≠ 92 := by
  obtain ⟨c, cs, rfl, hchars, hstart, hparts⟩ := h.characters
  intro b hb
  obtain ⟨d, hd, hb⟩ := List.mem_flatMap.1 hb
  refine isWordByte_of_part (hchars d hd) ?_ b hb
  rcases List.mem_cons.1 hd with rfl | hd
  · exact isNamePart_of_isNameStart hstart
  · exact hparts d hd

theorem IsSpelled.ne_nil (h : IsSpelled x) : x ≠ [] := by
  rintro rfl
  exact absurd h.name (by decide)

/-- A name ends in a byte of a name. -/
theorem IsSpelled.endsInName (h : IsSpelled x) : x.endsInName = true := by
  rw [Bytes.endsInName, List.getLast?_eq_some_getLast h.ne_nil]
  exact (h.bytes _ (List.getLast_mem h.ne_nil)).1

/-- A character of a name is walked over. -/
theorem nameFrom_char (first : Bool) (h : IsCharacter c)
    (hpart : (if first then CharClass.isNameStart c else CharClass.isNamePart c) = true) (n : Nat) :
    nameFrom first 0 n false (encode c ++ r) =
    nameFrom false 0 (n + (encode c).length) false r := by
  have hskip (k n : Nat) (s t : Bytes) (hs : s.length = k) :
      nameFrom false k n false (s ++ t) = nameFrom false 0 n false t := by
    induction k generalizing s with
    | zero => rw [List.eq_nil_of_length_eq_zero hs, List.nil_append]
    | succ k ih =>
      cases s with
      | nil => cases hs
      | cons b s => exact ih s (Nat.succ.inj hs)
  have hany : CharClass.isNamePart c = true := by
    cases first with
    | true => exact isNamePart_of_isNameStart hpart
    | false => exact hpart
  by_cases hc : c < 0x80
  · have hslash := (isNamePartByte_of_char hc hany).2
    have hbyte :
        (if first then isNameStartByte c.toUInt8 else isNamePartByte c.toUInt8) = true := by
      cases first with
      | true => exact isNameStartByte_of_char hc hpart
      | false => exact (isNamePartByte_of_char hc hpart).1
    have hlow : c.toUInt8 < 0x80 := by
      rw [UInt8.lt_iff_toNat_lt, toNat_toUInt8 (by omega)]
      exact hc
    rw [encode_ascii hc, List.singleton_append, nameFrom, if_neg (by simpa using hslash),
      if_pos hlow,
      if_pos hbyte]
    rfl
  · obtain ⟨b, e, he, -⟩ := head_encode c
    have hhigh : 0x80 ≤ b := encode_high h (by omega) b (by rw [he]; exact List.mem_cons_self)
    have hslash : b ≠ 92 := fun hb => absurd hhigh (by rw [hb]; decide)
    have hdecode := decode_encode h r
    rw [he, List.cons_append] at hdecode ⊢
    rw [nameFrom, if_neg (by simpa using hslash), if_neg (UInt8.not_lt.2 hhigh), hdecode]
    dsimp only
    rw [if_pos hpart]
    exact hskip _ _ _ _ (by simp)

theorem nameFrom_parts (h : ∀ d ∈ cs, IsCharacter d)
    (hparts : ∀ d ∈ cs, CharClass.isNamePart d = true)
    (n : Nat) : nameFrom false 0 n false (ofCodePoints cs) =
      (.done, n + (ofCodePoints cs).length, false) := by
  induction cs generalizing n with
  | nil => rfl
  | cons c cs ih =>
    obtain ⟨hc, hcs⟩ := List.forall_mem_cons.1 h
    obtain ⟨hpart, hparts⟩ := List.forall_mem_cons.1 hparts
    rw [ofCodePoints_cons, nameFrom_char false hc hpart, ih hcs hparts, List.length_append,
      Nat.add_assoc]

/-- A name is read from end to end. -/
theorem IsSpelled.next (h : IsSpelled x) (strict : Bool) :
    Lexeme.next strict x = { kind := (TokenKind.keyword? x).getD .ident, size := x.length } := by
  obtain ⟨c, cs, rfl, hchars, hstart, hparts⟩ := h.characters
  obtain ⟨hc, hcs⟩ := List.forall_mem_cons.1 hchars
  have hwalk : nameFrom true 0 0 false (ofCodePoints (c :: cs)) =
      (.done, (ofCodePoints (c :: cs)).length, false) := by
    rw [ofCodePoints_cons, nameFrom_char true hc hstart, nameFrom_parts hcs hparts,
      List.length_append,
      Nat.zero_add]
  have hname : Lexeme.name (ofCodePoints (c :: cs)) =
      { kind := (TokenKind.keyword? (ofCodePoints (c :: cs))).getD .ident
        size := (ofCodePoints (c :: cs)).length } := by
    rw [Lexeme.name, hwalk]
    dsimp only
    rw [List.take_length]
  obtain ⟨b, e, he, hb⟩ := head_encode c
  have hopens : (isNameStartByte b || b == 92 || decide (0x80 ≤ b)) = true := by
    by_cases hlow : c < 0x80
    · have hbyte := isNameStartByte_of_char hlow hstart
      rw [encode_ascii hlow] at he
      rw [← (List.cons.inj he).1, hbyte]
      rfl
    · have hhigh := encode_high hc (by omega) b (by rw [he]; exact List.mem_cons_self)
      simp [hhigh]
  have hcons : ofCodePoints (c :: cs) = b :: (e ++ ofCodePoints cs) := by
    rw [ofCodePoints_cons, he, List.cons_append]
  rw [← hname, hcons, Lexeme.next, if_pos hopens]

end

/-! ## Words -/

/-- A token by what it is and how it is spelled. -/
structure Word where
  /-- What it is. -/
  kind : TokenKind
  /-- How it is spelled. -/
  text : Bytes
  deriving DecidableEq

namespace Word

/-- The end of a text. -/
def stop : Word := ⟨.eof, []⟩

/-- A name or a reserved word. -/
def named (x : Bytes) : Word := ⟨(TokenKind.keyword? x).getD .ident, x⟩

/-- The opening parenthesis. -/
def lParen : Word := ⟨.lParen, [40]⟩

/-- The closing parenthesis. -/
def rParen : Word := ⟨.rParen, [41]⟩

/-- The opening brace. -/
def lBrace : Word := ⟨.lBrace, [0x7B]⟩

/-- The closing brace. -/
def rBrace : Word := ⟨.rBrace, [0x7D]⟩

/-- The semicolon. -/
def semi : Word := ⟨.semicolon, [59]⟩

/-- The colon. -/
def colon : Word := ⟨.colon, [58]⟩

/-- The marks of statements. -/
def marks : List Word := [lParen, rParen, lBrace, rBrace, semi, colon]

/-- A word that is read as it is written. -/
inductive Sound : Word → Prop
  | named {x : Bytes} (h : IsSpelled x) : Sound (named x)
  | mark {w : Word} (h : w ∈ marks) : Sound w

section

variable {w : Word} {r : Bytes}

theorem lengthens_none {ms : List (String × TokenKind)} {s : Bytes}
    (h : ∀ m ∈ ms, s.isPrefixOf (Bytes.ofString m.1) = false) : lengthens ms s r = false := by
  unfold lengthens
  cases r with
  | nil => rfl
  | cons b r =>
    refine List.any_eq_false.2 fun m hm hlonger => ?_
    have hshort : s.isPrefixOf (Bytes.ofString m.1) = true :=
      List.isPrefixOf_iff_prefix.2
        ((List.prefix_append _ _).trans (List.isPrefixOf_iff_prefix.1 hlonger))
    rw [h m hm] at hshort
    cases hshort

/-- A mark of statements is read at once, whatever follows. -/
theorem next_of_mark (hw : w ∈ marks) (strict : Bool) :
    Lexeme.next strict (w.text ++ r) = { kind := w.kind, size := w.text.length } := by
  have hmarks : ∀ w ∈ marks, w.text ∈ Lexeme.marks ∧
      (∀ m ∈ longMarks, w.text.isPrefixOf (Bytes.ofString m.1) = false) ∧
      w.text ≠ [63] ∧ w.text ≠ [46] ∧ w.text ≠ [63, 46] ∧
      ∀ strict, Lexeme.next strict w.text = { kind := w.kind, size := w.text.length } := by
    decide +kernel
  obtain ⟨hmark, hlonger, hquestion, hdot, hboth, halone⟩ := hmarks w hw
  have hgo : goesOn w.text r = false := by
    unfold goesOn
    rw [lengthens_none hlonger, beq_eq_false_iff_ne.2 hquestion, beq_eq_false_iff_ne.2 hdot,
      beq_eq_false_iff_ne.2 hboth]
    rfl
  rw [next_mark strict hmark hgo, halone]

/-- A word is read as it is written. -/
theorem Sound.next (h : w.Sound) {strict : Bool} (hread : ReadAlike strict w.text r) :
    Lexeme.next strict (w.text ++ r) = { kind := w.kind, size := w.text.length } := by
  cases h with
  | named h =>
    rename_i x
    have halone : Lexeme.next strict x = _ := h.next strict
    have hname : ((TokenKind.keyword? x).getD .ident).isPropertyName = true := isPropertyName_getD x
    refine (hread.word (.inl h.endsInName) ?_ ?_ ?_).trans halone
    · show isWordKind (Lexeme.next strict x).kind = true
      rw [halone]
      simp [isWordKind, hname]
    · show (Lexeme.next strict x).faults = []
      rw [halone]
    · show (Lexeme.next strict x).kind = .numberLit → _
      rw [halone]
      intro hk
      dsimp only at hk
      rw [hk] at hname
      cases hname
  | mark h => exact next_of_mark h strict

end

end Word

/-! ## Blanks -/

namespace TriviaRun

section

variable {c : Nat} {r s v bs : Bytes} {b : UInt8} {p : Nat → Bool}

/-- A name start is neither a blank nor a line end. -/
theorem not_trivia_of_nameStart (h : CharClass.isNameStart c = true) :
    isBlank c = false ∧ isLineEnd c = false := by
  by_cases hc : c < 0x80
  · simp only [CharClass.isNameStart, hc, if_true, Bool.or_eq_true, Bool.and_eq_true, beq_iff_eq,
      decide_eq_true_eq] at h
    simp only [isBlank, isLineEnd, Bool.or_eq_false_iff, Bool.and_eq_false_iff, beq_eq_false_iff_ne,
      decide_eq_false_iff_not, ne_eq]
    omega
  · have hapart : ∀ l ∈ CharClass.letters,
        ∀ m ∈ (0xFEFF, 0xFEFF) :: (0x2028, 0x2029) :: CharClass.spaces, l.2 < m.1 ∨ m.2 < l.1 := by
      decide +kernel
    rw [CharClass.isNameStart, if_neg hc] at h
    obtain ⟨l, hl, hin⟩ := List.any_eq_true.1 h
    simp only [Bool.and_eq_true, decide_eq_true_eq] at hin
    have hbom := hapart l hl (0xFEFF, 0xFEFF) List.mem_cons_self
    have hends := hapart l hl (0x2028, 0x2029) (by simp)
    have hspaces : CharClass.inRanges CharClass.spaces c = false := by
      refine List.any_eq_false.2 fun m hm hmin => ?_
      have := hapart l hl m (by simp [hm])
      simp only [Bool.and_eq_true, decide_eq_true_eq] at hmin
      omega
    dsimp only at hbom hends
    simp only [isBlank, isLineEnd, hspaces, Bool.or_eq_false_iff, Bool.and_eq_false_iff,
      beq_eq_false_iff_ne, decide_eq_false_iff_not, ne_eq, or_true, and_true]
    omega

theorem run_char (h : IsCharacter c) (hp : p c = false) : run p (encode c ++ r) = 0 := by
  obtain ⟨b, e, he, -⟩ := head_encode c
  have hdecode := decode_encode h r
  rw [he, List.cons_append] at hdecode ⊢
  rw [run, runFrom, hdecode]
  simp [hp]

theorem run_byte (hb : b < 0x80) : run p (b :: s) = if p b.toNat then run p s + 1 else 0 := by
  rw [run, runFrom, decode_ascii _ hb]
  rfl

theorem piece?_none (hblank : run isBlank (b :: s) = 0) (hend : run isLineEnd (b :: s) = 0)
    (hslash : b ≠ 47) : piece? (b :: s) = none := by
  rw [piece?, hblank, hend]
  dsimp only
  rw [if_neg (by decide), if_neg (by decide)]
  · exact fun r h => hslash (List.cons.inj h).1
  · exact fun r h => hslash (List.cons.inj h).1

/-- No trivia stand at the head of a word. -/
theorem quiet_word {w : Word} (h : w.Sound) :
    piece? (w.text ++ r) = none ∧ (w.text ++ r).head? ≠ some 35 := by
  cases h with
  | named h =>
    rename_i x
    have hhead : ∀ b ∈ x, b ≠ 47 ∧ b ≠ 35 := by
      intro b hb
      have hword := (h.bytes b hb).1
      constructor <;> rintro rfl <;> exact absurd hword (by decide)
    obtain ⟨c, cs, hx, hchars, hstart, -⟩ := h.characters
    obtain ⟨hblank, hend⟩ := not_trivia_of_nameStart hstart
    have hc := hchars c List.mem_cons_self
    show piece? (x ++ r) = none ∧ (x ++ r).head? ≠ some 35
    have hruns : run isBlank (x ++ r) = 0 ∧ run isLineEnd (x ++ r) = 0 := by
      rw [hx, ofCodePoints_cons, List.append_assoc]
      exact ⟨run_char hc hblank, run_char hc hend⟩
    obtain ⟨b, e, he⟩ := List.exists_cons_of_ne_nil h.ne_nil
    obtain ⟨hslash, hhash⟩ := hhead b (by rw [he]; exact List.mem_cons_self)
    refine ⟨?_, ?_⟩
    · rw [he, List.cons_append] at hruns ⊢
      exact piece?_none hruns.1 hruns.2 hslash
    · rw [he]
      simpa using hhash
  | mark h =>
    have hmarks : ∀ w ∈ Word.marks, ∃ b, w.text = [b] ∧ b < 0x80 ∧ isBlank b.toNat = false ∧
        isLineEnd b.toNat = false ∧ b ≠ 47 ∧ b ≠ 35 := by
      intro w hw
      have hhead : ∀ w ∈ Word.marks, w.text = [w.text.headD 0] ∧ w.text.headD 0 < 0x80 ∧
          isBlank (w.text.headD 0).toNat = false ∧ isLineEnd (w.text.headD 0).toNat = false ∧
          w.text.headD 0 ≠ 47 ∧ w.text.headD 0 ≠ 35 := by
        decide +kernel
      exact ⟨_, hhead w hw⟩
    obtain ⟨b, hb, hlow, hblank, hend, hslash, hhash⟩ := hmarks w h
    rw [hb, List.singleton_append]
    refine ⟨piece?_none ?_ ?_ hslash, by simpa using hhash⟩
    · rw [run_byte hlow, hblank]
      rfl
    · rw [run_byte hlow, hend]
      rfl

/-- A run over blanks ends where the blanks that it takes end. -/
theorem run_blanks (hbs : ∀ b ∈ bs, b = 32 ∨ b = 10) (hv : run p v = 0) :
    run p (bs ++ v) = (bs.takeWhile fun b => p b.toNat).length := by
  induction bs with
  | nil => exact hv
  | cons b bs ih =>
    obtain ⟨hb, hbs⟩ := List.forall_mem_cons.1 hbs
    have hlow : b < 0x80 := by rcases hb with rfl | rfl <;> decide
    rw [List.cons_append, run_byte hlow, ih hbs, List.takeWhile_cons]
    split <;> rfl

theorem piecesFrom_skip (k : Nat) (s : Bytes) : piecesFrom k s = piecesFrom 0 (s.drop k) := by
  induction s generalizing k with
  | nil => cases k <;> rfl
  | cons b s ih =>
    cases k with
    | zero => rfl
    | succ k => exact ih k

theorem run_of_quiet (h : piece? v = none) : run isBlank v = 0 ∧ run isLineEnd v = 0 := by
  unfold piece? at h
  dsimp only at h
  split at h
  · cases h
  · split at h
    · cases h
    · rename_i hblank hend
      exact ⟨by simpa using hblank, by simpa using hend⟩

/-- The trivia in front of a word are the blanks there, and none of them is at fault. -/
theorem piecesFrom_blanks (hbs : ∀ b ∈ bs, b = 32 ∨ b = 10) (hv : piece? v = none) :
    bytes (piecesFrom 0 (bs ++ v)) = bs.length ∧ ∀ q ∈ piecesFrom 0 (bs ++ v), q.faults = [] := by
  induction hn : bs.length using Nat.strongRecOn generalizing bs with
  | _ n ih =>
    cases bs with
    | nil =>
      cases v with
      | nil => exact ⟨hn.symm ▸ rfl, List.forall_mem_nil _⟩
      | cons b v =>
        have hnone : piecesFrom 0 (b :: v) = [] := by rw [piecesFrom, hv]
        rw [List.nil_append, hnone]
        exact ⟨hn, List.forall_mem_nil _⟩
    | cons b bs =>
      obtain ⟨hblank, hend⟩ := run_of_quiet hv
      -- a piece takes the first blank and those of its kind behind it
      obtain ⟨q, hq, hfaults, hpos, hle⟩ : ∃ q, piece? (b :: bs ++ v) = some q ∧ q.faults = [] ∧
          1 ≤ q.size ∧ q.size ≤ (b :: bs).length := by
        have hprefix (p : UInt8 → Bool) : ((b :: bs).takeWhile p).length ≤ (b :: bs).length :=
          (List.takeWhile_sublist p).length_le
        unfold piece?
        rw [run_blanks hbs hblank, run_blanks hbs hend]
        rcases (List.forall_mem_cons.1 hbs).1 with rfl | rfl
        · refine ⟨_, if_pos ?_, rfl, ?_, hprefix _⟩
          · rw [List.takeWhile_cons_of_pos (by decide)]
            rfl
          · rw [List.takeWhile_cons_of_pos (by decide)]
            exact Nat.succ_le_succ (Nat.zero_le _)
        · refine ⟨_, (if_neg ?_).trans (if_pos ?_), rfl, ?_, hprefix _⟩
          · rw [List.takeWhile_cons_of_neg (by decide)]
            decide
          · rw [List.takeWhile_cons_of_pos (by decide)]
            rfl
          · rw [List.takeWhile_cons_of_pos (by decide)]
            exact Nat.succ_le_succ (Nat.zero_le _)
      have hfrom : piecesFrom 0 (b :: bs ++ v) = q :: piecesFrom 0 (bs.drop (q.size - 1) ++ v) := by
        rw [List.length_cons] at hle
        rw [List.cons_append] at hq ⊢
        rw [piecesFrom, hq]
        dsimp only
        rw [piecesFrom_skip, List.drop_append_of_le_length (by omega)]
      rw [List.length_cons] at hle hn
      have hrest := ih (bs.drop (q.size - 1)).length (by rw [List.length_drop]; omega)
        (fun d hd => hbs d (List.mem_cons_of_mem _ (List.mem_of_mem_drop hd))) rfl
      rw [hfrom, bytes, hrest.1, List.length_drop]
      exact ⟨by omega, List.forall_mem_cons.2 ⟨hfaults, hrest.2⟩⟩

theorem pieces_blanks (atStart : Bool) (hbs : ∀ b ∈ bs, b = 32 ∨ b = 10) (hv : piece? v = none)
    (hhash : v.head? ≠ some 35) :
    bytes (pieces atStart (bs ++ v)) = bs.length ∧ ∀ q ∈ pieces atStart (bs ++ v),
    q.faults = [] := by
  have hline : hashbang? (bs ++ v) = none := by
    have hhead : (bs ++ v).head? ≠ some 35 := by
      cases bs with
      | nil => exact hhash
      | cons b bs =>
        rcases (List.forall_mem_cons.1 hbs).1 with rfl | rfl <;> simp
    unfold hashbang?
    split
    · rename_i h
      exact absurd (by rw [h]; rfl) hhead
    · rfl
  have hnone : (if atStart then hashbang? (bs ++ v) else none) = none := by
    rw [hline, ite_self]
  rw [pieces, hnone]
  exact piecesFrom_blanks hbs hv

end

end TriviaRun

/-! ## Texts that hold words -/

namespace Print

section

variable {strict : Bool} {is rest : List Item} {t w : Bytes}

/-- A written text whose first word is known begins with blanks and that word. -/
theorem Written.first (h : Written strict is t) (hs : solid is = .token w :: rest) :
    ∃ bs u, t = bs ++ (w ++ u) ∧ (∀ b ∈ bs, b = 32 ∨ b = 10) ∧ ReadAlike strict w u ∧
      ∃ js, Written strict js u ∧ solid js = rest := by
  induction h with
  | nil => cases hs
  | gap h ih => exact ih hs
  | @blank is t b hb h ih =>
    obtain ⟨bs, u, ht, hbs, hrest⟩ := ih hs
    exact ⟨b :: bs, u, by rw [ht, List.cons_append], List.forall_mem_cons.2 ⟨hb, hbs⟩, hrest⟩
  | apart h ih =>
    obtain ⟨bs, u, ht, hbs, hrest⟩ := ih hs
    exact ⟨32 :: bs, u, by rw [ht, List.cons_append], List.forall_mem_cons.2 ⟨.inl rfl, hbs⟩, hrest⟩
  | token hread h ih =>
    obtain ⟨hw, hrest⟩ := List.cons.inj hs
    obtain rfl := Item.token.inj hw
    exact ⟨[], _, rfl, List.forall_mem_nil _, hread, _, h, hrest⟩
  | raw h ih => cases (List.cons.inj hs).1

/-- A written text without words is blank. -/
theorem Written.blank_of (h : Written strict is t) (hs : solid is = []) :
    ∀ b ∈ t, b = 32 ∨ b = 10 := by
  induction h with
  | nil => exact List.forall_mem_nil _
  | gap h ih => exact ih hs
  | blank hb h ih => exact List.forall_mem_cons.2 ⟨hb, ih hs⟩
  | apart h ih => cases hs
  | token hread h ih => cases hs
  | raw h ih => cases hs

end

end Print

/-- What a word leaves in a text. -/
def Word.item (w : Word) : Print.Item := .token w.text

/-- A text holds words, in order and with blanks between them. -/
def Holds (t : Bytes) (ws : List Word) : Prop :=
  (∀ w ∈ ws, w.Sound) ∧ ∃ is, Print.Written false is t ∧ Print.solid is = ws.map Word.item

section

variable {t : Bytes} {w : Word} {ws : List Word}

theorem Holds.blank (h : Holds t []) : ∀ b ∈ t, b = 32 ∨ b = 10 := by
  obtain ⟨-, is, hwritten, hs⟩ := h
  exact hwritten.blank_of hs

theorem holds_nil : Holds [] [] := ⟨List.forall_mem_nil _, [], .nil, rfl⟩

/-- Behind the blanks stands the first word, and behind it a text that holds the others. -/
theorem Holds.first (h : Holds t (w :: ws)) : ∃ bs u, t = bs ++ (w.text ++ u) ∧
    (∀ b ∈ bs, b = 32 ∨ b = 10) ∧ ReadAlike false w.text u ∧ Holds u ws := by
  obtain ⟨hsound, is, hwritten, hs⟩ := h
  obtain ⟨bs, u, ht, hbs, hread, hrest⟩ := hwritten.first hs
  exact ⟨bs, u, ht, hbs, hread, (List.forall_mem_cons.1 hsound).2, hrest⟩

theorem Holds.sound (h : Holds t (w :: ws)) : w.Sound := h.1 w List.mem_cons_self

end

/-! ## Reading words -/

/-- A token is a word. -/
structure Token.Spells (t : Token) (w : Word) : Prop where
  /-- It is of the word's kind. -/
  kind : t.kind = w.kind
  /-- It is spelled like the word. -/
  text : t.text = w.text
  /-- It is spelled without escapes. -/
  escaped : t.escaped = false

/-- The first of some words, or the end of the text. -/
def front (ws : List Word) : Word := ws.headD .stop

namespace Lexer

/-- A lexer stands in front of words in a file. -/
structure Reads (file : SourceFile) (ws : List Word) (lx : Lexer) : Prop where
  /-- It reads the file. -/
  file : lx.file = file
  /-- It reads code that is not strict. -/
  strict : lx.strictOctal = false
  /-- The text holds the words, or the first of them is read ahead and the text holds the others. -/
  words : (lx.held = none ∧ Holds lx.rest ws) ∨
    ∃ t, lx.held = some t ∧ t.Spells (front ws) ∧ Holds lx.rest ws.tail

section

variable {lx : Lexer} {bs v : Bytes} {ws : List Word} {file : SourceFile}

theorem placeTrivia_faultless {ps : List TriviaRun.Piece} (h : ∀ p ∈ ps, p.faults = []) :
    (lx.placeTrivia ps).2.2 = [] := by
  induction ps generalizing lx with
  | nil => rfl
  | cons p ps ih =>
    obtain ⟨hp, hps⟩ := List.forall_mem_cons.1 h
    show lx.diagnose lx.offset p.faults ++ ((lx.seek (lx.offset + p.size)).placeTrivia ps).2.2 = []
    rw [ih hps, hp]
    rfl

/-- Behind blanks a lexer reads what stands there. -/
theorem scan_blanks (hheld : lx.held = none) (hrest : lx.rest = bs ++ v)
    (hbs : ∀ b ∈ bs, b = 32 ∨ b = 10) (hv : TriviaRun.piece? v = none) (hhash : v.head? ≠ some 35)
    {l : Lexeme} (hl : Lexeme.next lx.strictOctal v = l) (hf : l.faults = []) :
    ∃ t, lx.scan = (t, lx.seek (lx.offset + bs.length + l.extent), []) ∧ t.kind = l.kind ∧
      t.text = v.take l.size ∧ t.escaped = l.escaped := by
  obtain ⟨hbytes, hfaults⟩ := TriviaRun.pieces_blanks (lx.offset == 0) hbs hv hhash
  have hplaced : (lx.seek (lx.offset + bs.length)).rest = v := by
    show lx.file.content.drop (lx.offset + bs.length) = v
    rw [← List.drop_drop, show lx.file.content.drop lx.offset = lx.rest from rfl,
      hrest, List.drop_left]
  have hbehind := placeTrivia_behind hheld (TriviaRun.pieces (lx.offset == 0) lx.rest)
  rw [hrest, hbytes] at hbehind
  let r := (lx.seek (lx.offset + bs.length)).accept l
    (lx.placeTrivia (TriviaRun.pieces (lx.offset == 0) (bs ++ v))).1
    ((TriviaRun.pieces (lx.offset == 0) (bs ++ v)).any (·.newline))
  have hdiagnoses : r.2.2 = [] := by
    show (lx.seek (lx.offset + bs.length)).diagnose (lx.offset + bs.length) l.faults = []
    rw [hf]
    rfl
  have hscan : lx.scan = (r.1, r.2.1, r.2.2) := by
    have hstrict : (lx.seek (lx.offset + bs.length)).strictOctal = lx.strictOctal := rfl
    rw [scan, hrest]
    dsimp only
    rw [hbehind, placeTrivia_faultless hfaults, hplaced, hstrict, hl]
    rfl
  refine ⟨r.1, hscan.trans ?_, rfl, ?_, rfl⟩
  · rw [hdiagnoses]
    rfl
  · show (lx.seek (lx.offset + bs.length)).rest.take l.size = _
    rw [hplaced]

/-- A lexer in front of words gives the first and stands in front of the others. -/
theorem Reads.next (h : Reads file ws lx) : ∃ t lx', lx.next = (t, lx', []) ∧ t.Spells (front ws) ∧
    Reads file ws.tail lx' ∧ lx'.held = none ∧ (lx'.push t).Reads file ws := by
  rcases h.words with ⟨hheld, hholds⟩ | ⟨t, hheld, ht, hholds⟩
  · have hnext : lx.next = lx.scan := by rw [Lexer.next, hheld]
    have hbehind (n : Nat) : (lx.seek (lx.offset + n)).rest = lx.rest.drop n := by
      rw [rest, rest, List.drop_drop]
      rfl
    -- the words that are left, behind the first or the end of the text
    obtain ⟨t, n, hscan, ht, hleft⟩ : ∃ t n, lx.scan = (t, lx.seek (lx.offset + n), []) ∧
        t.Spells (front ws) ∧ Holds (lx.rest.drop n) ws.tail := by
      cases ws with
      | nil =>
        have hblank := hholds.blank
        obtain ⟨t, hscan, hk, htext, hesc⟩ := scan_blanks hheld (List.append_nil _).symm hblank rfl
          (by simp) (l := { kind := .eof, size := 0 }) rfl rfl
        refine ⟨t, lx.rest.length, hscan, ⟨hk, htext, hesc⟩, ?_⟩
        rw [List.drop_length]
        exact holds_nil
      | cons w ws =>
        obtain ⟨bs, u, hrest, hbs, hread, hleft⟩ := hholds.first
        obtain ⟨hquiet, hhash⟩ := TriviaRun.quiet_word (r := u) hholds.sound
        have hl : Lexeme.next lx.strictOctal (w.text ++ u) =
            { kind := w.kind, size := w.text.length } := by
          rw [h.strict]
          exact hholds.sound.next hread
        obtain ⟨t, hscan, hk, htext, hesc⟩ := scan_blanks hheld hrest hbs hquiet hhash hl rfl
        refine ⟨t, bs.length + w.text.length, ?_, ⟨hk, ?_, hesc⟩, ?_⟩
        · rw [hscan, Nat.add_assoc]
        · rw [htext]
          exact List.take_left
        · rw [hrest, ← List.append_assoc, ← List.length_append, List.drop_left]
          exact hleft
    have hholds' : Holds (lx.seek (lx.offset + n)).rest ws.tail := by
      rw [hbehind]
      exact hleft
    exact ⟨t, _, hnext.trans hscan, ht, ⟨h.file, h.strict, .inl ⟨rfl, hholds'⟩⟩, rfl,
      ⟨h.file, h.strict, .inr ⟨t, rfl, ht, hholds'⟩⟩⟩
  · have hnext : lx.next = (t, { lx with held := none }, []) := by rw [Lexer.next, hheld]
    exact ⟨t, _, hnext, ht, ⟨h.file, h.strict, .inl ⟨rfl, hholds⟩⟩, rfl,
      ⟨h.file, h.strict, .inr ⟨t, rfl, ht, hholds⟩⟩⟩

end

end Lexer

end ScriptLower

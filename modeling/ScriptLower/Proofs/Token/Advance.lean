import ScriptLower.Proofs.Token.Tiling

/-!
# When a lexer moves on

A lexeme takes a byte wherever there is one, with one exception: a backslash begins a name, and one
that is followed by no `u` opens no escape, so the name ends where it begins
(`Lexeme.next_empty_iff`). So a lexer that has nothing read ahead either is at the end of the text,
or moves on, or stands behind its trivia on such a backslash and stays there.
-/

namespace ScriptLower

namespace Lexeme

/-- A backslash that opens no escape. -/
def LoneBackslash (s : Bytes) : Prop := ∃ r, s = 92 :: r ∧ r.head? ≠ some 117

theorem unicodeEscape_lone {r : Bytes} (h : r.head? ≠ some 117) :
    unicodeEscape (92 :: r) = (0, false) := by
  cases r with
  | nil => rfl
  | cons b r =>
    have hb : b ≠ 117 := fun hb => h (congrArg some hb)
    simp [unicodeEscape, hb]

/-- The name that such a backslash begins has no byte. -/
theorem next_lone (strict : Bool) {r : Bytes} (h : r.head? ≠ some 117) :
    (next strict (92 :: r)).extent = 0 := by
  have hname : next strict (92 :: r) = name (92 :: r) := rfl
  have hwalk : nameFrom true 0 0 false (92 :: r) = (.badEscape, 0, false) := by
    rw [nameFrom]
    dsimp only
    rw [unicodeEscape_lone h]
    rfl
  rw [hname, name, hwalk]

theorem next_empty_iff (strict : Bool) {s : Bytes} (hs : s ≠ []) :
    (next strict s).extent = 0 ↔ LoneBackslash s := by
  obtain ⟨b, r, rfl⟩ := List.exists_cons_of_ne_nil hs
  constructor
  · intro hempty
    by_cases hesc : b = 92 → r.head? = some 117
    · have := next_pos strict b r hesc
      omega
    · obtain ⟨rfl, hu⟩ := Classical.not_imp.1 hesc
      exact ⟨r, rfl, hu⟩
  · rintro ⟨r', heq, hu⟩
    cases heq
    exact next_lone strict hu

end Lexeme

namespace Lexer

/-- The lexer behind the trivia that stand at its place. -/
def behindTrivia (lx : Lexer) : Lexer :=
  (lx.placeTrivia (TriviaRun.pieces (lx.offset == 0) lx.rest)).2.1

section

variable {lx : Lexer}

/-- The next token begins behind the trivia. -/
theorem Fresh.next_start (h : lx.Fresh) :
    lx.next.1.span.start = lx.file.base + lx.behindTrivia.offset ∧
      lx.file.bytesAt lx.next.1.span.start = lx.behindTrivia.rest := by
  have hfile : lx.behindTrivia.file = lx.file := by
    rw [behindTrivia, placeTrivia_behind h.held]
    rfl
  have hstart : lx.next.1.span.start = lx.file.base + lx.behindTrivia.offset := by
    rw [h.next_eq, ← hfile]
    rfl
  refine ⟨hstart, ?_⟩
  rw [hstart, SourceFile.bytesAt, Nat.add_sub_cancel_left, rest, hfile]

/-- What reading a token gives, whatever the bytes, in a file whose positions are words. Only on a
backslash that opens no escape does a token that is not the end of the text have no byte; else the
token is the end of the text, at the end of the file, or it has a byte, and the lexer moves on by at
least that. -/
theorem next_advances (hwords : lx.file.InWords) (h : lx.Fresh) :
    ((lx.next.1.kind ≠ .eof ∧ lx.next.1.span.start = lx.next.1.span.stop) ↔
        Lexeme.LoneBackslash lx.behindTrivia.rest) ∧
      (¬Lexeme.LoneBackslash lx.behindTrivia.rest →
        (lx.next.1.kind = .eof ∧ lx.next.1.span.start = lx.file.endWord.toNat ∧
            lx.next.1.span.stop = lx.file.endWord.toNat ∧
            lx.next.2.1.offset = lx.file.content.length) ∨
          (lx.next.1.kind ≠ .eof ∧ lx.next.1.span.start < lx.next.1.span.stop ∧
            lx.offset < lx.next.2.1.offset)) := by
  rw [hwords.endWord]
  obtain ⟨-, hbytes⟩ := h.next_start
  have heof : lx.next.1.kind = .eof ↔ lx.behindTrivia.rest = [] := hbytes ▸ h.scans.heads.eof
  have hstop := h.stop_eq
  rw [hbytes] at hstop
  have hord := h.scans.lies.ordered
  constructor
  · constructor
    · rintro ⟨hkind, hempty⟩
      refine (Lexeme.next_empty_iff lx.strictOctal fun hnil => hkind (heof.2 hnil)).1 ?_
      omega
    · intro hlone
      have hne : lx.behindTrivia.rest ≠ [] := by
        obtain ⟨r, hr, -⟩ := hlone
        rw [hr]
        exact List.cons_ne_nil _ _
      refine ⟨fun hkind => hne (heof.1 hkind), ?_⟩
      have hempty := (Lexeme.next_empty_iff lx.strictOctal hne).2 hlone
      omega
  · intro hlone
    have hoff := h.next_offset
    by_cases hkind : lx.next.1.kind = .eof
    · have hlast := h.stop_of_eof hkind
      have hsize : (Lexeme.next lx.strictOctal lx.behindTrivia.rest).extent = 0 := by
        rw [heof.1 hkind]
        rfl
      refine Or.inl ⟨hkind, by omega, hlast, ?_⟩
      rw [hlast, SourceFile.stop] at hoff
      omega
    · have hmoves : (Lexeme.next lx.strictOctal lx.behindTrivia.rest).extent ≠ 0 := fun hempty =>
        hlone ((Lexeme.next_empty_iff lx.strictOctal fun hnil => hkind (heof.2 hnil)).1 hempty)
      have hafter := h.scans.after
      exact Or.inr ⟨hkind, by omega, by omega⟩

end

/-- Behind a comment stands a backslash that opens no escape: the token is empty. In the same file
one byte later, the name is a token and the lexer moves on; at the end it is at the end. -/
theorem next_advances_backslash :
    let file : SourceFile := { content := "/**/\\x" }
    let lx (n : Nat) : Lexer := { file := file, offset := n }
    ((lx 0).Fresh ∧ Lexeme.LoneBackslash (lx 0).behindTrivia.rest ∧
        (lx 0).next.1.kind ≠ .eof ∧ (lx 0).next.1.span.start = (lx 0).next.1.span.stop) ∧
      ((lx 5).Fresh ∧ ¬Lexeme.LoneBackslash (lx 5).behindTrivia.rest ∧ 5 < (lx 5).next.2.1.offset) ∧
      ((lx 6).Fresh ∧ ¬Lexeme.LoneBackslash (lx 6).behindTrivia.rest ∧
        (lx 6).next.1.kind = .eof) := by
  intro file lx
  have hwords (n : Nat) : (lx n).file.InWords := (⟨by decide, by decide⟩ : file.InWords)
  have hfresh (n : Nat) (hn : n ≤ 6) : (lx n).Fresh := ⟨hn, rfl⟩
  have hname : ¬Lexeme.LoneBackslash (lx 5).behindTrivia.rest := by
    rintro ⟨r, hr, -⟩
    cases hr
  have hend : ¬Lexeme.LoneBackslash (lx 6).behindTrivia.rest := by
    rintro ⟨r, hr, -⟩
    cases hr
  have hlone : Lexeme.LoneBackslash (lx 0).behindTrivia.rest := ⟨[120], by decide, by decide⟩
  refine ⟨⟨hfresh 0 (by decide), hlone,
    (next_advances (hwords 0) (hfresh 0 (by decide))).1.2 hlone⟩,
    ⟨hfresh 5 (by decide), hname, ?_⟩, ⟨hfresh 6 (by decide), hend, ?_⟩⟩
  · rcases (next_advances (hwords 5) (hfresh 5 (by decide))).2 hname
      with ⟨hkind, -⟩ | ⟨-, -, hmoves⟩
    · cases hkind
    · exact hmoves
  · rcases (next_advances (hwords 6) (hfresh 6 (by decide))).2 hend with ⟨hkind, -⟩ | ⟨hkind, -⟩
    · exact hkind
    · exact absurd rfl hkind

end Lexer

end ScriptLower

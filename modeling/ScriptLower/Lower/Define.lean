import ScriptLower.Parse.Program
import ScriptLower.Tree.Node
import ScriptLower.Text.StringLiteral

/-!
# Definitions and conditions from outside

A definition replaces the free uses of a name by an expression. A condition is the test of a
statement whose first branch is dropped.
-/

/-!
## Equal expressions

Two expressions are equal when they have the same shape, wherever they stand: parentheses do not
count, and string literals are compared by value.
-/

namespace ScriptLower.Node

open ScriptLower

/-- Whether the modifiers that belong to the shape of an expression agree. -/
def sameShape (f g : Flags) : Bool :=
  f.optional == g.optional && f.computed == g.computed && f.prefixed == g.prefixed

/-- Whether two heads say the same. Strings without a value equal nothing. -/
def sameHead (h k : Head) : Bool :=
  h.kind == k.kind && h.op == k.op && sameShape h.flags k.flags
    && (if h.kind == .literal && h.op == .stringLit then
        match StringLiteral.unquote h.text, StringLiteral.unquote k.text with
        | some a, some b => a == b
        | _, _ => false
      else h.text == k.text)

mutual

/-- Whether two expressions are equal. -/
def same : Node → Node → Bool
  | absent, n => n.unparen.isAbsent
  | mk h ks _ _ _ _, n =>
    if h.kind == .paren then sameFirst ks n
    else match n.unparen with
      | absent => false
      | mk k js _ _ _ _ => sameHead h k && sameAll ks js

/-- Whether the first of some expressions equals another. -/
def sameFirst : List Node → Node → Bool
  | [], n => n.unparen.isAbsent
  | m :: _, n => same m n

/-- Whether two lists of expressions are equal one by one. -/
def sameAll : List Node → List Node → Bool
  | [], [] => true
  | m :: r, n :: q => same m n && sameAll r q
  | _, _ => false

end

end ScriptLower.Node

/-! ## Definitions and conditions -/

namespace ScriptLower

/-- Whether a text is a name of ASCII letters, digits and the two signs. -/
def isPlainName : Bytes → Bool
  | [] => false
  | b :: r =>
    let isLetter (b : UInt8) : Bool := Bytes.isAlpha b || b == ascii '_' || b == ascii '$'
    isLetter b && r.all fun c => isLetter c || Bytes.isDigit c

/-- A test whose statement is dropped. -/
structure Conditional where
  /-- The test as it is written, without the white space around it. -/
  source : Bytes
  /-- The test. -/
  test : Node
  deriving Inhabited

/-- Reads a test; the error is the message. -/
def Conditional.parse (s : Bytes) : Except Bytes Conditional :=
  match Parse.parseExpressionText s with
  | .ok (_, n) => .ok { source := Words.trim s, test := n }
  | .error e => .error (e.message s)

/-- A name and the expression that replaces it. -/
structure Define where
  /-- The name. -/
  name : Bytes
  /-- The expression as it is written. -/
  value : Bytes
  /-- Whether the expression binds so tightly that it needs no parentheses. -/
  bare : Bool
  deriving DecidableEq, Repr, Inhabited

namespace Define

/-- Whether an expression of a kind needs no parentheses anywhere. -/
def isBare : NodeKind → Bool
  | .ident | .literal | .member | .index | .call | .paren | .array | .thisExpr | .template => true
  | _ => false

/-- What a node brings that a definition may not hold. -/
def foreignPart? (n : Node) : Option String :=
  if n.kind.isType || n.kind.isTypeWrapper || n.type.isPresent || n.targs.isPresent then
    some "type syntax"
  else if n.kind.isElementPart then some "JSX"
  else none

mutual

/-- What a tree brings that a definition may not hold. Once something is found no further parts are
looked into, but a tree that is foreign itself counts for more than what was found before it. -/
def foreign (found : Option String) : Node → Option String
  | .absent => found
  | .mk h ks ds t a x =>
    match foreignPart? (.mk h ks ds t a x) with
    | some what => some what
    | none =>
      if found.isSome then found
      else foreign (foreign (foreign (foreignAll (foreignAll none ks) ds) t) a) x

/-- What several trees bring that a definition may not hold. -/
def foreignAll (found : Option String) : List Node → Option String
  | [] => found
  | n :: r => foreignAll (foreign found n) r

end

/-- Reads a definition; the error is the message. -/
def parse (name value : Bytes) : Except Bytes Define :=
  let name := Words.trim name
  if !isPlainName name then .error ("define name " ++ Quoted.quote name ++ " is not an identifier")
  else if (TokenKind.keyword? name).isSome then
    .error ("define name " ++ Quoted.quote name ++ " is a reserved word")
  else match Parse.parseExpressionText value with
    | .error e => .error ("define " ++ name ++ ": " ++ e.message value)
    | .ok (_, n) =>
      match foreign none n with
      | some what => .error ("define " ++ name ++ ": value contains " ++ Bytes.ofString what)
      | none => .ok { name := name, value := Words.trim value, bare := isBare n.kind }

end Define

end ScriptLower

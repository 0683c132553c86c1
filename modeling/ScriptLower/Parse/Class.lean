import ScriptLower.Parse.Function

/-!
# Classes
-/

namespace ScriptLower.Parse

open ScriptLower

/-- Types with commas between them. -/
def parseHeritageList (g : Rules) : Parser Node := do
  let start ← peek
  let first ← parseTypeReference g
  let kids ← loop (fun kids => do
    if ← eat .comma then return .inl (kids ++ [← parseTypeReference g]) else return .inr kids)
    [first]
  node .heritage start.span kids

/-- The class that a class extends, with type arguments. -/
def parseHeritageExpr (g : Rules) : Parser Node := do
  let e ← g .lhs
  if ← atAny [.lt, .shl] then
    let targs ← parseTypeArgs g
    if e.targs.isPresent then
      errorAt targs.span .unexpectedToken "unexpected type arguments"
      fail .reported
    return e.withTargs targs
  else return e

/-- The modifiers of a member. -/
def memberModifiers : List (String × Flags) := [
  ("static", { isStatic := true }),
  ("public", { isPublic := true }),
  ("private", { isPrivate := true }),
  ("protected", { isProtected := true }),
  ("readonly", { isReadonly := true }),
  ("abstract", { isAbstract := true }),
  ("override", { isOverride := true }),
  ("declare", { declared := true }),
  ("accessor", { accessor := true }),
  ("async", { async := true })]

/-- The modifier a token is. -/
def memberModifier? (t : Token) : Option Flags :=
  (memberModifiers.find? fun m => t.is m.1).map (·.2)

/-- Whether a modifier belongs to the type level. -/
def isTypeModifier (f : Flags) : Bool := f.hasAccess || f.isAbstract || f.declared

/-- The modifiers in front of a member; the mark says that a static block follows instead. -/
def parseMemberModifiers (classFlags : Flags) : Parser (Flags × Bool) :=
  loop (fun (flags : Flags) => do
    let t ← peek
    match memberModifier? t with
    | none => return .inr (flags, false)
    | some f =>
      let next ← peek2
      if next.newline && (f.async || f.accessor) then return .inr (flags, false)
      if f.isStatic && next.kind == .lBrace then
        let _ ← advance
        return .inr (flags, true)
      if !startsPropertyKey next then return .inr (flags, false)
      let _ ← advance
      if isTypeModifier f then requireTypes t
      if f.isAbstract && !classFlags.isAbstract then
        errorAt t.span .modifierNotAllowed
          "abstract members are only allowed in an abstract class"
      return .inl (flags.or f)) {}

/-- A block that runs when the class is made. -/
def parseStaticBlock (g : Rules) (start : Token) : Parser Node := do
  let block ←
    inFunction {} (keepingFunction (fun fn => { fn with inFunction := false }) (parseOpenBlock g))
  node .staticBlock start.span [block]

/-- A field behind its key. -/
def parseClassProperty (g : Rules) (start : Token) (key : Node) (flags : Flags)
    (decos : List Node) : Parser Node := do
  let t ← peek
  let optional := t.kind == .question
  let definite := t.kind == .bang && !t.newline
  if optional || definite then
    let _ ← advance
    requireTypes t
  let type ← parseAnnotationOpt g
  let value ← if ← eat .assign then inFunction {} (g .assign) else pure .absent
  semicolon
  let n ← node .property start.span [key, value]
  return ((n.addFlags (flags.or { optional := optional, definite := definite })).withType
    type).withDecos decos

/-- Whether a key names the constructor. -/
def isConstructorKey (key : Node) : Bool :=
  (key.kind == .ident && key.text == Bytes.ofString "constructor")
    || (key.kind == .literal && key.op == .stringLit
      && (key.text.drop 1).dropLast == Bytes.ofString "constructor")

/-- A member behind its modifiers. -/
def parseKeyedMember (g : Rules) (owner : MethodOwner) (start : Token) (decos : List Node)
    (flags : Flags) : Parser Node := do
  let generator ← eat .star
  let word ← parseAccessorWord false
  let (key, keyFlags) ← parsePropertyKey g
  let flags := (flags.or { generator := generator }).or keyFlags
  let role : Bytes := match word with
    | some w => w
    | none =>
      if !flags.isStatic && !flags.computed && isConstructorKey key then "constructor" else "method"
  let next ← peek
  let next2 ← peek2
  let isMethod := role != Bytes.ofString "method" || flags.generator || flags.async
    || next.kind == .lParen || next.kind == .lt
    || (next.kind == .question && (next2.kind == .lParen || next2.kind == .lt))
  if isMethod then
    let n ← parseMethod g start key role flags (if flags.isAbstract then .ambient else owner)
    return n.withDecos decos
  else parseClassProperty g start key flags decos

/-- A member of a class from its first token on. -/
def parseClassMemberFrom (g : Rules) (owner : MethodOwner) (classFlags : Flags) (start : Token) :
    Parser Node := do
  let decos ← if start.kind == .atSign then parseDecorators g else pure []
  let (flags, isBlock) ← parseMemberModifiers classFlags
  if isBlock then parseStaticBlock g start
  else if (← at_ .lBracket) && (← view).grammar.types && (← isIndexSignature) then
    let n ← parseIndexSignature g start .indexSignature flags
    semicolon
    return n
  else parseKeyedMember g owner start decos flags

/-- A member of a class. -/
def parseClassMember (g : Rules) (owner : MethodOwner) (classFlags : Flags) : Parser Node := do
  let start ← peek
  addLeading start
  parseClassMemberFrom g owner classFlags start

/-- The members of a class, in braces. -/
def parseClassBody (g : Rules) (classFlags : Flags) : Parser Node := do
  let open_ ← expect .lBrace .unexpectedToken "expected '\x7b' to open class body"
  let owner : MethodOwner :=
    if classFlags.declared || 0 < (← view).ambient then .ambient else .class_
  let members ← listUntil .rBrace fun members => do
    if ← eat .semicolon then return members
    return members ++ [← parseClassMember g owner classFlags]
  addDangling
  let _ ← expect .rBrace .unclosedBrace "expected '\x7d' to close class body"
  node .classBody open_.span members

/-- A class behind its name. -/
def parseClassRest (g : Rules) (kind : NodeKind) (start : Token) (name : Node) (decos : List Node)
    (flags : Flags) : Parser Node := do
  let tparams ← parseTypeParamsOpt g
  let base ← if ← eat .kwExtends then parseHeritageExpr g else pure .absent
  let t ← peek
  let interfaces ← do
    if t.is "implements" then
      let _ ← advance
      requireTypes t
      parseHeritageList g
    else pure .absent
  let body ← keepingFunction (fun fn => { fn with inClass := true }) (parseClassBody g flags)
  let n ← node kind start.span [name, base, body]
  return (((n.addFlags flags).withTargs tparams).withAux interfaces).withDecos decos

/-- Whether the next token names a class. -/
def atClassName : Parser Bool := do
  let t ← peek
  return t.kind == .ident && !t.is "implements" && !t.is "extends"

/-- A class declaration from its keyword on. -/
def parseClassDecl (g : Rules) (start : Token) (decos : List Node) (flags : Flags) :
    Parser Node := do
  if flags.isAbstract then requireTypes start
  let _ ← expect .kwClass .unexpectedToken "expected 'class'"
  if ← atClassName then
    let name ← parseBindingIdent
    declare true name
    parseClassRest g .classDecl start name decos flags
  else if !flags.isDefault then unexpected "class name"
  else parseClassRest g .classDecl start .absent decos flags

/-- A class as an expression, from its keyword on. -/
def parseClassExpr (g : Rules) (start : Token) (decos : List Node) : Parser Node := do
  let _ ← advance
  let name ← if ← atClassName then (do return identOf (← advance)) else pure .absent
  parseClassRest g .classExpr start name decos {}

end ScriptLower.Parse

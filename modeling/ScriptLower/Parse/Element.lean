import ScriptLower.Parse.Parameter

/-!
# Elements

Between tags the text is not made of tokens, so the children of an element are read by the lexer's
own reading for that place, from the end of the last consumed token on. Nothing may look ahead
before that.
-/

namespace ScriptLower.Parse

open ScriptLower

/-- A part of a tag's or attribute's name, hyphens included. At the end of the text only `atEnd`
speaks. -/
def parseTagPart (atEnd : Parser Token) : Parser Token := do
  let t ← peek
  if t.kind.isPropertyName then readTagName t
  else if t.kind == .eof then atEnd
  else
    error .expectedIdentifier ("expected JSX identifier, got " ++ describe t)
    fail .reported

/-- The names behind the dots of a tag's name. -/
def parseTagPath (start : Span) (first : Node) : Parser Node :=
  loop (fun name => do
    if ← eat .dot then
      let t ← peek
      if !t.kind.isPropertyName then unexpected "JSX member name"
      else
        let _ ← advance
        let n ← node .jsxMemberName start [name, Node.newText .jsxName t.span t.text]
        return .inl n
    else return .inr name) first

/-- The name of a tag: one name, two with a colon, or a path. -/
def parseTagName : Parser Node := do
  let first ← parseTagPart do
    error .unterminatedElement "unterminated JSX element"
    fail .reported
  if ← eat .colon then
    let part ← parseTagPart (fail .cutName)
    return Node.newText .jsxName (← spanTo first.span) (first.text ++ ":" ++ part.text)
  else parseTagPath first.span (Node.newText .jsxName first.span first.text)

/-- Whether a token begins like a string. -/
def startsQuoted (t : Token) : Bool :=
  t.kind == .stringLit
    || (t.kind == .invalid && (t.text.head? == some 34 || t.text.head? == some 39))

/-- The next token, in front of an attribute's value. A value in quotes has no escapes and may
span lines, so it is read anew, and what the first reading found wrong is forgotten. -/
def peekAttributeValue : Parser Token := fun s =>
  match s.lexer.peek with
  | (t, lx, ds) =>
    if startsQuoted t then
      match lx.rereadAttribute t with
      | (t', lx', ds') => .ok t' (State.noteAll { s with lexer := lx'.push t' } ds')
    else .ok t (State.noteAll { s with lexer := lx } ds)

/-- An element at its opening sign. -/
def parseElement (g : Rules) : Parser Node := do g (.element (← advance))

/-- The value of an attribute. -/
def parseAttributeValue (g : Rules) : Parser Node := do
  let t ← peekAttributeValue
  match t.kind with
  | .stringLit =>
    let _ ← advance
    return stringOf t
  | .lBrace =>
    let _ ← advance
    if ← at_ .rBrace then
      error .expectedExpression "JSX attribute value must not be empty"
      fail .reported
    let e ← withIn (g .assign)
    let _ ← expectRBrace
    node .jsxExprContainer t.span [e]
  | .lt => parseElement g
  | _ => unexpected "JSX attribute value"

/-- An attribute with a name. -/
def parseAttribute (g : Rules) : Parser Node := do
  let first ← parseTagPart (fail .cutName)
  let name ← do
    if ← eat .colon then
      let part ← parseTagPart (fail .cutName)
      pure (first.text ++ ":" ++ part.text)
    else pure first.text
  let nameNode := Node.newText .jsxName (← spanTo first.span) name
  let value ← if ← eat .assign then parseAttributeValue g else pure .absent
  node .jsxAttr first.span [nameNode, value]

/-- An attribute that spreads an object. -/
def parseSpreadAttribute (g : Rules) : Parser Node := do
  let open_ ← advance
  let _ ← expect .dotDotDot .unexpectedToken "expected '...' in JSX spread attribute"
  let e ← withIn (g .assign)
  let _ ← expectRBrace
  node .jsxSpreadAttr open_.span [e]

/-- One more attribute, or the end of a tag's attributes in front of a sign or slash. -/
def parseNextAttribute (g : Rules) (opening : Token) (kids : List Node) :
    Parser (List Node ⊕ List Node) := do
  let t ← peek
  match t.kind with
  | .gt | .slash => return .inr kids
  | .eof =>
    errorAt opening.span .unterminatedElement "unterminated JSX element"
    fail .reported
  | .lBrace => return .inl (kids ++ [← parseSpreadAttribute g])
  | _ => return .inl (kids ++ [← parseAttribute g])

/-- The attributes of a tag, up to the sign or slash that ends it. -/
def parseAttributes (g : Rules) (opening : Token) : Parser Node := do
  let start ← peek
  let kids ← loop (parseNextAttribute g opening) []
  node .jsxAttrs start.span kids

mutual

/-- A tag's name as text. -/
def tagText : Node → Bytes
  | .absent => []
  | .mk h ks _ _ _ _ => if h.kind == .jsxMemberName then tagPathText ks else h.text

/-- The first two of some names with a dot between them. -/
def tagPathText : List Node → Bytes
  | [] => "."
  | [n] => tagText n ++ "."
  | n :: m :: _ => tagText n ++ "." ++ tagText m

end

/-- The closing tag behind its slash; `name` is that of the opening tag, absent for a fragment. -/
def parseClosingTag (name : Node) : Parser Unit := do
  let start := (← view).lastSpan
  if name.isAbsent then
    if !(← at_ .gt) then
      error .mismatchedTag "expected '</>' to close JSX fragment"
      fail .reported
    let _ ← advance
  else
    let closing ← parseTagName
    let want := tagText name
    let got := tagText closing
    if want != got then
      errorAt (← spanTo start) .mismatchedTag
        ("expected corresponding JSX closing tag for <" ++ want ++ ">, got </" ++ got ++ ">")
      fail .reported
    let _ ← expectGreater

/-- A child in braces behind its opening brace. -/
def parseChildExpr (g : Rules) (open_ : Token) : Parser Node := do
  if ← eat .rBrace then node .jsxExprContainer open_.span [.absent]
  else
    let spread ← eat .dotDotDot
    let e ← withIn (parseExpression g)
    let _ ← expect .rBrace .unclosedBrace "expected '\x7d' to close JSX expression"
    node (if spread then .jsxSpreadChild else .jsxExprContainer) open_.span [e]

/-- The children of an element and its closing tag. -/
def parseChildren (g : Rules) (opening : Token) (name : Node) : Parser Node := do
  let start := (← view).lastSpan
  let kids ← loop (fun kids => do
    let t ← readChild
    match t.kind with
    | .eof =>
      errorAt opening.span .unterminatedElement "unterminated JSX element: missing closing tag"
      fail .reported
    | .jsxText => return .inl (kids ++ [Node.newText .jsxText t.span t.text])
    | .lBrace => return .inl (kids ++ [← parseChildExpr g t])
    | .lt =>
      if ← eat .slash then
        parseClosingTag name
        return .inr kids
      else return .inl (kids ++ [← g (.element t)])
    | _ => unexpected "JSX child") []
  node .jsxChildren start kids

/-- An element behind its opening sign. -/
def parseElementRest (g : Rules) (opening : Token) : Parser Node := do
  if ← eat .gt then
    let children ← parseChildren g opening .absent
    node .jsxFragment opening.span [children]
  else
    let name ← parseTagName
    let targs ← if (← at_ .lt) && (← view).grammar.types then parseTypeArgs g else pure .absent
    let attrs ← parseAttributes g opening
    let children ← do
      if ← eat .slash then
        let _ ← expectGreater
        pure (Node.new .jsxChildren (← view).lastSpan.atStart [])
      else
        let _ ← expectGreater
        parseChildren g opening name
    let n ← node .jsxElement opening.span [name, attrs, children]
    return n.withTargs targs

end ScriptLower.Parse

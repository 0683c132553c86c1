import ScriptLower.Text.Bytes

/-!
# Kinds of tree nodes

Every node of a tree has one shape, and its kind says what the slots hold. The slots of each kind
stand beside its constructor: names in brackets are the children in order, and a question mark
marks a child that may be absent. Kinds of the type level must be gone once a tree is lowered.
-/

namespace ScriptLower

/-- What a tree node is. -/
inductive NodeKind
  /-- `Invalid`, without slots. -/
  | invalid
  /-- `Program`: kids statements. -/
  | program
  /-- `ExprStmt`: [expr]. -/
  | exprStmt
  /-- `VarDecl`: Text: var|let|const|using; kids declarators. -/
  | varDecl
  /-- `Declarator`: [binding, init?]; Type: annotation. -/
  | declarator
  /-- `FuncDecl`: [name?, params, body?]; Type: return type; type arguments: type params. -/
  | funcDecl
  /-- `ClassDecl`: [name?, super?, body]; type arguments: type params; Aux: implements. -/
  | classDecl
  /-- `Block`: kids statements. -/
  | block
  /-- `Empty`, without slots. -/
  | empty
  /-- `Debugger`, without slots. -/
  | debugger
  /-- `If`: [test, cons, alt?]. -/
  | ifStmt
  /-- `For`: [init?, test?, update?, body]. -/
  | forStmt
  /-- `ForIn`: [left, right, body]. -/
  | forIn
  /-- `ForOf`: [left, right, body]; FlagAwait. -/
  | forOf
  /-- `While`: [test, body]. -/
  | whileStmt
  /-- `DoWhile`: [body, test]. -/
  | doWhile
  /-- `Return`: [arg?]. -/
  | returnStmt
  /-- `Break`: [label?]. -/
  | breakStmt
  /-- `Continue`: [label?]. -/
  | continueStmt
  /-- `Throw`: [arg]. -/
  | throwStmt
  /-- `Try`: [block, catch?, finally?]. -/
  | tryStmt
  /-- `Catch`: [param?, body]. -/
  | catchClause
  /-- `Switch`: [discriminant, cases...]. -/
  | switchStmt
  /-- `Case`: [test?, stmts...]. -/
  | caseClause
  /-- `Labeled`: [label, body]. -/
  | labeled
  /-- `With`: [object, body]. -/
  | withStmt
  /-- `Import`: [source, attrs?, specifiers...]; FlagTypeOnly. -/
  | importDecl
  /-- `ImportDefault`: [local]. -/
  | importDefault
  /-- `ImportNamespace`: [local]. -/
  | importNamespace
  /-- `ImportSpec`: [imported, local]; FlagTypeOnly. -/
  | importSpec
  /-- `ImportEquals`: [name, reference]; reference is ExternalRef or an entity name. -/
  | importEquals
  /-- `ExternalRef`: [string] require("x"). -/
  | externalRef
  /-- `ExportNamed`: [source?, attrs?, specifiers...]; FlagTypeOnly. -/
  | exportNamed
  /-- `ExportSpec`: [local, exported]; FlagTypeOnly. -/
  | exportSpec
  /-- `ExportAll`: [source, attrs?, exported?]; FlagTypeOnly. -/
  | exportAll
  /-- `ExportDecl`: [declaration]. -/
  | exportDecl
  /-- `ExportDefault`: [declaration or expression]. -/
  | exportDefault
  /-- `ExportAssign`: [expr] export = x. -/
  | exportAssign
  /-- `Enum`: [name, members...]; FlagConst, FlagDeclare. -/
  | enumDecl
  /-- `EnumMember`: [key, init?]. -/
  | enumMember
  /-- `Namespace`: [name, body?]; body is Block or a nested Namespace; FlagDeclare, FlagGlobal. -/
  | namespaceDecl
  /-- `ClassBody`: kids members. -/
  | classBody
  /-- `Method`: [key, params, body?]; Text: method|get|set|constructor; Type: return; type
  arguments. -/
  | method
  /-- `Property`: [key, value?]; Type: annotation. -/
  | property
  /-- `StaticBlock`: [block]. -/
  | staticBlock
  /-- `Params`: kids params. -/
  | params
  /-- `Param`: [binding, default?]; Type: annotation; modifiers in Flags. -/
  | param
  /-- `Ident`: Text: name; Mark: hygiene mark. -/
  | ident
  /-- `PrivateName`: Text: #name. -/
  | privateName
  /-- `Literal`: Op: literal token kind; Text: raw source. -/
  | literal
  /-- `Template`: [quasi, expr, quasi, ..., quasi]. -/
  | template
  /-- `TemplateElem`: Text: raw chars between delimiters. -/
  | templateElem
  /-- `TaggedTemplate`: [tag, template]; type arguments. -/
  | taggedTemplate
  /-- `Array`: kids elements (Hole, Spread or expr). -/
  | array
  /-- `Hole`, without slots. -/
  | hole
  /-- `Object`: kids ObjProp, Method, Spread. -/
  | object
  /-- `ObjProp`: [key, value]; FlagComputed, FlagShorthand. -/
  | objProp
  /-- `Spread`: [expr]. -/
  | spread
  /-- `FuncExpr`: same layout as FuncDecl. -/
  | funcExpr
  /-- `Arrow`: [params, body]; FlagAsync, FlagExprBody; Type: return; type arguments. -/
  | arrow
  /-- `ClassExpr`: same layout as ClassDecl. -/
  | classExpr
  /-- `Unary`: Op; [arg]. -/
  | unary
  /-- `Update`: Op; [arg]; FlagPrefix. -/
  | update
  /-- `Binary`: Op; [left, right]. -/
  | binary
  /-- `Assign`: Op; [target, value]. -/
  | assign
  /-- `Conditional`: [test, cons, alt]. -/
  | conditional
  /-- `Call`: [callee, args...]; FlagOptional; type arguments. -/
  | call
  /-- `New`: [callee, args...]; FlagHasArgs; type arguments. -/
  | newExpr
  /-- `Member`: [object, property]; FlagOptional. -/
  | member
  /-- `Index`: [object, index]; FlagOptional. -/
  | index
  /-- `OptChain`: [chain] top of a chain holding at least one ?.. -/
  | optChain
  /-- `Seq`: kids expressions. -/
  | seq
  /-- `Paren`: [expr]. -/
  | paren
  /-- `Await`: [arg]. -/
  | await
  /-- `Yield`: [arg?]; FlagDelegate. -/
  | yield
  /-- `This`, without slots. -/
  | thisExpr
  /-- `Super`, without slots. -/
  | superExpr
  /-- `MetaProp`: Text: new.target | import.meta. -/
  | metaProp
  /-- `ImportCall`: [source, options?]. -/
  | importCall
  /-- `Raw`: Text: JavaScript emitted verbatim (defines). -/
  | raw
  /-- `ArrayPattern`: kids Hole, RestElement or target. -/
  | arrayPattern
  /-- `ObjectPattern`: kids ObjProp (value is a target) or RestElement. -/
  | objectPattern
  /-- `AssignPattern`: [target, default]. -/
  | assignPattern
  /-- `RestElement`: [target]. -/
  | restElement
  /-- `JSXElement`: [name, attrs, children]; type arguments. -/
  | jsxElement
  /-- `JSXFragment`: [children]. -/
  | jsxFragment
  /-- `JSXAttrs`: kids JSXAttr, JSXSpreadAttr. -/
  | jsxAttrs
  /-- `JSXChildren`: kids JSXText, JSXExprContainer, JSXSpreadChild, JSXElement, JSXFragment. -/
  | jsxChildren
  /-- `JSXName`: Text: tag name, may contain '-' or ':'. -/
  | jsxName
  /-- `JSXMemberName`: [object, property]. -/
  | jsxMemberName
  /-- `JSXAttr`: [name, value?]. -/
  | jsxAttr
  /-- `JSXSpreadAttr`: [expr]. -/
  | jsxSpreadAttr
  /-- `JSXText`: Text: raw text. -/
  | jsxText
  /-- `JSXExprContainer`: [expr?]. -/
  | jsxExprContainer
  /-- `JSXSpreadChild`: [expr]. -/
  | jsxSpreadChild
  /-- `Decorator`: [expr]. -/
  | decorator
  /-- `As`: [expr]; Type. -/
  | asExpr
  /-- `Satisfies`: [expr]; Type. -/
  | satisfies
  /-- `TypeAssert`: [expr]; Type  (<T>expr). -/
  | typeAssert
  /-- `NonNull`: [expr]. -/
  | nonNull
  /-- `Instantiation`: [expr]; type arguments  (f<T>). -/
  | instantiation
  /-- `Interface`: [name, extends?, body]; type arguments. -/
  | interfaceDecl
  /-- `TypeAlias`: [name, type]; type arguments. -/
  | typeAlias
  /-- `ExportAsNamespace`: [name]. -/
  | exportAsNamespace
  /-- `TypeRef`: [name]; type arguments; name is Ident or TypeQualified. -/
  | typeRef
  /-- `TypeQualified`: [left, right]. -/
  | typeQualified
  /-- `TypeKeyword`: Text: any, number, string, void, .... -/
  | typeKeyword
  /-- `TypeUnion`: kids members. -/
  | typeUnion
  /-- `TypeIntersection`: kids members. -/
  | typeIntersection
  /-- `TypeArray`: [elem]. -/
  | typeArray
  /-- `TypeTuple`: kids elements. -/
  | typeTuple
  /-- `TypeNamedMember`: [name, type]; FlagOptional, FlagRest. -/
  | typeNamedMember
  /-- `TypeOptional`: [type]. -/
  | typeOptional
  /-- `TypeRest`: [type]. -/
  | typeRest
  /-- `TypeFunction`: [params]; Type: return; type arguments; FlagAbstract for constructor types. -/
  | typeFunction
  /-- `TypeConstructor`: [params]; Type: return; type arguments. -/
  | typeConstructor
  /-- `TypeLiteral`: kids members. -/
  | typeLiteral
  /-- `TypeProperty`: [key]; Type; FlagOptional, FlagReadonly, FlagComputed. -/
  | typeProperty
  /-- `TypeMethod`: [key, params]; Type: return; type arguments; FlagOptional. -/
  | typeMethod
  /-- `TypeCallSig`: [params]; Type: return; type arguments. -/
  | typeCallSig
  /-- `TypeConstructSig`: [params]; Type: return; type arguments. -/
  | typeConstructSig
  /-- `TypeIndexSig`: [param]; Type; FlagReadonly, FlagStatic. -/
  | typeIndexSig
  /-- `TypeLit`: [literal]. -/
  | typeLit
  /-- `TypeTemplate`: [quasi, type, quasi, ...]. -/
  | typeTemplate
  /-- `TypeQuery`: [name]; type arguments. -/
  | typeQuery
  /-- `TypeOperator`: Text: keyof|unique|readonly; [type]. -/
  | typeOperator
  /-- `TypeIndexed`: [object, index]. -/
  | typeIndexed
  /-- `TypeConditional`: [check, extends, true, false]. -/
  | typeConditional
  /-- `TypeInfer`: [param]. -/
  | typeInfer
  /-- `TypeMapped`: [param, nameType?, valueType?]; Text: readonly/optional modifiers. -/
  | typeMapped
  /-- `TypeParen`: [type]. -/
  | typeParen
  /-- `TypePredicate`: [name, type?]; FlagAsserts. -/
  | typePredicate
  /-- `TypeImport`: [source, qualifier?]; type arguments. -/
  | typeImport
  /-- `TypeParams`: kids TypeParam. -/
  | typeParams
  /-- `TypeParam`: [name, constraint?, default?]; Text: modifiers. -/
  | typeParam
  /-- `TypeArgs`: kids types. -/
  | typeArgs
  /-- `Heritage`: kids expressions with type arguments (implements / interface extends). -/
  | heritage
  /-- `IndexSignature`: class member [param]; Type. -/
  | indexSignature
  /-- `Overload`: function or method signature without body. -/
  | overload
  deriving DecidableEq, Repr, Inhabited

namespace NodeKind

/-- The name of a kind. -/
def name : NodeKind → Bytes
  | .invalid => "Invalid"
  | .program => "Program"
  | .exprStmt => "ExprStmt"
  | .varDecl => "VarDecl"
  | .declarator => "Declarator"
  | .funcDecl => "FuncDecl"
  | .classDecl => "ClassDecl"
  | .block => "Block"
  | .empty => "Empty"
  | .debugger => "Debugger"
  | .ifStmt => "If"
  | .forStmt => "For"
  | .forIn => "ForIn"
  | .forOf => "ForOf"
  | .whileStmt => "While"
  | .doWhile => "DoWhile"
  | .returnStmt => "Return"
  | .breakStmt => "Break"
  | .continueStmt => "Continue"
  | .throwStmt => "Throw"
  | .tryStmt => "Try"
  | .catchClause => "Catch"
  | .switchStmt => "Switch"
  | .caseClause => "Case"
  | .labeled => "Labeled"
  | .withStmt => "With"
  | .importDecl => "Import"
  | .importDefault => "ImportDefault"
  | .importNamespace => "ImportNamespace"
  | .importSpec => "ImportSpec"
  | .importEquals => "ImportEquals"
  | .externalRef => "ExternalRef"
  | .exportNamed => "ExportNamed"
  | .exportSpec => "ExportSpec"
  | .exportAll => "ExportAll"
  | .exportDecl => "ExportDecl"
  | .exportDefault => "ExportDefault"
  | .exportAssign => "ExportAssign"
  | .enumDecl => "Enum"
  | .enumMember => "EnumMember"
  | .namespaceDecl => "Namespace"
  | .classBody => "ClassBody"
  | .method => "Method"
  | .property => "Property"
  | .staticBlock => "StaticBlock"
  | .params => "Params"
  | .param => "Param"
  | .ident => "Ident"
  | .privateName => "PrivateName"
  | .literal => "Literal"
  | .template => "Template"
  | .templateElem => "TemplateElem"
  | .taggedTemplate => "TaggedTemplate"
  | .array => "Array"
  | .hole => "Hole"
  | .object => "Object"
  | .objProp => "ObjProp"
  | .spread => "Spread"
  | .funcExpr => "FuncExpr"
  | .arrow => "Arrow"
  | .classExpr => "ClassExpr"
  | .unary => "Unary"
  | .update => "Update"
  | .binary => "Binary"
  | .assign => "Assign"
  | .conditional => "Conditional"
  | .call => "Call"
  | .newExpr => "New"
  | .member => "Member"
  | .index => "Index"
  | .optChain => "OptChain"
  | .seq => "Seq"
  | .paren => "Paren"
  | .await => "Await"
  | .yield => "Yield"
  | .thisExpr => "This"
  | .superExpr => "Super"
  | .metaProp => "MetaProp"
  | .importCall => "ImportCall"
  | .raw => "Raw"
  | .arrayPattern => "ArrayPattern"
  | .objectPattern => "ObjectPattern"
  | .assignPattern => "AssignPattern"
  | .restElement => "RestElement"
  | .jsxElement => "JSXElement"
  | .jsxFragment => "JSXFragment"
  | .jsxAttrs => "JSXAttrs"
  | .jsxChildren => "JSXChildren"
  | .jsxName => "JSXName"
  | .jsxMemberName => "JSXMemberName"
  | .jsxAttr => "JSXAttr"
  | .jsxSpreadAttr => "JSXSpreadAttr"
  | .jsxText => "JSXText"
  | .jsxExprContainer => "JSXExprContainer"
  | .jsxSpreadChild => "JSXSpreadChild"
  | .decorator => "Decorator"
  | .asExpr => "As"
  | .satisfies => "Satisfies"
  | .typeAssert => "TypeAssert"
  | .nonNull => "NonNull"
  | .instantiation => "Instantiation"
  | .interfaceDecl => "Interface"
  | .typeAlias => "TypeAlias"
  | .exportAsNamespace => "ExportAsNamespace"
  | .typeRef => "TypeRef"
  | .typeQualified => "TypeQualified"
  | .typeKeyword => "TypeKeyword"
  | .typeUnion => "TypeUnion"
  | .typeIntersection => "TypeIntersection"
  | .typeArray => "TypeArray"
  | .typeTuple => "TypeTuple"
  | .typeNamedMember => "TypeNamedMember"
  | .typeOptional => "TypeOptional"
  | .typeRest => "TypeRest"
  | .typeFunction => "TypeFunction"
  | .typeConstructor => "TypeConstructor"
  | .typeLiteral => "TypeLiteral"
  | .typeProperty => "TypeProperty"
  | .typeMethod => "TypeMethod"
  | .typeCallSig => "TypeCallSig"
  | .typeConstructSig => "TypeConstructSig"
  | .typeIndexSig => "TypeIndexSig"
  | .typeLit => "TypeLit"
  | .typeTemplate => "TypeTemplate"
  | .typeQuery => "TypeQuery"
  | .typeOperator => "TypeOperator"
  | .typeIndexed => "TypeIndexed"
  | .typeConditional => "TypeConditional"
  | .typeInfer => "TypeInfer"
  | .typeMapped => "TypeMapped"
  | .typeParen => "TypeParen"
  | .typePredicate => "TypePredicate"
  | .typeImport => "TypeImport"
  | .typeParams => "TypeParams"
  | .typeParam => "TypeParam"
  | .typeArgs => "TypeArgs"
  | .heritage => "Heritage"
  | .indexSignature => "IndexSignature"
  | .overload => "Overload"

/-- The kinds of programs, in order. -/
def valueLevel : List NodeKind := [
  .invalid, .program, .exprStmt, .varDecl, .declarator, .funcDecl, .classDecl, .block, .empty,
  .debugger, .ifStmt, .forStmt, .forIn, .forOf, .whileStmt, .doWhile, .returnStmt, .breakStmt,
  .continueStmt, .throwStmt, .tryStmt, .catchClause, .switchStmt, .caseClause, .labeled,
  .withStmt, .importDecl, .importDefault, .importNamespace, .importSpec, .importEquals,
  .externalRef, .exportNamed, .exportSpec, .exportAll, .exportDecl, .exportDefault, .exportAssign,
  .enumDecl, .enumMember, .namespaceDecl, .classBody, .method, .property, .staticBlock, .params,
  .param, .ident, .privateName, .literal, .template, .templateElem, .taggedTemplate, .array,
  .hole, .object, .objProp, .spread, .funcExpr, .arrow, .classExpr, .unary, .update, .binary,
  .assign, .conditional, .call, .newExpr, .member, .index, .optChain, .seq, .paren, .await,
  .yield, .thisExpr, .superExpr, .metaProp, .importCall, .raw, .arrayPattern, .objectPattern,
  .assignPattern, .restElement, .jsxElement, .jsxFragment, .jsxAttrs, .jsxChildren, .jsxName,
  .jsxMemberName, .jsxAttr, .jsxSpreadAttr, .jsxText, .jsxExprContainer, .jsxSpreadChild,
  .decorator, .asExpr, .satisfies, .typeAssert, .nonNull, .instantiation]

/-- The kinds of the type level, in order. -/
def typeLevel : List NodeKind := [
  .interfaceDecl, .typeAlias, .exportAsNamespace, .typeRef, .typeQualified, .typeKeyword,
  .typeUnion, .typeIntersection, .typeArray, .typeTuple, .typeNamedMember, .typeOptional,
  .typeRest, .typeFunction, .typeConstructor, .typeLiteral, .typeProperty, .typeMethod,
  .typeCallSig, .typeConstructSig, .typeIndexSig, .typeLit, .typeTemplate, .typeQuery,
  .typeOperator, .typeIndexed, .typeConditional, .typeInfer, .typeMapped, .typeParen,
  .typePredicate, .typeImport, .typeParams, .typeParam, .typeArgs, .heritage, .indexSignature,
  .overload]

/-- Numbers the kinds: the value level, a gap of one, and the type level. -/
def ofNumber? (n : Nat) : Option NodeKind :=
  if n < valueLevel.length then valueLevel[n]?
  else if n = valueLevel.length then none
  else typeLevel[n - valueLevel.length - 1]?

/-- Whether the kind belongs to the type level. -/
def isType (k : NodeKind) : Bool := typeLevel.contains k

/-- Whether the kind makes a function scope. -/
def isFunction : NodeKind → Bool
  | .funcDecl | .funcExpr | .arrow | .method => true
  | _ => false

/-- Whether the kind wraps an expression only to say something about its type. -/
def isTypeWrapper : NodeKind → Bool
  | .asExpr | .satisfies | .typeAssert | .nonNull | .instantiation => true
  | _ => false

/-- Whether the kind is part of an element. -/
def isElementPart : NodeKind → Bool
  | .jsxElement | .jsxFragment | .jsxAttrs | .jsxChildren | .jsxName | .jsxMemberName | .jsxAttr
  | .jsxSpreadAttr | .jsxText | .jsxExprContainer | .jsxSpreadChild => true
  | _ => false

end NodeKind

end ScriptLower

import ScriptLower.Text.Bytes

/-!
# Kinds of tokens

Only reserved words have kinds of their own; a contextual keyword such as `async` or `type` is a
name, and the grammar decides what it means. A greater-than sign is always a token of one
character, so that nested type argument lists close; the longer operators that begin with it are
put together where an expression is read.
-/

namespace ScriptLower

/-- What a token is. -/
inductive TokenKind
  /-- No token: a fault was found here. -/
  | invalid
  /-- The end of the text. -/
  | eof
  /-- A name, contextual keywords included. -/
  | ident
  /-- A private member name, with its hash sign. -/
  | privateName
  /-- A number in any radix. -/
  | numberLit
  /-- An integer with the suffix `n`. -/
  | bigIntLit
  /-- A string in single or double quotes. -/
  | stringLit
  /-- A template without substitutions. -/
  | noSubstTemplate
  /-- A template up to its first substitution. -/
  | templateHead
  /-- A template between two substitutions. -/
  | templateMiddle
  /-- A template behind its last substitution. -/
  | templateTail
  /-- A regular expression with its flags. -/
  | regExpLit
  /-- Text between two tags. -/
  | jsxText
  /-- The mark `{`. -/
  | lBrace
  /-- The mark `}`. -/
  | rBrace
  /-- The mark `(`. -/
  | lParen
  /-- The mark `)`. -/
  | rParen
  /-- The mark `[`. -/
  | lBracket
  /-- The mark `]`. -/
  | rBracket
  /-- The mark `.`. -/
  | dot
  /-- The mark `...`. -/
  | dotDotDot
  /-- The mark `;`. -/
  | semicolon
  /-- The mark `,`. -/
  | comma
  /-- The mark `<`. -/
  | lt
  /-- The mark `>`. -/
  | gt
  /-- The mark `<=`. -/
  | ltEq
  /-- The mark `>=`. -/
  | gtEq
  /-- The mark `==`. -/
  | eqEq
  /-- The mark `!=`. -/
  | bangEq
  /-- The mark `===`. -/
  | eqEqEq
  /-- The mark `!==`. -/
  | bangEqEq
  /-- The mark `+`. -/
  | plus
  /-- The mark `-`. -/
  | minus
  /-- The mark `*`. -/
  | star
  /-- The mark `**`. -/
  | starStar
  /-- The mark `/`. -/
  | slash
  /-- The mark `%`. -/
  | percent
  /-- The mark `++`. -/
  | plusPlus
  /-- The mark `--`. -/
  | minusMinus
  /-- The mark `<<`. -/
  | shl
  /-- The mark `>>`. -/
  | shr
  /-- The mark `>>>`. -/
  | uShr
  /-- The mark `&`. -/
  | amp
  /-- The mark `|`. -/
  | pipe
  /-- The mark `^`. -/
  | caret
  /-- The mark `!`. -/
  | bang
  /-- The mark `~`. -/
  | tilde
  /-- The mark `&&`. -/
  | andAnd
  /-- The mark `||`. -/
  | orOr
  /-- The mark `??`. -/
  | questionQuestion
  /-- The mark `?`. -/
  | question
  /-- The mark `?.`. -/
  | questionDot
  /-- The mark `:`. -/
  | colon
  /-- The mark `@`. -/
  | atSign
  /-- The mark `=>`. -/
  | arrow
  /-- The mark `=`. -/
  | assign
  /-- The mark `+=`. -/
  | plusAssign
  /-- The mark `-=`. -/
  | minusAssign
  /-- The mark `*=`. -/
  | starAssign
  /-- The mark `**=`. -/
  | starStarAssign
  /-- The mark `/=`. -/
  | slashAssign
  /-- The mark `%=`. -/
  | percentAssign
  /-- The mark `<<=`. -/
  | shlAssign
  /-- The mark `>>=`. -/
  | shrAssign
  /-- The mark `>>>=`. -/
  | uShrAssign
  /-- The mark `&=`. -/
  | ampAssign
  /-- The mark `|=`. -/
  | pipeAssign
  /-- The mark `^=`. -/
  | caretAssign
  /-- The mark `&&=`. -/
  | andAndAssign
  /-- The mark `||=`. -/
  | orOrAssign
  /-- The mark `??=`. -/
  | questionQuestionAssign
  /-- The reserved word `break`. -/
  | kwBreak
  /-- The reserved word `case`. -/
  | kwCase
  /-- The reserved word `catch`. -/
  | kwCatch
  /-- The reserved word `class`. -/
  | kwClass
  /-- The reserved word `const`. -/
  | kwConst
  /-- The reserved word `continue`. -/
  | kwContinue
  /-- The reserved word `debugger`. -/
  | kwDebugger
  /-- The reserved word `default`. -/
  | kwDefault
  /-- The reserved word `delete`. -/
  | kwDelete
  /-- The reserved word `do`. -/
  | kwDo
  /-- The reserved word `else`. -/
  | kwElse
  /-- The reserved word `enum`. -/
  | kwEnum
  /-- The reserved word `export`. -/
  | kwExport
  /-- The reserved word `extends`. -/
  | kwExtends
  /-- The reserved word `false`. -/
  | kwFalse
  /-- The reserved word `finally`. -/
  | kwFinally
  /-- The reserved word `for`. -/
  | kwFor
  /-- The reserved word `function`. -/
  | kwFunction
  /-- The reserved word `if`. -/
  | kwIf
  /-- The reserved word `import`. -/
  | kwImport
  /-- The reserved word `in`. -/
  | kwIn
  /-- The reserved word `instanceof`. -/
  | kwInstanceof
  /-- The reserved word `new`. -/
  | kwNew
  /-- The reserved word `null`. -/
  | kwNull
  /-- The reserved word `return`. -/
  | kwReturn
  /-- The reserved word `super`. -/
  | kwSuper
  /-- The reserved word `switch`. -/
  | kwSwitch
  /-- The reserved word `this`. -/
  | kwThis
  /-- The reserved word `throw`. -/
  | kwThrow
  /-- The reserved word `true`. -/
  | kwTrue
  /-- The reserved word `try`. -/
  | kwTry
  /-- The reserved word `typeof`. -/
  | kwTypeof
  /-- The reserved word `var`. -/
  | kwVar
  /-- The reserved word `void`. -/
  | kwVoid
  /-- The reserved word `while`. -/
  | kwWhile
  /-- The reserved word `with`. -/
  | kwWith
  deriving DecidableEq, Repr, Inhabited

namespace TokenKind

/-- The spelling of a mark or a reserved word, and the name of any other kind. -/
def name : TokenKind → Bytes
  | invalid => "Invalid"
  | eof => "EOF"
  | ident => "Ident"
  | privateName => "PrivateName"
  | numberLit => "NumberLit"
  | bigIntLit => "BigIntLit"
  | stringLit => "StringLit"
  | noSubstTemplate => "NoSubstTemplate"
  | templateHead => "TemplateHead"
  | templateMiddle => "TemplateMiddle"
  | templateTail => "TemplateTail"
  | regExpLit => "RegExpLit"
  | jsxText => "JSXText"
  | lBrace => "\x7b"
  | rBrace => "\x7d"
  | lParen => "("
  | rParen => ")"
  | lBracket => "["
  | rBracket => "]"
  | dot => "."
  | dotDotDot => "..."
  | semicolon => ";"
  | comma => ","
  | lt => "<"
  | gt => ">"
  | ltEq => "<="
  | gtEq => ">="
  | eqEq => "=="
  | bangEq => "!="
  | eqEqEq => "==="
  | bangEqEq => "!=="
  | plus => "+"
  | minus => "-"
  | star => "*"
  | starStar => "**"
  | slash => "/"
  | percent => "%"
  | plusPlus => "++"
  | minusMinus => "--"
  | shl => "<<"
  | shr => ">>"
  | uShr => ">>>"
  | amp => "&"
  | pipe => "|"
  | caret => "^"
  | bang => "!"
  | tilde => "~"
  | andAnd => "&&"
  | orOr => "||"
  | questionQuestion => "??"
  | question => "?"
  | questionDot => "?."
  | colon => ":"
  | atSign => "@"
  | arrow => "=>"
  | assign => "="
  | plusAssign => "+="
  | minusAssign => "-="
  | starAssign => "*="
  | starStarAssign => "**="
  | slashAssign => "/="
  | percentAssign => "%="
  | shlAssign => "<<="
  | shrAssign => ">>="
  | uShrAssign => ">>>="
  | ampAssign => "&="
  | pipeAssign => "|="
  | caretAssign => "^="
  | andAndAssign => "&&="
  | orOrAssign => "||="
  | questionQuestionAssign => "??="
  | kwBreak => "break"
  | kwCase => "case"
  | kwCatch => "catch"
  | kwClass => "class"
  | kwConst => "const"
  | kwContinue => "continue"
  | kwDebugger => "debugger"
  | kwDefault => "default"
  | kwDelete => "delete"
  | kwDo => "do"
  | kwElse => "else"
  | kwEnum => "enum"
  | kwExport => "export"
  | kwExtends => "extends"
  | kwFalse => "false"
  | kwFinally => "finally"
  | kwFor => "for"
  | kwFunction => "function"
  | kwIf => "if"
  | kwImport => "import"
  | kwIn => "in"
  | kwInstanceof => "instanceof"
  | kwNew => "new"
  | kwNull => "null"
  | kwReturn => "return"
  | kwSuper => "super"
  | kwSwitch => "switch"
  | kwThis => "this"
  | kwThrow => "throw"
  | kwTrue => "true"
  | kwTry => "try"
  | kwTypeof => "typeof"
  | kwVar => "var"
  | kwVoid => "void"
  | kwWhile => "while"
  | kwWith => "with"

/-- All kinds in order. -/
def all : List TokenKind := [
  .invalid, .eof, .ident, .privateName, .numberLit, .bigIntLit, .stringLit, .noSubstTemplate,
  .templateHead, .templateMiddle, .templateTail, .regExpLit, .jsxText, .lBrace, .rBrace, .lParen,
  .rParen, .lBracket, .rBracket, .dot, .dotDotDot, .semicolon, .comma, .lt, .gt, .ltEq, .gtEq,
  .eqEq, .bangEq, .eqEqEq, .bangEqEq, .plus, .minus, .star, .starStar, .slash, .percent,
  .plusPlus, .minusMinus, .shl, .shr, .uShr, .amp, .pipe, .caret, .bang, .tilde, .andAnd, .orOr,
  .questionQuestion, .question, .questionDot, .colon, .atSign, .arrow, .assign, .plusAssign,
  .minusAssign, .starAssign, .starStarAssign, .slashAssign, .percentAssign, .shlAssign,
  .shrAssign, .uShrAssign, .ampAssign, .pipeAssign, .caretAssign, .andAndAssign, .orOrAssign,
  .questionQuestionAssign, .kwBreak, .kwCase, .kwCatch, .kwClass, .kwConst, .kwContinue,
  .kwDebugger, .kwDefault, .kwDelete, .kwDo, .kwElse, .kwEnum, .kwExport, .kwExtends, .kwFalse,
  .kwFinally, .kwFor, .kwFunction, .kwIf, .kwImport, .kwIn, .kwInstanceof, .kwNew, .kwNull,
  .kwReturn, .kwSuper, .kwSwitch, .kwThis, .kwThrow, .kwTrue, .kwTry, .kwTypeof, .kwVar, .kwVoid,
  .kwWhile, .kwWith]

/-- The reserved words with their kinds. -/
def keywords : List (String × TokenKind) := [
  ("break", .kwBreak),
  ("case", .kwCase),
  ("catch", .kwCatch),
  ("class", .kwClass),
  ("const", .kwConst),
  ("continue", .kwContinue),
  ("debugger", .kwDebugger),
  ("default", .kwDefault),
  ("delete", .kwDelete),
  ("do", .kwDo),
  ("else", .kwElse),
  ("enum", .kwEnum),
  ("export", .kwExport),
  ("extends", .kwExtends),
  ("false", .kwFalse),
  ("finally", .kwFinally),
  ("for", .kwFor),
  ("function", .kwFunction),
  ("if", .kwIf),
  ("import", .kwImport),
  ("in", .kwIn),
  ("instanceof", .kwInstanceof),
  ("new", .kwNew),
  ("null", .kwNull),
  ("return", .kwReturn),
  ("super", .kwSuper),
  ("switch", .kwSwitch),
  ("this", .kwThis),
  ("throw", .kwThrow),
  ("true", .kwTrue),
  ("try", .kwTry),
  ("typeof", .kwTypeof),
  ("var", .kwVar),
  ("void", .kwVoid),
  ("while", .kwWhile),
  ("with", .kwWith)]

/-- The kind of a reserved word. -/
def keyword? (s : Bytes) : Option TokenKind :=
  (keywords.find? fun p => Bytes.ofString p.1 == s).map (·.2)

/-- Words that no binding may have in strict code. -/
def strictReserved : List String :=
  ["implements", "interface", "let", "package", "private", "protected", "public", "static",
    "yield"]

/-- Whether a name cannot be bound in strict code. -/
def isStrictReserved (s : Bytes) : Bool := strictReserved.any fun w => Bytes.ofString w == s

/-- Whether the kind is a reserved word. -/
def isKeyword (k : TokenKind) : Bool := keywords.any (·.2 == k)

/-- Whether the kind is an assignment operator. -/
def isAssign : TokenKind → Bool
  | .assign | .plusAssign | .minusAssign | .starAssign | .starStarAssign |
      .slashAssign | .percentAssign | .shlAssign
  | .shrAssign | .uShrAssign | .ampAssign | .pipeAssign | .caretAssign | .andAndAssign |
    .orOrAssign | .questionQuestionAssign => true
  | _ => false

/-- Whether the kind may be a property name behind a dot. -/
def isPropertyName (k : TokenKind) : Bool := k == .ident || k.isKeyword

/-- Whether the kind is a complete literal value. -/
def isLiteral : TokenKind → Bool
  | .numberLit | .bigIntLit | .stringLit | .noSubstTemplate | .regExpLit | .kwTrue | .kwFalse
  | .kwNull => true
  | _ => false

/-- The binary operator of a compound assignment. -/
def compoundBase? : TokenKind → Option TokenKind
  | .plusAssign => some .plus
  | .minusAssign => some .minus
  | .starAssign => some .star
  | .starStarAssign => some .starStar
  | .slashAssign => some .slash
  | .percentAssign => some .percent
  | .shlAssign => some .shl
  | .shrAssign => some .shr
  | .uShrAssign => some .uShr
  | .ampAssign => some .amp
  | .pipeAssign => some .pipe
  | .caretAssign => some .caret
  | .andAndAssign => some .andAnd
  | .orOrAssign => some .orOr
  | .questionQuestionAssign => some .questionQuestion
  | _ => none

end TokenKind

end ScriptLower

/-!
## How tightly operators bind

Parser and printer read the same table, so they agree on where parentheses are needed.
-/

namespace ScriptLower.TokenKind

/-- How tightly a binary operator binds, from one on; zero for what is no binary operator. -/
def precedence : TokenKind → Nat
  | .questionQuestion => 1
  | .orOr => 2
  | .andAnd => 3
  | .pipe => 4
  | .caret => 5
  | .amp => 6
  | .eqEq | .bangEq | .eqEqEq | .bangEqEq => 7
  | .lt | .gt | .ltEq | .gtEq | .kwInstanceof | .kwIn => 8
  | .shl | .shr | .uShr => 9
  | .plus | .minus => 10
  | .star | .slash | .percent => 11
  | .starStar => 12
  | _ => 0

/-- How tightly the comparisons bind; type assertions bind as tightly. -/
def relational : Nat := 8

end ScriptLower.TokenKind

import ScriptLower.Text.Bytes

/-!
# Diagnostic codes

A code is a number; its thousands say which phase it belongs to. The named codes are the ones
the library reports. A number without a name still has an identifier and a category, since
reports may carry codes from elsewhere.
-/

namespace ScriptLower

/-- The number of a kind of diagnostic. -/
structure Code where
  /-- The number. -/
  number : Nat
  deriving DecidableEq, Repr, Inhabited

/-- The category of a diagnostic, by the phase that raises it. -/
inductive ErrorKind
  /-- No known category. -/
  | other
  /-- The text is not a program. -/
  | grammar
  /-- Lowering met what it cannot express. -/
  | lowering
  /-- Printing met what it cannot express. -/
  | printing
  /-- The options contradict each other or the input. -/
  | configuration
  deriving DecidableEq, Repr, Inhabited

/-- The name of the category in answers. -/
def ErrorKind.name : ErrorKind → Bytes
  | .other => "Error"
  | .grammar => "SyntaxError"
  | .lowering => "TransformInvariantError"
  | .printing => "EmitInvariantError"
  | .configuration => "ConfigurationError"

namespace Code

/-- Unknown error. -/
def unknown : Code := ⟨0⟩

/-- Lexical information. -/
def lexicalInfo : Code := ⟨1000⟩

/-- Unknown character. -/
def unknownCharacter : Code := ⟨1001⟩

/-- Unterminated string literal. -/
def unterminatedString : Code := ⟨1002⟩

/-- Unterminated block comment. -/
def unterminatedComment : Code := ⟨1003⟩

/-- Bad number literal. -/
def badNumber : Code := ⟨1004⟩

/-- Unterminated template literal. -/
def unterminatedTemplate : Code := ⟨1005⟩

/-- Unterminated regular expression. -/
def unterminatedRegExp : Code := ⟨1006⟩

/-- Invalid escape sequence. -/
def badEscape : Code := ⟨1007⟩

/-- Legacy octal literal in strict code. -/
def legacyOctal : Code := ⟨1008⟩

/-- Invalid UTF-8 sequence. -/
def malformedText : Code := ⟨1009⟩

/-- Syntax information. -/
def grammarInfo : Code := ⟨2000⟩

/-- Unexpected token. -/
def unexpectedToken : Code := ⟨2001⟩

/-- Expected semicolon. -/
def expectedSemicolon : Code := ⟨2002⟩

/-- Expected identifier. -/
def expectedIdentifier : Code := ⟨2003⟩

/-- Expected expression. -/
def expectedExpression : Code := ⟨2004⟩

/-- Expected type. -/
def expectedType : Code := ⟨2005⟩

/-- Unclosed parenthesis. -/
def unclosedParen : Code := ⟨2006⟩

/-- Unclosed brace. -/
def unclosedBrace : Code := ⟨2007⟩

/-- Unclosed bracket. -/
def unclosedBracket : Code := ⟨2008⟩

/-- Type syntax is not allowed in JavaScript. -/
def typesInScript : Code := ⟨2009⟩

/-- Unterminated JSX element. -/
def unterminatedElement : Code := ⟨2010⟩

/-- Mismatched JSX closing tag. -/
def mismatchedTag : Code := ⟨2011⟩

/-- JSX is not enabled for this dialect. -/
def elementsDisabled : Code := ⟨2012⟩

/-- Decorators are not enabled. -/
def decoratorsDisabled : Code := ⟨2013⟩

/-- Implementation not allowed in ambient context. -/
def ambientBody : Code := ⟨2014⟩

/-- Invalid assignment target. -/
def badAssignTarget : Code := ⟨2015⟩

/-- 'with' is not allowed in strict mode. -/
def strictWith : Code := ⟨2016⟩

/-- Deleting an identifier is not allowed in strict mode. -/
def strictDelete : Code := ⟨2017⟩

/-- Duplicate declaration. -/
def duplicateDeclaration : Code := ⟨2018⟩

/-- Modifier not allowed here. -/
def modifierNotAllowed : Code := ⟨2019⟩

/-- Rest element must be last. -/
def restNotLast : Code := ⟨2020⟩

/-- Unterminated type expression. -/
def unterminatedType : Code := ⟨2021⟩

/-- Unexpected end of input. -/
def unexpectedEnd : Code := ⟨2022⟩

/-- Import and export must be at top level. -/
def nestedModuleItem : Code := ⟨2023⟩

/-- Missing initializer in declaration. -/
def missingInitializer : Code := ⟨2024⟩

/-- Undefined label. -/
def undefinedLabel : Code := ⟨2025⟩

/-- Internal parser failure. -/
def parserFailure : Code := ⟨2099⟩

/-- Configuration information. -/
def configurationInfo : Code := ⟨3000⟩

/-- Dialect override conflicts with specifier. -/
def dialectConflict : Code := ⟨3001⟩

/-- JSX import source requires the automatic runtime. -/
def importSourceClassic : Code := ⟨3002⟩

/-- Unknown target version. -/
def unknownTarget : Code := ⟨3003⟩

/-- Invalid define replacement. -/
def badDefine : Code := ⟨3004⟩

/-- Invalid conditional strip expression. -/
def badStrip : Code := ⟨3005⟩

/-- Source text is not valid UTF-8. -/
def malformedSource : Code := ⟨3006⟩

/-- Unknown syntax dialect. -/
def unknownDialect : Code := ⟨3007⟩

/-- Unknown JSX runtime. -/
def unknownRuntime : Code := ⟨3008⟩

/-- Transform information. -/
def loweringInfo : Code := ⟨4000⟩

/-- Construct is not supported by the transform. -/
def unsupported : Code := ⟨4001⟩

/-- JSX pragma ignored. -/
def pragmaIgnored : Code := ⟨4002⟩

/-- Transform met an unknown node. -/
def unknownNode : Code := ⟨4003⟩

/-- Type syntax survived erasure. -/
def typeLeaked : Code := ⟨4004⟩

/-- Internal transform failure. -/
def loweringFailure : Code := ⟨4005⟩

/-- Generated binding could not be renamed. -/
def noFreeName : Code := ⟨4006⟩

/-- Emit information. -/
def printingInfo : Code := ⟨5000⟩

/-- Emitter met an unknown node. -/
def unprintableNode : Code := ⟨5001⟩

/-- Emitted text failed validation. -/
def badOutput : Code := ⟨5002⟩

/-- Source map registry mismatch. -/
def mapMismatch : Code := ⟨5003⟩

/-- Internal emit failure. -/
def printingFailure : Code := ⟨5004⟩

/-- Span outside of registered source. -/
def spanOutOfRange : Code := ⟨5005⟩

/-- Observability information. -/
def observationInfo : Code := ⟨6000⟩

/-- Pipeline timings. -/
def timings : Code := ⟨6001⟩

/-- What each named code stands for. -/
def titles : List (Code × String) := [
  (unknown, "Unknown error"),
  (lexicalInfo, "Lexical information"),
  (unknownCharacter, "Unknown character"),
  (unterminatedString, "Unterminated string literal"),
  (unterminatedComment, "Unterminated block comment"),
  (badNumber, "Bad number literal"),
  (unterminatedTemplate, "Unterminated template literal"),
  (unterminatedRegExp, "Unterminated regular expression"),
  (badEscape, "Invalid escape sequence"),
  (legacyOctal, "Legacy octal literal in strict code"),
  (malformedText, "Invalid UTF-8 sequence"),
  (grammarInfo, "Syntax information"),
  (unexpectedToken, "Unexpected token"),
  (expectedSemicolon, "Expected semicolon"),
  (expectedIdentifier, "Expected identifier"),
  (expectedExpression, "Expected expression"),
  (expectedType, "Expected type"),
  (unclosedParen, "Unclosed parenthesis"),
  (unclosedBrace, "Unclosed brace"),
  (unclosedBracket, "Unclosed bracket"),
  (typesInScript, "Type syntax is not allowed in JavaScript"),
  (unterminatedElement, "Unterminated JSX element"),
  (mismatchedTag, "Mismatched JSX closing tag"),
  (elementsDisabled, "JSX is not enabled for this dialect"),
  (decoratorsDisabled, "Decorators are not enabled"),
  (ambientBody, "Implementation not allowed in ambient context"),
  (badAssignTarget, "Invalid assignment target"),
  (strictWith, "'with' is not allowed in strict mode"),
  (strictDelete, "Deleting an identifier is not allowed in strict mode"),
  (duplicateDeclaration, "Duplicate declaration"),
  (modifierNotAllowed, "Modifier not allowed here"),
  (restNotLast, "Rest element must be last"),
  (unterminatedType, "Unterminated type expression"),
  (unexpectedEnd, "Unexpected end of input"),
  (nestedModuleItem, "Import and export must be at top level"),
  (missingInitializer, "Missing initializer in declaration"),
  (undefinedLabel, "Undefined label"),
  (parserFailure, "Internal parser failure"),
  (configurationInfo, "Configuration information"),
  (dialectConflict, "Dialect override conflicts with specifier"),
  (importSourceClassic, "JSX import source requires the automatic runtime"),
  (unknownTarget, "Unknown target version"),
  (badDefine, "Invalid define replacement"),
  (badStrip, "Invalid conditional strip expression"),
  (malformedSource, "Source text is not valid UTF-8"),
  (unknownDialect, "Unknown syntax dialect"),
  (unknownRuntime, "Unknown JSX runtime"),
  (loweringInfo, "Transform information"),
  (unsupported, "Construct is not supported by the transform"),
  (pragmaIgnored, "JSX pragma ignored"),
  (unknownNode, "Transform met an unknown node"),
  (typeLeaked, "Type syntax survived erasure"),
  (loweringFailure, "Internal transform failure"),
  (noFreeName, "Generated binding could not be renamed"),
  (printingInfo, "Emit information"),
  (unprintableNode, "Emitter met an unknown node"),
  (badOutput, "Emitted text failed validation"),
  (mapMismatch, "Source map registry mismatch"),
  (printingFailure, "Internal emit failure"),
  (spanOutOfRange, "Span outside of registered source"),
  (observationInfo, "Observability information"),
  (timings, "Pipeline timings")]

/-- The letters in front of a code, by its thousands. -/
def series (c : Code) : Option Bytes :=
  match c.number / 1000 with
  | 1 => some "LEX"
  | 2 => some "SYN"
  | 3 => some "CFG"
  | 4 => some "FLD"
  | 5 => some "EMT"
  | 6 => some "OBS"
  | _ => none

/-- The identifier of a code: the letters of its series and its number. -/
def id (c : Code) : Bytes :=
  match c.series with
  | some s => s ++ Bytes.ofNat c.number
  | none => "E0000"

/-- What a code stands for; a code without a name is an unknown error. -/
def title (c : Code) : Bytes :=
  match titles.find? (·.1 == c) with
  | some (_, t) => t
  | none => "Unknown error"

/-- A code with its identifier and title. -/
def text (c : Code) : Bytes := "[" ++ c.id ++ "]: " ++ c.title

/-- The category of a code. -/
def kind (c : Code) : ErrorKind :=
  match c.number / 1000 with
  | 1 | 2 => .grammar
  | 3 => .configuration
  | 4 => .lowering
  | 5 => .printing
  | _ => .other

end Code

end ScriptLower

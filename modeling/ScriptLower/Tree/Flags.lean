import ScriptLower.Text.Bytes

/-!
# Modifiers of tree nodes
-/

namespace ScriptLower

/-- The modifiers and variants of a node. -/
structure Flags where
  /-- An asynchronous function. -/
  async : Bool := false
  /-- A generator function. -/
  generator : Bool := false
  /-- A loop over an asynchronous iterator. -/
  awaits : Bool := false
  /-- A static member. -/
  isStatic : Bool := false
  /-- A key in brackets. -/
  computed : Bool := false
  /-- A property written as its name alone. -/
  shorthand : Bool := false
  /-- An optional link of a chain, or a question mark behind a name. -/
  optional : Bool := false
  /-- An update operator in front of its operand. -/
  prefixed : Bool := false
  /-- A yield that delegates. -/
  delegate : Bool := false
  /-- An arrow function whose body is an expression. -/
  exprBody : Bool := false
  /-- A construction with an argument list. -/
  hasArgs : Bool := false
  /-- An import or export of types alone. -/
  typeOnly : Bool := false
  /-- A declaration without an implementation. -/
  declared : Bool := false
  /-- A constant enumeration. -/
  isConst : Bool := false
  /-- An augmentation of the global scope. -/
  isGlobal : Bool := false
  /-- An abstract class or member. -/
  isAbstract : Bool := false
  /-- A member that is only read. -/
  isReadonly : Bool := false
  /-- A public member. -/
  isPublic : Bool := false
  /-- A private member. -/
  isPrivate : Bool := false
  /-- A protected member. -/
  isProtected : Bool := false
  /-- A member that overrides another. -/
  isOverride : Bool := false
  /-- A variable said to be assigned. -/
  definite : Bool := false
  /-- A parameter that takes the rest. -/
  rest : Bool := false
  /-- A field with generated accessors. -/
  accessor : Bool := false
  /-- A type predicate that asserts. -/
  asserts : Bool := false
  /-- A parameter that types the receiver. -/
  thisParam : Bool := false
  /-- A declaration exported as the default. -/
  isDefault : Bool := false
  /-- A node made by lowering. -/
  synth : Bool := false
  /-- A line end stood in front. -/
  newline : Bool := false
  /-- The expression stood in parentheses. -/
  inParens : Bool := false
  /-- A directive makes the code strict. -/
  strict : Bool := false
  deriving DecidableEq, Repr, Inhabited

namespace Flags

/-- No modifier. -/
def none : Flags := {}

/-- The modifiers of either. -/
def or (a b : Flags) : Flags where
  async := a.async || b.async
  generator := a.generator || b.generator
  awaits := a.awaits || b.awaits
  isStatic := a.isStatic || b.isStatic
  computed := a.computed || b.computed
  shorthand := a.shorthand || b.shorthand
  optional := a.optional || b.optional
  prefixed := a.prefixed || b.prefixed
  delegate := a.delegate || b.delegate
  exprBody := a.exprBody || b.exprBody
  hasArgs := a.hasArgs || b.hasArgs
  typeOnly := a.typeOnly || b.typeOnly
  declared := a.declared || b.declared
  isConst := a.isConst || b.isConst
  isGlobal := a.isGlobal || b.isGlobal
  isAbstract := a.isAbstract || b.isAbstract
  isReadonly := a.isReadonly || b.isReadonly
  isPublic := a.isPublic || b.isPublic
  isPrivate := a.isPrivate || b.isPrivate
  isProtected := a.isProtected || b.isProtected
  isOverride := a.isOverride || b.isOverride
  definite := a.definite || b.definite
  rest := a.rest || b.rest
  accessor := a.accessor || b.accessor
  asserts := a.asserts || b.asserts
  thisParam := a.thisParam || b.thisParam
  isDefault := a.isDefault || b.isDefault
  synth := a.synth || b.synth
  newline := a.newline || b.newline
  inParens := a.inParens || b.inParens
  strict := a.strict || b.strict

/-- Whether a member modifier of the type level is set: a visibility, read-only or override. -/
def hasAccess (f : Flags) : Bool :=
  f.isPublic || f.isPrivate || f.isProtected || f.isReadonly || f.isOverride

/-- The modifiers that mean something to a program that runs. -/
def runtime (f : Flags) : Flags :=
  { f with
    typeOnly := false, declared := false, isGlobal := false, isAbstract :=
      false, isReadonly := false,
    isPublic := false, isPrivate := false, isProtected := false, isOverride := false,
    definite := false, asserts := false, thisParam := false }

/-- The modifiers a dump shows, with their labels, in order. -/
def labels (f : Flags) : List Bytes :=
  ([
    (f.async, "async"),
    (f.generator, "generator"),
    (f.awaits, "await"),
    (f.isStatic, "static"),
    (f.computed, "computed"),
    (f.shorthand, "shorthand"),
    (f.optional, "optional"),
    (f.prefixed, "prefix"),
    (f.delegate, "delegate"),
    (f.exprBody, "expr-body"),
    (f.hasArgs, "args"),
    (f.typeOnly, "type-only"),
    (f.declared, "declare"),
    (f.isConst, "const"),
    (f.isGlobal, "global"),
    (f.isAbstract, "abstract"),
    (f.isReadonly, "readonly"),
    (f.isPublic, "public"),
    (f.isPrivate, "private"),
    (f.isProtected, "protected"),
    (f.isOverride, "override"),
    (f.definite, "definite"),
    (f.rest, "rest"),
    (f.accessor, "accessor"),
    (f.asserts, "asserts"),
    (f.thisParam, "this"),
    (f.isDefault, "default"),
    (f.synth, "synth")] : List (Bool × String)).filterMap
    fun p => if p.1 then some (Bytes.ofString p.2) else Option.none

/-- The modifier with a label; those a dump leaves out have labels too. -/
def ofLabel? : String → Option Flags
  | "async" => some { async := true }
  | "generator" => some { generator := true }
  | "await" => some { awaits := true }
  | "static" => some { isStatic := true }
  | "computed" => some { computed := true }
  | "shorthand" => some { shorthand := true }
  | "optional" => some { optional := true }
  | "prefix" => some { prefixed := true }
  | "delegate" => some { delegate := true }
  | "expr-body" => some { exprBody := true }
  | "args" => some { hasArgs := true }
  | "type-only" => some { typeOnly := true }
  | "declare" => some { declared := true }
  | "const" => some { isConst := true }
  | "global" => some { isGlobal := true }
  | "abstract" => some { isAbstract := true }
  | "readonly" => some { isReadonly := true }
  | "public" => some { isPublic := true }
  | "private" => some { isPrivate := true }
  | "protected" => some { isProtected := true }
  | "override" => some { isOverride := true }
  | "definite" => some { definite := true }
  | "rest" => some { rest := true }
  | "accessor" => some { accessor := true }
  | "asserts" => some { asserts := true }
  | "this" => some { thisParam := true }
  | "default" => some { isDefault := true }
  | "synth" => some { synth := true }
  | "newline" => some { newline := true }
  | "in-parens" => some { inParens := true }
  | "strict" => some { strict := true }
  | _ => Option.none

end Flags

end ScriptLower

import ScriptLower.Lower.Options
import ScriptLower.Dialect
import ScriptLower.Lower.Program
import ScriptLower.Diagnostic.Basic

/-!
# The options of a run
-/

namespace ScriptLower

/-- Whether and how a source map is made. -/
inductive MapMode
  /-- There is none. -/
  | none
  /-- It stands beside the code, which names it. -/
  | separate
  /-- It is part of the code. -/
  | inline
  deriving DecidableEq, Repr, Inhabited

namespace MapMode

/-- The name of a mode. -/
def name : MapMode → Bytes
  | none => "none"
  | separate => "separate"
  | inline => "inline"

/-- The words for each mode. -/
def words : List (String × MapMode) := [
  ("", none), ("none", none), ("false", none),
  ("separate", separate), ("true", separate), ("external", separate),
  ("inline", inline)]

/-- Reads a name, in any case; the error is the message. -/
def parse (s : Bytes) : Except Bytes MapMode :=
  let key := Words.lowerName (Words.trim s)
  match words.find? fun w => Bytes.ofString w.1 == key with
  | some (_, m) => .ok m
  | Option.none =>
    .error ("unknown source map mode " ++ Quoted.quote s ++ " (expected none|separate|inline)")

end MapMode

/-- The options of one run. -/
structure Options where
  /-- How elements are lowered. -/
  elements : ElementOptions := {}
  /-- Whether the output leaves out what it can. -/
  minify : Bool := false
  /-- The dialect asked for. -/
  dialect : Dialect := .none
  /-- The version the output must run on. -/
  target : Target := .unset
  /-- Whether the output keeps to ASCII. -/
  asciiOnly : Bool := false
  /-- Whether and how a source map is made. -/
  sourceMap : MapMode := .none
  /-- Whether decorators are accepted. -/
  decorators : Bool := false
  /-- Whether early errors of strict code are reported. -/
  strictEarlyErrors : Bool := false
  /-- Whether the tokens are kept. -/
  captureTokens : Bool := false
  /-- The tests of conditions to strip. -/
  stripConditionals : List Bytes := []
  /-- Names and the expressions that replace them. -/
  defines : List (Bytes × Bytes) := []
  /-- Whether unused imports stay. -/
  preserveImports : Bool := false
  /-- The limit of diagnostics; zero for the default. -/
  maxDiagnostics : Int := 0
  deriving DecidableEq, Repr, Inhabited

/-- The grammar of a dialect under some options. -/
def Options.grammar (o : Options) (d : Dialect) : Grammar :=
  { Grammar.ofDialect d with
    decorators := o.decorators, strictEarlyErrors := o.strictEarlyErrors }

end ScriptLower

/-!
## Checking the options

The options are checked against the specifier and the text before any work is done. Every fault is
reported, each as an error of the configuration.
-/

namespace ScriptLower

/-- What a run works with once its options are checked. -/
structure Configuration where
  /-- The dialect of the source. -/
  dialect : Dialect
  /-- How the tree is lowered. -/
  lowering : Lower.Settings
  deriving Inhabited

namespace Options

/-- The definitions in the order of their names, each read or refused. -/
def readDefines (o : Options) : List (Except Bytes Define) :=
  (o.defines.mergeSort fun a b => Bytes.le a.1 b.1).map fun (name, value) =>
    Define.parse name value

/-- The conditions to strip, each read or refused with its text. -/
def readConditionals (o : Options) : List (Except Bytes Conditional) :=
  o.stripConditionals.map Conditional.parse

/-- How a tree is lowered, with what could be read of the definitions and conditions. -/
def lowering (o : Options) : Lower.Settings :=
  { elements := o.elements
    target := o.target
    preserveImports := o.preserveImports
    defines := o.readDefines.filterMap fun r => r.toOption
    conditionals := o.readConditionals.filterMap fun r => r.toOption }

/-- The faults among the definitions and conditions. -/
def settingFaults (o : Options) : List (Code × Bytes) :=
  (o.readDefines.filterMap fun r => match r with
    | .error message => some (Code.badDefine, message)
    | .ok _ => none)
  ++ ((o.stripConditionals.zip o.readConditionals).filterMap fun (source, r) => match r with
    | .error message => some (Code.badStrip, "strip condition " ++ source ++ ": " ++ message)
    | .ok _ => none)

/-- All faults of the options for a specifier and a text. -/
def faults (o : Options) (specifier text : Bytes) : List (Code × Bytes) :=
  (match Dialect.resolve specifier o.dialect with
    | .error message => [(Code.dialectConflict, message)]
    | .ok _ => [])
  ++ (if Utf8.isValid text then []
    else [(Code.malformedSource, "source text of " ++ specifier ++ " is not valid UTF-8")])
  ++ (if o.elements.runtime == .classic && !o.elements.importSource.isEmpty then
      [(Code.importSourceClassic, Bytes.ofString "a JSX import source needs the automatic runtime")]
    else [])
  ++ (if o.target.isKnown then [] else [(Code.unknownTarget, "unknown target " ++ o.target.name)])
  ++ o.settingFaults

/-- The configuration, once there are no faults. -/
def configuration (o : Options) (specifier : Bytes) : Configuration :=
  { dialect := (Dialect.resolve specifier o.dialect).toOption.getD .none
    lowering := o.lowering }

end Options

end ScriptLower

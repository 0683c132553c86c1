import ScriptLower.Text.Words
import ScriptLower.Text.Quoted

/-!
# What lowering aims at

The target is the version of the language that the output must run on; the runtime says how
elements become calls.
-/

namespace ScriptLower

/-- A version of the language; a higher level is a later one. Level zero stands for the default,
and levels beyond the newest name no version. -/
structure Target where
  /-- The level. -/
  level : Nat
  deriving DecidableEq, Repr, Inhabited

namespace Target

/-- No choice. -/
def unset : Target := ⟨0⟩

/-- The version of 2015. -/
def es2015 : Target := ⟨1⟩

/-- The version of 2016, which has the power operator. -/
def es2016 : Target := ⟨2⟩

/-- The version of 2017, which has asynchronous functions. -/
def es2017 : Target := ⟨3⟩

/-- The version of 2018, which has object spread and asynchronous generators. -/
def es2018 : Target := ⟨4⟩

/-- The version of 2019, which has handlers without a binding. -/
def es2019 : Target := ⟨5⟩

/-- The version of 2020, which has optional chains and the nullish operator. -/
def es2020 : Target := ⟨6⟩

/-- The version of 2021, which has logical assignment and separators in numbers. -/
def es2021 : Target := ⟨7⟩

/-- The version of 2022, which has class fields and static blocks. -/
def es2022 : Target := ⟨8⟩

/-- Whatever comes next. -/
def esNext : Target := ⟨9⟩

/-- The target when none is chosen. -/
def default : Target := es2022

/-- The names of the versions, from the first level on. -/
def names : List String :=
  ["es2015", "es2016", "es2017", "es2018", "es2019", "es2020", "es2021", "es2022", "esnext"]

/-- Whether a target names a version or leaves the choice. -/
def isKnown (t : Target) : Bool := t.level ≤ names.length

/-- The name of a target. -/
def name (t : Target) : Bytes :=
  let t := if t = unset then default else t
  match names[t.level - 1]? with
  | some n => Bytes.ofString n
  | none => "Target(" ++ Bytes.ofNat t.level ++ ")"

/-- The target that is meant: the default when none is chosen. -/
def resolved (t : Target) : Target := if t = unset then default else t

/-- Whether a target comes before another, and so lacks what that one brought. -/
def before (t u : Target) : Bool := t.level < u.level

/-- Reads a name, in any case; nothing means the default. The error is the message. -/
def parse (s : Bytes) : Except Bytes Target :=
  let key := Words.lowerName (Words.trim s)
  if key.isEmpty then .ok default
  else if key == Bytes.ofString "es6" then .ok es2015
  else match names.findIdx? fun n => Bytes.ofString n == key with
    | some i => .ok ⟨i + 1⟩
    | none => .error ("unknown target " ++ Quoted.quote s)

end Target

/-- How elements become calls. -/
inductive Runtime
  /-- Calls of functions that are imported as they are needed. -/
  | automatic
  /-- Calls of a function in scope. -/
  | classic
  deriving DecidableEq, Repr, Inhabited

namespace Runtime

/-- The name of a runtime. -/
def name : Runtime → Bytes
  | automatic => "automatic"
  | classic => "classic"

/-- Reads a name, in any case; nothing means automatic. The error is the message. -/
def parse (s : Bytes) : Except Bytes Runtime :=
  let key := Words.lowerName (Words.trim s)
  if key.isEmpty || key == Bytes.ofString "automatic" then .ok automatic
  else if key == Bytes.ofString "classic" then .ok classic
  else .error ("unknown JSX runtime " ++ Quoted.quote s)

end Runtime

/-- How elements are lowered. -/
structure ElementOptions where
  /-- How they become calls. -/
  runtime : Runtime := .automatic
  /-- The package that the automatic runtime is imported from; empty for the default. -/
  importSource : Bytes := []
  /-- Whether calls tell where the element stands. -/
  development : Bool := false
  /-- The function that the classic runtime calls; empty for the default. -/
  factory : Bytes := []
  /-- What stands for a fragment in the classic runtime; empty for the default. -/
  fragment : Bytes := []
  deriving DecidableEq, Repr, Inhabited

/-- The options with the defaults filled in. -/
def ElementOptions.resolved (o : ElementOptions) : ElementOptions :=
  { o with
    importSource := if o.importSource.isEmpty then "react" else o.importSource
    factory := if o.factory.isEmpty then "React.createElement" else o.factory
    fragment := if o.fragment.isEmpty then "React.Fragment" else o.fragment }

end ScriptLower

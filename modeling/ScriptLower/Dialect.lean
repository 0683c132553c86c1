import ScriptLower.Source.Path
import ScriptLower.Text.Quoted
import ScriptLower.Text.Words

/-!
# Dialects

Which language a source is written in decides whether types and elements are allowed. The dialect
comes from an option or from the extension of the specifier.
-/

namespace ScriptLower

/-- The language a source is written in. -/
inductive Dialect
  /-- Not said; taken from the specifier. -/
  | none
  /-- With types. -/
  | ts
  /-- With types and elements. -/
  | tsx
  /-- With elements and without types. -/
  | jsx
  /-- Declarations alone. -/
  | dts
  deriving DecidableEq, Repr, Inhabited

namespace Dialect

/-- The name of a dialect. -/
def name : Dialect → Bytes
  | none => "none"
  | ts => "ts"
  | tsx => "tsx"
  | jsx => "jsx"
  | dts => "dts"

/-- The names an option may use. -/
def names : List (String × Dialect) := [
  ("", none), ("none", none), ("auto", none),
  ("ts", ts), ("typescript", ts), ("mts", ts), ("cts", ts),
  ("tsx", tsx),
  ("jsx", jsx), ("js", jsx), ("mjs", jsx), ("cjs", jsx), ("javascript", jsx),
  ("dts", dts), ("d.ts", dts)]

/-- Reads a name, in any case and with one leading dot; the error is the message. -/
def parse (s : Bytes) : Except Bytes Dialect :=
  let key := Words.lowerName (Bytes.trimPrefix "." (Words.trim s))
  match names.find? fun p => Bytes.ofString p.1 == key with
  | some (_, d) => .ok d
  | Option.none => .error ("unknown dialect " ++ Quoted.quote s)

/-- Whether types are allowed. -/
def allowsTypes : Dialect → Bool
  | ts | tsx | dts => true
  | none | jsx => false

/-- Whether elements are allowed. -/
def allowsElements : Dialect → Bool
  | tsx | jsx => true
  | none | ts | dts => false

/-- The path a specifier names: that of a URL with a scheme of more than one letter, and otherwise
the specifier up to a question mark or a hash sign. -/
def specifierPath (rootless : Bool) (s : Bytes) : Bytes :=
  let plain := s.takeWhile fun b => b != ascii '?' && b != ascii '#'
  match Location.parse? s with
  | some l =>
    if 1 < l.scheme.length then
      if rootless && l.path.isEmpty then l.rootless else l.path
    else plain
  | Option.none => plain

/-- Slashes for backslashes. -/
def slashes (s : Bytes) : Bytes := s.map fun b => if b == 92 then 47 else b

/-- The dialect that a specifier's extension names; types are assumed when it names none. -/
def ofSpecifier (s : Bytes) : Dialect :=
  let base := Bytes.lower (Path.base (slashes (specifierPath true s)))
  let ends (e : String) : Bool := (Bytes.ofString e).isSuffixOf base
  if ends ".d.ts" || ends ".d.mts" || ends ".d.cts" then dts
  else if ends ".tsx" then tsx
  else if ends ".jsx" || ends ".js" || ends ".mjs" || ends ".cjs" then jsx
  else ts

/-- The dialect of a source: the one asked for, or that of the specifier. Types cannot be asked for
where the specifier names a script. -/
def resolve (specifier : Bytes) (asked : Dialect) : Except Bytes Dialect :=
  let inferred := ofSpecifier specifier
  if asked == none then .ok inferred
  else if inferred == jsx && asked.allowsTypes then
    .error ("dialect " ++ asked.name ++ " conflicts with JavaScript specifier "
      ++ Quoted.quote specifier)
  else .ok asked

/-- The extension of the script made from a source, by the extension of the source. -/
def outputExtensions : List (String × String) :=
  [(".ts", ".js"), (".tsx", ".js"), (".jsx", ".js"), (".mts", ".mjs"), (".cts", ".cjs")]

/-- The name of the script made from a source. A declaration file keeps its name in front of the
new extension, and a script keeps its own. -/
def outputName (specifier : Bytes) : Bytes :=
  let p := slashes (specifierPath false specifier)
  let low := Bytes.lower p
  let ends (e : String) : Bool := (Bytes.ofString e).isSuffixOf low
  if ends ".d.ts" || ends ".d.mts" || ends ".d.cts" then p ++ ".js"
  else
    let ext := Path.ext low
    match outputExtensions.find? fun e => Bytes.ofString e.1 == ext with
    | some (_, js) => p.take (p.length - ext.length) ++ js
    | Option.none =>
      if [".js", ".mjs", ".cjs"].any fun e => Bytes.ofString e == ext then p else p ++ ".js"

end Dialect

/-- What the grammar accepts. -/
structure Grammar where
  /-- The dialect. -/
  dialect : Dialect := .none
  /-- Whether decorators are accepted. -/
  decorators : Bool := false
  /-- Whether only declarations are accepted. -/
  ambientOnly : Bool := false
  /-- Whether early errors of strict code are reported. -/
  strictEarlyErrors : Bool := false
  deriving DecidableEq, Repr, Inhabited

namespace Grammar

/-- The grammar of a dialect. -/
def ofDialect (d : Dialect) : Grammar := { dialect := d, ambientOnly := d == .dts }

/-- Whether types are accepted. -/
def types (g : Grammar) : Bool := g.dialect.allowsTypes

/-- Whether elements are accepted. -/
def elements (g : Grammar) : Bool := g.dialect.allowsElements

end Grammar

end ScriptLower

import ScriptLower.Disk.Basic
import ScriptLower.Pipeline.Options
import ScriptLower.Text.Glob
import ScriptLower.Toml.Reader

/-!
# Project manifests

A manifest says what a project is called, where its sources and its outputs are, and how the sources
are run. It is read in this order: the text must be a configuration text in which every known name
has a value of its kind, there must be a section for the package, and there must be no unknown
names. Sections and names are known in any case of their letters, but the package section only in
its own.
-/

namespace ScriptLower

/-- The file that describes a project. -/
def manifestName : Bytes := "mesozoic.toml"

/-- What a project says about itself. -/
structure Manifest where
  /-- The file. -/
  path : Bytes
  /-- The name of the project. -/
  name : Bytes := []
  /-- The directory of the sources, from that of the manifest. -/
  src : Bytes := "src"
  /-- The directory of the outputs, from that of the manifest. -/
  out : Bytes := "dist"
  /-- The version the outputs must run on, as written. -/
  target : Bytes := []
  /-- Whether outputs leave out what they can. -/
  minify : Bool := false
  /-- Whether and how source maps are made, as written. -/
  sourceMap : Bytes := []
  /-- Whether outputs keep to ASCII. -/
  asciiOnly : Bool := false
  /-- Whether unused imports stay. -/
  preserveImports : Bool := false
  /-- Whether decorators are accepted. -/
  decorators : Bool := false
  /-- Patterns of sources that are left out. -/
  exclude : List Bytes := []
  /-- How elements become calls, as written. -/
  runtime : Bytes := []
  /-- The package the automatic runtime is imported from. -/
  importSource : Bytes := []
  /-- Whether calls tell where an element stands. -/
  development : Bool := false
  /-- The function of the classic runtime. -/
  factory : Bytes := []
  /-- What stands for a fragment in the classic runtime. -/
  fragment : Bytes := []
  /-- Names and the expressions that replace them. -/
  defines : List (Bytes × Bytes) := []
  /-- The tests of conditions to strip. -/
  conditionals : List Bytes := []
  deriving Inhabited

namespace Manifest

/-- Why a manifest is no use. -/
inductive Fault
  /-- The text cannot be read, or a value is not of its kind. -/
  | malformed (path : Bytes)
  /-- There is no section for the package. -/
  | noPackage (path : Bytes)
  /-- There are names that nobody knows. -/
  | unknownNames (path : Bytes) (names : List (List Bytes))
  /-- An option has a value it cannot have. -/
  | badOption (path section_ key message : Bytes)
  /-- A directory is not given from that of the manifest. -/
  | notRelative (key value : Bytes)
  /-- A directory lies outside that of the manifest. -/
  | outside (key value : Bytes)
  /-- The directory of the sources is not there. -/
  | noSources (value : Bytes) (error : Disk.Error)
  /-- The directory of the sources is something else. -/
  | sourcesNotDirectory (value : Bytes)
  deriving DecidableEq, Repr, Inhabited

/-- A fault on one line. -/
def Fault.message : Fault → Bytes
  | malformed path => path ++ ": failed to parse TOML"
  | noPackage path => path ++ ": missing [package]"
  | unknownNames path names =>
    path ++ ": unknown keys: " ++ Bytes.join ", " (names.map Toml.showPath)
  | badOption path section_ key message =>
    path ++ ": [" ++ section_ ++ "]." ++ key ++ ": " ++ message
  | notRelative key value =>
    "invalid [build]." ++ key ++ " " ++ Quoted.quote value ++ ": must be relative"
  | outside key value =>
    "invalid [build]." ++ key ++ " " ++ Quoted.quote value ++ ": escapes project root"
  | noSources value error =>
    "invalid [build].src " ++ Quoted.quote value ++ ": " ++ error.message
  | sourcesNotDirectory value =>
    "invalid [build].src " ++ Quoted.quote value ++ ": missing [build].src"

/-! ## Reading -/

/-- The kind of value a name takes. -/
inductive FieldKind
  /-- A text. -/
  | text
  /-- A truth value. -/
  | truth
  /-- A list of texts. -/
  | texts
  deriving DecidableEq, Repr, Inhabited

/-- Whether a value is a text. -/
def isText : Toml.Value → Bool
  | .text _ => true
  | _ => false

/-- Whether a value is of a kind. -/
def FieldKind.accepts : FieldKind → Toml.Value → Bool
  | text, v => isText v
  | truth, .truth _ => true
  | texts, .list items => items.all isText
  | texts, .tables items => items.isEmpty
  | _, _ => false

/-- What a section holds. -/
inductive SectionKind
  /-- Known names, each of a kind. -/
  | fields (known : List (String × FieldKind))
  /-- Texts under any names. -/
  | texts
  deriving Inhabited

/-- The sections. -/
def sections : List (String × SectionKind) := [
  ("package", .fields [("name", .text)]),
  ("build", .fields [("src", .text), ("out", .text), ("target", .text), ("minify", .truth),
    ("source_map", .text), ("ascii_only", .truth), ("preserve_imports", .truth),
    ("decorators", .truth), ("exclude", .texts)]),
  ("jsx", .fields [("runtime", .text), ("import_source", .text), ("development", .truth),
    ("factory", .text), ("fragment", .text)]),
  ("define", .texts),
  ("strip", .fields [("conditionals", .texts)])]

/-- The entry a name stands for: its own, or the first that differs in case only. -/
def knownAs (known : List (String × α)) (name : Bytes) : Option (String × α) :=
  (known.find? fun e => Bytes.ofString e.1 == name).or
    (known.find? fun e => Words.isWord e.1 name)

/-- A value that was read, under the names of its section and its entry. -/
structure Setting where
  /-- The section. -/
  section_ : String
  /-- The name in the section, as it is known or, in a section of any names, as it is written. -/
  key : Bytes
  /-- The path as it is written. -/
  path : List Bytes
  /-- The value. -/
  value : Toml.Value
  deriving Inhabited

/-- The settings of a section; none when a value is not of its kind. -/
def readSection (section_ : String) (kind : SectionKind) (name : Bytes) (v : Toml.Value) :
    Option (List Setting) :=
  match kind, v with
  | .fields known, .table _ entries =>
    (entries.filterMap fun (key, value) =>
      (knownAs known key).map fun (k, kind) => (kind, Setting.mk section_ k [name, key] value)).mapM
      fun (kind, s) => if kind.accepts s.value then some s else none
  | .fields _, _ => none
  | .texts, .table _ entries =>
    entries.mapM fun (key, value) =>
      if isText value then some (Setting.mk section_ key [name, key] value) else none
  | .texts, _ => some []

/-- The settings of a document and the paths of the sections they stand in; none when a value is
not of its kind. -/
def readDocument (d : Toml.Document) : Option (List Setting × List (List Bytes)) := do
  let found := d.entries.filterMap fun (name, v) =>
    (knownAs sections name).map fun (s, kind) => (s, kind, name, v)
  let settings ← found.mapM fun (s, kind, name, v) => readSection s kind name v
  pure (settings.flatten, found.map fun (_, _, name, _) => [name])

/-- The names of a document that nobody knows. -/
def unknownNames (d : Toml.Document) (settings : List Setting) (known : List (List Bytes)) :
    List (List Bytes) :=
  d.names.filter fun path =>
    !known.contains path && !(settings.any fun s => s.path == path)

/-- The text of a setting; nothing when it is missing. -/
def textOf (settings : List Setting) (section_ key : String) : Bytes :=
  (settings.findSome? fun s =>
    if s.section_ == section_ && s.key == Bytes.ofString key then
      match s.value with
      | .text t => some t
      | _ => none
    else none).getD []

/-- The truth of a setting; false when it is missing. -/
def truthOf (settings : List Setting) (section_ key : String) : Bool :=
  settings.any fun s =>
    s.section_ == section_ && s.key == Bytes.ofString key
      && match s.value with
        | .truth b => b
        | _ => false

/-- The texts of a setting; none when it is missing. -/
def textsOf (settings : List Setting) (section_ key : String) : List Bytes :=
  (settings.findSome? fun s =>
    if s.section_ == section_ && s.key == Bytes.ofString key then
      match s.value with
      | .list items => some (items.filterMap fun v => match v with
        | .text t => some t
        | _ => none)
      | _ => none
    else none).getD []

/-- A value, or another when it is blank. -/
def orDefault (value other : Bytes) : Bytes := if (Words.trim value).isEmpty then other else value

/-- The manifest of the settings of a file. -/
def ofSettings (path : Bytes) (s : List Setting) : Manifest where
  path := path
  name := Words.trim (textOf s "package" "name")
  src := orDefault (textOf s "build" "src") "src"
  out := orDefault (textOf s "build" "out") "dist"
  target := textOf s "build" "target"
  minify := truthOf s "build" "minify"
  sourceMap := textOf s "build" "source_map"
  asciiOnly := truthOf s "build" "ascii_only"
  preserveImports := truthOf s "build" "preserve_imports"
  decorators := truthOf s "build" "decorators"
  exclude := textsOf s "build" "exclude"
  runtime := textOf s "jsx" "runtime"
  importSource := textOf s "jsx" "import_source"
  development := truthOf s "jsx" "development"
  factory := textOf s "jsx" "factory"
  fragment := textOf s "jsx" "fragment"
  defines := s.filterMap fun x =>
    if x.section_ == "define" then
      match x.value with
      | .text t => some (x.key, t)
      | _ => none
    else none
  conditionals := textsOf s "strip" "conditionals"

/-- Reads the text of a manifest. -/
def parse (path text : Bytes) : Except Fault Manifest :=
  match Toml.read text with
  | none => .error (.malformed path)
  | some d =>
    match readDocument d with
    | none => .error (.malformed path)
    | some (settings, known) =>
      if (d.entries.lookup (Bytes.ofString "package")).isNone then .error (.noPackage path)
      else match unknownNames d settings known with
        | [] => .ok (ofSettings path settings)
        | names => .error (.unknownNames path names)

/-! ## Use -/

/-- The directory of a manifest. -/
def root (m : Manifest) : Bytes := Path.dir m.path

/-- A setting read by a function that says why it refuses. -/
def option (m : Manifest) (section_ key : Bytes) (read : Bytes → Except Bytes α) (value : Bytes) :
    Except Fault α :=
  match read value with
  | .ok a => .ok a
  | .error message => .error (.badOption m.path section_ key message)

/-- How the sources of a project are run. -/
def options (m : Manifest) : Except Fault Options := do
  let target ← m.option "build" "target" Target.parse m.target
  let sourceMap ← m.option "build" "source_map" MapMode.parse m.sourceMap
  let runtime ← m.option "jsx" "runtime" Runtime.parse m.runtime
  let elements : ElementOptions :=
    { runtime := runtime, importSource := m.importSource, development := m.development
      factory := m.factory, fragment := m.fragment }
  return { elements := elements, minify := m.minify, target := target, asciiOnly := m.asciiOnly
           sourceMap := sourceMap, decorators := m.decorators
           stripConditionals := m.conditionals, defines := m.defines
           preserveImports := m.preserveImports }

/-- Whether a path does not lead out of a directory. -/
def isWithin (dir path : Bytes) : Bool :=
  !dir.isEmpty && !path.isEmpty && match Path.relative? dir path with
    | some rel => !Path.climbs rel
    | none => false

/-- A directory of the project. -/
def directory (m : Manifest) (key value : Bytes) : Except Fault Bytes :=
  let rel := Words.trim value
  if Path.isAbsolute rel then .error (.notRelative key rel)
  else
    let path := Path.join [m.root, Path.clean rel]
    if isWithin m.root path then .ok path else .error (.outside key rel)

/-- The directory of the outputs; it need not be there. -/
def outDirectory (m : Manifest) : Except Fault Bytes := m.directory "out" m.out

/-- The directory of the sources, which must be there. -/
def sourceDirectory {μ : Type → Type} [Monad μ] [Disk μ] (m : Manifest) :
    μ (Except Fault Bytes) := do
  match m.directory "src" m.src with
  | .error f => return .error f
  | .ok dir =>
    match ← Disk.kindOf dir with
    | .error r => return .error (.noSources m.src ⟨"stat", dir, r⟩)
    | .ok .file => return .error (.sourcesNotDirectory m.src)
    | .ok .directory => return .ok dir

/-- Whether a source is left out: a pattern matches its path or its name. -/
def excludes (m : Manifest) (rel : Bytes) : Bool :=
  m.exclude.any fun pattern => Glob.isMatch pattern rel || Glob.isMatch pattern (Path.base rel)

/-- The directories from one up to the root. -/
def climb (dir : Bytes) : List Bytes :=
  let es := Path.elements dir
  (List.range (es.length + 1)).reverse.map fun n => Path.ofElements true (es.take n)

/-- The manifest of the project that a directory belongs to, if there is one. -/
def find? {μ : Type → Type} [Monad μ] [Disk μ] (dir : Bytes) :
    μ (Except Disk.Error (Option Bytes)) := do
  let start := Path.absolute (← Disk.workDir) dir
  (climb start).foldlM (fun found d => do
    match found with
    | .ok none =>
      let candidate := Path.join [d, manifestName]
      match ← Disk.kindOf candidate with
      | .ok _ => return .ok (some candidate)
      | .error .missing => return .ok none
      | .error r => return .error ⟨"stat", candidate, r⟩
    | _ => return found) (.ok none)

end Manifest

end ScriptLower

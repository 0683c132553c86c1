import ScriptLower.Source.File
import ScriptLower.Text.Json
import ScriptLower.Text.Quoted
import ScriptLower.Token.Basic
import ScriptLower.Tree.Node

/-!
# Listings

Tokens and trees shown as they are.
-/

/-!
## Lists of tokens

Two renderings of a stream of tokens, up to and including the end of the text.
-/

namespace ScriptLower.Token

open ScriptLower

/-- The tokens up to and including the first end of the text. -/
def upToEnd : List Token → List Token
  | [] => []
  | t :: r => if t.kind == .eof then [t] else t :: upToEnd r

/-- The kinds of the trivia in front of a token. -/
def leadingNames (t : Token) : List Bytes := t.leading.map (·.kind.name)

/-- A place as line and column. -/
def placeText (p : LineCol) : Bytes := Bytes.ofNat p.line ++ ":" ++ Bytes.ofNat p.col

/-- The end of a span, but not before its start. -/
def spanEnd (s : Span) : Nat := max s.stop s.start

/-- One token on a line. -/
def listLine (file : SourceFile) (number : Nat) (t : Token) : Bytes :=
  let text : Bytes := if t.text.isEmpty then [] else ascii ' ' :: Quoted.quote t.text
  let leading : Bytes := match leadingNames t with
    | [] => []
    | names => " (leading: " ++ Bytes.join ", " names ++ ")"
  Bytes.padLeft 3 32 (Bytes.ofNat number) ++ ": " ++ Bytes.padRight 15 32 t.kind.name ++ text
    ++ " at " ++ placeText (file.lineCol t.span.start) ++ "-"
    ++ placeText (file.lineCol (spanEnd t.span)) ++ leading ++ "\n"

/-- The tokens as numbered lines, from a number on. -/
def listFrom (file : SourceFile) : Nat → List Token → Bytes
  | _, [] => []
  | n, t :: r => listLine file n t ++ listFrom file (n + 1) r

/-- The tokens as numbered lines. -/
def listing (file : SourceFile) (ts : List Token) : Bytes := listFrom file 1 (upToEnd ts)

/-- One token as an object, its place as offsets in the file. -/
def json (file : SourceFile) (t : Token) : JsonValue :=
  let p := file.lineCol t.span.start
  JsonValue.members [
    ("kind", some (.str t.kind.name)),
    ("text", JsonValue.nonempty t.text),
    ("start", some (.nat (file.offset t.span.start))),
    ("end", some (.nat (file.offset (spanEnd t.span)))),
    ("line", JsonValue.nonzero p.line),
    ("col", JsonValue.nonzero p.col),
    ("nl", JsonValue.whenTrue t.newline),
    ("leading", JsonValue.nonemptyList ((leadingNames t).map .str))]

/-- The tokens as a JSON text. -/
def jsonText (file : SourceFile) (ts : List Token) : Bytes :=
  (JsonValue.arr ((upToEnd ts).map (json file))).document

end ScriptLower.Token

/-!
## Showing a tree

Two renderings for people and tools: an indented list with one node a line, and nested JSON
objects. Both give the line and column of a node that has a place.
-/

namespace ScriptLower.Node

open ScriptLower

/-- The name of a mark. -/
def markName (m : Nat) : Bytes := if m = 0 then "#user" else ascii '#' :: Bytes.ofNat m

/-- The line of one node, without indentation. -/
def dumpHead (file : Option SourceFile) (h : Head) : Bytes :=
  h.kind.name
    ++ (if h.op != .invalid && h.kind != .literal then ascii ' ' :: h.op.name else [])
    ++ (if h.text.isEmpty then [] else ascii ' ' :: Quoted.quote h.text)
    ++ (if h.mark = 0 then [] else ascii ' ' :: markName h.mark)
    ++ (match h.flags.labels with
      | [] => []
      | ls => Bytes.ofString " [" ++ Bytes.join [ascii ','] ls ++ [ascii ']'])
    ++ (match file with
      | some f =>
        if h.span.isDummy then []
        else
          let p := f.lineCol h.span.start
          Bytes.ofString " @" ++ Bytes.ofNat p.line ++ ascii ':' :: Bytes.ofNat p.col
      | none => [])
    ++ [10]

/-- The indentation of a level. -/
def indent (level : Nat) : Bytes := List.replicate (2 * level) 32

mutual

/-- The lines of a tree; a label in front of the first says which slot it stands in. -/
def dumpAt (file : Option SourceFile) (label : String) (level : Nat) : Node → Bytes
  | absent => []
  | mk h ks ds t a x =>
    indent level ++ Bytes.ofString label ++ dumpHead file h
      ++ dumpDecos file (level + 1) ds
      ++ dumpAt file "<>: " (level + 1) a
      ++ dumpKids file (level + 1) ks
      ++ dumpAt file ": " (level + 1) t
      ++ dumpAt file "aux: " (level + 1) x

/-- The lines of the children; a dash stands for an absent one. -/
def dumpKids (file : Option SourceFile) (level : Nat) : List Node → Bytes
  | [] => []
  | absent :: r => indent level ++ ascii '-' :: 10 :: dumpKids file level r
  | n :: r => dumpAt file "" level n ++ dumpKids file level r

/-- The lines of the decorators. -/
def dumpDecos (file : Option SourceFile) (level : Nat) : List Node → Bytes
  | [] => []
  | n :: r => dumpAt file "@" level n ++ dumpDecos file level r

end

/-- The tree as an indented list. -/
def dump (file : Option SourceFile) (n : Node) : Bytes := dumpAt file "" 0 n

/-- The slots of a node's head as members of an object. -/
def jsonHead (file : Option SourceFile) (h : Head) : List (String × Option JsonValue) :=
  let place : LineCol := match file with
    | some f => if h.span.isDummy then {} else f.lineCol h.span.start
    | none => {}
  [("kind", JsonValue.nonempty h.kind.name),
   ("op", if h.op != .invalid && h.kind != .literal then some (.str h.op.name) else none),
   ("text", JsonValue.nonempty h.text),
   ("flags", JsonValue.nonemptyList (h.flags.labels.map .str)),
   ("line", JsonValue.nonzero place.line),
   ("col", JsonValue.nonzero place.col)]

mutual

/-- The tree as nested objects; nothing for an absent node. -/
def json? (file : Option SourceFile) : Node → Option JsonValue
  | absent => none
  | mk h ks ds t a x =>
    some (JsonValue.members (jsonHead file h ++
      [("decorators", JsonValue.nonemptyList (jsonDecos file ds)),
       ("type_params", json? file a),
       ("kids", JsonValue.nonemptyList (jsonKids file ks)),
       ("type", json? file t),
       ("aux", json? file x)]))

/-- The children as objects; an absent one says so. -/
def jsonKids (file : Option SourceFile) : List Node → List JsonValue
  | [] => []
  | n :: r => (json? file n).getD (.obj [("absent", .bool true)]) :: jsonKids file r

/-- The decorators as objects. -/
def jsonDecos (file : Option SourceFile) : List Node → List JsonValue
  | [] => []
  | n :: r => (json? file n).toList ++ jsonDecos file r

end

/-- The tree as a JSON text. -/
def jsonText (file : Option SourceFile) (n : Node) : Bytes :=
  ((json? file n).getD .null).document

/-! ## Checks on a whole tree -/

/-- Whether every span of a tree lies in a file and does not end before it starts, and the root
covers its children. -/
def spansWellFormed (file : SourceFile) (root : Node) : Bool :=
  root.isPresent
    && root.walk.all (fun n =>
      n.span.isDummy || (n.span.start ≤ n.span.stop && file.base ≤ n.span.start
        && n.span.stop ≤ file.endWord.toNat && n.span.file == file.id))
    && (root.span.isDummy ||
      let u := root.kids.foldl (fun s n => s.cover n.span) Span.none
      u.isDummy || (root.span.start ≤ u.start && u.stop ≤ root.span.stop))

/-- Whether no node of the type level is left. -/
def isErased (root : Node) : Bool :=
  root.walk.all fun n => !(n.kind.isType || n.kind.isTypeWrapper)

end ScriptLower.Node

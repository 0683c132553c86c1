import ScriptLower.Toml.Value

/-!
# Reading a configuration text

A document is a list of lines: names with values, and headings that open a table or add one to a
list of tables. The reader keeps the tables built so far, the path of the open table, and the names
in the order they stand. Every step takes something off the text, so its length bounds the steps.
-/

namespace ScriptLower.Toml

open ScriptLower

/-- Whether every character may stand in a document: UTF-8 without control characters, a carriage
return only in front of a line feed. -/
def isClean : Bytes → Bool
  | [] => true
  | 13 :: 10 :: r => isClean r
  | b :: r => (b == 9 || b == 10 || (32 ≤ b && b != 127)) && isClean r

/-- One part of a name. -/
def readPart (s : Bytes) : Option (Bytes × Bytes) :=
  match s with
  | 34 :: r => readBasic (s.length + 1) r
  | 39 :: r => readLiteral r
  | _ =>
    let word := s.takeWhile isBare
    if word.isEmpty then none else some (word, s.drop word.length)

/-- A name of parts between points, and what stands behind it and its blanks, in at most `fuel`
parts. -/
def readName : Nat → Bytes → Option (List Bytes × Bytes)
  | 0, _ => none
  | fuel + 1, s => do
    let (part, r) ← readPart (skipBlanks s)
    match skipBlanks r with
    | 46 :: r =>
      let (parts, r) ← readName fuel r
      pure (part :: parts, r)
    | r => pure ([part], r)

/-- What stands behind white space, line ends and comments. -/
def skipLines : Nat → Bytes → Bytes
  | 0, s => s
  | fuel + 1, s =>
    match s.dropWhile fun b => b == 32 || b == 9 || b == 10 || b == 13 with
    | 35 :: r => skipLines fuel (r.dropWhile (· != 10))
    | r => r

/-- Sets a name of parts in a document, below the path of the open table. -/
def Document.assign (d : Document) (path parts : List Bytes) (v : Value) : Option Document := do
  let last ← parts.getLast?
  let front := parts.dropLast
  let entries ← Entries.passAll path front d.entries
  let entries ← Entries.within (path ++ front) (Entries.set last v) entries
  pure { d with entries := entries }

/-- Notes a name. -/
def Document.note (d : Document) (path : List Bytes) : Document :=
  { d with names := d.names ++ [path] }

mutual

/-- A value, and the names inside it; `path` is the path of the value itself. -/
def readValue : Nat → List Bytes → Bytes → Option (Value × List (List Bytes) × Bytes)
  | 0, _, _ => none
  | fuel + 1, path, s =>
    match s with
    | 91 :: r => do
      let (items, names, r) ← readItems fuel path (skipLines fuel r)
      pure (.list items, names, r)
    | 0x7B :: r => do
      let (d, r) ← readInline fuel path {} true (skipBlanks r)
      pure (.table false d.entries, d.names, r)
    | 34 :: _ => (readString s).map fun (t, r) => (.text t, [], r)
    | 39 :: _ => (readString s).map fun (t, r) => (.text t, [], r)
    | _ => (readScalar s).map fun (v, r) => (v, [], r)

/-- The items of a list up to its bracket. -/
def readItems : Nat → List Bytes → Bytes → Option (List Value × List (List Bytes) × Bytes)
  | 0, _, _ => none
  | fuel + 1, path, s =>
    match s with
    | 93 :: r => some ([], [], r)
    | _ => do
      let (v, names, r) ← readValue fuel path s
      match skipLines fuel r with
      | 44 :: r =>
        let (items, more, r) ← readItems fuel path (skipLines fuel r)
        pure (v :: items, names ++ more, r)
      | 93 :: r => pure ([v], names, r)
      | _ => none

/-- The entries of a table on one line up to its brace; only an empty one may end at once. The
entries are built in a document of their own, whose names stand below `path`. -/
def readInline : Nat → List Bytes → Document → Bool → Bytes → Option (Document × Bytes)
  | 0, _, _, _, _ => none
  | fuel + 1, path, d, first, s =>
    match s with
    | 0x7D :: r => if first then some (d, r) else none
    | _ => do
      let (parts, r) ← readName fuel s
      let r ← Bytes.dropPrefix? "=" r
      let d := d.note (path ++ parts)
      let (v, names, r) ← readValue fuel (path ++ parts) (skipBlanks r)
      let d ← { d with names := d.names ++ names }.assign [] parts v
      match skipBlanks r with
      | 44 :: r => readInline fuel path d false (skipBlanks r)
      | 0x7D :: r => pure (d, r)
      | _ => none

end

/-- What stands behind the end of a line, which may hold a comment. -/
def lineEnd? (s : Bytes) : Option Bytes :=
  match skipBlanks s with
  | [] => some []
  | 10 :: r => some r
  | 13 :: 10 :: r => some r
  | 35 :: r => some (r.dropWhile (· != 10))
  | _ => none

/-- Opens the table of a heading, or adds one to a list of tables. -/
def Document.heading (d : Document) (path : List Bytes) (many : Bool) : Option Document := do
  let last ← path.getLast?
  let front := path.dropLast
  let entries ← Entries.parents [] front d.entries
  let entries ← Entries.within front
    (if many then Entries.addTable last else Entries.openTable last) entries
  pure ({ d with entries := entries }.note path)

/-- Reads lines below the path of the open table, in at most `fuel` steps. -/
def readLines : Nat → List Bytes → Document → Bytes → Option Document
  | 0, _, _, _ => none
  | fuel + 1, path, d, s =>
    match skipLines (s.length + 1) s with
    | [] => some d
    | 91 :: 91 :: r => do
      let (name, r) ← readName (s.length + 1) r
      let r ← Bytes.dropPrefix? "]]" r
      let d ← d.heading name true
      let r ← lineEnd? r
      readLines fuel name d r
    | 91 :: r => do
      let (name, r) ← readName (s.length + 1) r
      let r ← Bytes.dropPrefix? "]" r
      let d ← d.heading name false
      let r ← lineEnd? r
      readLines fuel name d r
    | r => do
      let (parts, r) ← readName (s.length + 1) r
      let r ← Bytes.dropPrefix? "=" r
      let d := d.note (path ++ parts)
      let (v, names, r) ← readValue (s.length + 1) (path ++ parts) (skipBlanks r)
      let d ← { d with names := d.names ++ names }.assign path parts v
      let r ← lineEnd? r
      readLines fuel path d r

/-- The text without a mark of its encoding. -/
def withoutMark : Bytes → Bytes
  | 0xEF :: 0xBB :: 0xBF :: r => r
  | 0xFF :: 0xFE :: r => r
  | 0xFE :: 0xFF :: r => r
  | s => s

/-- Reads a document; none when the text is not one. -/
def read (s : Bytes) : Option Document :=
  let s := withoutMark s
  if Utf8.isValid s && isClean s then readLines (s.length + 1) [] {} s else none

end ScriptLower.Toml

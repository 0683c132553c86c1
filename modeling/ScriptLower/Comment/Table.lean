import ScriptLower.Token.Basic

/-!
# Comments that survive

A comment hangs off a position: a leading comment off the first position of the statement it
stands before, a dangling one off the closing brace or the end of the text it stands before.
Lowering moves and drops them, printing takes them, so each is printed at most once. Dropping
keeps the comments that must survive.
-/

namespace ScriptLower

/-- A comment kept for the output. -/
structure Comment where
  /-- Its text, without blanks at the end. -/
  text : Bytes
  /-- Where it stands. -/
  span : Span
  /-- Whether it stands between two marks. -/
  block : Bool := false
  /-- Whether it must survive minification. -/
  legal : Bool := false
  /-- Whether it is the interpreter line. -/
  hashbang : Bool := false
  deriving DecidableEq, Repr, Inhabited

/-- The comment of a piece of trivia. -/
def Comment.ofTrivia (t : Trivia) : Comment :=
  { text := Bytes.trimRight (fun b => b == 32 || b == 9) t.text
    span := t.span
    block := t.kind == .blockComment
    legal := t.isLegal
    hashbang := t.kind == .hashbang }

/-- Comments by the position they hang off. -/
abbrev CommentMap := List (Nat × List Comment)

namespace CommentMap

/-- The comments at a position. -/
def at? (m : CommentMap) (pos : Nat) : Option (List Comment) := (m.find? (·.1 == pos)).map (·.2)

/-- The map without a position. -/
def erase (m : CommentMap) (pos : Nat) : CommentMap := m.filter (·.1 != pos)

/-- The map with other comments at a position. -/
def set (m : CommentMap) (pos : Nat) (cs : List Comment) : CommentMap :=
  if m.any (·.1 == pos) then m.map fun e => if e.1 == pos then (pos, cs) else e
  else m ++ [(pos, cs)]

/-- All comments. -/
def all (m : CommentMap) : List Comment := m.flatMap (·.2)

end CommentMap

/-- The comments of one source. -/
structure CommentTable where
  /-- Comments before a statement. -/
  leading : CommentMap := []
  /-- Comments before a closing brace or the end of the text. -/
  dangling : CommentMap := []
  deriving Repr, Inhabited

namespace CommentTable

/-- The comments among some trivia. -/
def ofTrivia (ts : List Trivia) : List Comment :=
  (ts.filter Trivia.isComment).map Comment.ofTrivia

/-- Adds comments to a map behind those already at the position. -/
def addTo (m : CommentMap) (pos : Nat) (ts : List Trivia) : CommentMap :=
  let cs := ofTrivia ts
  if pos = 0 || cs.isEmpty then m else m.set pos (((m.at? pos).getD []) ++ cs)

/-- Records the comments before a statement. -/
def addLeading (t : CommentTable) (pos : Nat) (ts : List Trivia) : CommentTable :=
  { t with leading := addTo t.leading pos ts }

/-- Records the comments before a closing brace or the end of the text. -/
def addDangling (t : CommentTable) (pos : Nat) (ts : List Trivia) : CommentTable :=
  { t with dangling := addTo t.dangling pos ts }

/-- The leading comments of a position, and the table without them. -/
def takeLeading (t : CommentTable) (pos : Nat) : List Comment × CommentTable :=
  ((t.leading.at? pos).getD [], { t with leading := t.leading.erase pos })

/-- The dangling comments of a position, and the table without them. -/
def takeDangling (t : CommentTable) (pos : Nat) : List Comment × CommentTable :=
  ((t.dangling.at? pos).getD [], { t with dangling := t.dangling.erase pos })

/-- Hangs the leading comments of one position in front of those of another. Moving them to no
position loses them. -/
def move (t : CommentTable) (src dst : Nat) : CommentTable :=
  if src = dst then t
  else match t.leading.at? src with
    | none => t
    | some cs =>
      let m := t.leading.erase src
      if dst = 0 then { t with leading := m }
      else { t with leading := m.set dst (cs ++ ((m.at? dst).getD [])) }

/-- Whether dropping keeps a comment. -/
def survives (c : Comment) : Bool := c.legal || c.hashbang

/-- Removes the leading comments of a position, except those that must survive. -/
def drop (t : CommentTable) (pos : Nat) : CommentTable :=
  match t.leading.at? pos with
  | none => t
  | some cs =>
    match cs.filter survives with
    | [] => { t with leading := t.leading.erase pos }
    | kept => { t with leading := t.leading.set pos kept }

/-- The number of comments held. -/
def size (t : CommentTable) : Nat := t.leading.all.length + t.dangling.all.length

/-- All comments held, by position. -/
def all (t : CommentTable) : List Comment :=
  (t.leading.all ++ t.dangling.all).mergeSort fun a b => a.span.start ≤ b.span.start

end CommentTable

end ScriptLower

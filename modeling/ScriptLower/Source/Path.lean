import ScriptLower.Text.Bytes

/-!
# Paths and locations

How a source is named: by a path, or by a location whose path counts.
-/

/-!
## Slash-separated paths

Paths are texts of elements between slashes. `clean` gives the shortest path that names the same
place: no empty or `.` elements, and `..` only at the front of a relative path.
-/

namespace ScriptLower.Path

open ScriptLower

/-- The slash. -/
def slash : UInt8 := 47

/-- Whether a path starts at the root. -/
def isAbsolute (p : Bytes) : Bool := p.head? == some slash

/-- Applies one element to the elements before it, which stand in reverse. -/
def push (rooted : Bool) (done : List Bytes) (e : Bytes) : List Bytes :=
  if e.isEmpty || e == Bytes.ofString "." then done
  else if e == Bytes.ofString ".." then
    match done with
    | [] => if rooted then [] else [e]
    | d :: rest => if d == Bytes.ofString ".." then e :: done else rest
  else e :: done

/-- The elements of the cleaned path. -/
def elements (p : Bytes) : List Bytes :=
  ((Bytes.splitOn slash p).foldl (push (isAbsolute p)) []).reverse

/-- The path of a list of elements. -/
def ofElements (rooted : Bool) (es : List Bytes) : Bytes :=
  let body := Bytes.join [slash] es
  if rooted then slash :: body else if es.isEmpty then "." else body

/-- The shortest path that names the same place; the empty path is the current directory. -/
def clean (p : Bytes) : Bytes := ofElements (isAbsolute p) (elements p)

/-- The last element; the root is its own, and the empty path is the current directory. -/
def base (p : Bytes) : Bytes :=
  if p.isEmpty then "."
  else
    let q := Bytes.trimRight (· == slash) p
    if q.isEmpty then "/"
    else (q.reverse.takeWhile (· != slash)).reverse

/-- All but the last element, cleaned. -/
def dir (p : Bytes) : Bytes := clean (p.reverse.dropWhile (· != slash)).reverse

/-- The suffix from the last dot of the last element, or nothing. -/
def ext (p : Bytes) : Bytes :=
  let last := (p.reverse.takeWhile (· != slash)).reverse
  match Bytes.lastIndexOf? 46 last with
  | some i => last.drop i
  | none => []

/-- The elements one after the other, empty ones left out, cleaned. -/
def join (ps : List Bytes) : Bytes :=
  match ps.filter (!·.isEmpty) with
  | [] => []
  | qs => clean (Bytes.join [slash] qs)

/-- Strips the common front of two lists. -/
def stripCommon : List Bytes → List Bytes → List Bytes × List Bytes
  | a :: as, b :: bs => if a == b then stripCommon as bs else (a :: as, b :: bs)
  | as, bs => (as, bs)

/-- The path that leads from `start` to `goal`, when both start at the same place and none of the
elements to climb over is unknown. -/
def relative? (start goal : Bytes) : Option Bytes :=
  if isAbsolute start != isAbsolute goal then none
  else
    let (up, down) := stripCommon (elements start) (elements goal)
    if up.contains (Bytes.ofString "..") then none
    else some (ofElements false (List.replicate up.length (Bytes.ofString "..") ++ down))

/-- Whether a relative path leads out of its base. -/
def climbs (p : Bytes) : Bool := p == Bytes.ofString ".." || (Bytes.ofString "../").isPrefixOf p

/-- An absolute path: a relative one is taken from the directory `cwd`. -/
def absolute (cwd p : Bytes) : Bytes := if isAbsolute p then clean p else join [cwd, p]

end ScriptLower.Path

/-!
## Locations

A module specifier may be a URL. What matters of it is its scheme and its path: everything behind
a question mark or a hash sign is dropped, percent escapes are decoded, and a text that is no URL
is refused, so that the caller can take it for a plain path.
-/

namespace ScriptLower

/-- The parts of a URL that name a file. -/
structure Location where
  /-- The scheme, empty for none. -/
  scheme : Bytes := []
  /-- The path, decoded. -/
  path : Bytes := []
  /-- What follows the scheme when that is no path from the root. -/
  rootless : Bytes := []
  deriving DecidableEq, Repr, Inhabited

namespace Location

/-- Where a percent escape stands; the authority of a URL takes fewer characters. -/
inductive Part
  /-- In the path, the fragment or the user. -/
  | plain
  /-- In the host. -/
  | host
  /-- In the zone of a host address. -/
  | zone
  deriving DecidableEq

/-- A character that a host may hold as it is. -/
def isHostByte (b : UInt8) : Bool :=
  Bytes.isAlpha b || Bytes.isDigit b || 0x80 ≤ b
    || (Bytes.ofString "-_.~!$&'()*+,;=:[]<>\"").contains b

/-- Decodes percent escapes; `skip` bytes belong to the escape before. None for a broken escape or
a character the part does not take. -/
def unescapeFrom (part : Part) : Nat → Bytes → Option Bytes
  | _, [] => some []
  | skip + 1, _ :: r => unescapeFrom part skip r
  | 0, b :: r =>
    if b == ascii '%' then
      match r with
      | h :: l :: _ =>
        match Bytes.toNatBase? 16 [h], Bytes.toNatBase? 16 [l] with
        | some x, some y =>
          let v := x * 16 + y
          if part == .host && x < 8 && v != 0x25 then none
          else (unescapeFrom part 2 r).map (v.toUInt8 :: ·)
        | _, _ => none
      | _ => none
    else if part != .plain && !isHostByte b then none
    else (unescapeFrom part 0 r).map (b :: ·)

/-- Decodes percent escapes. -/
def unescape? (part : Part) (s : Bytes) : Option Bytes := unescapeFrom part 0 s

/-- Splits a scheme off. The outer option is refused for a text that begins with a colon. -/
def scheme? (s : Bytes) : Option (Bytes × Bytes) :=
  let isSchemeByte (b : UInt8) : Bool :=
    Bytes.isAlpha b || Bytes.isDigit b || b == ascii '+' || b == ascii '-' || b == ascii '.'
  let front := s.takeWhile isSchemeByte
  match s.drop front.length with
  | b :: r =>
    if b == ascii ':' then
      if front.isEmpty then none
      else if front.head?.any Bytes.isAlpha then some (Bytes.lower front, r)
      else some ([], s)
    else some ([], s)
  | [] => some ([], s)

/-- Whether a text is empty or a colon and digits. -/
def isPort : Bytes → Bool
  | [] => true
  | b :: r => b == ascii ':' && r.all Bytes.isDigit

/-- Whether a host is well-formed. -/
def isHost (host : Bytes) : Bool :=
  if host.head? == some (ascii '[') then
    match Bytes.lastIndexOf? (ascii ']') host with
    | none => false
    | some i =>
      isPort (host.drop (i + 1)) &&
        match Bytes.indexOf? "%25" (host.take i) with
        | some z =>
          (unescape? .host (host.take z)).isSome
            && (unescape? .zone ((host.take i).drop z)).isSome
            && (unescape? .host (host.drop i)).isSome
        | none => (unescape? .host host).isSome
  else
    (match Bytes.lastIndexOf? (ascii ':') host with
      | some i => isPort (host.drop i)
      | none => true)
    && (unescape? .host host).isSome

/-- Whether the authority of a URL, an optional user and a host, is well-formed. -/
def isAuthority (s : Bytes) : Bool :=
  match Bytes.lastIndexOf? (ascii '@') s with
  | none => isHost s
  | some i =>
    let user := s.take i
    isHost (s.drop (i + 1))
      && user.all (fun b => Bytes.isAlpha b || Bytes.isDigit b
        || (Bytes.ofString "-._:~!$&'()*+,;=%@").contains b)
      && (unescape? .plain user).isSome

/-- Reads a URL or a relative reference; none when it is neither. -/
def parse? (s : Bytes) : Option Location := do
  let (body, fragment) := (Bytes.cut? "#" s).getD (s, [])
  guard ((unescape? .plain fragment).isSome)
  guard (body.all fun b => 0x20 ≤ b && b != 0x7F)
  if body == Bytes.ofString "*" then return { path := body }
  let (scheme, rest) ← scheme? body
  let rest := ((Bytes.cut? "?" rest).map (·.1)).getD rest
  let slash : UInt8 := 47
  if rest.head? != some slash then
    if !scheme.isEmpty then return { scheme := scheme, rootless := rest }
    guard (!(rest.takeWhile (· != slash)).contains (ascii ':'))
  let double := (Bytes.ofString "//").isPrefixOf rest
  let triple := (Bytes.ofString "///").isPrefixOf rest
  if double && (!scheme.isEmpty || !triple) then
    let authority := (rest.drop 2).takeWhile (· != slash)
    guard (isAuthority authority)
    let path ← unescape? .plain ((rest.drop 2).drop authority.length)
    return { scheme := scheme, path := path }
  let path ← unescape? .plain rest
  return { scheme := scheme, path := path }

end Location

end ScriptLower

import ScriptLower.Text.Bytes

/-!
# Generated names

Lowering asks for names that the source does not use. While it works, a generated name is a mark
with a wish; at the end each mark gets the name it wished for, or that name with the least number
behind it that makes it free, in the order in which the marks were issued.
-/

namespace ScriptLower

/-- The marks issued so far: mark `i + 1` wishes for the name at index `i`. -/
structure NameSupply where
  /-- The wishes, in order of issue. -/
  wishes : List Bytes := []
  deriving DecidableEq, Repr, Inhabited

namespace NameSupply

/-- Issues a mark for a name that wants to be called `wish`. -/
def fresh (s : NameSupply) (wish : Bytes) : Nat × NameSupply :=
  (s.wishes.length + 1, { wishes := s.wishes ++ [wish] })

/-- The wish of a mark; nothing for a mark that was not issued. -/
def wish (s : NameSupply) (mark : Nat) : Bytes :=
  if mark = 0 then [] else s.wishes.getD (mark - 1) []

/-- How many marks were issued. -/
def issued (s : NameSupply) : Nat := s.wishes.length

/-- The `i`-th spelling tried for a wish. -/
def spelling (wish : Bytes) (i : Nat) : Bytes := if i = 0 then wish else wish ++ Bytes.ofNat i

/-- The first spelling of a wish that is not used. One more spelling than names used is enough,
since the spellings differ from each other. -/
def free (used : List Bytes) (wish : Bytes) : Bytes :=
  ((List.range (used.length + 1)).map (spelling wish)).find? (fun n => !used.contains n)
    |>.getD wish

/-- The names of some wishes, one after the other. -/
def resolveFrom (used : List Bytes) : List Bytes → List Bytes
  | [] => []
  | w :: ws =>
    let n := free used w
    n :: resolveFrom (n :: used) ws

/-- The final names of all marks, in order of issue, when the source uses `taken`. -/
def resolve (s : NameSupply) (taken : List Bytes) : List Bytes := resolveFrom taken s.wishes

end NameSupply

end ScriptLower

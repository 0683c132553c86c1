import ScriptLower.Lower.Options
import ScriptLower.Tree.Node

/-!
# Which names a program uses as values

An import stays only when its name is used as a value, and a name that exists only at the type
level is not exported. Both are decided by name alone, for the whole file.
-/

namespace ScriptLower.Lower

open ScriptLower

/-- Whether a tag names an element of the page and not a component: it begins with a small letter,
or has a hyphen or a colon. -/
def isIntrinsicTag (name : Bytes) : Bool :=
  match name with
  | [] => false
  | c :: _ =>
    name != Bytes.ofString "this"
      && ((97 ≤ c && c ≤ 122) || name.any fun b => b == ascii '-' || b == ascii ':')

/-! ## Uses -/

/-- What a tree uses: names, and whether there are elements. -/
structure Uses where
  /-- The names used as values. -/
  names : List Bytes := []
  /-- Whether there are elements. -/
  elements : Bool := false
  deriving Inhabited

/-- What either of two trees uses. -/
def Uses.append (a b : Uses) : Uses :=
  { names := a.names ++ b.names, elements := a.elements || b.elements }

instance : Append Uses := ⟨Uses.append⟩

/-- The use of one name. -/
def Uses.ofName (name : Bytes) : Uses := { names := [name] }

mutual

/-- The left-most name of a dotted name, if it is a name. -/
def entityRoot? : Node → Option Bytes
  | .absent => none
  | .mk h ks _ _ _ _ =>
    match h.kind with
    | .typeQualified => entityRootFirst? ks
    | .ident => some h.text
    | _ => none

/-- The left-most name of the first of some dotted names. -/
def entityRootFirst? : List Node → Option Bytes
  | [] => none
  | n :: _ => entityRoot? n

end

mutual

/-- What a tree uses as values. Types, declared names, property names and labels are no uses. -/
def uses : Node → Uses
  | .absent => {}
  | .mk h ks ds _ _ _ =>
    if h.kind.isType then {}
    else usesAll ds ++ match h.kind with
      | .ident => Uses.ofName h.text
      | .importDecl | .exportAll | .breakStmt | .continueStmt | .externalRef => {}
      | .importEquals =>
        match entityRoot? (ks.getD 1 .absent) with
        | some name => if name.isEmpty then {} else Uses.ofName name
        | none => {}
      | .exportNamed => if (ks.getD 0 .absent).isPresent then {} else usesSpecs 2 ks
      | .member | .jsxMemberName => usesAt 0 ks
      | .labeled | .jsxAttr => usesAt 1 ks
      | .objProp | .method | .property | .enumMember =>
        (if h.flags.computed then usesAt 0 ks else {}) ++ usesFrom 1 ks
      | .jsxElement | .jsxFragment => { elements := true } ++ usesAll ks
      | .jsxName => if isIntrinsicTag h.text then {} else Uses.ofName h.text
      | _ => usesAll ks

/-- What several trees use. -/
def usesAll : List Node → Uses
  | [] => {}
  | n :: r => uses n ++ usesAll r

/-- What the tree at a place uses. -/
def usesAt : Nat → List Node → Uses
  | _, [] => {}
  | 0, n :: _ => uses n
  | i + 1, _ :: r => usesAt i r

/-- What the trees from a place on use. -/
def usesFrom : Nat → List Node → Uses
  | _, [] => {}
  | 0, n :: r => uses n ++ usesFrom 0 r
  | i + 1, _ :: r => usesFrom i r

/-- What the exported names from a place on use; those of types use nothing. -/
def usesSpecs : Nat → List Node → Uses
  | _, [] => {}
  | i + 1, _ :: r => usesSpecs i r
  | 0, .absent :: r => usesSpecs 0 r
  | 0, .mk h ks _ _ _ _ :: r =>
    (if h.flags.typeOnly then {} else usesAt 0 ks) ++ usesSpecs 0 r

end

/-! ## Declarations -/

mutual

/-- The names that a pattern binds. -/
def bindingNames : Node → List Bytes
  | .absent => []
  | .mk h ks _ _ _ _ =>
    match h.kind with
    | .ident => [h.text]
    | .arrayPattern => bindingNamesAll ks
    | .objectPattern => memberBindingNames ks
    | .assignPattern | .restElement => bindingNamesAt 0 ks
    | _ => []

/-- The names that several patterns bind. -/
def bindingNamesAll : List Node → List Bytes
  | [] => []
  | n :: r => bindingNames n ++ bindingNamesAll r

/-- The names that the pattern at a place binds. -/
def bindingNamesAt : Nat → List Node → List Bytes
  | _, [] => []
  | 0, n :: _ => bindingNames n
  | i + 1, _ :: r => bindingNamesAt i r

/-- The names that the members of an object pattern bind. -/
def memberBindingNames : List Node → List Bytes
  | [] => []
  | .absent :: r => memberBindingNames r
  | .mk h ks _ _ _ _ :: r =>
    bindingNamesAt (if h.kind == .restElement then 0 else 1) ks ++ memberBindingNames r

end

/-- The names that the variables of a declaration bind. -/
def declaratorNames (n : Node) : List Bytes := n.kids.flatMap fun d => bindingNames (d.kid 0)

/-- The name a node is, or nothing. -/
def nameOf (n : Node) : Bytes := if n.kind == .ident then n.text else []

mutual

/-- The names a statement declares, each with a mark that says whether it is a value. -/
def declaredNames : Node → List (Bytes × Bool)
  | .absent => []
  | .mk h ks ds t a x =>
    let n := Node.mk h ks ds t a x
    match h.kind with
    | .exportDecl | .exportDefault => declaredNamesFirst ks
    | .interfaceDecl | .typeAlias => [(nameOf (n.kid 0), false)]
    | .funcDecl | .classDecl | .enumDecl | .namespaceDecl => [(nameOf (n.kid 0), !h.flags.declared)]
    | .varDecl => (declaratorNames n).map fun name => (name, !h.flags.declared)
    | .importDecl =>
      (ks.drop 2).map fun spec =>
        (nameOf (spec.kids.getLastD .absent), !h.flags.typeOnly && !spec.flags.typeOnly)
    | .importEquals => [(nameOf (n.kid 0), !h.flags.typeOnly)]
    | _ => []

/-- The names that the first of some statements declares. -/
def declaredNamesFirst : List Node → List (Bytes × Bool)
  | [] => []
  | n :: _ => declaredNames n

end

/-- The names of a program that exist only at the type level. -/
def typeLevelNames (root : Node) : List Bytes :=
  let declared := root.kids.flatMap declaredNames
  (declared.filter fun d => !d.2 && !declared.contains (d.1, true)).map (·.1)

/-- The first part of a dotted name. -/
def rootName (dotted : Bytes) : Bytes := dotted.takeWhile (· != ascii '.')

/-- The names a program uses as values, those that elements need included. -/
def usedNames (elements : ElementOptions) (root : Node) : List Bytes :=
  let u := uses root
  if u.elements && elements.runtime == .classic then
    u.names ++ [rootName elements.factory, rootName elements.fragment]
  else u.names

end ScriptLower.Lower

import ScriptLower.Lower.Statement
import ScriptLower.Proofs.Tree.Grown

/-!
# Names of objects

Enumerations and namespaces become objects that functions fill, and the list they stand in declares
each of their names once. They stand in a list by themselves or behind `export`; those that stand
deeper, as the branch of a condition or behind the dot of another name, use the declarations of the
same list unless a block around them has a list of its own.
-/

namespace ScriptLower.Lower

open ScriptLower

/-- Whether nodes of the kind become objects that a function fills. -/
def isObject (k : NodeKind) : Bool := k == .enumDecl || k == .namespaceDecl

/-- Whether nodes of the kind hold statements that have no list of their own. -/
def nests : NodeKind → Bool
  | .exportDecl | .namespaceDecl | .ifStmt | .forStmt | .forIn | .forOf | .whileStmt | .withStmt
  | .doWhile | .tryStmt | .catchClause | .labeled => true
  | _ => false

mutual

/-- The names of the objects in a statement that use the declarations of its list. -/
def objectNames : Node → List Bytes
  | .absent => []
  | .mk h ks _ _ _ _ =>
    (if isObject h.kind then [(ks.getD 0 .absent).text] else []) ++
      if nests h.kind then objectNamesAll ks else []

/-- Those of some statements. -/
def objectNamesAll : List Node → List Bytes
  | [] => []
  | n :: r => objectNames n ++ objectNamesAll r

end

/-- The names among them that stand deeper than in the list itself. -/
def innerNames (n : Node) : List Bytes :=
  let d := if n.kind == .exportDecl then n.kid 0 else n
  if isObject d.kind then objectNames (d.kid 1) else objectNames n

mutual

/-- The name of the object that a statement is or exports. -/
def ownNames : Node → List Bytes
  | .absent => []
  | .mk h ks _ _ _ _ =>
    match h.kind with
    | .exportDecl | .exportDefault => ownNamesFirst ks
    | .enumDecl | .namespaceDecl => [nameOf (ks.getD 0 .absent)]
    | _ => []

/-- That of the first of some statements. -/
def ownNamesFirst : List Node → List Bytes
  | [] => []
  | n :: _ => ownNames n

end

/-- Whether an exported declaration of variables, which becomes properties of a namespace, sets
one. -/
def setsVariable (n : Node) : Bool := n.kids.any fun d => (d.kid 1).isPresent

mutual

/-- Whether a statement leaves something wherever it stands, as long as it is no error. That of an
alias, an import or an export of names depends on what the file uses. -/
def leaves : Node → Bool
  | .absent => false
  | .mk h ks _ _ _ _ =>
    match h.kind with
    | .varDecl | .funcDecl | .classDecl | .enumDecl => !h.flags.declared
    | .namespaceDecl => !h.flags.declared && !h.flags.isGlobal && bodyLeaves 1 ks
    | .exportDecl => exportLeaves ks
    | .ifStmt => elseLeaves 2 ks
    | .interfaceDecl | .typeAlias | .overload | .exportAsNamespace | .exportAssign | .importDecl
    | .importEquals | .exportNamed | .exportAll | .exportDefault => false
    | _ => true

/-- Whether one of some statements does. -/
def someLeaves : List Node → Bool
  | [] => false
  | n :: r => leaves n || someLeaves r

/-- Whether the body of a namespace, at a place among some nodes, does. -/
def bodyLeaves : Nat → List Node → Bool
  | _, [] => false
  | 0, .absent :: _ => false
  | 0, .mk h ks ds t a x :: _ =>
    if h.kind == .namespaceDecl then leaves (.mk h ks ds t a x) else someLeaves ks
  | i + 1, _ :: r => bodyLeaves i r

/-- Whether the statement at a place does. -/
def elseLeaves : Nat → List Node → Bool
  | _, [] => false
  | 0, n :: _ => leaves n
  | i + 1, _ :: r => elseLeaves i r

/-- Whether an exported declaration, the first of some nodes, does. -/
def exportLeaves : List Node → Bool
  | [] => false
  | n :: _ =>
    match n.kind with
    | .varDecl => leaves n && setsVariable n
    | .importEquals => !n.flags.typeOnly
    | .funcDecl | .classDecl | .enumDecl | .namespaceDecl => leaves n
    | _ => false

end

section

variable {n : Node} {ks : List Node} {x : Bytes}

/-! ## Names in parts -/

theorem objectNamesAll_mem {k : Node} (hk : k ∈ ks) (hx : x ∈ objectNames k) :
    x ∈ objectNamesAll ks := by
  induction ks with
  | nil => cases hk
  | cons k' r ih =>
    rw [objectNamesAll, List.mem_append]
    rcases List.mem_cons.1 hk with rfl | hk
    · exact .inl hx
    · exact .inr (ih hk)

theorem objectNames_kids (hn : nests n.kind = true) (hx : x ∈ objectNamesAll n.kids) :
    x ∈ objectNames n := by
  cases n with
  | absent => cases hx
  | mk h ks ds t a y =>
    rw [objectNames, if_pos (show nests h.kind = true from hn)]
    exact List.mem_append_right _ hx

theorem objectNames_kid (hn : nests n.kind = true) {i : Nat} (hx : x ∈ objectNames (n.kid i)) :
    x ∈ objectNames n := by
  unfold Node.kid at hx
  rw [List.getD_eq_getElem?_getD] at hx
  cases hi : n.kids[i]? with
  | none =>
    rw [hi] at hx
    cases hx
  | some k =>
    rw [hi] at hx
    exact objectNames_kids hn (objectNamesAll_mem (List.mem_of_getElem? hi) hx)

theorem objectNames_self (hn : isObject n.kind = true) : (n.kid 0).text ∈ objectNames n := by
  cases n with
  | absent => cases hn
  | mk h ks ds t a y =>
    rw [objectNames, if_pos (show isObject h.kind = true from hn)]
    exact List.mem_append_left _ (List.mem_singleton_self _)

theorem ownNames_eq (n : Node) : ownNames n = match n.kind with
    | .exportDecl | .exportDefault => ownNames (n.kid 0)
    | .enumDecl | .namespaceDecl => [nameOf (n.kid 0)]
    | _ => [] := by
  cases n with
  | absent => rw [ownNames]; rfl
  | mk h ks ds t a y =>
    rw [ownNames]
    cases ks <;> rfl

end

end ScriptLower.Lower

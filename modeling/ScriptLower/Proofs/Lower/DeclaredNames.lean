import ScriptLower.Proofs.Lower.Imports
import ScriptLower.Proofs.Lower.ObjectNames

/-!
# Declared names

A declaration of a value stays: a function, a class and a variable do, and so does an imported name
that is used. The name it declares is still there under its spelling, since only generated names get
new ones.

Enumerations and namespaces are left out of this: a namespace leaves nothing when it holds only
types, and either declares its name only where nothing before it does.
-/

namespace ScriptLower.Lower

open ScriptLower

section

variable {x : Bytes} {c : Context} {n r : Node} {given : Prop} {f : Head → Head}

/-! ## Names of statements -/

theorem declaredNames_eq (n : Node) : declaredNames n = match n.kind with
    | .exportDecl | .exportDefault => declaredNames (n.kid 0)
    | .interfaceDecl | .typeAlias => [(nameOf (n.kid 0), false)]
    | .funcDecl | .classDecl | .enumDecl | .namespaceDecl => [(nameOf (n.kid 0), !n.flags.declared)]
    | .varDecl => (declaratorNames n).map fun name => (name, !n.flags.declared)
    | .importDecl =>
      (n.kids.drop 2).map fun spec =>
        (nameOf (spec.kids.getLastD .absent), !n.flags.typeOnly && !spec.flags.typeOnly)
    | .importEquals => [(nameOf (n.kid 0), !n.flags.typeOnly)]
    | _ => [] := by
  cases n with
  | absent => rw [declaredNames]; rfl
  | mk h ks ds t a y =>
    rw [declaredNames]
    cases ks <;> rfl

/-- The ways for a statement to declare a name as a value. -/
inductive DeclaresValue (x : Bytes) (n : Node) : Prop
  | exported (hk : n.kind = .exportDecl ∨ n.kind = .exportDefault)
      (hx : (x, true) ∈ declaredNames (n.kid 0))
  | function (hk : n.kind = .funcDecl ∨ n.kind = .classDecl) (hd : n.flags.declared = false)
      (hx : nameOf (n.kid 0) = x)
  | object (hk : n.kind = .enumDecl ∨ n.kind = .namespaceDecl) (hx : nameOf (n.kid 0) = x)
  | varDecl (hk : n.kind = .varDecl) (hd : n.flags.declared = false)
      (hx : ∃ d ∈ n.kids, x ∈ bindingNames (d.kid 0))
  | imported (hk : n.kind = .importDecl) (ht : n.flags.typeOnly = false)
      (hx : ∃ spec ∈ n.kids.drop 2, spec.flags.typeOnly = false ∧
        nameOf (spec.kids.getLastD .absent) = x)
  | importEquals (hk : n.kind = .importEquals) (ht : n.flags.typeOnly = false)
    (hx : nameOf (n.kid 0) = x)

theorem declaresValue_of_mem (h : (x, true) ∈ declaredNames n) : DeclaresValue x n := by
  rw [declaredNames_eq] at h
  split at h
  case h_1 hk => exact .exported (.inl hk) h
  case h_2 hk => exact .exported (.inr hk) h
  case h_3 | h_4 => simp at h
  case h_5 hk =>
    simp only [List.mem_singleton, Prod.mk.injEq] at h
    exact .function (.inl hk) (by simpa using h.2.symm) h.1.symm
  case h_6 hk =>
    simp only [List.mem_singleton, Prod.mk.injEq] at h
    exact .function (.inr hk) (by simpa using h.2.symm) h.1.symm
  case h_7 hk =>
    simp only [List.mem_singleton, Prod.mk.injEq] at h
    exact .object (.inl hk) h.1.symm
  case h_8 hk =>
    simp only [List.mem_singleton, Prod.mk.injEq] at h
    exact .object (.inr hk) h.1.symm
  case h_9 hk =>
    obtain ⟨name, hname, heq⟩ := List.mem_map.1 h
    simp only [Prod.mk.injEq, Bool.not_eq_true'] at heq
    refine .varDecl hk heq.2 ?_
    rw [← heq.1]
    exact List.mem_flatMap.1 hname
  case h_10 hk =>
    obtain ⟨spec, hspec, heq⟩ := List.mem_map.1 h
    simp only [Prod.mk.injEq, Bool.and_eq_true, Bool.not_eq_true'] at heq
    exact .imported hk heq.2.1 ⟨spec, hspec, heq.2.2, heq.1⟩
  case h_11 hk =>
    simp only [List.mem_singleton, Prod.mk.injEq] at h
    exact .importEquals hk (by simpa using h.2.symm) h.1.symm
  case h_12 => cases h

/-- Whether statements of a kind may declare a value. -/
def isValueDeclaration : NodeKind → Bool
  | .varDecl | .funcDecl | .classDecl | .enumDecl | .namespaceDecl | .importDecl | .importEquals
  | .exportDecl | .exportDefault => true
  | _ => false

theorem kind_of_declared (h : (x, true) ∈ declaredNames n) : isValueDeclaration n.kind = true := by
  cases declaresValue_of_mem h with
  | exported hk _ | function hk _ _ | object hk _ => rcases hk with hk | hk <;> rw [hk] <;> rfl
  | varDecl hk _ _ | imported hk _ _ | importEquals hk _ _ => rw [hk]; rfl

theorem not_isType_of_declared (h : (x, true) ∈ declaredNames n) : n.kind.isType = false := by
  have hk := kind_of_declared h
  unfold isValueDeclaration at hk
  split at hk
  case h_10 => cases hk
  all_goals
    rename_i hkind
    rw [hkind]
    rfl

/-- A function, a class or an object declares the name that it stands under. -/
theorem name_of_declared (h : (x, true) ∈ declaredNames n)
    (hk : n.kind ∈ [.funcDecl, .classDecl, .enumDecl, .namespaceDecl]) : nameOf (n.kid 0) = x := by
  cases declaresValue_of_mem h with
  | function _ _ hx | object _ hx => exact hx
  | exported h _ => rcases h with h | h <;> rw [h] at hk <;> contradiction
  | varDecl h _ _ | imported h _ _ | importEquals h _ _ => rw [h] at hk; contradiction

/-- A name that is none is nothing. -/
theorem ident_of_nameOf (hx : nameOf n = x) (hne : x ≠ []) : n.kind = .ident ∧ n.text = x := by
  unfold nameOf at hx
  split at hx
  · exact ⟨beq_iff_eq.1 ‹_›, hx⟩
  · exact absurd hx.symm hne

/-! ## Names of patterns -/

theorem bindingNamesAt_eq (i : Nat) (ks : List Node) :
    bindingNamesAt i ks = bindingNames (ks.getD i .absent) := by
  induction ks generalizing i with
  | nil => cases i <;> rfl
  | cons k ks ih =>
    cases i with
    | zero => rfl
    | succ i => exact ih i

/-- The names that a member of an object pattern binds. -/
def memberNames (m : Node) : List Bytes :=
  bindingNames (m.kid (if m.kind == .restElement then 0 else 1))

theorem memberBindingNames_eq (ks : List Node) :
    memberBindingNames ks = ks.flatMap memberNames := by
  induction ks with
  | nil => rfl
  | cons k ks ih =>
    cases k with
    | absent => exact ih
    | mk h ks' ds t a y => rw [memberBindingNames, bindingNamesAt_eq, ih]; rfl

theorem bindingNamesAll_eq (ks : List Node) : bindingNamesAll ks = ks.flatMap bindingNames := by
  induction ks with
  | nil => rfl
  | cons k ks ih => rw [bindingNamesAll, ih]; rfl

theorem bindingNames_eq (n : Node) : bindingNames n = match n.kind with
    | .ident => [n.text]
    | .arrayPattern => n.kids.flatMap bindingNames
    | .objectPattern => n.kids.flatMap memberNames
    | .assignPattern | .restElement => bindingNames (n.kid 0)
    | _ => [] := by
  cases n with
  | absent => rw [bindingNames]; rfl
  | mk h ks ds t a y =>
    rw [bindingNames, bindingNamesAll_eq, memberBindingNames_eq, bindingNamesAt_eq]
    rfl

/-! ## Patterns that bind a name -/

/-- A lowered pattern binds a name, whatever the generated names become. -/
def Binds (x : Bytes) (r : Node) : Prop := ∀ f, Respells f → x ∈ bindingNames (r.mapHeads f)

/-- A member of a lowered pattern binds a name, whatever the generated names become. -/
def BindsMember (x : Bytes) (r : Node) : Prop := ∀ f, Respells f → x ∈ memberNames (r.mapHeads f)

theorem Binds.leaf (hk : n.kind = .ident) (hm : n.mark = 0) : Binds n.text (leaf n) := by
  intro f hf
  rw [hf.leaf hm, bindingNames_eq, show (Lower.leaf n).kind = .ident from hk]
  exact List.mem_singleton_self _

theorem Binds.array {rs : List Node} (hk : n.kind = .arrayPattern) (h : ∃ r ∈ rs, Binds x r) :
    Binds x (like n rs) := by
  intro f hf
  obtain ⟨r, hr, hbinds⟩ := h
  rw [bindingNames_eq, hf.kind_mapHeads, show (like n rs).kind = .arrayPattern from hk,
    kids_mapHeads]
  exact List.mem_flatMap.2 ⟨_, List.mem_map_of_mem hr, hbinds f hf⟩

theorem Binds.object {rs : List Node} (hk : n.kind = .objectPattern)
    (h : ∃ r ∈ rs, BindsMember x r) :
    Binds x (like n rs) := by
  intro f hf
  obtain ⟨r, hr, hbinds⟩ := h
  rw [bindingNames_eq, hf.kind_mapHeads, show (like n rs).kind = .objectPattern from hk,
    kids_mapHeads]
  exact List.mem_flatMap.2 ⟨_, List.mem_map_of_mem hr, hbinds f hf⟩

theorem Binds.first {rs : List Node} (hk : n.kind = .assignPattern ∨ n.kind = .restElement)
    (h : Binds x r) : Binds x (like n (r :: rs)) := by
  intro f hf
  have hfirst : x ∈ bindingNames (((like n (r :: rs)).mapHeads f).kid 0) := by
    rw [kid_mapHeads]
    exact h f hf
  rw [bindingNames_eq, hf.kind_mapHeads]
  rcases hk with hk | hk
  · rw [show (like n (r :: rs)).kind = .assignPattern from hk]
    exact hfirst
  · rw [show (like n (r :: rs)).kind = .restElement from hk]
    exact hfirst

theorem BindsMember.rest {rs : List Node} (hk : n.kind = .restElement) (h : Binds x r) :
    BindsMember x (like n (r :: rs)) := by
  intro f hf
  rw [memberNames, hf.kind_mapHeads, show (like n (r :: rs)).kind = .restElement from hk,
    kid_mapHeads]
  exact h f hf

theorem BindsMember.value {key v : Node} (hk : r.kind ≠ .restElement) (hr : r.kids = [key, v])
    (h : Binds x v) : BindsMember x r := by
  intro f hf
  rw [memberNames, hf.kind_mapHeads, if_neg (by simpa using hk), kid_mapHeads]
  unfold Node.kid
  rw [hr]
  exact h f hf

/-- A member of an object pattern binds the name that its pattern binds. -/
theorem yields_lowerPatternMember_binds {g : Rules} (hg : Lowers codeAim g) (hx : x ∈ memberNames n)
    (hp : ∀ i, x ∈ bindingNames (n.kid i) → Yields c given (g.pattern false (n.kid i)) (Binds x)) :
    Yields c given (lowerPatternMember g false n) (BindsMember x) := by
  unfold memberNames at hx
  refine .branch (fun hk => .target_then ?_) fun hk => ?_
  · rw [if_pos hk] at hx
    have hrest : Yields c given (do return like n [← g.pattern false (n.kid 0)]) (BindsMember x) :=
      .bind (hp 0 hx) fun r => .pure fun h => .rest (beq_iff_eq.1 hk) h.2
    exact .branch (fun _ => .error_then (hrest.under False.elim)) fun _ => hrest
  · rw [if_neg hk] at hx
    have hkey : Yields c given (lowerKey g n) fun _ => True :=
      .branch (fun _ => (hg.expr c _).any) fun _ => .pure fun _ => trivial
    have hkind : n.kind ≠ .restElement := by simpa using hk
    refine .bind hkey fun key => .bind ((hp 1 hx).under And.left) fun v => ?_
    refine .branch (fun _ => .pure fun h => ?_) fun _ => .pure fun h => ?_
    · exact .value hkind rfl h.2
    · exact .value hkind rfl h.2

/-- What a pattern binds it still binds when it is lowered. -/
theorem yields_pattern_binds (d : Nat) (hn : Tidy n) (hx : x ∈ bindingNames n) :
    Yields c given ((rules d).pattern false n) (Binds x) := by
  induction d generalizing n c given with
  | zero => exact .error_then (.pure False.elim)
  | succ d ih =>
    have hg : Lowers codeAim (rules d) := lowers_rules codeAim d
    have hany (k : Node) : Yields c given ((rules d).pattern false k) fun _ => True :=
      (hg.pattern c false k).any
    show Yields c given (lowerPattern (rules d) false n) (Binds x)
    rw [bindingNames_eq] at hx
    unfold lowerPattern
    refine .branch (fun habsent => ?_) fun _ => ?_
    · cases n with
      | absent => cases hx
      | mk h ks ds t a y => cases habsent
    split at hx
    case h_1 hk =>
      obtain rfl := List.mem_singleton.1 hx
      simp only [hk]
      refine .bind (R := fun _ => True) (fun s => ⟨Nat.le_refl s.errors, fun _ _ => trivial⟩)
        fun o => ?_
      split
      · exact .pure fun _ => .leaf hk hn.mark
      · exact .pure fun _ => .leaf hk hn.mark
    case h_2 hk =>
      obtain ⟨k, hmem, hx⟩ := List.mem_flatMap.1 hx
      simp only [hk]
      exact .bind (.mapM_mem hmem (ih (hn.mem hmem) hx) hany) fun rs => .pure fun h => .array hk h.2
    case h_3 hk =>
      obtain ⟨k, hmem, hx⟩ := List.mem_flatMap.1 hx
      simp only [hk]
      have hmember : Yields c given (lowerPatternMember (rules d) false k) (BindsMember x) :=
        yields_lowerPatternMember_binds hg hx fun i hx => ih ((hn.mem hmem).kid i) hx
      have hmany (m : Node) :
          Yields c given (lowerPatternMember (rules d) false m) fun _ => True := by
        have hat : False → At codeAim c m := False.elim
        exact (yields_lowerPatternMember hg hat False.elim).any
      exact .bind (.mapM_mem hmem hmember hmany) fun rs => .pure fun h => .object hk h.2
    case h_4 hk =>
      simp only [hk]
      refine .bind (ih (hn.kid 0) hx) fun target => .bind (hg.expr c _).any fun init =>
        .pure fun h => ?_
      exact .first (.inl hk) h.1.2
    case h_5 hk =>
      simp only [hk]
      exact .bind (ih (hn.kid 0) hx) fun target => .pure fun h => .first (.inr hk) h.2
    case h_6 => cases hx

/-! ## Statements that declare a name -/

/-- A lowered statement declares a name as a value, whatever the generated names become. -/
def Declares (x : Bytes) (r : Node) : Prop :=
  ∀ f, Respells f → (x, true) ∈ declaredNames (r.mapHeads f)

theorem Respells.flags_mapHeads (hf : Respells f) (n : Node) : (n.mapHeads f).flags = n.flags := by
  cases n with
  | absent => rfl
  | mk h ks ds t a y => exact hf.flags h

theorem Respells.leaf? (hf : Respells f) (hn : n.mark = 0) : (leaf? n).mapHeads f = leaf? n := by
  unfold Lower.leaf?
  split
  · rfl
  · exact hf.leaf hn

theorem nameOf_leaf? (n : Node) : nameOf (leaf? n) = nameOf n := by
  cases n <;> rfl

theorem Declares.isPresent (h : Declares x r) : r.isPresent = true := by
  cases r with
  | absent =>
    have hmem := h id
      ⟨fun _ => rfl, fun _ => rfl, fun _ => rfl, fun _ => rfl, fun _ _ => rfl, fun _ _ => rfl⟩
    rw [Node.mapHeads, declaredNames] at hmem
    cases hmem
  | mk h ks ds t a y => rfl

theorem Declares.function (hk : r.kind = .funcDecl ∨ r.kind = .classDecl)
    (hd : r.flags.declared = false) (h0 : r.kid 0 = leaf? n) (hm : n.mark = 0) :
    Declares (nameOf n) r := by
  intro f hf
  have hname : nameOf ((r.mapHeads f).kid 0) = nameOf n := by
    rw [kid_mapHeads, h0, hf.leaf? hm, nameOf_leaf?]
  rw [declaredNames_eq, hf.kind_mapHeads]
  rcases hk with hk | hk <;> rw [hk] <;> simp [hname, hf.flags_mapHeads, hd]

theorem Declares.varDecl (hk : r.kind = .varDecl) (hd : r.flags.declared = false)
    (h : ∃ d ∈ r.kids, Binds x (d.kid 0)) : Declares x r := by
  intro f hf
  obtain ⟨d, hmem, hbinds⟩ := h
  have hname : x ∈ declaratorNames (r.mapHeads f) := by
    rw [declaratorNames, kids_mapHeads]
    refine List.mem_flatMap.2 ⟨_, List.mem_map_of_mem hmem, ?_⟩
    rw [kid_mapHeads]
    exact hbinds f hf
  rw [declaredNames_eq, hf.kind_mapHeads, hk]
  exact List.mem_map.2 ⟨x, hname, by simp [hf.flags_mapHeads, hd]⟩

theorem Declares.imported {spec : Node} (hk : r.kind = .importDecl) (ht : r.flags.typeOnly = false)
    (hmem : like spec (spec.kids.map leaf) ∈ r.kids.drop 2) (hm : ∀ k ∈ spec.kids, k.mark = 0)
    (hx : nameOf (spec.kids.getLastD .absent) = x) (hne : x ≠ []) : Declares x r := by
  intro f hf
  have hname : nameOf ((like spec (spec.kids.map leaf)).kids.getLastD .absent) = x := by
    show nameOf ((spec.kids.map leaf).getLastD .absent) = x
    cases hlast : spec.kids.getLast? with
    | none =>
      rw [List.getLast?_eq_none_iff] at hlast
      rw [hlast] at hx
      exact absurd hx.symm hne
    | some k =>
      rw [List.getLastD_eq_getLast?, hlast] at hx
      rw [List.getLastD_eq_getLast?, List.getLast?_map, hlast]
      exact hx
  rw [declaredNames_eq, hf.kind_mapHeads, hk]
  refine List.mem_map.2 ⟨like spec (spec.kids.map leaf), ?_, ?_⟩
  · rw [kids_mapHeads, ← List.map_drop, ← hf.like hm]
    exact List.mem_map_of_mem hmem
  · rw [hname, hf.flags_mapHeads, ht]
    rfl

theorem Declares.exported (hk : r.kind = .exportDecl ∨ r.kind = .exportDefault)
    (h : Declares x (r.kid 0)) : Declares x r := by
  intro f hf
  rw [declaredNames_eq, hf.kind_mapHeads, kid_mapHeads]
  rcases hk with hk | hk <;> rw [hk] <;> exact h f hf

theorem Declares.wrap (span : Span) (h : Declares x r) : Declares x (exportWrap span r) := by
  rw [exportWrap, if_neg (by simp [Node.isAbsent, h.isPresent])]
  exact .exported (.inl rfl) h

/-! ## Declarations that stay -/

/-- What a statement becomes is one statement that declares a name. -/
def StaysDeclared (x : Bytes) (rs : List Node) : Prop := ∃ r, rs = [r] ∧ Declares x r

theorem Declares.one (h : Declares x r) : StaysDeclared x (one r) := by
  rw [Lower.one, if_neg (by simp [Node.isAbsent, h.isPresent])]
  exact ⟨r, rfl, h⟩

/-- The rules keep a name that a statement at the top declares. -/
structure KeepsName (x : Bytes) (g : Rules) : Prop where
  lowers : Lowers codeAim g
  expr : ∀ {c given n}, isValueDeclaration n.kind = true → Yields c given (g.expr n) fun _ => False
  pattern : ∀ {c given n}, Tidy n → x ∈ bindingNames n →
    Yields c given (g.pattern false n) (Binds x)
  stmt : ∀ {c given n}, c.scopes = [] → x ∈ c.used → Tidy n → (x, true) ∈ declaredNames n →
    x ∉ ownNames n → Yields c given (g.stmt n) (StaysDeclared x)

section

variable {g : Rules}

theorem KeepsName.function (hg : KeepsName x g) (hk : n.kind = .funcDecl) (hn : Tidy n)
    (hx : nameOf (n.kid 0) = x) : Yields c given (lowerFunction g n) (Declares x) := by
  refine (yields_lowerFunction hg.lowers (.inl hk)).always fun s => ?_
  rw [← hx]
  exact .function (.inl hk) rfl rfl (hn.kid 0).mark

theorem KeepsName.class (hg : KeepsName x g) (hk : n.kind = .classDecl) (hn : Tidy n)
    (hx : nameOf (n.kid 0) = x) : Yields c given (lowerClass g n) (Declares x) := by
  refine (yields_lowerClass hg.lowers (.inl hk)).always fun s => ?_
  rw [← hx]
  exact .function (.inr hk) rfl rfl (hn.kid 0).mark

theorem KeepsName.varDecl (hg : KeepsName x g) (hk : n.kind = .varDecl) (hn : Tidy n)
    (hx : ∃ d ∈ n.kids, x ∈ bindingNames (d.kid 0)) :
    Yields c given (lowerVariables g n) (Declares x) := by
  obtain ⟨d, hmem, hx⟩ := hx
  have hoptional (m : Node) : Yields c given (lowerOptional g m) fun _ => True :=
    .branch (fun _ => .pure fun _ => trivial) fun _ => (hg.lowers.expr c m).any
  refine .bind (.mapM_mem (Q := fun r => Binds x (r.kid 0)) hmem ?_ fun m => ?_) fun decls => ?_
  · refine .bind (hg.pattern ((hn.mem hmem).kid 0) hx) fun binding => ?_
    exact .bind (hoptional (d.kid 1)).any fun init => .pure fun h => h.1.2
  · refine .bind (hg.lowers.pattern c false (m.kid 0)).any fun binding => ?_
    exact .bind (hoptional (m.kid 1)).any fun init => .pure fun _ => trivial
  · exact .pure fun h => .varDecl hk rfl h.2

theorem KeepsName.importDecl (hg : KeepsName x g) (hne : x ≠ []) (hused : x ∈ c.used)
    (hk : n.kind = .importDecl) (ht : n.flags.typeOnly = false) (hn : Tidy n)
    (hx : ∃ spec ∈ n.kids.drop 2, spec.flags.typeOnly = false ∧
      nameOf (spec.kids.getLastD .absent) = x) :
    Yields c given (lowerImport g n) (Declares x) := by
  obtain ⟨spec, hspec, hst, hx⟩ := hx
  have htext := (ident_of_nameOf hx hne).2
  refine (yields_lowerImport_keeps hg.lowers ht hspec hst (htext ▸ hused)).mono fun r _ h => ?_
  obtain ⟨attrs, specs, rfl, hmem⟩ := h
  exact .imported hk rfl hmem (fun k hk => ((hn.drop hspec).mem hk).mark) hx hne

theorem KeepsName.importEquals {exported : Bool} (hg : KeepsName x g) (hne : x ≠ [])
    (hused : x ∈ c.used)
    (ht : n.flags.typeOnly = false) (hn : Tidy n) (hx : nameOf (n.kid 0) = x) :
    Yields c given (lowerAlias g n exported) (Declares x) := by
  obtain ⟨hident, htext⟩ := ident_of_nameOf hx hne
  refine (yields_lowerAlias_keeps hg.lowers ht (.inr (htext ▸ hused))).mono fun r _ h => ?_
  obtain ⟨value, rfl⟩ := h
  refine .varDecl rfl rfl ⟨_, List.mem_cons_self, ?_⟩
  rw [← htext]
  exact .leaf hident (hn.kid 0).mark

theorem mem_ownNames_of_object (hk : n.kind = .enumDecl ∨ n.kind = .namespaceDecl)
    (hx : nameOf (n.kid 0) = x) : x ∈ ownNames n := by
  rw [ownNames_eq]
  rcases hk with hk | hk <;> rw [hk] <;> exact List.mem_singleton.2 hx.symm

theorem mem_ownNames_exported (hk : n.kind = .exportDecl ∨ n.kind = .exportDefault) :
    x ∈ ownNames n ↔ x ∈ ownNames (n.kid 0) := by
  rw [ownNames_eq n]
  rcases hk with hk | hk <;> rw [hk]

theorem namespaceScope?_top (hscopes : c.scopes = []) : Always c namespaceScope? (· = none) := by
  refine .bind .read fun c' hc => ?_
  subst hc
  rw [hscopes]
  exact .pure rfl

/-- Outside of namespaces an exported declaration is lowered by itself, and what is in front of it
is exported. -/
theorem yields_lowerExportDecl_top {P : List Node → Prop} (hg : Lowers codeAim g)
    (hscopes : c.scopes = []) (hk : n.kind = .exportDecl)
    (henum : (n.kid 0).kind = .enumDecl → Yields c given (lowerEnum g (n.kid 0) true) P)
    (hnamespace :
      (n.kid 0).kind = .namespaceDecl → Yields c given (lowerNamespace g (n.kid 0) true) P)
    (halias : (n.kid 0).kind = .importEquals →
      Yields c given (lowerAlias g (n.kid 0) true) fun r => P (one (exportWrap n.span r)))
    (hother : Yields c given (g.stmt (n.kid 0)) fun rs => P ((rs.take 1).map (exportWrap n.span))) :
    Yields c given (lowerExportDecl g n) P := by
  have hscope : Yields c given namespaceScope? (· = none) :=
    (yields_namespaceScope? (a := codeAim)).always (namespaceScope?_top hscopes)
  refine .bind hscope fun o => ?_
  cases o with
  | some ns =>
    have hnone (h : given ∧ some ns = none) : False := by cases h.2
    have hnever : Yields c False (lowerNamespaceExport g ns n) fun rs => ∀ r ∈ rs, Fine codeAim r :=
      yields_lowerNamespaceExport hg hk False.elim False.elim
    exact (hnever.under hnone).mono fun _ h => (hnone h).elim
  | none =>
    dsimp only
    split
    · exact .bind (yields_onComments _) fun _ => (henum ‹_›).under fun h => h.1.1
    · exact .bind (yields_onComments _) fun _ => (hnamespace ‹_›).under fun h => h.1.1
    · exact .bind ((halias ‹_›).under And.left) fun r => .pure And.right
    · refine .bind (hother.under And.left) fun rs => ?_
      split
      · exact .pure And.right
      · exact .pure And.right

theorem KeepsName.exportDecl (hg : KeepsName x g) (hne : x ≠ []) (hscopes : c.scopes = [])
    (hused : x ∈ c.used) (hk : n.kind = .exportDecl) (hn : Tidy n)
    (hx : (x, true) ∈ declaredNames (n.kid 0)) (hown : x ∉ ownNames (n.kid 0)) :
    Yields c given (lowerExportDecl g n) (StaysDeclared x) := by
  have hobject (hk : (n.kid 0).kind = .enumDecl ∨ (n.kid 0).kind = .namespaceDecl) : False := by
    refine hown (mem_ownNames_of_object hk (name_of_declared hx ?_))
    rcases hk with hk | hk <;> rw [hk] <;> decide
  refine yields_lowerExportDecl_top hg.lowers hscopes hk (fun ho => (hobject (.inl ho)).elim)
    (fun ho => (hobject (.inr ho)).elim) (fun ho => ?_) ?_
  · have halias : Yields c given (lowerAlias g (n.kid 0) true) (Declares x) := by
      cases declaresValue_of_mem hx with
      | importEquals _ ht hname => exact hg.importEquals hne hused ht (hn.kid 0) hname
      | exported h _ | function h _ _ | object h _ => rcases h with h | h <;> cases ho.symm.trans h
      | varDecl h _ _ | imported h _ _ => cases ho.symm.trans h
    exact halias.mono fun r _ h => (h.wrap n.span).one
  · refine (hg.stmt hscopes hused (hn.kid 0) hx hown).mono fun rs _ h => ?_
    obtain ⟨r, rfl, hdeclares⟩ := h
    exact ⟨_, rfl, hdeclares.wrap n.span⟩

theorem KeepsName.exportDefault (hg : KeepsName x g) (hk : n.kind = .exportDefault) (hn : Tidy n)
    (hx : (x, true) ∈ declaredNames (n.kid 0)) :
    Yields c given (lowerExportDefault g n) (Declares x) := by
  have hwrap {r : Node} (h : Declares x r) : Declares x (like n [r]) := .exported (.inr hk) h
  refine .branch (fun ht => ?_) fun _ => ?_
  · rw [not_isType_of_declared hx] at ht
    cases ht
  · split
    case h_1 hf =>
      have hname := name_of_declared hx (by rw [hf]; decide)
      exact .bind (hg.function hf (hn.kid 0) hname) fun r => .pure fun h => hwrap h.2
    case h_2 hf =>
      have hname := name_of_declared hx (by rw [hf]; decide)
      exact .bind (hg.class hf (hn.kid 0) hname) fun r => .pure fun h => hwrap h.2
    case h_3 =>
      -- nothing else that declares a value is an expression
      have hkind := kind_of_declared hx
      refine .bind yields_read fun c' => .branch (fun hident => ?_) fun _ => ?_
      · rw [Bool.and_eq_true, beq_iff_eq] at hident
        rw [hident.1] at hkind
        cases hkind
      · exact .bind (hg.expr hkind) fun r => .pure fun h => h.2.elim

theorem KeepsName.lowerStmt (hg : KeepsName x g) (hne : x ≠ []) (hscopes : c.scopes = [])
    (hused : x ∈ c.used) (hn : Tidy n) (hx : (x, true) ∈ declaredNames n)
    (hown : x ∉ ownNames n) :
    Yields c given (lowerStmt g n) (StaysDeclared x) := by
  have hkept {m : LowerM Node} (hm : Yields c given m (Declares x)) :
      Yields c given (do return one (← m)) (StaysDeclared x) :=
    .bind hm fun r => .pure fun h => h.2.one
  have hdeclared {m : LowerM Node} (hd : n.flags.declared = false)
      (hm : Yields c given m (Declares x)) :
      Yields c given (if n.flags.declared then return [] else return [← m]) (StaysDeclared x) := by
    rw [hd]
    exact .bind hm fun r => .pure fun h => ⟨r, rfl, h.2⟩
  unfold Lower.lowerStmt
  cases declaresValue_of_mem hx with
  | exported hk hx =>
    rw [mem_ownNames_exported hk] at hown
    rcases hk with hk | hk
    · simp only [hk]
      exact hg.exportDecl hne hscopes hused hk hn hx hown
    · simp only [hk]
      exact hkept (hg.exportDefault hk hn hx)
  | function hk hd hx =>
    rcases hk with hk | hk
    · simp only [hk]
      exact hdeclared hd (hg.function hk hn hx)
    · simp only [hk]
      exact hdeclared hd (hg.class hk hn hx)
  | object hk hx => exact absurd (mem_ownNames_of_object hk hx) hown
  | varDecl hk hd hx =>
    simp only [hk]
    exact hdeclared hd (hg.varDecl hk hn hx)
  | imported hk ht hx =>
    simp only [hk]
    exact hkept (hg.importDecl hne hused hk ht hn hx)
  | importEquals hk ht hx =>
    simp only [hk]
    exact hkept (hg.importEquals hne hused ht hn hx)

end

theorem yields_lowerExpr_declaration {g : Rules} (hk : isValueDeclaration n.kind = true) :
    Yields c given (lowerExpr g n) fun _ => False := by
  unfold isValueDeclaration at hk
  unfold lowerExpr
  refine .branch (fun ha => ?_) fun _ => ?_
  · cases n with
    | absent => cases hk
    | mk h ks ds t a y => cases ha
  · split at hk
    case h_10 => cases hk
    all_goals
      rename_i hkind
      simp only [hkind]
      exact .error_then (.pure False.elim)

theorem keepsName_rules (hne : x ≠ []) : ∀ d, KeepsName x (rules d)
  | 0 =>
    { lowers := lowers_rules codeAim 0
      expr := fun _ => .error_then (.pure False.elim)
      pattern := fun hn hx => yields_pattern_binds 0 hn hx
      stmt := fun _ _ _ _ _ => .error_then (.pure False.elim) }
  | d + 1 =>
    { lowers := lowers_rules codeAim (d + 1)
      expr := fun hk => yields_lowerExpr_declaration hk
      pattern := fun hn hx => yields_pattern_binds (d + 1) hn hx
      stmt := fun hscopes hused hn hx hown =>
        (keepsName_rules hne d).lowerStmt hne hscopes hused hn hx hown }

end

end ScriptLower.Lower

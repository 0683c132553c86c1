import ScriptLower.Proofs.Lower.Functions

/-!
# Lowering declarations

Enumerations and namespaces become calls of functions that fill an object, which is read under its
own name. Of imports and exports only the names that an export refers to are read.
-/

namespace ScriptLower.Lower

open ScriptLower

section

variable {a : Aim} {c : Context} {n : Node} {g : Rules} {given : Prop}

theorem fine_one (h : Fine a n) : ∀ x ∈ one n, Fine a x := by
  unfold one
  split
  · simp
  · simpa using h

theorem fine_exportWrap (span : Span) (h : Fine a n) : Fine a (exportWrap span n) := by
  unfold exportWrap
  split
  · exact .absent
  · exact .new rfl span (by simpa using h)

theorem fine_flatten {xss : List (List Node)} (h : ∀ xs ∈ xss, ∀ x ∈ xs, Fine a x) :
    ∀ x ∈ xss.flatten, Fine a x := by
  intro x hx
  obtain ⟨xs, hxs, hx⟩ := List.mem_flatten.1 hx
  exact h xs hxs x hx

/-- A variable: the name it is declared under is not read. -/
theorem fine_declarator {name value : Node} (span : Span) (hname : Good a name)
    (hv : Fine a value) :
    Fine a (.new .declarator span [name, value]) := by
  have hs : Head.since { kind := .declarator, span := span } [name, value] = .es2015 :=
    since_plain rfl _
  refine ⟨.ofHead (by rw [hs]; exact before_es2015 a) (fun i hi => ?_)
      (show NodeKind.declarator ≠ .exportNamed by decide) ?_,
    .of_kind (show NodeKind.declarator ≠ .ident by decide)⟩
  · cases i with
    | zero =>
      refine .of_kind fun hk => ?_
      have hk : (name.kind == .ident) = true := beq_iff_eq.2 hk
      simp [Node.readsAt, Node.kind, Node.head, Node.ofHead, Node.kid, Node.kids] at hi hk
      simp [hk] at hi
    | succ i =>
      have hrest : ∀ x ∈ [value], Fine a x := by simpa using hv
      exact ref_of_getD hrest i
  · simpa using ⟨hname, hv.good⟩

/-! ## Objects filled by a function -/

theorem yields_namespaceScope? :
    Yields c (Ctx a c) namespaceScope? fun o => ∀ s ∈ o, a.names s.name := by
  refine .bind yields_read fun x => ?_
  split
  · exact .pure fun _ => by simp
  · rename_i s r hs
    refine .pure fun h => ?_
    have hname : a.names s.name := by
      refine h.1.scopes s ?_
      rw [← h.2, hs]
      exact List.mem_cons_self
    split
    · simpa using hname
    · simp

theorem fine_objectArgument {name : Bytes} {parent : Option Scope} (span : Span)
    (hname : a.names name) (hp : ∀ s ∈ parent, a.names s.name) :
    Fine a (objectArgument span name parent) := by
  have hobject : Fine a (.new .object span []) := .objectOf rfl (by simp) (by simp)
  have hold := before_es2015 a
  unfold objectArgument
  dsimp only
  split
  · have hslot (x : Bytes) (hx : a.names x) : Fine a (.member (.ident x span) name span) :=
      .member (.ident hx span) _ _
    have hs := hslot _ (hp _ rfl)
    exact .assign span (.ident hname span) (.bin hold span hs (.paren (.assign span hs hobject)))
  · have hid : Fine a (.ident name span) := .ident hname span
    exact .bin hold span hid (.paren (.assign span hid hobject))

theorem yields_declareOnce (name : Bytes) : Yields c given (declareOnce name) fun _ => True := by
  refine .bind yields_get fun s => .branch (fun _ => .pure fun _ => trivial) fun _ => ?_
  exact .bind (yields_modify fun _ => rfl) fun _ => .pure fun _ => trivial

theorem yields_fillObject (a : Aim) {name : Node} {body : List Node} {exported : Bool}
    {parent : Option Scope} (span : Span) (hname : given → a.names name.text)
    (hb : given → ∀ x ∈ body, Fine a x) (hp : given → ∀ s ∈ parent, a.names s.name) :
    Yields c given (fillObject span name body exported parent) fun rs => ∀ r ∈ rs, Fine a r := by
  have hcall (h : given) : Fine a (.new .exprStmt span [.call span (paren (.new .funcExpr span
      [.absent, .new .params span [.new .param name.span [.ident name.text name.span, .absent]],
        .new .block span body]))
      [objectArgument span name.text (if exported then parent else none)]]) := by
    have hid : Fine a (.ident name.text name.span) := .ident (hname h) _
    have hparam : Fine a (.new .param name.span [.ident name.text name.span, .absent]) :=
      .new rfl _ (by simpa using ⟨hid, .absent⟩)
    have hparams : Fine a (.new .params span
        [.new .param name.span [.ident name.text name.span, .absent]]) :=
      .new rfl _ (by simpa using hparam)
    have hblock : Fine a (.new .block span body) := .new rfl _ (hb h)
    have harg : Fine a (objectArgument span name.text (if exported then parent else none)) := by
      refine fine_objectArgument span (hname h) ?_
      split
      · exact hp h
      · simp
    refine .new rfl _ ?_
    simp only [List.mem_singleton, forall_eq]
    refine .call span (.paren (.new rfl _ ?_)) (by simpa using harg)
    simpa using ⟨.absent, hparams, hblock⟩
  refine .bind (yields_declareOnce _) fun isNew => ?_
  have hrest (decl : List Node) : Yields c ((given ∧ True) ∧ ∀ d ∈ decl, Fine a d)
      (Pure.pure (decl ++ [Node.new .exprStmt span [.call span (paren (.new .funcExpr span
      [.absent, .new .params span [.new .param name.span [.ident name.text name.span, .absent]],
        .new .block span body]))
      [objectArgument span name.text (if exported then parent else none)]]]) : LowerM (List Node))
      fun rs => ∀ r ∈ rs, Fine a r := by
    refine .pure fun h => List.forall_mem_append.2 ⟨h.2, ?_⟩
    simpa using hcall h.1.1
  refine .branch (fun _ => .bind yields_read fun x => ?_) fun _ => ?_
  · refine .bind (R := fun ds => ∀ d ∈ ds, Fine a d) (.pure fun h => ?_) fun decl =>
      (hrest decl).under fun h => ⟨h.1.1, h.2⟩
    have hdecl (keyword : String) : Fine a (varDecl keyword span
        [declarator name.span (.ident name.text name.span)]) := by
      have hvar : Fine a (declarator name.span (.ident name.text name.span)) :=
        fine_declarator name.span (.leaf _) .absent
      exact fine_varDecl _ _ (by simpa using hvar)
    simp only [List.mem_singleton, forall_eq]
    split
    · exact fine_exportWrap span (hdecl _)
    · exact hdecl _
  · exact .bind (.pure fun _ => by simp) hrest

/-! ## Enumerations -/

theorem fine_enumLiteral (span : Span) (v : EnumValue) : Fine a (v.literal span) := by
  unfold EnumValue.literal
  split
  · exact fine_string _ _
  · split
    · exact .plain rfl (by simpa using fine_number _ _)
    · exact fine_number _ _

theorem fine_setMember {enum : Bytes} {value : Node} (span : Span) (key : Bytes) (isString : Bool)
    (he : a.names enum) (hv : Fine a value) : Fine a (setMember span enum key value isString) := by
  have hid : Fine a (.ident enum span) := .ident he span
  have hkey : Fine a (string key span) := fine_string _ _
  have hentry (x : Node) (hx : Fine a x) : Fine a (.new .index span [.ident enum span, x]) :=
    .link (.inl rfl) (by simp) (by simp [hid, hx])
  have hset := Fine.assign span (hentry _ hkey) hv
  refine .new rfl span ?_
  simp only [List.mem_singleton, forall_eq]
  split
  · exact hset
  · exact .assign span (hentry _ hset) hkey

theorem fine_push {s : EnumState} {enum key : Bytes} {value : Node} (span : Span)
    (constant : Option EnumValue) (he : a.names enum) (hs : ∀ x ∈ s.body, Fine a x)
    (hv : Fine a value) : ∀ x ∈ (s.push enum key span constant value).body, Fine a x := by
  refine List.forall_mem_append.2 ⟨hs, ?_⟩
  simpa using fine_setMember span key _ he hv

theorem yields_lowerEnumMember {enum : Bytes} {s : EnumState} {m : Node} (hg : Lowers a g)
    (hm : given → At a c m ∧ IsA .enumMember m) (he : given → a.names enum)
    (hs : given → ∀ x ∈ s.body, Fine a x) :
    Yields c given (lowerEnumMember g enum s m) fun s => ∀ x ∈ s.body, Fine a x := by
  unfold lowerEnumMember
  split
  · exact .error_then (.pure False.elim)
  · refine .branch (fun _ => ?_) fun _ => ?_
    · split
      · exact .pure fun h => fine_push _ _ (he h) (hs h) (fine_enumLiteral _ _)
      · refine .bind (.elsewhere (hg.exprOf fun h => ?_)) fun value => .pure fun h => ?_
        · have hkid := (hm h).1.part (hm h).2 1 (by simp [enters, NodeKind.reads])
          exact ⟨hkid.ctx.inScope (he h), hkid.source⟩
        · exact fine_push _ _ (he h.1) (hs h.1) h.2
    · split
      · exact .pure fun h => fine_push _ _ (he h) (hs h) (fine_enumLiteral _ _)
      · exact .error_then (.pure False.elim)

/-- A name that is absent or a name may be read. -/
theorem Source.name (h : Source a n) (hn : IsA .ident n) : a.names n.text := by
  rcases hn with rfl | hn
  · exact a.nameless
  · exact h.covers.ident hn

theorem yields_lowerEnum {exported : Bool} (hg : Lowers a g) (hk : n.kind = .enumDecl) :
    Yields c (At a c n) (lowerEnum g n exported) fun rs => ∀ r ∈ rs, Fine a r := by
  have hhead : n.head.kind = .enumDecl := hk
  have hname (h : At a c n) : a.names (n.kid 0).text :=
    (h.source.kid hk 0 rfl).name (h.source.toSpine.kid_isA 0 (kindsAt_of_kind hhead _))
  refine .branch (fun _ => .pure fun _ => by simp) fun _ => ?_
  refine .bind (yields_namespaceScope?.under At.ctx) fun parent => ?_
  refine .bind (.foldlM (I := fun s : EnumState => ∀ x ∈ s.body, Fine a x) (fun _ => by simp) ?_) ?_
  · intro m hm s
    refine yields_lowerEnumMember hg (fun h => ⟨?_, ?_⟩) (fun h => hname h.1.1) And.right
    · exact h.1.1.kids_drop hk 1 (fun _ => rfl) hm
    · exact h.1.1.source.toSpine.mem_isA hm fun i => kindsAt_of_kind hhead _
  · intro s
    exact yields_fillObject a _ (fun h => hname h.1.1) And.right fun h => h.1.2

/-! ## Imports -/

theorem yields_keepsImport (name : Bytes) : Yields c given (keepsImport name) fun _ => True :=
  .bind yields_read fun _ => .pure fun _ => trivial

theorem yields_lowerImportSpec (a : Aim) {spec : Node} (hs : given → spec = .absent ∨
      spec.kind ∈ [.importDefault, .importNamespace, .importSpec]) :
    Yields c given (lowerImportSpec spec) fun rs => ∀ r ∈ rs, Fine a r := by
  refine .branch (fun _ => .pure fun _ => by simp) fun _ => ?_
  refine .bind (yields_keepsImport _) fun keeps => .branch (fun _ => .pure fun h => ?_) fun _ => ?_
  · have hkids : ∀ x ∈ spec.kids.map leaf, Good a x := by
      intro x hx
      obtain ⟨y, -, rfl⟩ := List.mem_map.1 hx
      exact .leafOf y
    have hfine : Fine a (like spec (spec.kids.map leaf)) := by
      rcases hs h.1 with rfl | hk
      · exact .plain rfl (by simp [Node.kids])
      · simp only [List.mem_cons, List.not_mem_nil, or_false] at hk
        rcases hk with hk | hk | hk <;> exact .unread hk rfl (fun _ _ => rfl) hkids
    simpa using hfine
  · exact .pure fun _ => by simp

theorem yields_lowerImport (hg : Lowers a g) (hk : n.kind = .importDecl) :
    Yields c (At a c n) (lowerImport g n) (Fine a) := by
  have hhead : n.head.kind = .importDecl := hk
  refine .branch (fun _ => .pure fun _ => .absent) fun _ => ?_
  refine .bind (yields_lowerOptional hg fun h => ⟨h.ctx, h.source.attributes (by rw [hk]; rfl)⟩) ?_
  intro attrs
  refine .bind (.mapM fun x hx => yields_lowerImportSpec a fun h => ?_) fun specs => ?_
  · exact h.1.source.toSpine.kind_mem hx (fun i => kindsAt_of_kind hhead _) (by simp)
  refine .branch (fun _ => .pure fun _ => .absent) fun _ => .pure fun h => ?_
  refine .unread hk rfl (fun _ _ => rfl) ?_
  refine List.forall_mem_cons.2 ⟨.leafOf _, List.forall_mem_cons.2 ⟨h.1.2.good, ?_⟩⟩
  exact fun x hx => (fine_flatten h.2 x hx).good

mutual

theorem yields_lowerEntity (hg : Lowers a g) :
    ∀ n, Yields c (Ctx a c ∧ isEntity n = true ∧ ∀ x ∈ entityRoot? n, a.names x)
      (lowerEntity g n) (Fine a)
  | .absent => .pure fun _ => .absent
  | .mk h ks ds t x y => by
    unfold lowerEntity
    dsimp only
    split
    · rename_i hk
      refine .bind ((yields_lowerEntityFirst hg ks).under fun h => ⟨h.1, ?_⟩) fun obj => ?_
      · obtain ⟨-, hentity, hroot⟩ := h
        unfold isEntity at hentity
        unfold entityRoot? at hroot
        rw [hk] at hentity hroot
        exact ⟨hentity, hroot⟩
      · exact .pure fun h => .memberOf rfl (by simp) h.2 (.leaf _)
    · rename_i hk
      refine yields_nameRef fun h => ⟨h.1, fun _ => ?_⟩
      obtain ⟨-, -, hroot⟩ := h
      unfold entityRoot? at hroot
      rw [hk] at hroot
      exact hroot _ rfl
    · rename_i hq hi
      by_cases hthis : h.kind = .thisExpr
      · exact (hg.this c (.mk h ks ds t x y) hthis).under fun _ => trivial
      · -- nothing else begins a dotted name
        refine hg.exprOf fun given => ?_
        obtain ⟨-, hentity, -⟩ := given
        exfalso
        unfold isEntity at hentity
        split at hentity
        · exact hq ‹_›
        · exact hi ‹_›
        · exact hthis ‹_›
        · cases hentity

theorem yields_lowerEntityFirst (hg : Lowers a g) : ∀ ks : List Node,
    Yields c (Ctx a c ∧ isEntityFirst ks = true ∧ ∀ x ∈ entityRootFirst? ks, a.names x)
      (lowerEntityFirst g ks) (Fine a)
  | [] => .pure fun _ => .absent
  | n :: _ => yields_lowerEntity hg n

end

/-- The object that an alias stands for is used. -/
theorem Source.alias (h : Source a n) (hk : n.kind = .importEquals)
    (hx : (n.kid 1).kind ≠ .externalRef) :
    isEntity (n.kid 1) = true ∧ ∀ x ∈ entityRoot? (n.kid 1), a.names x := by
  have hp := isPresent_of_kind hk (by decide)
  refine ⟨(h.self hp).alias hk hx, fun x hroot => ?_⟩
  cases n with
  | absent => cases hk
  | mk head ks ds t u v =>
    have hcovers := h.covers
    change head.kind = .importEquals at hk
    change entityRoot? (ks.getD 1 .absent) = some x at hroot
    simp only [uses, hk, show NodeKind.isType .importEquals = false from rfl, Bool.false_eq_true,
      if_false, hroot, covers_append] at hcovers
    cases x with
    | nil => exact a.nameless
    | cons b r => exact covers_ofName.1 hcovers.2

theorem yields_lowerAlias {exported : Bool} (hg : Lowers a g) (hk : n.kind = .importEquals) :
    Yields c (At a c n) (lowerAlias g n exported) (Fine a) := by
  have hvalue (hx : ¬((n.kid 1).kind == .externalRef) = true) :
      Yields c (At a c n) (do
        let value ← lowerEntity g (n.kid 1)
        return varDecl "var" n.span [.new .declarator n.span [leaf (n.kid 0), value]])
          (Fine a) := by
    refine .bind ((yields_lowerEntity hg _).under fun h => ⟨h.ctx, ?_⟩) fun value =>
      .pure fun h => ?_
    · exact h.source.alias hk fun e => hx (beq_iff_eq.2 e)
    · refine fine_varDecl _ _ ?_
      simpa using fine_declarator n.span (.leafOf _) h.2
  refine .branch (fun _ => .pure fun _ => .absent) fun _ => ?_
  refine .branch (fun _ => .error_then (.pure False.elim)) fun hx => ?_
  refine .bind (yields_keepsImport _) fun keeps => ?_
  exact .branch (fun _ => (hvalue hx).under And.left) fun _ => .pure fun _ => .absent

/-! ## Exports -/

/-- What an exported name that is no type refers to is used. -/
theorem Covers.spec {ks : List Node} {j : Nat} {spec : Node} (h : Covers a (usesSpecs j ks))
    (hs : spec ∈ ks.drop j) (ht : spec.flags.typeOnly = false) : Covers a (uses (spec.kid 0)) := by
  induction ks generalizing j with
  | nil => simp at hs
  | cons k ks ih =>
    cases j with
    | succ j => exact ih h hs
    | zero =>
      cases k with
      | absent =>
        rcases List.mem_cons.1 hs with rfl | hs
        · exact covers_empty
        · exact ih (j := 0) h hs
      | mk head ks' ds t x y =>
        rw [usesSpecs, covers_append] at h
        rcases List.mem_cons.1 hs with rfl | hs
        · rw [if_neg
            (by rw [show head.flags.typeOnly = false from ht]; exact Bool.false_ne_true)] at h
          exact h.1.usesAt_getD
        · exact ih (j := 0) h.2 hs

theorem Source.spec {spec : Node} (h : Source a n) (hk : n.kind = .exportNamed)
    (hlocal : (n.kid 0).isAbsent = true) (hs : spec ∈ n.kids.drop 2)
    (ht : spec.flags.typeOnly = false) : Ref a (spec.kid 0) := by
  cases n with
  | absent => cases hk
  | mk head ks ds t x y =>
    have hcovers := h.covers
    change head.kind = .exportNamed at hk
    have hno : (ks.getD 0 .absent).isPresent = false := by
      simpa [Node.isAbsent, Node.kid, Node.kids] using hlocal
    simp only [uses, hk, show NodeKind.isType .exportNamed = false from rfl, Bool.false_eq_true,
      if_false, hno, covers_append] at hcovers
    exact fun hident _ => (hcovers.2.spec hs ht).ident hident

/-- An exported name is one of the node, and it may be read unless it is one of another file. -/
theorem yields_lowerExportSpec {spec : Node} (hk : n.kind = .exportNamed)
    (hs : spec ∈ n.kids.drop 2) (hn : given → Source a n) :
    Yields c given (lowerExportSpec (n.kid 0).isPresent spec) fun rs => ∀ r ∈ rs, Good a r ∧
      ((n.kid 0).isAbsent = true → Ref a (r.kid 0)) := by
  have hhead : n.head.kind = .exportNamed := hk
  refine .bind yields_read fun x => .branch (fun _ => .pure fun _ => by simp) fun ht =>
    .pure fun h => ?_
  have hkids : ∀ x ∈ [leaf (spec.kid 0), leaf (spec.kid 1)], Good a x := by
    simpa using ⟨.leafOf _, .leafOf _⟩
  have hgood : Good a (like spec [leaf (spec.kid 0), leaf (spec.kid 1)]) := by
    have hA : IsA .exportSpec spec :=
      (hn h.1).toSpine.mem_isA hs fun i => kindsAt_of_kind hhead _
    rcases hA with rfl | hspec
    · exact (Fine.plain rfl (by simpa using ⟨.leaf .absent, .leaf .absent⟩)).good
    · have hfine : Fine a (like spec [leaf (spec.kid 0), leaf (spec.kid 1)]) :=
        .unread hspec rfl (fun _ _ => rfl) hkids
      exact hfine.good
  have htype : spec.flags.typeOnly = false := by
    cases hb : spec.flags.typeOnly with
    | false => rfl
    | true => exact absurd (by rw [hb]; rfl) ht
  have href (hlocal : (n.kid 0).isAbsent = true) : Ref a (spec.kid 0) :=
    (hn h.1).spec hk hlocal hs htype
  simp only [List.mem_singleton, forall_eq]
  exact ⟨hgood, href⟩

theorem yields_lowerExportNamed (hg : Lowers a g) (hk : n.kind = .exportNamed) :
    Yields c (At a c n) (lowerExportNamed g n) (Fine a) := by
  refine .branch (fun _ => .pure fun _ => .absent) fun _ => ?_
  refine .bind (yields_lowerOptional hg fun h => ⟨h.ctx, h.source.attributes (by rw [hk]; rfl)⟩) ?_
  intro attrs
  refine .bind (.mapM fun x hx => yields_lowerExportSpec hk hx fun h => h.1.source) fun specs => ?_
  refine .branch (fun _ => .pure fun _ => .absent) fun _ => .pure fun h => ?_
  have hspecs : ∀ r ∈ specs.flatten, Good a r ∧ ((n.kid 0).isAbsent = true → Ref a (r.kid 0)) := by
    intro r hr
    obtain ⟨rs, hrs, hr⟩ := List.mem_flatten.1 hr
    exact h.2 rs hrs r hr
  have hhead : n.head.kind = .exportNamed := hk
  refine ⟨.mk ⟨?_, fun i hi => ?_, by simp [Node.decos], fun _ hlocal => ?_⟩ ?_ (by simp),
    .of_kind ?_⟩
  · have hs : Head.since { n.head with flags := n.flags.runtime, mark := 0 }
        (leaf? (n.kid 0) :: attrs :: specs.flatten) = .es2015 := by simp [Head.since, hhead]
    show a.version.before (Head.since { n.head with flags := n.flags.runtime, mark := 0 }
      (leaf? (n.kid 0) :: attrs :: specs.flatten)) = false
    rw [hs]
    exact before_es2015 a
  · have hread : NodeKind.reads n.head.kind n.flags.runtime.computed i = true :=
      (Bool.and_eq_true _ _ ▸ hi).1
    rw [hhead] at hread
    contradiction
  · intro r hr
    refine (hspecs r hr).2 ?_
    have hlocal : (leaf? (n.kid 0)).isAbsent = true := hlocal
    unfold leaf? at hlocal
    split at hlocal
    · assumption
    · contradiction
  · refine List.forall_mem_cons.2 ⟨.leaf? _, List.forall_mem_cons.2 ⟨h.1.2.good, ?_⟩⟩
    exact fun r hr => (hspecs r hr).1
  · change n.head.kind ≠ _
    rw [hhead]
    decide

theorem yields_lowerExportAll (hg : Lowers a g) (hk : n.kind = .exportAll) :
    Yields c (At a c n) (lowerExportAll g n) (Fine a) := by
  refine .branch (fun _ => .pure fun _ => .absent) fun _ => ?_
  refine .bind (yields_lowerOptional hg fun h => ⟨h.ctx, h.source.attributes (by rw [hk]; rfl)⟩) ?_
  intro attrs
  refine .pure fun h => .unread hk rfl (fun _ _ => rfl) ?_
  simpa using ⟨.leafOf _, h.2.good, .leaf? _⟩

theorem yields_lowerExportDefault (hg : Lowers a g) (hk : n.kind = .exportDefault) :
    Yields c (At a c n) (lowerExportDefault g n) (Fine a) := by
  have hinner (h : At a c n) : At a c (n.kid 0) := h.kid hk 0 rfl
  refine .branch (fun _ => .pure fun _ => .absent) fun _ => ?_
  split
  · refine .bind ((yields_lowerFunction hg (.inl ‹_›)).under hinner) fun r => .pure fun h => ?_
    exact .like hk rfl (by simpa using h.2)
  · refine .bind ((yields_lowerClass hg (.inl ‹_›)).under hinner) fun r => .pure fun h => ?_
    exact .like hk rfl (by simpa using h.2)
  · refine .bind yields_read fun x => .branch (fun _ => .pure fun _ => .absent) fun _ => ?_
    refine hg.expr_then (fun h => hinner h.1) fun r => .pure fun h => ?_
    exact .like hk rfl (by simpa using h.2)

/-! ## Namespaces -/

theorem yields_lowerNamespace {exported : Bool} (hg : Lowers a g) :
    Yields c (At a c n ∧ n.kind = .namespaceDecl) (lowerNamespace g n exported) fun rs =>
      ∀ r ∈ rs, Fine a r := by
  refine .branch (fun _ => .pure fun _ => by simp) fun hp => ?_
  refine .branch (fun _ => .error_then (.pure False.elim)) fun hname => ?_
  have hnames (h : At a c n ∧ n.kind = .namespaceDecl) : a.names (n.kid 0).text :=
    (h.1.kid h.2 0 rfl).source.covers.ident (by simpa using hname)
  have hbody (h : At a c n ∧ n.kind = .namespaceDecl) :
      At a { c with scopes := namespaceBodyScope (n.kid 0).text (n.kid 1) :: c.scopes }
        (n.kid 1) := by
    refine ⟨h.1.ctx.inScope ?_, (h.1.kid h.2 1 rfl).source⟩
    unfold namespaceBodyScope
    split <;> exact hnames h
  refine .bind (yields_namespaceScope?.under fun h => h.1.ctx) fun parent => ?_
  refine .bind (.elsewhere (yields_collectTemps (P := fun rs => ∀ r ∈ rs, Fine a r)
    (.branch (fun hb => ?_) fun hb => ?_))) fun r => ?_
  · exact (hg.namespaceDecl _ _ _).under fun h => ⟨hbody h.1, beq_iff_eq.1 hb⟩
  · refine yields_lowerList hg fun h x hx => ?_
    have hblock : (n.kid 1).kind = .block := by
      have hkinds : kindsAt n.head 1 = [.block, .namespaceDecl] :=
        kindsAt_of_kind (show n.head.kind = .namespaceDecl from h.1.2) _
      have hpresent : (n.kid 1).isPresent = true := by
        simp only [Bool.or_eq_true, not_or, Node.isAbsent] at hp
        simpa using hp.2
      have hmem := h.1.1.source.toSpine.kind_at 1 hpresent (by simp [hkinds])
      simp only [hkinds, List.mem_cons, List.not_mem_nil, or_false] at hmem
      rcases hmem with hmem | hmem
      · exact hmem
      · exact absurd (beq_iff_eq.2 hmem) hb
    exact (hbody h.1).kids hblock (fun _ => rfl) hx
  refine .branch (fun _ => .pure fun _ => by simp) fun _ => ?_
  refine .bind (yields_withTemps a fun h => h.2) fun stmts => ?_
  exact yields_fillObject a _ (fun h => hnames h.1.1.1) And.right fun h => h.1.1.2

theorem fine_setExport {ns : Scope} {value : Node} (span : Span) (name : Bytes) (nameSpan : Span)
    (hns : a.names ns.name) (hv : Fine a value) :
    Fine a (setExport ns span name nameSpan value) := by
  have hset := Fine.assign span (.member (.ident hns nameSpan) name nameSpan) hv
  exact .new rfl span (by simpa using hset)

theorem yields_lowerExportedVariable {ns : Scope} {d : Node} (hg : Lowers a g)
    (hd : given → At a c d ∧ IsA .declarator d) (hns : given → a.names ns.name) :
    Yields c given (lowerExportedVariable g ns d) fun rs => ∀ r ∈ rs, Fine a r := by
  refine .branch (fun _ => .error_then (.pure False.elim)) fun _ => ?_
  refine .branch (fun _ => .pure fun _ => by simp) fun _ => ?_
  refine hg.expr_then (fun h => (hd h).1.part (hd h).2 1 rfl) fun value => .pure fun h => ?_
  simpa using fine_setExport d.span (d.kid 0).text (d.kid 0).span (hns h.1) h.2

theorem yields_lowerNamespaceExport {ns : Scope} (hg : Lowers a g) (hk : n.kind = .exportDecl)
    (hn : given → At a c n) (hns : given → a.names ns.name) :
    Yields c given (lowerNamespaceExport g ns n) fun rs => ∀ r ∈ rs, Fine a r := by
  have hdecl (h : given) : At a c (n.kid 0) := (hn h).kid hk 0 rfl
  refine .bind (yields_onComments _) fun _ => ?_
  -- a function or a class is copied from the name it is declared under
  have hcopy (hname : given → a.names ((n.kid 0).kid 0).text) : Yields c (given ∧ True) (do
      let out ← g.stmt (n.kid 0)
      if out.isEmpty then return []
      return out ++ [setExport ns ((n.kid 0).kid 0).span ((n.kid 0).kid 0).text
        ((n.kid 0).kid 0).span (.ident ((n.kid 0).kid 0).text ((n.kid 0).kid 0).span)])
      fun rs => ∀ r ∈ rs, Fine a r := by
    refine .bind ((hg.stmt c _).under fun h => hdecl h.1) fun out => ?_
    refine .branch (fun _ => .pure fun _ => by simp) fun _ => .pure fun h => ?_
    refine List.forall_mem_append.2 ⟨h.2, ?_⟩
    simpa using fine_setExport _ _ _ (hns h.1.1) (.ident (hname h.1.1) _)
  have hnamed {k : NodeKind} (hd : (n.kid 0).kind = k) (hreads : ∀ x, enters k x 0 = true)
      (hkinds : ∀ h : Head, h.kind = k → kindsAt h 0 = [.ident]) (h : given) :
      a.names ((n.kid 0).kid 0).text :=
    ((hdecl h).kid hd 0 (hreads _)).source.name
      ((hdecl h).source.toSpine.kid_isA 0 (hkinds _ hd))
  split
  · rename_i hd
    refine .branch (fun _ => .pure fun _ => by simp) fun _ => ?_
    refine .bind (.mapM fun d hmem => yields_lowerExportedVariable hg (fun h => ⟨?_, ?_⟩)
      fun h => hns h.1) fun sets => .pure fun h => fine_flatten h.2
    · exact (hdecl h.1).kids hd (fun _ => rfl) hmem
    · refine (hdecl h.1).source.toSpine.mem_isA (j := 0) hmem fun i => ?_
      exact kindsAt_of_kind (show (n.kid 0).head.kind = .varDecl from hd) _
  · exact hcopy (hnamed ‹_› (fun _ => rfl) fun h hh => kindsAt_of_kind hh _)
  · exact hcopy (hnamed ‹_› (fun _ => rfl) fun h hh => kindsAt_of_kind hh _)
  · exact (yields_lowerEnum hg ‹_›).under fun h => hdecl h.1
  · rename_i hd
    exact (yields_lowerNamespace hg).under fun h => ⟨hdecl h.1, hd⟩
  · rename_i hd
    refine .branch (fun _ => .error_then (.pure False.elim)) fun hx => ?_
    refine .bind ((yields_lowerEntity hg _).under fun h => ⟨(hdecl h.1).ctx, ?_⟩) fun value => ?_
    · exact (hdecl h.1).source.alias hd fun e => hx (beq_iff_eq.2 e)
    · refine .pure fun h => ?_
      simpa using fine_setExport _ _ _ (hns h.1.1) h.2
  · refine .branch (fun _ => .error_then (.pure False.elim)) fun _ => .pure fun _ => by simp

theorem yields_lowerExportDecl (hg : Lowers a g) (hk : n.kind = .exportDecl) :
    Yields c (At a c n) (lowerExportDecl g n) fun rs => ∀ r ∈ rs, Fine a r := by
  refine .bind (yields_namespaceScope?.under At.ctx) fun o => ?_
  have hdecl (h : At a c n) : At a c (n.kid 0) := h.kid hk 0 rfl
  split
  · exact yields_lowerNamespaceExport hg hk And.left fun h => h.2 _ rfl
  · dsimp only
    split
    · exact .bind (yields_onComments _) fun _ => (yields_lowerEnum hg ‹_›).under fun h =>
        hdecl h.1.1
    · rename_i hd
      exact .bind (yields_onComments _) fun _ =>
        (yields_lowerNamespace hg).under fun h => ⟨hdecl h.1.1, hd⟩
    · refine .bind ((yields_lowerAlias hg ‹_›).under fun h => hdecl h.1) fun r => .pure fun h => ?_
      exact fine_one (fine_exportWrap _ h.2)
    · refine .bind ((hg.stmt c _).under fun h => hdecl h.1) fun rs => ?_
      split
      · exact .pure fun _ => by simp
      · refine .pure fun h => ?_
        simpa using fine_exportWrap n.span (h.2 _ List.mem_cons_self)

end

end ScriptLower.Lower

import ScriptLower.Proofs.Lower.FittingFunctions

/-!
# Lowered declarations fit

Enumerations and namespaces become a declaration and a call that fills an object; imports and
exports become imports and exports, or nothing. What is exported from a namespace is of a kind that
lowering knows, or a declaration of types.
-/

namespace ScriptLower.Lower

open ScriptLower

section

variable {f : SourceFile} {d : Nat} {g : Rules} {p : Place} {n name : Node}
    {s : Span} {ns : List Node}

/-! ## Statements that may vanish -/

theorem low_one (hn : Low f .optStmt n) : LowAll f .stmt (one n) := by
  unfold one
  split
  · exact .nil
  · rename_i hp
    have hplaced := hn.placed (by simpa [Node.isAbsent] using hp)
    exact .one (hplaced.fits_at hplaced.allowed rfl)

/-- A lowered statement may stand behind the word `export`. -/
theorem low_exportWrap (hs : f.holds s = true) (hn : Low f .stmt n) :
    Low f .stmt (exportWrap s n) := by
  have hplaced := hn.present rfl
  have hdecl : Low f .declaration n := by
    refine hplaced.fits_at ?_ rfl
    have hallowed := hplaced.allowed
    simp only [Place.allows, plain_lowered, Bool.not_true, Bool.false_and,
      Bool.or_false] at hallowed
    exact hallowed
  rw [exportWrap, Node.isAbsent, hplaced.isPresent]
  exact low_new rfl (by simp) hs (fit_first hdecl fit_none)

theorem low_exportWrap? (hs : f.holds s = true) (hn : Low f .optStmt n) :
    Low f .optStmt (exportWrap s n) := by
  cases n with
  | absent => rfl
  | mk h ks ds t a x =>
    have hplaced := hn.placed rfl
    exact fits_le .stmt_optStmt (low_exportWrap hs (hplaced.fits_at hplaced.allowed rfl))

/-! ## Objects filled by a function -/

theorem low_objectArgument {key : Bytes} {parent : Option Scope} (hs : f.holds s = true) :
    Low f .expr (objectArgument s key parent) := by
  have hid (x : Bytes) : Low f .expr (.ident x s) := low_ident rfl hs
  have hcreate (target : Node) (ht : Low f .expr target) :
      Low f .expr (paren (assign s target (.new .object s []))) :=
    low_paren (low_assign hs ht (low_object hs .nil))
  unfold objectArgument
  dsimp only
  split
  · have hslot (x : Bytes) : Low f .expr (.member (.ident x s) key s) := low_member hs (hid x)
    exact low_assign hs (hid key) (low_bin (by decide) hs (hslot _) (hcreate _ (hslot _)))
  · exact low_bin (by decide) hs (hid key) (hcreate _ (hid key))

theorem gives_fillObject {body : List Node} {exported : Bool} {parent : Option Scope}
    (hs : f.holds s = true) (hname : f.holds name.span = true) (hb : LowAll f .stmt body) :
    Gives (fillObject s name body exported parent) (LowAll f .stmt) := by
  have hparam : Low f .param (.new .param name.span [.ident name.text name.span, .absent]) :=
    low_new rfl (by simp) hname (fit_first (low_ident rfl hname) (fit_first rfl fit_none))
  have hparams : Low f .params
      (.new .params s [.new .param name.span [.ident name.text name.span, .absent]]) :=
    low_new rfl (by simp) hs (fit_each (LowAll.one hparam))
  have hbody : Low f .block (.new .block s body) := low_new rfl (by simp) hs (fit_each hb)
  have hfn : Low f .expr (.new .funcExpr s [.absent,
      .new .params s [.new .param name.span [.ident name.text name.span, .absent]],
      .new .block s body]) :=
    low_new rfl (by simp) hs (fit_first rfl (fit_first hparams (fit_first hbody fit_none)))
  have hcall (arg : Node) (ha : Low f .expr arg) : Low f .stmt (.new .exprStmt s [.call s (paren
      (.new .funcExpr s [.absent,
        .new .params s [.new .param name.span [.ident name.text name.span, .absent]],
        .new .block s body])) [arg]]) :=
    low_exprStmt hs (low_call hs (low_paren hfn) (.one ha))
  have hvar (keyword : String) : Low f .stmt
      (varDecl keyword s [declarator name.span (.ident name.text name.span)]) :=
    low_varDecl hs (.one (low_declarator hname (low_ident rfl hname)))
  refine .skip fun isNew => ?_
  have hrest (decl : List Node) (hdecl : LowAll f .stmt decl) : Gives (Pure.pure (decl ++
      [Node.new .exprStmt s [.call s (paren (.new .funcExpr s [.absent,
        .new .params s [.new .param name.span [.ident name.text name.span, .absent]],
        .new .block s body])) [objectArgument s name.text (if exported then parent else none)]]]) :
      LowerM (List Node)) (LowAll f .stmt) :=
    .pure (hdecl.append (.one (hcall _ (low_objectArgument hs))))
  refine .branch (fun _ => .skip fun c => .bind (.pure (.one ?_)) hrest) fun _ =>
    .bind (.pure .nil) hrest
  split
  · exact low_exportWrap hs (hvar _)
  · exact hvar _

/-! ## Enumerations -/

theorem low_enumLiteral (hs : f.holds s = true) (v : EnumValue) : Low f .expr (v.literal s) := by
  unfold EnumValue.literal
  split
  · exact low_string rfl hs
  · split
    · exact fits_ofHead rfl hs (.inl (by simp)) (fit_first (low_literal rfl hs) fit_none)
    · exact low_literal rfl hs

theorem low_setMember {enum key : Bytes} {value : Node} {isString : Bool} (hs : f.holds s = true)
    (hv : Low f .expr value) : Low f .stmt (setMember s enum key value isString) := by
  have hentry (x : Node) (hx : Low f .expr x) : Low f .expr (.new .index s [.ident enum s, x]) :=
    low_index hs (low_ident rfl hs) hx
  have hkey : Low f .expr (string key s) := low_string rfl hs
  have hset := low_assign hs (hentry _ hkey) hv
  refine low_exprStmt hs ?_
  split
  · exact hset
  · exact low_assign hs (hentry _ hset) hkey

theorem low_push {e : EnumState} {enum key : Bytes} {constant : Option EnumValue} {value : Node}
    (hs : f.holds s = true) (he : LowAll f .stmt e.body) (hv : Low f .expr value) :
    LowAll f .stmt (e.push enum key s constant value).body := he.append (.one (low_setMember hs hv))

theorem gives_lowerEnumMember {enum : Bytes} {e : EnumState} (hg : Handles f d g)
    (hn : Due f d .enumMember n) (he : LowAll f .stmt e.body) :
    Gives (lowerEnumMember g enum e n) fun e => LowAll f .stmt e.body := by
  have hturn := hn.present rfl fun _ => rfl
  have hk : n.kind = .enumMember := by simpa [Place.allows] using hturn.placed.allowed
  have hs := hturn.placed.span
  have hinit : Due f d .optExpr (n.kid 1) := hturn.kid hk 1 rfl
  unfold lowerEnumMember
  split
  · exact .skip fun _ => .pure he
  · refine .branch (fun hp => ?_) fun _ => ?_
    · split
      · exact .pure (low_push hs he (low_enumLiteral hs _))
      · have hexpr : Due f d .expr (n.kid 1) :=
          ⟨fits_there hinit.fits (by rw [Node.isAbsent, hp]; decide), hinit.depth_le⟩
        exact .bind (.elsewhere (hg.exprOf hexpr)) fun value hvalue => .pure (low_push hs he hvalue)
    · split
      · exact .pure (low_push hs he (low_enumLiteral hs _))
      · exact .skip fun _ => .pure he

theorem gives_lowerEnum {exported : Bool} (hg : Handles f d g) (hn : Turn f d p n)
    (hk : n.kind = .enumDecl) : Gives (lowerEnum g n exported) (LowAll f .stmt) := by
  refine .branch (fun _ => .pure .nil) fun _ => .skip fun parent => ?_
  have hstart : LowAll f .stmt ({} : EnumState).body := .nil
  refine .bind (.foldlM (P := fun e : EnumState => LowAll f .stmt e.body) hstart
    fun m hm e he => gives_lowerEnumMember hg (hn.each hk rfl m hm) he) fun e he => ?_
  exact gives_fillObject hn.placed.span (hn.kid hk 0 rfl).fits.span he

/-! ## Imports -/

/-- Names stay names. -/
theorem low_names {ps : List Place} (hps : ∀ p ∈ ps, p = .name)
    (hns : kidsFit (.source f) ps .none ns = true) :
    kidsFit (.lowered f) ps .none (ns.map leaf) = true := by
  induction ns generalizing ps with
  | nil =>
    cases ps with
    | nil => exact fit_none
    | cons p ps => cases hns
  | cons n ns ih =>
    cases ps with
    | nil => cases hns
    | cons p ps =>
      obtain ⟨rfl, hrest⟩ := List.forall_mem_cons.1 hps
      rw [kidsFit_first, Bool.and_eq_true] at hns
      exact fit_first (low_name hns.1) (ih hrest hns.2)

theorem gives_lowerImportSpec (hn : Due f d .importItem n) :
    Gives (lowerImportSpec n) (LowAll f .importItem) := by
  have hturn := hn.present rfl fun _ => rfl
  refine .branch (fun _ => .pure .nil) fun _ => .skip fun keeps => ?_
  refine .branch (fun _ => .pure (.one ?_)) fun _ => .pure .nil
  have hallowed := hturn.placed.allowed
  have hkids := hturn.placed.kids
  simp only [Place.allows, Bool.or_eq_true, beq_iff_eq] at hallowed
  have hname : ∀ p ∈ [Place.name], p = .name := by simp
  have hnames : ∀ p ∈ [Place.name, .name], p = .name := by simp
  rcases hallowed with (hk | hk) | hk <;> rw [hk] at hkids
  · exact low_like hturn.placed hk rfl (low_names hnames hkids)
  · exact low_like hturn.placed hk rfl (low_names hname hkids)
  · exact low_like hturn.placed hk rfl (low_names hname hkids)

theorem gives_lowerImport (hg : Handles f d g) (hn : Turn f d .stmt n) (hk : n.kind = .importDecl) :
    Gives (lowerImport g n) (Low f .optStmt) := by
  refine .branch (fun _ => .pure rfl) fun _ => ?_
  refine .bind (gives_lowerOptional hg rfl (hn.kid hk 1 rfl)) fun attrs hattrs => ?_
  refine .bind (.mapM fun m hm => gives_lowerImportSpec (hn.each hk rfl m hm))
    fun specs hspecs => ?_
  refine .branch (fun _ => .pure rfl) fun _ => .pure ?_
  exact low_like hn.placed hk rfl (fit_first (low_name (hn.kid hk 0 rfl).fits)
    (fit_first hattrs (fit_each (LowAll.flatten hspecs))))

mutual

theorem gives_lowerEntity (hg : Handles f d g) :
    ∀ n, Due f d .entity n → Gives (lowerEntity g n) (Low f .expr)
  | .absent, hn => by cases hn.fits
  | .mk h ks ds t a x, hn => by
    have hturn := hn.present rfl fun _ => rfl
    have hs : f.holds h.span = true := hturn.placed.span
    unfold lowerEntity
    dsimp only
    split
    · rename_i hk
      have hname := (hturn.kid hk 1 rfl).fits.span
      refine .bind (gives_lowerEntityFirst hg ks ?_) fun obj hobj => .pure ?_
      · rw [← kid_first h ks ds t a x]
        exact hturn.kid hk 0 rfl
      · exact low_new rfl (by simp) hs (fit_first hobj (fit_first (low_ident rfl hname) fit_none))
    · rename_i hk
      refine gives_nameRef hs (low_leaf hturn.placed ?_ ?_) <;>
        rw [show (Node.mk h ks ds t a x).kind = .ident from hk] <;> rfl
    · -- the receiver
      rename_i hqualified hident
      have hallowed := hturn.placed.allowed
      simp only [Place.allows, plain_source, Bool.not_false, Bool.true_and, Bool.or_eq_true,
        beq_iff_eq] at hallowed
      have hk : (Node.mk h ks ds t a x).kind = .thisExpr :=
        (hallowed.resolve_right hqualified).resolve_left hident
      exact hg.exprOf ⟨hturn.placed.fits_at (by rw [hk]; rfl) (by rw [hk]; rfl), hn.depth_le⟩

theorem gives_lowerEntityFirst (hg : Handles f d g) : ∀ ks : List Node,
    Due f d .entity (ks.headD .absent) → Gives (lowerEntityFirst g ks) (Low f .expr)
  | [], hn => by cases hn.fits
  | n :: _, hn => gives_lowerEntity hg n hn

end

/-- What an alias stands for, if it is no module. -/
theorem Due.entity (hn : Due f d .reference n) (hx : ¬(n.kind == .externalRef) = true) :
    Due f d .entity n := by
  have hp : n.isPresent = true := by
    cases n with
    | absent => cases hn.fits
    | mk h ks ds t a x => rfl
  have hturn := hn.turn hp (by simpa [Place.drops] using hx)
  exact ⟨hturn.placed.fits_at hturn.placed.allowed rfl, hn.depth_le⟩

theorem gives_lowerAlias {exported : Bool} (hg : Handles f d g) (hn : Turn f d p n)
    (hk : n.kind = .importEquals) : Gives (lowerAlias g n exported) (Low f .optStmt) := by
  have hs := hn.placed.span
  have hname := low_name (hn.kid hk 0 rfl).fits
  refine .branch (fun _ => .pure rfl) fun _ =>
    .branch (fun _ => .skip fun _ => .pure rfl) fun hx => ?_
  refine .skip fun keeps => .branch (fun _ => ?_) fun _ => .pure rfl
  refine .bind (gives_lowerEntity hg _ ((hn.kid hk 1 rfl).entity hx)) fun value hvalue => .pure ?_
  have hvar : Low f .declarator (.new .declarator n.span [leaf (n.kid 0), value]) :=
    low_new rfl (by simp) hs (fit_first (fits_le .name_expr hname)
      (fit_first (fits_le .expr_optExpr hvalue) fit_none))
  exact fits_le .stmt_optStmt (low_varDecl hs (.one hvar))

/-! ## Exports -/

theorem gives_lowerExportSpec {reexport : Bool} (hn : Due f d .exportItem n) :
    Gives (lowerExportSpec reexport n) (LowAll f .exportItem) := by
  have hturn := hn.present rfl fun _ => rfl
  have hk : n.kind = .exportSpec := by simpa [Place.allows] using hturn.placed.allowed
  refine .skip fun c => .branch (fun _ => .pure .nil) fun _ => .pure (.one ?_)
  exact low_like hturn.placed hk rfl (fit_first (low_name (hturn.kid hk 0 rfl).fits)
    (fit_first (low_name (hturn.kid hk 1 rfl).fits) fit_none))

theorem gives_lowerExportNamed (hg : Handles f d g) (hn : Turn f d .stmt n)
    (hk : n.kind = .exportNamed) : Gives (lowerExportNamed g n) (Low f .optStmt) := by
  refine .branch (fun _ => .pure rfl) fun _ => ?_
  refine .bind (gives_lowerOptional hg rfl (hn.kid hk 1 rfl)) fun attrs hattrs => ?_
  refine .bind (.mapM fun m hm => gives_lowerExportSpec (hn.each hk rfl m hm))
    fun specs hspecs => ?_
  refine .branch (fun _ => .pure rfl) fun _ => .pure ?_
  exact low_like hn.placed hk rfl (fit_first (low_optName (hn.kid hk 0 rfl).fits)
    (fit_first hattrs (fit_each (LowAll.flatten hspecs))))

theorem gives_lowerExportAll (hg : Handles f d g) (hn : Turn f d .stmt n)
    (hk : n.kind = .exportAll) :
    Gives (lowerExportAll g n) (Low f .optStmt) := by
  refine .branch (fun _ => .pure rfl) fun _ => ?_
  refine .bind (gives_lowerOptional hg rfl (hn.kid hk 1 rfl)) fun attrs hattrs => .pure ?_
  exact low_like hn.placed hk rfl (fit_first (low_name (hn.kid hk 0 rfl).fits)
    (fit_first hattrs (fit_first (low_optName (hn.kid hk 2 rfl).fits) fit_none)))

theorem isType_of_isTypeStatement {k : NodeKind} (hk : k.isTypeStatement = true) :
    k.isType = true := by
  unfold NodeKind.isTypeStatement at hk
  split at hk
  · decide
  · decide
  · decide
  · decide
  · cases hk

theorem gives_lowerExportDefault (hg : Handles f d g) (hn : Turn f d .stmt n)
    (hk : n.kind = .exportDefault) : Gives (lowerExportDefault g n) (Low f .optStmt) := by
  have hinner : Due f d .exported (n.kid 0) := hn.kid hk 0 rfl
  have hlike (x : Node) (hx : Low f .exported x) : Low f .optStmt (like n [x]) :=
    low_like hn.placed hk rfl (fit_first hx fit_none)
  refine .branch (fun _ => .pure rfl) fun ht => ?_
  have hp : (n.kid 0).isPresent = true := by
    cases hkid : n.kid 0 with
    | absent => rw [hkid] at hinner; cases hinner.fits
    | mk h ks ds t a x => rfl
  have hturn := hinner.turn hp (by
    show (n.kid 0).kind.isTypeStatement = false
    rw [Bool.eq_false_iff]
    exact fun h => ht (isType_of_isTypeStatement h))
  split
  · rename_i hfunc
    exact .bind (gives_lowerFunction hg hturn (.inl hfunc) (by rw [hfunc]; rfl)) fun r hr =>
      .pure (hlike r hr)
  · rename_i hclass
    exact .bind (gives_lowerClass hg hturn (.inl hclass) (by rw [hclass]; rfl)) fun r hr =>
      .pure (hlike r hr)
  · rename_i hfunc hclass
    have hexpr : Due f d .expr (n.kid 0) := by
      have hallowed := hturn.placed.allowed
      simp only [Place.allows, Bool.or_eq_true, beq_iff_eq] at hallowed
      have hkind : Place.expr.allows false (n.kid 0).kind = true := by
        simpa [Place.allows] using (hallowed.resolve_right hclass).resolve_right hfunc
      refine ⟨hturn.placed.fits_at hkind ?_, hinner.depth_le⟩
      exact (Place.Le.expr_exported.allows false _ _ hkind).2.symm
    refine .skip fun c => .branch (fun _ => .pure rfl) fun _ => ?_
    exact .bind (hg.exprOf hexpr) fun r hr => .pure (hlike r (fits_le .expr_exported hr))

/-! ## Namespaces -/

theorem gives_lowerNamespace {exported : Bool} (hg : Handles f d g) (hn : Turn f d p n)
    (hk : n.kind = .namespaceDecl) : Gives (lowerNamespace g n exported) (LowAll f .stmt) := by
  have hbody : Due f d .namespaceBody (n.kid 1) := hn.kid hk 1 rfl
  refine .branch (fun _ => .pure .nil) fun hp =>
    .branch (fun _ => .skip fun _ => .pure .nil) fun _ => ?_
  have hturn := hbody.turn (by
    simp only [Bool.or_eq_true, not_or, Node.isAbsent] at hp
    simpa using hp.2) rfl
  refine .skip fun parent => .bind (.elsewhere (.collectTemps (Q := LowAll f .stmt)
    (.branch (fun hdotted => ?_) fun hdotted => ?_))) fun r hr => ?_
  · have hkind : (n.kid 1).kind = .namespaceDecl := beq_iff_eq.1 hdotted
    have hfits : Fits f .namespaceDecl (n.kid 1) :=
      hturn.placed.fits_at (by rw [hkind]; rfl) (by rw [hkind]; rfl)
    exact hg.namespaceDecl _ _ hfits (Nat.le_of_succ_le hbody.depth_le)
  · have hkind : (n.kid 1).kind = .block := by
      have hallowed := hturn.placed.allowed
      simp only [Place.allows, plain_source, Bool.not_false, Bool.true_and, Bool.or_eq_true,
        beq_iff_eq] at hallowed
      exact hallowed.resolve_right fun h => hdotted (beq_iff_eq.2 h)
    exact gives_lowerList hg (hturn.each hkind rfl)
  · refine .branch (fun _ => .pure .nil) fun _ => .bind (gives_withTemps hr) fun stmts hstmts => ?_
    exact gives_fillObject hn.placed.span (hn.kid hk 0 rfl).fits.span hstmts

theorem low_setExport {x : Scope} {key : Bytes} {nameSpan : Span} {value : Node}
    (hs : f.holds s = true) (hname : f.holds nameSpan = true) (hv : Low f .expr value) :
    Low f .stmt (setExport x s key nameSpan value) :=
  low_exprStmt hs (low_assign hs (low_member hname (low_ident rfl hname)) hv)

theorem gives_lowerExportedVariable {x : Scope} (hg : Handles f d g) (hn : Due f d .declarator n) :
    Gives (lowerExportedVariable g x n) (LowAll f .stmt) := by
  have hturn := hn.present rfl fun _ => rfl
  have hk : n.kind = .declarator := by simpa [Place.allows] using hturn.placed.allowed
  have hinit : Due f d .optExpr (n.kid 1) := hturn.kid hk 1 rfl
  refine .branch (fun _ => .skip fun _ => .pure .nil) fun _ =>
    .branch (fun _ => .pure .nil) fun ha => ?_
  refine .bind (hg.exprOf ⟨fits_there hinit.fits ha, hinit.depth_le⟩) fun value hvalue =>
    .pure (.one ?_)
  exact low_setExport hturn.placed.span (hturn.kid hk 0 rfl).fits.span hvalue

theorem gives_lowerNamespaceExport {x : Scope} (hg : Handles f d g) (hn : Turn f d .stmt n)
    (hk : n.kind = .exportDecl) : Gives (lowerNamespaceExport g x n) (LowAll f .stmt) := by
  have hdecl : Due f d .declaration (n.kid 0) := hn.kid hk 0 rfl
  have hp : (n.kid 0).isPresent = true := by
    cases hkid : n.kid 0 with
    | absent => rw [hkid] at hdecl; cases hdecl.fits
    | mk h ks ds t a x => rfl
  have hturn (hd : (n.kid 0).kind.isTypeStatement = false) : Turn f d .declaration (n.kid 0) :=
    hdecl.turn hp hd
  -- a function or a class is copied from the name it is declared under
  have hcopy (hname : f.holds ((n.kid 0).kid 0).span = true) : Gives (do
      let out ← g.stmt (n.kid 0)
      if out.isEmpty then return []
      return out ++ [setExport x ((n.kid 0).kid 0).span ((n.kid 0).kid 0).text
        ((n.kid 0).kid 0).span (.ident ((n.kid 0).kid 0).text ((n.kid 0).kid 0).span)])
      (LowAll f .stmt) := by
    refine .bind (hg.stmtOf (hdecl.le .declaration_stmt)) fun out hout => ?_
    refine .branch (fun _ => .pure .nil) fun _ => .pure (hout.append (.one ?_))
    exact low_setExport hname hname (low_ident rfl hname)
  refine .skip fun _ => ?_
  split
  · rename_i hd
    refine .branch (fun _ => .pure .nil) fun _ => ?_
    refine .bind (.mapM fun m hm => gives_lowerExportedVariable hg ?_) fun sets hsets => ?_
    · exact (hturn (by rw [hd]; rfl)).each hd rfl m hm
    · exact .pure (.flatten hsets)
  · rename_i hd
    exact hcopy ((hturn (by rw [hd]; rfl)).kid hd 0 rfl).fits.span
  · rename_i hd
    exact hcopy ((hturn (by rw [hd]; rfl)).kid hd 0 rfl).fits.span
  · rename_i hd
    exact gives_lowerEnum hg (hturn (by rw [hd]; rfl)) hd
  · rename_i hd
    exact gives_lowerNamespace hg (hturn (by rw [hd]; rfl)) hd
  · rename_i hd
    have hturn := hturn (by rw [hd]; rfl)
    refine .branch (fun _ => .skip fun _ => .pure .nil) fun hx => ?_
    refine .bind (gives_lowerEntity hg _ ((hturn.kid hd 1 rfl).entity hx)) fun value hvalue => ?_
    exact .pure (.one (low_setExport hturn.placed.span (hturn.kid hd 0 rfl).fits.span hvalue))
  · rename_i hvar hfunc hclass henum hspace halias
    refine .branch (fun ht => ?_) fun _ => .pure .nil
    -- what is left is a declaration of types
    rcases (fits_present hp).1 hdecl.fits with ⟨⟨-, hdrop⟩, -⟩ | hplaced
    · rw [isType_of_isTypeStatement hdrop] at ht
      cases ht
    · have hallowed := hplaced.allowed
      simp only [Place.allows, plain_source, Bool.false_eq_true, if_false, Bool.or_eq_true,
        beq_iff_eq] at hallowed
      rcases hallowed with ((((hd | hd) | hd) | hd) | hd) | hd
      · exact absurd hd hvar
      · exact absurd hd hfunc
      · exact absurd hd hclass
      · exact absurd hd henum
      · exact absurd hd hspace
      · exact absurd hd halias

theorem gives_lowerExportDecl (hg : Handles f d g) (hn : Turn f d .stmt n)
    (hk : n.kind = .exportDecl) :
    Gives (lowerExportDecl g n) (LowAll f .stmt) := by
  have hdecl : Due f d .declaration (n.kid 0) := hn.kid hk 0 rfl
  have hs := hn.placed.span
  refine .skip fun scope => ?_
  split
  · exact gives_lowerNamespaceExport hg hn hk
  · dsimp only
    split
    · rename_i hd
      have hturn := hdecl.turn (isPresent_of_kind hd (by decide)) (by rw [hd]; rfl)
      exact .skip fun _ => gives_lowerEnum hg hturn hd
    · rename_i hd
      have hturn := hdecl.turn (isPresent_of_kind hd (by decide)) (by rw [hd]; rfl)
      exact .skip fun _ => gives_lowerNamespace hg hturn hd
    · rename_i hd
      have hturn := hdecl.turn (isPresent_of_kind hd (by decide)) (by rw [hd]; rfl)
      refine .bind (gives_lowerAlias hg hturn hd) fun r hr => .pure ?_
      exact low_one (low_exportWrap? hs hr)
    · refine .bind (hg.stmtOf (hdecl.le .declaration_stmt)) fun out hout => ?_
      split
      · exact .pure .nil
      · exact .pure (.one (low_exportWrap hs (hout _ List.mem_cons_self)))

end

end ScriptLower.Lower

import ScriptLower.Proofs.Parse.ExpressionForms

/-!
# The forms of statements and programs

What may be exported fits the place of a declaration, which fewer statements do. From the rules the
forms of whole files follow by induction over the depth to which the rules are tied together.
-/

namespace ScriptLower.Parse

open ScriptLower

variable {f : SourceFile} {g : Rules} {p : Place} {t : Token}

/-! ## Declarations -/

section

variable (hg : g.Form f)

include hg

theorem parseDeclarator_forms {keyword : Bytes} {flags : Flags} {inFor : Bool} :
    Forms f (Formed f .declarator) (parseDeclarator g keyword flags inFor) := by
  refine .bind (hg.binding.le .pattern_expr) fun target htarget => .skip fun t => ?_
  extract_lets definite isPattern tail
  have htail (u : Unit) : Forms f (Formed f .declarator) (tail u) := by
    refine .bind (parseAnnotationOpt_forms hg) fun type htype => ?_
    extract_lets finish
    have hfinish (value : Node) (h : Formed f .optExpr value) :
        Forms f (Formed f .declarator) (finish value) := by
      refine .skip fun _ => .node_then htarget.span fun s hs => .pure (.withType ?_ htype)
      exact .flagged rfl (by decide) hs (.first htarget (.first h .none))
    have hnone := hfinish .absent (.absent rfl)
    refine .skip fun _ => .branch (.bind (hg.assign.le .expr_optExpr) hfinish) (.skip fun v => ?_)
    exact .branch (.skip fun _ => .pure_then hnone) (.pure_then hnone)
  exact .branch (.skip fun _ => .skip fun _ => htail ()) (htail ())

/-- A declaration of variables, wherever one may stand. -/
def FitsAsVariables (f : SourceFile) (n : Node) : Prop :=
  ∀ p : Place, p.allows false .varDecl = true → Formed f p n

theorem parseVarDeclList_forms {keyword : Bytes} {flags : Flags} {inFor : Bool}
    (ht : f.spans t.span = true) :
    Forms f (FitsAsVariables f) (parseVarDeclList g t keyword flags inFor) := by
  refine .bind (R := FormedAll f .declarator)
    (.loop (I := FormedAll f .declarator) .nil fun kids hkids => ?_)
    fun kids hkids => ?_
  · refine .bind (parseDeclarator_forms hg) fun d hd => .skip fun _ => ?_
    exact .branch (.again (hkids.snoc hd)) (.leave (hkids.snoc hd))
  · exact .node_then ht fun s hs => .pure fun p ha =>
      .withText (.flagged ha (by decide) hs (.each hkids))

theorem parseVarStatement_forms {keyword : Bytes} {flags : Flags} (ht : f.spans t.span = true) :
    Forms f (Formed f .declaration) (parseVarStatement g t keyword flags) :=
  .bind (parseVarDeclList_forms hg ht) fun _ hn => .skip fun _ => .spanTo_then ht fun _ hs =>
    .pure (.withSpan (hn .declaration rfl) hs)

theorem parseEnumMember_forms : Forms f (Formed f .enumMember) (parseEnumMember g) := by
  refine .fetch fun t ht => .skip fun _ => .branch .refuse_then ?_
  have hkey : Formed f .name (if t.kind == .stringLit then stringOf t else identOf t) := by
    split
    · exact formed_stringOf ht rfl
    · exact formed_identOf ht rfl
  refine .skip fun _ => .skip fun _ => .either (R := Formed f .optExpr)
    (.withIn (hg.assign.le .expr_optExpr)) (.pure (.absent rfl)) fun value hvalue => ?_
  exact .node ht fun s hs => .new rfl (by decide) hs (.first hkey (.first hvalue .none))

theorem parseEnum_forms {flags : Flags} (ht : f.spans t.span = true) :
    Forms f (Formed f .declaration) (parseEnum g t flags) := by
  refine .skip fun _ => .skip fun _ => .bind (parseBindingIdent_forms (p := .binder) rfl)
    fun name hname => .skip fun _ => .bind (.commaList (parseEnumMember_forms hg))
      fun members hmembers => .skip fun _ => .skip fun _ => .node_then ht fun s hs => .pure ?_
  exact .flagged rfl (by decide) hs (.first hname (.each hmembers))

theorem parseInterface_forms {flags : Flags} (ht : f.spans t.span = true)
    (hd : p.drops .interfaceDecl = true) : Forms f (Formed f p) (parseInterface g t flags) := by
  refine .skip fun word => .skip fun _ => .inType (.bind parseTypeName_forms fun name hname => ?_)
  refine .bind (parseTypeParamsOpt_forms hg) fun tparams htparams => .skip fun _ => ?_
  refine .either (parseHeritageList_forms hg) (.pure .absent) fun bases hbases => ?_
  refine .bind (parseTypeLiteral_forms hg) fun body hbody => .node_then ht fun s hs => .pure ?_
  refine .dropped (.addFlags (.inl rfl) (.withTargs (.new rfl hs ?_) htparams)) rfl hd
  simp [hname, hbases, hbody]

theorem parseTypeAlias_forms {flags : Flags} (ht : f.spans t.span = true)
    (hd : p.drops .typeAlias = true) : Forms f (Formed f p) (parseTypeAlias g t flags) := by
  refine .skip fun word => .skip fun _ => .inType (.bind parseTypeName_forms fun name hname => ?_)
  refine .bind (parseTypeParamsOpt_forms hg) fun tparams htparams => .skip fun _ => ?_
  refine .bind (parseType_forms hg) fun type htype => .skip fun _ => .node_then ht fun s hs =>
    .pure ?_
  refine .dropped (.addFlags (.inl rfl) (.withTargs (.new rfl hs ?_) htparams)) rfl hd
  simp [hname, htype]

/-! ## Namespaces -/

theorem parseNamespaceBlock_forms {name : Node} {flags : Flags} (ht : f.spans t.span = true)
    (hname : Formed f .name name) :
    Forms f (Formed f .namespaceDecl) (parseNamespaceBlock g t name flags) := by
  refine .fetch fun open_ hopen =>
    .bind (.inScope (parseStatementList_forms hg)) fun stmts hstmts => ?_
  refine .skip fun _ => .skip fun _ => .node_then hopen fun s hs => .node_then ht fun s' hs' =>
    .pure ?_
  have hbody : Formed f .namespaceBody (.new .block s stmts) :=
    .new rfl (by decide) hs (.each hstmts)
  exact .flagged rfl (by decide) hs' (.first hname (.first hbody .none))

theorem parseNamespaceBody_forms {name : Node} {flags : Flags} (ht : f.spans t.span = true)
    (hname : Formed f .name name) :
    Forms f (Formed f .namespaceDecl) (parseNamespaceBody g t name flags) :=
  .branch (.inAmbient (parseNamespaceBlock_forms hg ht hname))
    (parseNamespaceBlock_forms hg ht hname)

theorem parseNamespace_forms {flags : Flags} (ht : f.spans t.span = true) :
    Forms f (Formed f .namespaceDecl) (parseNamespace g t flags) := by
  have hnode {name body : Node} {s : Span} {flags : Flags} (hs : f.spans s = true)
      (hname : Formed f .name name) (hbody : Formed f .namespaceBody body) :
      Formed f .namespaceDecl ((Node.new .namespaceDecl s [name, body]).addFlags flags) :=
    .flagged rfl (by decide) hs (.first hname (.first hbody .none))
  refine .fetch fun word hword => .skip fun _ => .fetch fun u hu =>
    .branch ?_ (.branch (.skip fun _ => ?_) ?_)
  · exact parseNamespaceBody_forms hg ht (.ident hword rfl)
  · refine .skip fun _ => .branch (parseNamespaceBody_forms hg ht (formed_stringOf hu rfl))
      (.skip fun _ => ?_)
    exact .node_then ht fun s hs => .pure (hnode hs (formed_stringOf hu rfl) (.absent rfl))
  · refine .bind (parseBindingIdent_forms (p := .name) rfl) fun name hname =>
      .fetch fun dot hdot => ?_
    refine .branch (.bind (hg.namespaceFrom dot flags hdot) fun inner hinner => ?_) ?_
    · exact .node_then ht fun s hs =>
        .pure (hnode hs hname (hinner.le .namespaceDecl_namespaceBody))
    · exact parseNamespaceBody_forms hg ht hname

/-! ## Ambient declarations -/

theorem parseDeclared_forms (ht : f.spans t.span = true) :
    Forms f (Formed f .declaration) (parseDeclared g t) := by
  have hnamespace (flags : Flags) : Forms f (Formed f .declaration) (g (.namespaceFrom t flags)) :=
    (hg.namespaceFrom t flags ht).le .namespaceDecl_declaration
  refine .skip fun u => .skip fun next => .branch (.skip fun _ => parseVarStatement_forms hg ht) ?_
  refine .branch (.skip fun _ => parseEnum_forms hg ht)
    (.branch (parseFunctionDecl_forms hg ht rfl rfl (fun h => by cases h)) ?_)
  refine .branch (parseClassDecl_forms hg rfl (fun h => by cases h) ht .nil)
    (.branch (.skip fun _ => ?_) ?_)
  · exact parseClassDecl_forms hg rfl (fun h => by cases h) ht .nil
  refine .branch (parseEnum_forms hg ht) (.branch (hnamespace _) (.branch (hnamespace _) ?_))
  exact .branch (parseInterface_forms hg ht rfl)
    (.branch (parseTypeAlias_forms hg ht rfl) .unexpected)

/-- A tree of the file for a place, which begins in the file. -/
structure Sited (f : SourceFile) (p : Place) (n : Node) : Prop where
  /-- It is formed for the place. -/
  formed : Formed f p n
  /-- It begins in the file. -/
  starts : f.base ≤ n.span.start

omit hg in
/-- What stretches from a token of the file begins in it. -/
theorem Forms.sited [g.Orderly] {q : Parser Node} {m : Know} (h : Forms f (Formed f p) q)
    (hq : Obeys g true (Know.past { rank := partsPerToken }) q (Spans m t)) (ht : t.Lies f) :
    Forms f (Sited f p) q :=
  (h.begins (g := g) hq rfl rfl ht.base_le).mono fun _ hn => ⟨hn.1, hn.2⟩

theorem parseDeclare_sited [g.Orderly] (ht : t.Lies f) :
    Forms f (Sited f .declaration) (parseDeclare g t) := by
  refine .skip fun u => .skip fun _ => .bind (.inAmbient (parseDeclared_forms hg (spans_lies ht)))
    fun n hn => ?_
  refine .bind (R := fun sp => f.spans sp = true ∧ f.base ≤ sp.start)
    (fun s hat => ?_) fun sp hsp => ?_
  · exact ⟨hat, SourceFile.spans_cover (spans_lies ht) hat.last,
      SourceFile.base_le_cover ht.base_le hat.last⟩
  · have hpresent := hn.isPresent rfl
    refine .pure ⟨.withSpan (.addFlags rfl rfl hn) hsp.1, ?_⟩
    rw [Node.span_withSpan _ _ (by simpa using hpresent)]
    exact hsp.2

theorem parseLabeled_sited [g.Orderly] :
    Forms f (fun n => Sited f .stmt n ∧ n.kind = .labeled) (parseLabeled g) := by
  refine .bind .advance fun t ht => .skip fun _ => .skip fun isLoop =>
    .bind (.inLabel (hg.statement false))
    fun body hbody => ?_
  have hspan := spans_lies ht
  refine ((Forms.node hspan fun s hs => ⟨?_, rfl⟩).begins (g := g)
    (Q := fun n => Formed f .stmt n ∧ n.kind = .labeled) (node_spans
    (m := Know.past { rank := partsPerToken }) (k := Know.past { rank := partsPerToken })
      (q := true))
    rfl rfl ht.base_le).mono fun n hn => ⟨⟨hn.1.1, hn.2⟩, hn.1.2⟩
  exact .new rfl (by decide) hs (.first (formed_identOf hspan rfl) (.first hbody .none))

/-- A statement that begins in the file and is a declaration too, unless it has a label. -/
def Declares (f : SourceFile) (n : Node) : Prop :=
  Sited f .stmt n ∧ (n.kind ≠ .labeled → Sited f .declaration n)

theorem tryContextualStatement_forms [g.Orderly] (ht : t.Lies f) :
    Forms f (fun o => ∀ n ∈ o, Declares f n) (tryContextualStatement g t) := by
  have hs := spans_lies ht
  have found {q : Parser Node} (h : Forms f (Sited f .declaration) q) :
      Forms f (fun o => ∀ n ∈ o, Declares f n) (do return some (← q)) :=
    .found (h.mono fun n hn => ⟨⟨hn.formed.le .declaration_stmt, hn.starts⟩, fun _ => hn⟩)
  have hnamespace (flags : Flags) := found (((hg.namespaceFrom t flags hs).le
    .namespaceDecl_declaration).sited (namespaceFrom_spans (.inr (by decide))) ht)
  refine .branch .none (.skip fun next => .branch (.skip fun _ => found ?_) ?_)
  · exact (parseVarStatement_forms hg hs).sited parseVarStatement_spans ht
  refine .branch (found ((parseFunctionDecl_forms hg hs rfl rfl (fun h => by cases h)).sited
    parseFunctionDecl_spans ht)) ?_
  refine .branch (found ((parseInterface_forms hg hs rfl).sited parseInterface_spans ht)) ?_
  refine .branch (found ((parseTypeAlias_forms hg hs rfl).sited parseTypeAlias_spans ht)) ?_
  refine .branch (hnamespace _) (.branch (hnamespace _) (.skip fun v => .branch (hnamespace _) ?_))
  refine .branch (found (parseDeclare_sited hg ht)) (.branch (.skip fun _ => found ?_) ?_)
  · exact (parseClassDecl_forms hg rfl (fun h => by cases h) hs .nil).sited parseClassDecl_spans ht
  refine .branch (.skip fun _ => .found ?_) .none
  exact (parseLabeled_sited hg).mono fun n hn => ⟨hn.1, fun h => absurd hn.2 h⟩

/-! ## Imports -/

omit hg in
theorem parseExportName_forms (ha : p.allows false .ident = true)
    (hl : p.allows false .literal = true) :
    Forms f (Formed f p) parseExportName := by
  refine .fetch fun t ht => .branch (.skip fun _ => .pure (formed_stringOf ht hl)) ?_
  exact .branch (.skip fun _ => .pure (formed_identOf ht ha)) .unexpected

omit hg in
theorem parseModuleSpecifier_forms (hl : p.allows false .literal = true) :
    Forms f (Formed f p) parseModuleSpecifier :=
  .fetch fun _ ht => .branch (.skip fun _ => .pure (formed_stringOf ht hl)) .unexpected

theorem parseImportAttributes_forms : Forms f (Formed f .optExpr) (parseImportAttributes g) := by
  refine .skip fun t =>
    .branch (.pure (.absent rfl)) (.skip fun _ => .skip fun _ => .branch ?_ .unexpected)
  exact (parseObjectLiteral_forms hg).le .expr_optExpr

omit hg in
theorem parseImportLocal_forms : Forms f (Formed f .name) parseImportLocal :=
  .bind (parseBindingIdent_forms rfl) fun _ hn => .skip fun _ => .pure hn

omit hg in
theorem checkImportedName_forms {n : Node} (hn : Formed f .name n) :
    Forms f (Formed f .name) (checkImportedName n) := by
  refine .branch .refuse_then (.branch .refuse_then (.skip fun _ => ?_))
  exact .pure (.ident hn.span rfl)

omit hg in
instance : Keeps eatTypeModifier := .of_any eatTypeModifier_obeys

omit hg in
instance {next : Token} : Keeps (isTypeOnlyImport next) := .of_any isTypeOnlyImport_obeys

omit hg in
theorem parseImportSpecifier_forms : Forms f (Formed f .importItem) parseImportSpecifier := by
  refine .fetch fun start hstart => .skip fun typeOnly =>
    .bind (parseExportName_forms (p := .name) rfl rfl)
    fun imported himp => .skip fun _ =>
      .either parseImportLocal_forms (checkImportedName_forms himp)
      fun bound hbound => .node_then hstart fun s hs => .pure ?_
  exact .flagged rfl (by decide) hs (.first himp (.first hbound .none))

omit hg in
theorem parseImportSpecifiers_forms : Forms f (FormedAll f .importItem) parseImportSpecifiers :=
  .skip fun _ => .bind (.commaList parseImportSpecifier_forms) fun _ hspecs =>
    .skip fun _ => .pure hspecs

theorem parseImportRest_forms {flags : Flags} {specs : List Node} {clause : Bool}
    (ht : f.spans t.span = true) (hspecs : FormedAll f .importItem specs) :
    Forms f (Formed f .stmt) (parseImportRest g t flags specs clause) := by
  unfold parseImportRest
  extract_lets tail
  have htail (u : Unit) : Forms f (Formed f .stmt) (tail u) := by
    refine .bind (parseModuleSpecifier_forms (p := .name) rfl) fun src hsrc => ?_
    refine .bind (parseImportAttributes_forms hg) fun attrs hattrs => .skip fun _ => ?_
    exact .node_then ht fun s hs => .pure (.flagged rfl (by decide) hs
      (.first hsrc (.first hattrs (.each hspecs))))
  exact .branch (.skip fun _ => htail ()) (htail ())

omit hg in
theorem parseImportEquals_forms {name : Node} {flags : Flags} (ht : f.spans t.span = true)
    (hname : Formed f .name name) : Forms f (Formed f .stmt) (parseImportEquals t name flags) := by
  refine .skip fun eq => .skip fun _ => .fetch fun u hu => .skip fun next => ?_
  extract_lets tail
  have htail (ref : Node) (h : Formed f .reference ref) : Forms f (Formed f .stmt) (tail ref) :=
    .skip fun _ => .node_then ht fun s hs => .pure
      (.flagged rfl (by decide) hs (.first hname (.first h .none)))
  refine .branch (.skip fun _ => .skip fun _ => ?_) ?_
  · refine .bind (parseModuleSpecifier_forms (p := .name) rfl) fun src hsrc => .skip fun _ => ?_
    exact .bind (.node hu fun s hs => .dropped (.new rfl hs (by simp [hsrc.grown])) rfl rfl) htail
  · exact .bind (.inType parseEntityName_forms) fun ref href =>
      htail ref (href.le .entity_reference)

omit hg in
theorem parseImportClause_forms : Forms f (FormedAll f .importItem) parseImportClause := by
  refine .skip fun t => ?_
  split
  · refine .fetch fun star hstar => .skip fun _ => .bind parseImportLocal_forms fun name hname => ?_
    exact .node_then hstar fun s hs => .pure
      (FormedAll.nil.snoc (.new rfl (by decide) hs (.first hname .none)))
  · exact parseImportSpecifiers_forms
  · exact .unexpected

theorem parseImport_sited [g.Orderly] : Forms f (Sited f .stmt) (parseImport g) := by
  refine .bind .advance fun start hlies => .skip fun t => .skip fun next => ?_
  have hstart := spans_lies hlies
  have ofRest {specs : List Node} {flags : Flags} {clause : Bool}
      (hspecs : FormedAll f .importItem specs) :
      Forms f (Sited f .stmt) (parseImportRest g start flags specs clause) :=
    (parseImportRest_forms hg hstart hspecs).sited parseImportRest_spans hlies
  refine .branch (ofRest .nil) ?_
  extract_lets tail
  have htail (typeOnly : Bool) : Forms f (Sited f .stmt) (tail typeOnly) := by
    unfold tail
    extract_lets flags rest
    have hrest (u : Unit) : Forms f (Sited f .stmt) (rest u) := by
      refine .skip fun _ => .branch (.bind parseImportLocal_forms fun name hname => ?_) ?_
      · refine .skip fun _ => .branch ((parseImportEquals_forms hstart hname).sited (g := g)
          parseImportEquals_spans hlies) ?_
        have hfirst : Formed f .importItem (.new .importDefault name.span [name]) :=
          .new rfl (by decide) hname.span (.first hname .none)
        refine .skip fun _ => .branch (.bind parseImportClause_forms fun specs hspecs => ?_) ?_
        · exact ofRest (formedAll_cons.2 ⟨hfirst, hspecs⟩)
        · exact ofRest (FormedAll.nil.snoc hfirst)
      · exact .bind parseImportClause_forms fun specs hspecs => ofRest hspecs
    exact .branch (.skip fun _ => .skip fun _ => hrest ()) (hrest ())
  exact .branch (.skip htail) (.pure_then (htail _))

/-! ## Exports -/

theorem parseExportAll_forms {flags : Flags} (ht : f.spans t.span = true) :
    Forms f (Formed f .stmt) (parseExportAll g t flags) := by
  refine .skip fun _ => .skip fun _ =>
    .either (R := Formed f .optName) (parseExportName_forms rfl rfl)
    (.pure (.absent rfl)) fun exported hexported => .skip fun _ =>
      .bind (parseModuleSpecifier_forms (p := .name) rfl) fun src hsrc => ?_
  refine .bind (parseImportAttributes_forms hg) fun attrs hattrs => .skip fun _ => ?_
  exact .node_then ht fun s hs => .pure (.flagged rfl (by decide) hs
    (.first hsrc (.first hattrs (.first hexported .none))))

omit hg in
theorem parseExportSpecifier_forms : Forms f (Formed f .exportItem) parseExportSpecifier := by
  refine .fetch fun start hstart => .skip fun typeOnly =>
    .bind (parseExportName_forms (p := .name) rfl rfl)
    fun name hname => .skip fun _ => .either (parseExportName_forms (p := .name) rfl rfl)
      (.pure hname)
      fun exported hexported => .node_then hstart fun s hs => .pure ?_
  exact .flagged rfl (by decide) hs (.first hname (.first hexported .none))

omit hg in
instance {specs : List Node} : Keeps (checkExportedNames specs) := by
  induction specs with
  | nil => exact inferInstanceAs (Keeps (pure _))
  | cons spec r ih =>
    unfold checkExportedNames
    dsimp only
    infer_instance

theorem parseExportNamed_forms {flags : Flags} (ht : f.spans t.span = true) :
    Forms f (Formed f .stmt) (parseExportNamed g t flags) := by
  refine .skip fun _ => .bind (.commaList parseExportSpecifier_forms) fun specs hspecs => ?_
  refine .skip fun _ => ?_
  extract_lets tail
  have htail (src attrs : Node) (hs : Formed f .optName src) (ha : Formed f .optExpr attrs) :
      Forms f (Formed f .stmt) (tail (src, attrs)) :=
    .skip fun _ => .node_then ht fun s hspan => .pure (.flagged rfl (by decide) hspan
      (.first hs (.first ha (.each hspecs))))
  refine .skip fun _ =>
    .branch ?_ (.skip fun _ => .pure_then (htail _ _ (.absent rfl) (.absent rfl)))
  refine .bind (parseModuleSpecifier_forms (p := .optName) rfl) fun src hsrc => ?_
  exact .bind (parseImportAttributes_forms hg) fun attrs hattrs =>
    .pure_then (htail src attrs hsrc hattrs)

theorem parseExportDefault_forms {decos : List Node} (ht : f.spans t.span = true)
    (hdecos : FormedAll f .decorator decos) :
    Forms f (Formed f .stmt) (parseExportDefault g t decos) := by
  refine .skip fun _ => .fetch fun u hu => .skip fun next => ?_
  extract_lets flags tail
  have htail (decl : Node) (h : Formed f .exported decl) : Forms f (Formed f .stmt) (tail decl) :=
    .node ht fun s hs => .new rfl (by decide) hs (.first h .none)
  refine .branch (.bind (parseFunctionDecl_forms hg hu rfl rfl fun _ => rfl) htail) ?_
  refine .branch (.bind (parseClassDecl_forms hg rfl (fun _ => rfl) hu hdecos) htail)
    (.branch ?_ ?_)
  · refine .bind (parseDecorators_forms hg) fun more hmore => .fetch fun c hc => ?_
    refine .branch (.bind .unexpected htail)
      (.bind (parseClassDecl_forms hg rfl (fun _ => rfl) hc ?_) htail)
    exact hdecos.append hmore
  · refine .branch
      (.skip fun _ => .bind (parseClassDecl_forms hg rfl (fun _ => rfl) hu hdecos) htail) ?_
    refine .branch (.bind (parseInterface_forms hg hu rfl) htail)
      (.branch (.bind .unexpected htail) ?_)
    exact .bind (.withIn hg.assign) fun e he => .skip fun _ =>
      .pure_then (htail e (he.le .expr_exported))

theorem parseDecoratedClass_forms {decos : List Node} {start : Option Token}
    (ha : p.allows false .classDecl = true) (hs : ∀ t ∈ start, f.spans t.span = true)
    (hdecos : FormedAll f .decorator decos) :
    Forms f (Formed f p) (parseDecoratedClass g decos start) := by
  refine .skip fun _ => .fetch fun c hc =>
    .branch .unexpected (parseClassDecl_forms hg ha (fun h => by cases h) ?_ hdecos)
  cases start with
  | none => exact hc
  | some t => exact hs t rfl

/-- An exported declaration begins in the file, as it stretches from a token of its own. -/
theorem parseExportedDeclaration_sited [g.Orderly] {decos : List Node} (ht : t.Lies f)
    (hdecos : FormedAll f .decorator decos) :
    Forms f (Sited f .declaration) (parseExportedDeclaration g t decos) := by
  have hs := spans_lies ht
  have ofVar {keyword : Bytes} {flags : Flags} :
      Forms f (Sited f .declaration) (parseVarStatement g t keyword flags) :=
    (parseVarStatement_forms hg hs).sited parseVarStatement_spans ht
  have ofEnum {flags : Flags} : Forms f (Sited f .declaration) (parseEnum g t flags) :=
    (parseEnum_forms hg hs).sited parseEnum_spans ht
  refine .either (R := FormedAll f .decorator) (parseDecorators_forms hg)
    (.pure .nil) fun more hmore => ?_
  refine .branch (.skip fun _ => .peek_then fun c hc => .branch .unexpected ?_) ?_
  · exact (parseClassDecl_forms hg rfl (fun h => by cases h) (spans_lies hc.toLies)
      (hdecos.append hmore)).sited
      parseClassDecl_spans hc.toLies
  split
  · exact .skip fun _ => ofVar
  · exact .skip fun next => .skip fun _ => .branch ofEnum ofVar
  · exact (parseFunctionDecl_forms hg hs rfl rfl (fun h => by cases h)).sited
      parseFunctionDecl_spans ht
  · exact (parseClassDecl_forms hg rfl (fun h => by cases h) hs .nil).sited parseClassDecl_spans ht
  · exact ofEnum
  · refine .bind (tryContextualStatement_forms hg ht) fun stmt hstmt => ?_
    split
    · refine .choose (fun _ => .refuse) fun hk => .pure ?_
      exact (hstmt _ rfl).2 (by simpa using hk)
    · exact .unexpected
  · exact .unexpected

theorem parseExport_forms [g.Orderly] {decos : List Node} (hdecos : FormedAll f .decorator decos) :
    Forms f (Formed f .stmt) (parseExport g decos) := by
  refine .fetch fun start hstart => .peek_then fun t ht => .skip fun next => ?_
  refine .branch (parseExportDefault_forms hg hstart hdecos)
    (.branch (.skip fun _ => .skip fun _ => ?_) ?_)
  · exact .bind (.withIn hg.assign) fun e he => .skip fun _ => .node hstart fun s hs =>
      .new rfl (by decide) hs (.first he .none)
  refine .branch (.skip fun _ => .skip fun _ => .skip fun _ => ?_) ?_
  · refine .bind parseTypeName_forms fun name hname => .skip fun _ => .node hstart fun s hs => ?_
    exact .dropped (.new rfl hs (by simp [hname])) rfl rfl
  refine .branch (parseExportAll_forms hg hstart)
    (.branch (parseExportNamed_forms hg hstart) (.branch ?_ ?_))
  · refine .skip fun _ => .skip fun _ => .skip fun _ => ?_
    exact .branch (parseExportAll_forms hg hstart) (parseExportNamed_forms hg hstart)
  refine .branch (.bind (parseImport_sited hg) fun imp himp => ?_) ?_
  · refine .choose (fun _ => .refuse_then) fun hk => .node hstart fun s hs => ?_
    have hk : imp.kind = .importEquals := by simpa using hk
    have hfits : Fits f .declaration imp :=
      (placed_of_kind himp.formed.fits hk rfl (by decide)).fits_at
      (by rw [hk]; rfl) (by rw [hk]; rfl)
    exact .newExport hs ⟨hfits, himp.formed.grown⟩ himp.starts
  · exact .bind (parseExportedDeclaration_sited hg ht.toLies hdecos) fun decl hdecl =>
      .node hstart fun s hs => .newExport hs hdecl.formed hdecl.starts

/-! ## Statements -/

theorem parseParenExpr_forms : Forms f (Formed f .expr) (parseParenExpr g) :=
  .skip fun _ => .bind (parseExpression_forms hg) fun _ he => .skip fun _ => .pure he

theorem parseSubStatement_forms : Forms f (Formed f .stmt) (parseSubStatement g) :=
  .inScope (hg.statement false)

theorem parseLoopBody_forms : Forms f (Formed f .stmt) (parseLoopBody g) :=
  .inLabel (parseSubStatement_forms hg)

theorem parseIf_forms : Forms f (Formed f .stmt) (parseIf g) := by
  refine .fetch fun start hstart => .bind (parseParenExpr_forms hg) fun test htest => ?_
  refine .bind (parseSubStatement_forms hg) fun yes hyes => .skip fun _ => ?_
  refine .either (R := Formed f .optStmt)
    ((parseSubStatement_forms hg).le .stmt_optStmt) (.pure (.absent rfl)) fun no hno => ?_
  exact .node hstart fun s hs => .new rfl (by decide) hs
    (.first htest (.first hyes (.first hno .none)))

theorem parseWhile_forms : Forms f (Formed f .stmt) (parseWhile g) := by
  refine .fetch fun start hstart => .bind (parseParenExpr_forms hg) fun test htest => ?_
  exact .bind (parseLoopBody_forms hg) fun body hbody => .node hstart fun s hs =>
    .new rfl (by decide) hs (.first htest (.first hbody .none))

theorem parseDoWhile_forms : Forms f (Formed f .stmt) (parseDoWhile g) := by
  refine .fetch fun start hstart => .bind (parseLoopBody_forms hg) fun body hbody =>
    .skip fun _ => ?_
  refine .bind (parseParenExpr_forms hg) fun test htest => .skip fun _ =>
    .node hstart fun s hs => ?_
  exact .new rfl (by decide) hs (.first hbody (.first htest .none))

/-- What a loop begins with: a declaration, an expression, or nothing. -/
def Begins (f : SourceFile) (init : Node × Bool) : Prop :=
  if init.2 then FitsAsVariables f init.1 else Formed f .optExpr init.1

omit hg in
instance : Keeps parseForKeyword := by
  unfold parseForKeyword
  infer_instance

theorem parseForInit_forms : Forms f (Begins f) (parseForInit g) := by
  refine .skip fun _ => .branch (.pure (.absent rfl)) (.fetch fun t ht => .skip fun keyword => ?_)
  split
  · exact .bracket (withNoIn_framing true) (.skip fun _ =>
      .bind (parseVarDeclList_forms hg ht) fun n hn => .pure hn)
  · exact .bracket (withNoIn_framing true) (.bind (parseExpression_forms hg) fun n hn =>
      .pure (hn.le .expr_optExpr))

omit hg in
/-- Nothing cannot be assigned to. -/
theorem toTarget_absent {Q : Node → Prop} {inside : Bool} : Forms f Q (toTarget inside .absent) :=
  .bind (R := fun _ => False) (.skip fun _ => .fail) fun _ h => h.elim

theorem parseForEach_forms {awaits : Bool} {init : Node × Bool} (ht : f.spans t.span = true)
    (hinit : Begins f init) : Forms f (Formed f .stmt) (parseForEach g t awaits init.1 init.2) := by
  obtain ⟨init, isDecl⟩ := init
  refine .skip fun isOf => ?_
  extract_lets tail
  have htail (target : Node) (h : Formed f .loopTarget target) :
      Forms f (Formed f .stmt) (tail target) := by
    refine .skip fun _ => .either hg.assign (parseExpression_forms hg) fun right hright => ?_
    refine .skip fun _ => .bind (parseLoopBody_forms hg) fun body hbody => ?_
    refine .node_then ht fun s hs => .pure (.addFlags rfl rfl ?_)
    have hkids := FormedKids.first h (.first hright (.first hbody (.none (r := .none))))
    cases isOf <;> exact .new rfl (by decide) hs hkids
  refine .choose (fun hexpr => ?_) fun hvars => ?_
  · obtain rfl : isDecl = false := by simpa using hexpr
    cases init with
    | absent => exact .bind toTarget_absent htail
    | mk h ks ds ty a x =>
      have hn : Formed f .expr (.mk h ks ds ty a x) :=
        ⟨(fits_placed hinit.fits rfl rfl).fits, hinit.grown⟩
      exact .bind (toTarget_forms false _ hn) fun target h => htail target (h.le .expr_loopTarget)
  · obtain rfl : isDecl = true := by simpa using hvars
    have hhead := htail init (hinit .loopTarget rfl)
    exact .branch (.skip fun _ => .pure_then hhead) (.pure_then hhead)

theorem parseForRest_forms {init : Node} (ht : f.spans t.span = true)
    (hinit : Formed f .loopInit init) :
    Forms f (Formed f .stmt) (parseForRest g t init) := by
  have hexpr : Forms f (Formed f .optExpr) (parseExpression g) :=
    (parseExpression_forms hg).le .expr_optExpr
  refine .skip fun _ => .skip fun _ => .either (R := Formed f .optExpr) (.pure (.absent rfl)) hexpr
    fun test htest => .skip fun _ => .skip fun _ => ?_
  refine .either (R := Formed f .optExpr) (.pure (.absent rfl)) hexpr fun update hupdate =>
    .skip fun _ => ?_
  refine .bind (parseLoopBody_forms hg) fun body hbody => .node ht fun s hs => ?_
  exact .new rfl (by decide) hs
    (.first hinit (.first htest (.first hupdate (.first hbody .none))))

theorem parseFor_forms : Forms f (Formed f .stmt) (parseFor g) := by
  refine .fetch fun start hstart => .skip fun awaits => .skip fun _ => .inScope ?_
  refine .bind (parseForInit_forms hg) fun init hinit => .skip fun t => ?_
  refine .branch (parseForEach_forms hg hstart hinit) (.branch (.skip fun _ => .fail) ?_)
  refine parseForRest_forms hg hstart ?_
  obtain ⟨init, isDecl⟩ := init
  cases isDecl with
  | true => exact hinit .loopInit rfl
  | false => exact hinit.le .optExpr_loopInit

theorem parseReturn_forms : Forms f (Formed f .stmt) (parseReturn g) := by
  refine .fetch fun start hstart => .skip fun v => ?_
  extract_lets finish tail
  have hfinish (arg : Node) (h : Formed f .optExpr arg) : Forms f (Formed f .stmt) (finish arg) :=
    .skip fun _ => .node hstart fun s hs => .new rfl (by decide) hs (.first h .none)
  have htail (u : Unit) : Forms f (Formed f .stmt) (tail u) :=
    .skip fun _ => .either (R := Formed f .optExpr) (.pure (.absent rfl))
      ((parseExpression_forms hg).le .expr_optExpr) hfinish
  exact .branch (.skip fun _ => htail ()) (htail ())

omit hg in
theorem parseJumpLabel_forms {isContinue : Bool} :
    Forms f (Formed f .optName) (parseJumpLabel isContinue) := by
  refine .fetch fun t ht => .branch (.pure (.absent rfl)) (.skip fun _ => .skip fun v => ?_)
  have hname : Forms f (Formed f .optName) (pure (identOf t)) := .pure (formed_identOf ht rfl)
  split
  · exact .skip fun _ => hname
  · exact .branch (.skip fun _ => hname) hname

omit hg in
theorem parseJump_forms : Forms f (Formed f .stmt) parseJump := by
  refine .fetch fun start hstart => .bind parseJumpLabel_forms fun label hlabel => .skip fun _ => ?_
  refine .node hstart fun s hs => ?_
  have hkids := FormedKids.first hlabel (.none (r := .none))
  cases start.kind == .kwContinue <;> exact .new rfl (by decide) hs hkids

theorem parseThrow_forms : Forms f (Formed f .stmt) (parseThrow g) := by
  refine .fetch fun start hstart => .skip fun t => .branch .refuse_then ?_
  refine .bind (parseExpression_forms hg) fun arg harg => .skip fun _ => .node hstart fun s hs => ?_
  exact .new rfl (by decide) hs (.first harg .none)

theorem parseCatch_forms : Forms f (Formed f .handler) (parseCatch g) := by
  refine .fetch fun start hstart => .bind
    (R := fun parts => Formed f .optPattern parts.1 ∧ Grown f parts.2.1 ∧
      Formed f .block parts.2.2)
    (.inScope ?_) fun parts hparts => ?_
  · refine .bind (R := fun param => Formed f .optPattern param.1 ∧ Grown f param.2)
      ?_ fun param hparam => ?_
    · refine .skip fun _ => .branch (.pure ⟨.absent rfl, .absent⟩)
        (.bind hg.binding fun param hparam => ?_)
      exact .skip fun _ => .bind (parseAnnotationOpt_forms hg) fun type htype => .skip fun _ =>
        .pure ⟨hparam.le .pattern_optPattern, htype⟩
    · exact .bind (parseOpenBlock_forms hg) fun body hbody => .pure ⟨hparam.1, hparam.2, hbody⟩
  · refine .node_then hstart fun s hs => .pure (.withType ?_ hparts.2.1)
    exact .new rfl (by decide) hs (.first hparts.1 (.first hparts.2.2 .none))

theorem parseTry_forms : Forms f (Formed f .stmt) (parseTry g) := by
  refine .fetch fun start hstart => .bind (parseBlock_forms hg) fun block hblock =>
    .skip fun _ => ?_
  refine .either (R := Formed f .handler) (parseCatch_forms hg)
    (.pure (.absent rfl)) fun handler hhandler => ?_
  refine .skip fun _ => .either (R := Formed f .optBlock)
    ((parseBlock_forms hg).le .block_optBlock) (.pure (.absent rfl)) fun final hfinal => ?_
  refine .branch .refuse_then (.node hstart fun s hs => ?_)
  exact .newTry hs hblock hhandler hfinal

theorem parseCaseBody_forms : Forms f (FormedAll f .stmt) (parseCaseBody g) := by
  refine .loop (I := FormedAll f .stmt) .nil fun stmts hstmts => .skip fun t => ?_
  split
  · exact .leave hstmts
  · exact .leave hstmts
  · exact .leave hstmts
  · exact .leave hstmts
  · refine .bind (.attempt (hg.statement false)) fun stmt hstmt => ?_
    split
    · exact .again (hstmts.snoc (hstmt _ rfl))
    · exact .skip fun _ => .again hstmts

theorem parseCaseFrom_forms {seen : Bool} (ht : f.spans t.span = true) :
    Forms f (fun c => Formed f .branch c.1) (parseCaseFrom g seen t) := by
  unfold parseCaseFrom
  extract_lets tail
  have htail (test : Node) (isDefault : Bool) (h : Formed f .optExpr test) :
      Forms f (fun c => Formed f .branch c.1) (tail (test, isDefault)) := by
    refine .skip fun _ => .bind (parseCaseBody_forms hg) fun body hbody => ?_
    exact .node_then ht fun s hs => .pure (.new rfl (by decide) hs (.first h (.each hbody)))
  refine .skip fun _ => .branch ?_ (.skip fun _ => .branch (.branch (.skip fun _ => ?_) ?_) ?_)
  · exact .bind (parseExpression_forms hg) fun e he =>
      .pure_then (htail e false (he.le .expr_optExpr))
  · exact .pure_then (htail _ true (.absent rfl))
  · exact .pure_then (htail _ true (.absent rfl))
  · exact .bind (R := fun _ => False) .unexpected fun _ h => h.elim

theorem parseSwitch_forms : Forms f (Formed f .stmt) (parseSwitch g) := by
  refine .fetch fun start hstart => .bind (parseParenExpr_forms hg) fun value hvalue =>
    .skip fun _ => ?_
  refine .inScope (.inLabel (.bind (R := fun found => FormedAll f .branch found.1)
    (.loop (I := fun found => FormedAll f .branch found.1) .nil fun found hfound => ?_)
    fun found hfound => ?_))
  · refine .skip fun _ => .skip fun _ => .branch (.leave hfound) ?_
    refine .bind (R := fun c => Formed f .branch c.1)
      (.fetch fun t ht => .skip fun _ => parseCaseFrom_forms hg ht) fun c hc =>
        .again (hfound.snoc hc)
  · exact .skip fun _ => .skip fun _ => .node hstart fun s hs =>
      .new rfl (by decide) hs (.first hvalue (.each hfound))

theorem parseWith_forms : Forms f (Formed f .stmt) (parseWith g) := by
  refine .fetch fun start hstart => .skip fun v => ?_
  extract_lets tail
  have htail (u : Unit) : Forms f (Formed f .stmt) (tail u) := by
    refine .bind (parseParenExpr_forms hg) fun obj hobj => ?_
    exact .bind (parseSubStatement_forms hg) fun body hbody => .node hstart fun s hs =>
      .new rfl (by decide) hs (.first hobj (.first hbody .none))
  exact .branch (.skip fun _ => htail ()) (htail ())

theorem parsePlainStatement_forms : Forms f (Formed f .stmt) (parsePlainStatement g t) := by
  refine .skip fun _ => .fetch fun start hstart => .bind (parseExpression_forms hg) fun e he => ?_
  exact .skip fun _ => .node hstart fun s hs => .new rfl (by decide) hs (.first he .none)

theorem parseControl_forms (ht : f.spans t.span = true) :
    Forms f (Formed f .stmt) (parseControl g t) := by
  refine .skip fun _ => ?_
  split
  · exact parseIf_forms hg
  · exact parseFor_forms hg
  · exact parseWhile_forms hg
  · exact parseDoWhile_forms hg
  · exact parseReturn_forms hg
  · exact parseJump_forms
  · exact parseJump_forms
  · exact parseThrow_forms hg
  · exact parseTry_forms hg
  · exact parseSwitch_forms hg
  · exact parseWith_forms hg
  · exact .skip fun _ => .skip fun _ => .pure (.new rfl (by decide) ht .none)

theorem parseStatementFrom_forms [g.Orderly] {top : Bool} (hlies : t.Lies f) :
    Forms f (Formed f .stmt) (parseStatementFrom g top t) := by
  have ht := spans_lies hlies
  have himport := (parseImport_sited hg).mono fun _ hn => hn.formed
  have declared {q : Parser Node} (h : Forms f (Formed f .declaration) q) :
      Forms f (Formed f .stmt) q :=
    h.le .declaration_stmt
  have hvars (keyword : Bytes) : Forms f (Formed f .stmt) (parseVarStatement g t keyword {}) :=
    declared (parseVarStatement_forms hg ht)
  unfold parseStatementFrom
  split
  · exact .skip fun _ => (parseBlock_forms hg).le .block_stmt
  · exact .skip fun _ => .pure (.new rfl (by decide) ht .none)
  · exact .skip fun _ => hvars _
  · exact .skip fun next => .skip fun _ => .branch (declared (parseEnum_forms hg ht)) (hvars _)
  · exact parseFunctionDecl_forms hg ht rfl rfl (fun h => by cases h)
  · exact parseClassDecl_forms hg rfl (fun h => by cases h) ht .nil
  · refine .bind (parseDecorators_forms hg) fun decos hdecos => .skip fun _ => ?_
    refine .branch (parseExport_forms hg hdecos) (parseDecoratedClass_forms hg rfl ?_ hdecos)
    rintro _ ⟨⟩
    exact ht
  · exact declared (parseEnum_forms hg ht)
  · refine .skip fun next => .branch (parsePlainStatement_forms hg) (.branch ?_ himport)
    exact .skip fun _ => himport
  · exact .branch (.skip fun _ => parseExport_forms hg .nil) (parseExport_forms hg .nil)
  iterate 12 · exact parseControl_forms hg ht
  · refine .bind (tryContextualStatement_forms hg hlies) fun stmt hstmt => ?_
    split
    · exact .pure (hstmt _ rfl).1.formed
    · exact parsePlainStatement_forms hg
  · exact parsePlainStatement_forms hg

end

/-! ## Programs -/

/-- The rules of the parts form trees that fit, if the parts do. -/
theorem rule_form [g.Orderly] (hg : g.Form f) : Rules.Form f (rule g) where
  assign := parseAssign_forms hg
  binary _ := parseBinary_forms hg
  unary := parseUnary_forms hg
  lhs := parseLhs_forms hg
  construct := parseNew_forms hg
  binding := parseBindingTarget_forms hg
  element _ ht := parseElementRest_forms hg ht
  statement _ := .peek_then fun _ ht => .skip fun _ => parseStatementFrom_forms hg ht.toLies
  namespaceFrom _ _ ht := parseNamespace_forms hg ht
  type _ := parseTypeInner_forms hg
  typeOperator _ := parseTypeOperator_forms hg

theorem rules_form (f : SourceFile) : ∀ depth : Nat, (rules depth).Form f
  | 0 => ⟨.exhausted, fun _ => .exhausted, .exhausted, .exhausted, .exhausted, .exhausted,
      fun _ _ => .exhausted, fun _ => .exhausted, fun _ _ _ => .exhausted, fun _ => .exhausted,
      fun _ => .exhausted⟩
  | depth + 1 =>
    have h := rule_form (rules_form f depth)
    ⟨h.assign, h.binary, h.unary, h.lhs, h.construct, h.binding, h.element, h.statement,
      h.namespaceFrom, h.type, h.typeOperator⟩

theorem parseProgram_forms (depth : Nat) :
    Forms f (fun root => FitsAsProgram (.source f) root ∧ Grown f root)
    (parseProgram (rules depth)) := by
  refine .fetch fun start hstart => .bind (.inScope (parseStatementList_forms (rules_form f depth)))
    fun stmts hstmts => .fetch fun eof heof => .skip fun _ => .pure ?_
  have hspan := SourceFile.spans_cover hstart heof
  refine ⟨⟨rfl, accepts_untyped (SourceFile.holds_of_spans hspan) (.inl ?_), hstmts.fit, rfl⟩,
    .addFlags (.inl rfl) (.new rfl hspan hstmts.grown)⟩
  show NodeKind.program ≠ .binary
  decide

theorem parseFile_formed {file : SourceFile} {o : Options} {root : Node}
    (h : (parseFile file o).tree = some root) :
    FitsAsProgram (.source file) root ∧ Grown file root := by
  obtain ⟨t, hrun, -⟩ := parseFile_ran h
  have hforms := parseProgram_forms (f := file) (depthFor file.content.length) (initial file o)
    ⟨initial_sound file o, rfl⟩
  rw [hrun] at hforms
  exact hforms.2

/-- A file that parses is read into a program whose statements fit. -/
theorem parseFile_fits {file : SourceFile} {o : Options} {root : Node}
    (h : (parseFile file o).tree = some root) : FitsAsProgram (.source file) root :=
  (parseFile_formed h).1

/-- A file that parses is read into a program that grows in it. -/
theorem parseFile_grown {file : SourceFile} {o : Options} {root : Node}
    (h : (parseFile file o).tree = some root) : Grown file root ∧ root.kind = .program :=
  ⟨(parseFile_formed h).2, (parseFile_formed h).1.kind⟩

/-- In a file that parses the children of every node are of the kinds that the grammar allows. -/
theorem parseFile_placed {file : SourceFile} {o : Options} {root : Node}
    (h : (parseFile file o).tree = some root) : ∀ n ∈ root.walk, placed n = true :=
  fun n hn => (Grown.walk root (parseFile_grown h).1 n hn).kinds

/-- No node of a file has the mark of a generated name. -/
theorem parseFile_unmarked {file : SourceFile} {o : Options} {root : Node}
    (h : (parseFile file o).tree = some root) : ∀ n ∈ root.walk, n.mark = 0 :=
  fun n hn => (Grown.walk root (parseFile_grown h).1 n hn).tidy.mark

/-- A file that parses is read into a program that is a tree of a source. -/
theorem parseFile_tidy {file : SourceFile} {o : Options} {root : Node}
    (h : (parseFile file o).tree = some root) : Tidy root ∧ root.kind = .program :=
  (parseFile_grown h).imp Grown.tidy id

end ScriptLower.Parse

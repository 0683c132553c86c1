import ScriptLower.Proofs.Parse.TypeForms

/-!
# The forms of functions and classes

A function or a method without a body is a signature, and fits only where signatures are dropped.
The key of a member stands in brackets or not, as the modifiers of the member say.
-/

namespace ScriptLower.Parse

open ScriptLower

variable {f : SourceFile} {g : Rules} {p : Place} {t : Token}

/-! ## Blocks and functions -/

theorem parseStatementList_forms (hg : g.Form f) {close : TokenKind} {top : Bool} :
    Forms f (FormedAll f .stmt) (parseStatementList g close top) := by
  refine .listUntil .nil fun stmts hstmts => .skip fun t => ?_
  refine .bind (.attempt (hg.statement top)) fun stmt hstmt => ?_
  split
  · rename_i n
    refine .pure ?_
    split
    · exact hstmts.snoc (hstmt n rfl)
    · exact hstmts
  · exact .skip fun _ => .pure hstmts

theorem parseBlockBody_forms (hg : g.Form f) :
    Forms f (fun body => f.spans body.1 = true ∧ FormedAll f .stmt body.2) (parseBlockBody g) :=
  .fetch fun _ hopen => .bind (parseStatementList_forms hg) fun _ hstmts =>
    .skip fun _ => .skip fun _ => .spanTo_then hopen fun _ hs => .pure ⟨hs, hstmts⟩

theorem parseOpenBlock_forms (hg : g.Form f) : Forms f (Formed f .block) (parseOpenBlock g) :=
  .bind (parseBlockBody_forms hg) fun _ ⟨hs, hstmts⟩ =>
    .pure (.new rfl (by decide) hs (.each hstmts))

theorem parseBlock_forms (hg : g.Form f) : Forms f (Formed f .block) (parseBlock g) :=
  .inScope (parseOpenBlock_forms hg)

theorem parseFunctionBody_forms (hg : g.Form f) :
    Forms f (Formed f .block) (parseFunctionBody g) := by
  refine .skip fun v => ?_
  have hbody : Forms f (Formed f .block) (do
      let body ← outsideAmbient (parseOpenBlock g)
      return body.addFlags { strict := hasStrictDirective body.kids }) :=
    .bind (.outsideAmbient (parseOpenBlock_forms hg)) fun body hbody =>
      .pure (.addFlags rfl rfl hbody)
  exact .branch (.skip fun t => .skip fun _ => hbody) hbody

theorem parseFunctionRest_forms (hg : g.Form f) {kind : NodeKind} {name : Node} {flags : Flags}
    {bodyOptional : Bool} {q : Place}
    (hk : kind = .funcDecl ∧ q = declaredPlace p ∨ kind = .funcExpr ∧ q = .optName)
    (ha : p.allows false kind = true) (hd : bodyOptional = true → p.drops .overload = true)
    (ht : f.spans t.span = true) (hname : Formed f q name) :
    Forms f (Formed f p) (parseFunctionRest g kind t name flags bodyOptional) := by
  refine .bind (parseTypeParamsOpt_forms hg) fun tparams htparams => .inFunction ?_
  refine .bind (parseParams_forms hg) fun params hparams => ?_
  refine .bind (parseReturnTypeOpt_forms hg) fun result hresult => .skip fun _ => ?_
  refine .branch ?_ (.choose (fun _ => .unexpected) fun hopt => ?_)
  · refine .bind (parseFunctionBody_forms hg) fun body hbody => .node_then ht fun s hs => .pure ?_
    have hcommon : kind.isCommon = true ∧ kind ≠ .binary := by
      rcases hk with ⟨rfl, -⟩ | ⟨rfl, -⟩ <;> decide
    refine .withTargs (.withType (.flagged ha hcommon hs ?_) hresult) htparams
    have hkids := FormedKids.first hname (.first hparams (.first hbody (.none (r := .none))))
    rcases hk with ⟨rfl, rfl⟩ | ⟨rfl, rfl⟩ <;> exact hkids
  · have overload : Forms f (Formed f p) (do
        semicolon
        let n ← node .overload t.span [name, params]
        return ((n.addFlags flags).withType result).withTargs tparams) := by
      refine .skip fun _ => .node_then ht fun s hs =>
        .pure (.dropped ?_ rfl (hd (by simpa using hopt)))
      refine .withTargs (.withType (.addFlags (.inl rfl) (.new rfl hs ?_)) hresult) htparams
      simp [hname.grown, hparams.grown]
    exact .skip fun v => .branch (.skip fun t => .skip fun _ => overload) overload

theorem allows_declaredPlace (p : Place) : (declaredPlace p).allows false .ident = true := by
  rcases declaredPlace_eq p with h | h <;> rw [h] <;> rfl

/-- A function that is not exported as the default has a name. -/
theorem parseFunctionDecl_forms (hg : g.Form f) {flags : Flags} (ht : f.spans t.span = true)
    (ha : p.allows false .funcDecl = true) (hd : p.drops .overload = true)
    (hdefault : flags.isDefault = true → p = .exported) :
    Forms f (Formed f p) (parseFunctionDecl g t flags) := by
  refine .skip fun async => .skip fun _ => .skip fun generator => ?_
  extract_lets all
  refine .skip fun named => ?_
  have hrest {name : Node} (hname : Formed f (declaredPlace p) name) :
      Forms f (Formed f p) (parseFunctionRest g .funcDecl t name all true) :=
    parseFunctionRest_forms hg (.inl ⟨rfl, rfl⟩) ha (fun _ => hd) ht hname
  refine .choose (fun _ => ?_) fun hnameless => hrest ?_
  · exact .bind (parseBindingIdent_forms (allows_declaredPlace p)) fun name hname => .skip fun _ =>
      hrest hname
  · have hflag : named = false ∧ all.isDefault = true := by simpa using hnameless
    rw [hdefault (by simpa [all, Flags.or] using hflag.2)]
    exact .absent rfl

theorem parseFunctionExpr_forms (hg : g.Form f) :
    Forms f (Formed f .expr) (parseFunctionExpr g) := by
  refine .fetch fun start hstart => .skip fun async => .skip fun _ => .skip fun generator => ?_
  refine .skip fun _ =>
    .either (R := Formed f .optName) (.fetch fun t ht => .pure (formed_identOf ht rfl))
    (.pure (.absent rfl)) fun name hname => ?_
  exact parseFunctionRest_forms hg (.inr ⟨rfl, rfl⟩) rfl (fun h => by cases h) hstart hname

/-- A member has a body where there is no place for signatures. -/
theorem parseMethod_forms (hg : g.Form f) {key : Node} {role : Bytes} {flags : Flags}
    {owner : MethodOwner} (ha : p.allows false .method = true)
    (hd : owner = .object ∨ p.drops .overload = true) (ht : f.spans t.span = true)
    (hkey : Formed f (keyPlace flags.computed) key) :
    Forms f (Formed f p) (parseMethod g t key role flags owner) := by
  refine .skip fun question => ?_
  extract_lets optional all tail
  have hall : all.computed = flags.computed := by simp [all, Flags.or]
  have htail (u : Unit) : Forms f (Formed f p) (tail u) := by
    refine .bind (parseTypeParamsOpt_forms hg) fun tparams htparams => .inFunction ?_
    refine .bind (parseParams_forms hg) fun params hparams => ?_
    refine .bind (parseReturnTypeOpt_forms hg) fun result hresult => .skip fun braced => ?_
    refine .branch ?_ (.choose (fun _ => .unexpected) fun hobject => .branch .refuse ?_)
    · refine .bind (parseFunctionBody_forms hg) fun body hbody => .node_then ht fun s hs => .pure ?_
      rw [← hall] at hkey
      refine .withTargs (.withType (.withText (.flagged ha (by decide) hs ?_)) hresult) htparams
      exact .first hkey (.first hparams (.first hbody .none))
    · have hdrop := hd.resolve_left (by simpa using hobject)
      extract_lets overload
      have hoverload (u : Unit) : Forms f (Formed f p) (overload u) := by
        refine .skip fun _ => .node_then ht fun s hs => .pure (.dropped ?_ rfl hdrop)
        refine .withTargs (.withType (.withText (.addFlags (.inl rfl) (.new rfl hs ?_))) hresult)
          htparams
        simp [hkey.grown, hparams.grown]
      exact .branch (.skip fun t => .skip fun _ => hoverload ()) (hoverload ())
  exact .branch (.skip fun _ => .skip fun _ => htail ()) (htail ())

/-! ## Arrow functions -/

theorem parseArrowRest_forms (hg : g.Form f) {start : Span} {params tparams result : Node}
    {flags : Flags} (hf : flags.exprBody = false) (hs : f.spans start = true)
    (hparams : Formed f .params params) (htparams : Grown f tparams) (hresult : Grown f result) :
    Forms f (Formed f .expr) (parseArrowRest g start params tparams result flags) := by
  refine .skip fun _ => .skip fun v => .bind
    (R := fun body => Formed f (if body.2 then .expr else .block) body.1) (.inFunction ?_)
    fun body hbody => ?_
  · refine .skip fun _ => .branch ?_ ?_
    · exact .bind (parseFunctionBody_forms hg) fun body hbody => .pure hbody
    · exact .bind (.withNoIn hg.assign) fun body hbody => .pure hbody
  · refine .node_then hs fun s hs => .pure ?_
    refine .withTargs (.withType (.flagged rfl (by decide) hs ?_) hresult) htparams
    rw [shapeOf_congr (g := { flags with exprBody := body.2 }) (by simp [Flags.or])
      (by simp [Flags.or, hf])]
    exact .first hparams (.first hbody .none)

theorem parseNameArrow_forms (hg : g.Form f) {start : Span} {flags : Flags}
    (hf : flags.exprBody = false) (hs : f.spans start = true) (ht : f.spans t.span = true) :
    Forms f (Formed f .expr) (parseNameArrow g start t flags) := by
  have hparam : Formed f .param (.new .param t.span [identOf t, .absent]) :=
    .new rfl (by decide) ht (.first (formed_identOf ht rfl) (.first (.absent rfl) .none))
  have hparams : Formed f .params (.new .params t.span [.new .param t.span [identOf t, .absent]]) :=
    .new rfl (by decide) ht (.each (FormedAll.nil.snoc hparam))
  exact parseArrowRest_forms hg hf hs hparams .absent .absent

/-- Parameters, type parameters and result. -/
def FormedHead (f : SourceFile) (head : Node × Node × Node) : Prop :=
  Formed f .params head.1 ∧ Grown f head.2.1 ∧ Grown f head.2.2

theorem parseArrowHead_forms (hg : g.Form f) {flags : Flags} :
    Forms f (FormedHead f) (parseArrowHead g flags) := by
  unfold parseArrowHead
  extract_lets tail
  have htail (u : Unit) : Forms f (FormedHead f) (tail u) := by
    refine .bind (parseTypeParamsOpt_forms hg) fun tparams htparams => ?_
    refine .bind (.keepingFunction (parseParams_forms hg)) fun params hparams => ?_
    extract_lets finish
    have hfinish (result : Node) (h : Grown f result) : Forms f (FormedHead f) (finish result) :=
      .skip fun t => .branch (.pure ⟨hparams, htparams, h⟩) .fail
    refine .skip fun _ => .branch (.skip fun v => ?_) (.pure_then (hfinish _ .absent))
    exact .branch .fail_then (.bind (parseReturnTypeOpt_forms hg) hfinish)
  exact .branch (.skip fun _ => htail ()) (htail ())

theorem tryArrowHead_forms [g.Orderly] (hg : g.Form f) {start : Span} {flags : Flags}
    (hf : flags.exprBody = false) (hs : f.spans start = true) :
    Forms f (fun o => ∀ n ∈ o, Formed f .expr n) (tryArrowHead g start flags) := by
  refine .bind (.speculate (framed_of_obeys parseArrowHead_obeys) (parseArrowHead_forms hg))
    fun head hhead => ?_
  split
  · exact .none
  · obtain ⟨hparams, htparams, hresult⟩ := hhead _ rfl
    exact .found (parseArrowRest_forms hg hf hs hparams htparams hresult)

instance : Keeps isAsyncNameArrow := .of_any isAsyncNameArrow_obeys

instance : Keeps looksLikeTypeParams := .of_any looksLikeTypeParams_obeys

theorem tryArrow_forms [g.Orderly] (hg : g.Form f) :
    Forms f (fun o => ∀ n ∈ o, Formed f .expr n) (tryArrow g) := by
  refine .fetch fun t ht => ?_
  split
  · refine .skip fun next => .branch (.skip fun _ => .found (parseNameArrow_forms hg rfl ht ht))
      (.branch .none ?_)
    split
    · refine .skip fun _ => .branch (.skip fun _ => .fetch fun name hname => ?_) .none
      exact .found (parseNameArrow_forms hg rfl ht hname)
    · exact tryArrowHead_forms hg rfl ht
    · exact tryArrowHead_forms hg rfl ht
    · exact .none
  · exact tryArrowHead_forms hg rfl ht
  · refine .skip fun v =>
      .branch .none (.skip fun _ => .branch .none (tryArrowHead_forms hg rfl ht))
  · exact .none

/-! ## Classes -/

theorem parseHeritageExpr_forms (hg : g.Form f) :
    Forms f (Formed f .expr) (parseHeritageExpr g) := by
  refine .bind hg.lhs fun e he => .skip fun _ => .branch ?_ (.pure he)
  refine .bind (parseTypeArgs_forms hg) fun targs htargs => ?_
  exact .branch .refuse_then (.pure (he.withTargs htargs))

theorem parseStaticBlock_forms (hg : g.Form f) (ht : f.spans t.span = true) :
    Forms f (Formed f .member) (parseStaticBlock g t) := by
  refine .bind (.inFunction (.keepingFunction (parseOpenBlock_forms hg))) fun block hblock => ?_
  exact .node ht fun s hs => .new rfl (by decide) hs (.first hblock .none)

theorem parseClassProperty_forms (hg : g.Form f) {key : Node} {flags : Flags} {decos : List Node}
    (ht : f.spans t.span = true) (hkey : Formed f (keyPlace flags.computed) key)
    (hdecos : FormedAll f .decorator decos) :
    Forms f (Formed f .member) (parseClassProperty g t key flags decos) := by
  refine .skip fun question => ?_
  extract_lets optional definite tail
  have htail (u : Unit) : Forms f (Formed f .member) (tail u) := by
    refine .bind (parseAnnotationOpt_forms hg) fun type htype => .skip fun _ => ?_
    refine .either (.inFunction (hg.assign.le .expr_optExpr)) (.pure (.absent rfl))
      fun value hvalue => ?_
    refine .skip fun _ => .node_then ht fun s hs => .pure (.withDecos (.withType ?_ htype) hdecos)
    refine .flagged rfl (by decide) hs ?_
    rw [shapeOf_congr (g := flags) (by simp [Flags.or]) (by simp [Flags.or])]
    exact .first hkey (.first hvalue .none)
  exact .branch (.skip fun _ => .skip fun _ => htail ()) (htail ())

/-- No modifier in front of a member says anything of its key. -/
theorem memberModifier_plain {flags : Flags} (h : memberModifier? t = some flags) :
    flags.computed = false := by
  obtain ⟨m, hm, rfl⟩ := Option.map_eq_some_iff.1 h
  have hall : ∀ m ∈ memberModifiers, m.2.computed = false := by decide
  exact hall m (List.mem_of_find?_eq_some hm)

theorem parseMemberModifiers_forms {classFlags : Flags} :
    Forms f (fun mods => mods.1.computed = false) (parseMemberModifiers classFlags) := by
  refine .loop (I := fun flags => flags.computed = false) rfl fun flags hflags => .skip fun t => ?_
  split
  · exact .leave hflags
  · rename_i modifier hmodifier
    have hmore : (flags.or modifier).computed = false := by
      simp [Flags.or, hflags, memberModifier_plain hmodifier]
    refine .skip fun next => .branch (.leave hflags) ?_
    refine .branch (.skip fun _ => .leave hflags) (.branch (.leave hflags) (.skip fun _ => ?_))
    extract_lets next check
    have hnext (u : Unit) : Forms f (Sum.elim (fun flags => flags.computed = false)
        fun mods : Flags × Bool => mods.1.computed = false) (next u) := .again hmore
    have hcheck (u : Unit) : Forms f (Sum.elim (fun flags => flags.computed = false)
        fun mods : Flags × Bool => mods.1.computed = false) (check u) :=
      .branch (.skip fun _ => hnext ()) (hnext ())
    exact .branch (.skip fun _ => hcheck ()) (hcheck ())

theorem parseKeyedMember_forms (hg : g.Form f) {owner : MethodOwner} {decos : List Node}
    {flags : Flags} (ht : f.spans t.span = true) (hf : flags.computed = false)
    (hdecos : FormedAll f .decorator decos) :
    Forms f (Formed f .member) (parseKeyedMember g owner t decos flags) := by
  refine .skip fun generator => .skip fun word =>
    .bind (parsePropertyKey_forms hg) fun key hkey => ?_
  obtain ⟨key, keyFlags⟩ := key
  dsimp -zeta only
  extract_lets all role
  have hkeyed : Formed f (keyPlace all.computed) key := by
    have h := hkey.1
    rwa [show keyFlags.computed = all.computed by simp [all, Flags.or, hf]] at h
  refine .skip fun next => .skip fun next2 =>
    .branch ?_ (parseClassProperty_forms hg ht hkeyed hdecos)
  exact .bind (parseMethod_forms hg rfl (.inr rfl) ht hkeyed) fun n hn =>
    .pure (hn.withDecos hdecos)

theorem parseClassMemberFrom_forms (hg : g.Form f) {owner : MethodOwner} {classFlags : Flags}
    (ht : f.spans t.span = true) :
    Forms f (Formed f .member) (parseClassMemberFrom g owner classFlags t) := by
  refine .either (R := FormedAll f .decorator) (parseDecorators_forms hg)
    (.pure .nil) fun decos hdecos => ?_
  refine .bind parseMemberModifiers_forms fun mods hmods =>
    .branch (parseStaticBlock_forms hg ht) ?_
  refine .skip fun _ => .skip fun v => .skip fun _ => .branch ?_
    (parseKeyedMember_forms hg ht hmods hdecos)
  refine .bind (parseIndexSignature_forms hg rfl ht) fun n hn => .skip fun _ => .pure ?_
  exact .dropped hn.1 hn.2.1 (by rw [hn.2.2]; rfl)

theorem parseClassBody_forms (hg : g.Form f) {classFlags : Flags} :
    Forms f (Formed f .classBody) (parseClassBody g classFlags) := by
  refine .fetch fun open_ hopen => .skip fun v => .bind (.listUntil .nil fun members hmembers => ?_)
    fun members hmembers => .skip fun _ => .skip fun _ => .node hopen fun s hs =>
      .new rfl (by decide) hs (.each hmembers)
  refine .skip fun _ => .branch (.pure hmembers) (.bind (R := Formed f .member) ?_ fun m hm => ?_)
  · exact .fetch fun start hstart => .skip fun _ => parseClassMemberFrom_forms hg hstart
  · exact .pure (hmembers.snoc hm)

theorem parseClassRest_forms (hg : g.Form f) {kind : NodeKind} {name : Node} {decos : List Node}
    {flags : Flags} {q : Place}
    (hk : kind = .classDecl ∧ q = declaredPlace p ∨ kind = .classExpr ∧ q = .optName)
    (ha : p.allows false kind = true) (ht : f.spans t.span = true) (hname : Formed f q name)
    (hdecos : FormedAll f .decorator decos) :
    Forms f (Formed f p) (parseClassRest g kind t name decos flags) := by
  refine .bind (parseTypeParamsOpt_forms hg) fun tparams htparams => .skip fun _ => ?_
  refine .either ((parseHeritageExpr_forms hg).le .expr_optExpr) (.pure (.absent rfl))
    fun base hbase => .skip fun t => ?_
  extract_lets tail
  have htail (interfaces : Node) (h : Grown f interfaces) :
      Forms f (Formed f p) (tail interfaces) := by
    refine .bind (.keepingFunction (parseClassBody_forms hg)) fun body hbody => ?_
    refine .node_then ht fun s hs => .pure (.withDecos (.withAux (.withTargs ?_ htparams) h) hdecos)
    have hcommon : kind.isCommon = true ∧ kind ≠ .binary := by
      rcases hk with ⟨rfl, -⟩ | ⟨rfl, -⟩ <;> decide
    refine .flagged ha hcommon hs ?_
    have hkids := FormedKids.first hname (.first hbase (.first hbody (.none (r := .none))))
    rcases hk with ⟨rfl, rfl⟩ | ⟨rfl, rfl⟩ <;> exact hkids
  refine .branch (.skip fun _ => .skip fun _ => ?_) (.pure_then (htail _ .absent))
  exact .bind (parseHeritageList_forms hg) htail

instance : Keeps atClassName := inferInstanceAs (Keeps (Parse.peek >>= fun _ => _))

/-- A class that is not exported as the default has a name. -/
theorem parseClassDecl_forms (hg : g.Form f) {decos : List Node} {flags : Flags}
    (ha : p.allows false .classDecl = true) (hdefault : flags.isDefault = true → p = .exported)
    (ht : f.spans t.span = true) (hdecos : FormedAll f .decorator decos) :
    Forms f (Formed f p) (parseClassDecl g t decos flags) := by
  unfold parseClassDecl
  extract_lets tail
  have htail (u : Unit) : Forms f (Formed f p) (tail u) := by
    refine .skip fun _ => .skip fun _ =>
      .branch ?_ (.choose (fun _ => .unexpected) fun hnameless => ?_)
    · refine .bind (parseBindingIdent_forms (allows_declaredPlace p)) fun name hname =>
        .skip fun _ => ?_
      exact parseClassRest_forms hg (.inl ⟨rfl, rfl⟩) ha ht hname hdecos
    · obtain rfl := hdefault (by simpa using hnameless)
      exact parseClassRest_forms hg (.inl ⟨rfl, rfl⟩) ha ht (.absent rfl) hdecos
  exact .branch (.skip fun _ => htail ()) (htail ())

theorem parseClassExpr_forms (hg : g.Form f) {decos : List Node} (ht : f.spans t.span = true)
    (hdecos : FormedAll f .decorator decos) :
    Forms f (Formed f .expr) (parseClassExpr g t decos) := by
  refine .skip fun _ => .skip fun _ => .either (R := Formed f .optName)
    (.fetch fun t ht => .pure (formed_identOf ht rfl)) (.pure (.absent rfl)) fun name hname => ?_
  exact parseClassRest_forms hg (.inr ⟨rfl, rfl⟩) rfl ht hname hdecos

end ScriptLower.Parse

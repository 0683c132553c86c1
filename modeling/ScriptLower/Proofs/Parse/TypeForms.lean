import ScriptLower.Proofs.Parse.PatternForms

/-!
# The forms of types

The nodes of types are read from the file. No place is asked for them, as lowering drops them all.
-/

namespace ScriptLower.Parse

open ScriptLower

variable {f : SourceFile} {g : Rules} [g.Orderly] (hg : g.Form f)

include hg

/-! ## Predicates and results -/

omit [g.Orderly] hg in
theorem parsePredicateSubject_forms : Forms f (Grown f) parsePredicateSubject := by
  refine .fetch fun t ht => .branch (.pure (.new rfl ht (by simp))) (.pure (grown_identOf ht))

omit [g.Orderly] in
theorem parseTypeOrPredicate_forms : Forms f (Grown f) (parseTypeOrPredicate g) := by
  refine .fetch fun t ht => .skip fun next => .branch (.skip fun _ => ?_) (.branch ?_ ?_)
  · refine .bind parsePredicateSubject_forms fun subject hsubject => .skip fun is_ => ?_
    extract_lets tail
    have htail (type : Node) (h : Grown f type) : Forms f (Grown f) (tail type) :=
      .grow_then (by decide) ht (by simp [hsubject, h]) fun n hn => .pure (hn.addFlags (.inr rfl))
    exact .branch (.skip fun _ => .bind (parseType_forms hg) htail) (.pure_then (htail _ .absent))
  · refine .bind parsePredicateSubject_forms fun subject hsubject => .skip fun _ => ?_
    refine .bind (parseType_forms hg) fun type htype => ?_
    exact .grow (by decide) ht (by simp [hsubject, htype])
  · exact parseType_forms hg

omit [g.Orderly] in
theorem parseReturnTypeOpt_forms : Forms f (Grown f) (parseReturnTypeOpt g) := by
  refine .skip fun _ => .branch (.pure .absent) (.skip fun _ => .skip fun _ => ?_)
  exact .inType (parseTypeOrPredicate_forms hg)

/-! ## Functions and unions -/

omit hg in
instance : Keeps (startsFunctionType g) := .of_obeys startsFunctionType_obeys

omit [g.Orderly] in
theorem parseFunctionType_forms : Forms f (Grown f) (parseFunctionType g) := by
  refine .fetch fun start hstart => .skip fun isAbstract => .skip fun isNew => ?_
  -- which of the two kinds it is does not matter
  refine .either (R := fun kind => kind.isPlain = true) (.pure rfl) (.pure rfl)
    fun kind hkind => .bind (parseTypeParamsOpt_forms hg) fun tparams htparams => ?_
  refine .bind (.keepingFunction (parseParams_forms hg).grown) fun params hparams =>
    .skip fun _ => ?_
  refine .bind (parseTypeOrPredicate_forms hg) fun result hresult => ?_
  refine .grow_then hkind hstart (by simp [hparams]) fun n hn => .pure ?_
  exact .addFlags (.inr rfl) (.withTargs (.withType hn hresult) htparams)

theorem parseTypeList_forms {sep : TokenKind} {kind : NodeKind} {item : Parser Node}
    (hk : kind.isPlain = true) (hi : Forms f (Grown f) item) :
    Forms f (Grown f) (parseTypeList g sep kind item) := by
  refine .fetch fun start hstart => .skip fun leading => .bind hi fun first hfirst =>
    .skip fun _ => ?_
  refine .branch (.pure hfirst) (.bind (R := GrownAll f) (.loop (I := GrownAll f) (by simp [hfirst])
    fun kids hkids => ?_) fun kids hkids => ?_)
  · refine .skip fun _ => .branch (.skip fun _ => ?_) (.leave hkids)
    exact .either (parseFunctionType_forms hg) hi fun n hn => .again (hkids.snoc hn)
  · split
    · exact .pure (grownAll_cons.1 hkids).1
    · exact .grow hk hstart hkids

theorem parseUnionType_forms {noCond : Bool} : Forms f (Grown f) (parseUnionType g noCond) :=
  parseTypeList_forms hg rfl (parseTypeList_forms hg rfl (hg.typeOperator _))

theorem parseTypeInner_forms {noCond : Bool} : Forms f (Grown f) (parseTypeInner g noCond) := by
  refine .skip fun _ => .branch (parseFunctionType_forms hg) (.fetch fun start hstart => ?_)
  refine .bind (parseUnionType_forms hg) fun check hcheck => .skip fun _ => .skip fun _ => ?_
  refine .branch (.pure hcheck) (.skip fun _ => .bind (hg.type _) fun bound hbound => ?_)
  refine .skip fun _ => .bind (hg.type _) fun yes hyes => .skip fun _ => ?_
  refine .bind (hg.type _) fun no hno => ?_
  exact .grow (by decide) hstart (by simp [hcheck, hbound, hyes, hno])

/-! ## Names of types -/

theorem parseInfer_forms {start : Token} {noCond : Bool} (hs : f.spans start.span = true) :
    Forms f (Grown f) (parseInfer g start noCond) := by
  have param (name : Token) (hn : f.spans name.span = true) (constraint : Node)
      (hc : Grown f constraint) : Forms f (Grown f) (do
      let param ← node .typeParam name.span [identOf name, constraint, .absent]
      node .typeInfer start.span [param]) :=
    .grow_then (by decide) hn (by simp [hc, grown_identOf hn]) fun n hn =>
      .grow (by decide) hs (by simp [hn])
  have framed : ∀ s, ((do
      let _ ← advance
      let c ← g (.type true)
      if noCond && (← at_ .question) then fail .otherReading else return c : Parser Node) s).Framed
        s := by
    refine framed_of_obeys (g := g) (q := true) (R := fun _ _ => True) ?_
    refine .advance_any fun _ => .part_then (.inr (Part.rank_lt _)) fun c => .at_ask fun _ => ?_
    split
    · exact .fail (by simp) fun _ => rfl
    · exact .pure trivial
  have bounded : Forms f (Grown f) (do
      let _ ← advance
      let c ← g (.type true)
      if noCond && (← at_ .question) then fail .otherReading else return c) :=
    .skip fun _ => .bind (hg.type _) fun c hc => .skip fun _ => .branch .fail (.pure hc)
  refine .fetch fun name hname => .skip fun _ =>
    .branch ?_ (.pure_then (param name hname _ .absent))
  refine .bind (.speculate framed bounded) fun c hc => .pure_then (param name hname _ ?_)
  cases c with
  | none => exact .absent
  | some c => exact hc c rfl

omit [g.Orderly] hg

theorem parseEntityName_forms : Forms f (Formed f .entity) parseEntityName := by
  refine .fetch fun t ht => ?_
  extract_lets path
  have hpath (first : Node) (h : Formed f .entity first) :
      Forms f (Formed f .entity) (path first) := by
    refine .loop h fun name hname => .skip fun _ => .branch ?_ (.leave hname)
    refine .bind parseMemberName_forms fun right hright => ?_
    refine .node_then hname.span fun s hs => .again ?_
    exact .new rfl (by decide) hs (.first hname (.first hright .none))
  split
  · exact .skip fun _ => hpath _ (formed_identOf ht rfl)
  · exact .skip fun _ => hpath _ (.new rfl (by decide) ht .none)
  · exact .branch .refuse .unexpected

include hg

theorem parseTypeArgsOpt_forms {split : Bool} : Forms f (Grown f) (parseTypeArgsOpt g split) :=
  .skip fun _ => .branch (parseTypeArgs_forms hg) (.pure .absent)

theorem parseTypeReference_forms : Forms f (Grown f) (parseTypeReference g) := by
  refine .inType (.fetch fun start hstart => .bind parseEntityName_forms.grown fun name hname => ?_)
  refine .bind (parseTypeArgsOpt_forms hg) fun targs htargs => ?_
  exact .grow_then (by decide) hstart (by simp [hname]) fun n hn => .pure (hn.withTargs htargs)

omit hg in
theorem parseQualifier_forms : Forms f (Grown f) parseQualifier := by
  refine .loop .absent fun qual hqual => .skip fun _ => .branch ?_ (.leave hqual)
  refine .bind parseMemberName_forms.grown fun right hright => .branch ?_ (.again hright)
  exact .grow_then (by decide) hqual.span (by simp [hqual, hright]) fun n hn => .again hn

theorem parseImportType_forms : Forms f (Grown f) (parseImportType g) := by
  refine .fetch fun start hstart => .skip fun _ => .fetch fun src hsrc => .branch .unexpected ?_
  refine .skip fun _ => .skip fun comma => .skip fun _ => ?_
  extract_lets tail
  have htail (u : Unit) : Forms f (Grown f) (tail u) := by
    refine .skip fun _ => .bind parseQualifier_forms fun qual hqual => ?_
    refine .bind (parseTypeArgsOpt_forms hg) fun targs htargs => ?_
    exact .grow_then (by decide) hstart (by simp [hqual, grown_stringOf hsrc]) fun n hn =>
      .pure (hn.withTargs htargs)
  refine .branch (.bind (.withIn hg.assign) fun _ _ => .skip fun _ => htail ()) (htail ())

theorem parseTypeQuery_forms : Forms f (Grown f) (parseTypeQuery g) := by
  refine .fetch fun start hstart => .skip fun _ => .either (parseImportType_forms hg)
    parseEntityName_forms.grown fun name hname =>
      .bind (parseTypeArgsOpt_forms hg) fun targs htargs => ?_
  exact .grow_then (by decide) hstart (by simp [hname]) fun n hn => .pure (hn.withTargs htargs)

/-! ## Templates and tuples -/

omit hg in
theorem grown_templatePiece {t : Token} (ht : f.spans t.span = true) : Grown f (templatePiece t) :=
  .newText rfl ht

omit hg in
/-- Pieces and what stands between them. -/
theorem parseTemplateTail_forms {I : List Node → Prop} {Q : Node → Prop} {item : Parser Node}
    {message : String} {head : Token} (hi : Forms f Q item) (h0 : I [templatePiece head])
    (hmore : ∀ kids e (t : Token), I kids → Q e → f.spans t.span = true →
      I (kids ++ [e, templatePiece t])) :
    Forms f I (parseTemplateTail item message head) := by
  refine .loop h0 fun kids hkids => .bind hi fun e he => .peek_then fun t ht => ?_
  refine .choose (fun _ => .refuse_then) fun hk => ?_
  have hbrace : t.kind = .rBrace := by simpa using hk
  refine .bind (.readTemplate ht (by rw [hbrace]; simp)) fun cont hcont => ?_
  have hnext := hmore kids e cont hkids he hcont
  dsimp only
  split
  · exact .again hnext
  · exact .leave hnext
  · exact .fail

theorem parseTemplateType_forms : Forms f (Grown f) (parseTemplateType g) := by
  refine .fetch fun head hhead => .branch (.pure ?_) ?_
  · exact .new rfl hhead (by simp [grown_templatePiece hhead])
  · exact .bind (parseTemplateTail_forms (I := GrownAll f) (hg.type _)
      (by simp [grown_templatePiece hhead]) fun kids e t hkids he ht => by
        simp [hkids, he, grown_templatePiece ht]) fun kids hkids =>
      .grow (by decide) hhead hkids

omit hg in
instance : Keeps startsNamedElement := .of_any startsNamedElement_obeys

theorem parseTupleElement_forms : Forms f (Grown f) (parseTupleElement g) := by
  refine .fetch fun start hstart => .skip fun rest => .fetch fun t ht => .skip fun next =>
    .skip fun _ => ?_
  refine .branch (.skip fun _ => .skip fun _ => .skip fun _ => ?_) ?_
  · refine .bind (hg.type _) fun type htype => ?_
    exact .grow_then (by decide) hstart (by simp [htype, grown_identOf ht]) fun n hn =>
      .pure (hn.addFlags (.inr rfl))
  · refine .bind (hg.type _) fun type htype =>
      .branch (.grow (by decide) hstart (by simp [htype])) ?_
    exact .skip fun _ => .branch (.grow (by decide) hstart (by simp [htype])) (.pure htype)

theorem parseTupleType_forms : Forms f (Grown f) (parseTupleType g) :=
  .fetch fun _ hopen => .bind (.growCommas (parseTupleElement_forms hg)) fun _ hkids =>
    .skip fun _ => .grow (by decide) hopen hkids

/-! ## Type literals -/

omit hg in
instance : Keeps isMappedType := .of_any isMappedType_obeys

omit hg in
instance : Keeps parseMappedOptional := .of_any parseMappedOptional_obeys

theorem parseMappedType_forms : Forms f (Grown f) (parseMappedType g) := by
  refine .fetch fun open_ hopen => .skip fun sign => ?_
  extract_lets signed tail
  have htail (u : Unit) : Forms f (Grown f) (tail u) := by
    refine .skip fun isReadonly => .skip fun _ => .fetch fun name hname => .skip fun _ => ?_
    refine .bind (hg.type _) fun constraint hconstraint => ?_
    refine .grow_then (by decide) hname (by simp [hconstraint, grown_identOf hname])
      fun param hparam => .skip fun _ => ?_
    refine .either (hg.type _) (.pure .absent) fun nameType htype => .skip fun _ => ?_
    refine .skip fun optional => .skip fun _ => .either (hg.type _) (.pure .absent)
      fun value hvalue => .skip fun _ => .skip fun _ => .skip fun _ => ?_
    refine .grow_then (by decide) hopen (by simp [hparam, htype, hvalue]) fun n hn => ?_
    exact .pure hn.withText
  exact .branch (.skip fun _ => htail ()) (htail ())

theorem parseIndexSignature_forms {start : Token} {kind : NodeKind} {flags : Flags}
    (hk : kind.isPlain = true) (hs : f.spans start.span = true) :
    Forms f (fun n => Grown f n ∧ n.isPresent = true ∧ n.kind = kind)
      (parseIndexSignature g start kind flags) := by
  refine .skip fun _ => .inType (.fetch fun name hname => ?_)
  refine .bind (parseTypeAnnotation_forms hg) fun keyType hkey => .skip fun _ => ?_
  refine .grow_then (by decide) hname (by simp [grown_identOf hname]) fun param hparam => ?_
  refine .bind (parseAnnotationOpt_forms hg) fun type htype => ?_
  have hloose : kind.isLoose = true := (Bool.and_eq_true_iff.1 hk).2
  refine .node_then hs fun s hs =>
    .pure ⟨.addFlags (.inl hloose) (.withType (.new hk hs ?_) htype), rfl, rfl⟩
  simp [hparam.withType hkey]

theorem parseSignature_forms {start : Token} {kind : NodeKind} {key : List Node}
    (hk : kind.isPlain = true) (hs : f.spans start.span = true) (hkey : GrownAll f key) :
    Forms f (Grown f) (parseSignature g start kind key) := by
  refine .bind (parseTypeParamsOpt_forms hg) fun tparams htparams => ?_
  refine .bind (.keepingFunction (parseParams_forms hg).grown) fun params hparams => ?_
  extract_lets tail
  have htail (result : Node) (h : Grown f result) : Forms f (Grown f) (tail result) :=
    .grow_then hk hs (by simp [hkey, hparams]) fun n hn =>
      .pure (.withTargs (.withType hn h) htparams)
  exact .skip fun _ => .branch (.bind (parseTypeOrPredicate_forms hg) htail)
    (.pure_then (htail _ .absent))

omit hg in
instance {starOk : Bool} : Keeps (parseAccessorWord starOk) := .of_any parseAccessorWord_obeys

theorem parseKeyedTypeMember_forms {start : Token} (hs : f.spans start.span = true) :
    Forms f (Grown f) (parseKeyedTypeMember g start) := by
  refine .skip fun next => ?_
  extract_lets tail
  have htail (isReadonly : Bool) : Forms f (Grown f) (tail isReadonly) := by
    refine .skip fun _ => .skip fun _ =>
      .branch ((parseIndexSignature_forms hg rfl hs).mono fun _ hn => hn.1) ?_
    refine .skip fun word => .bind (parsePropertyKey_grown hg) fun key hkey => ?_
    refine .skip fun optional => ?_
    have hflags : ((({ isReadonly } : Flags).or key.2).or { optional }).exprBody = false := by
      simp [Flags.or, hkey.2]
    refine .skip fun _ => .branch ?_ (.skip fun _ => ?_)
    · refine .bind (parseSignature_forms hg rfl hs (by simp [hkey.1])) fun n hn => ?_
      exact .pure (.withText (.addFlags (.inr hflags) hn))
    · refine .either (hg.type _) (.pure .absent) fun type htype => ?_
      exact .grow_then (by decide) hs (by simp [hkey.1]) fun n hn =>
        .pure (.addFlags (.inr hflags) (hn.withType htype))
  exact .branch (.skip fun _ => .pure_then (htail _)) (.pure_then (htail _))

theorem parseTypeMember_forms : Forms f (Grown f) (parseTypeMember g) := by
  refine .fetch fun start hstart => .skip fun next =>
    .branch (parseSignature_forms hg rfl hstart (by simp)) ?_
  refine .branch (.skip fun _ => parseSignature_forms hg rfl hstart (by simp)) ?_
  exact parseKeyedTypeMember_forms hg hstart

theorem parseTypeLiteral_forms : Forms f (Grown f) (parseTypeLiteral g) := by
  refine .fetch fun open_ hopen =>
    .inType (.bind (.listUntil grownAll_nil fun members hmembers => ?_)
    fun members hmembers => .skip fun _ => .grow (by decide) hopen hmembers)
  refine .bind (parseTypeMember_forms hg) fun m hm => ?_
  have hdone : Forms f (GrownAll f) (pure (members ++ [m])) := .pure (hmembers.snoc hm)
  refine .skip fun _ => .branch (.skip fun _ => .branch (.skip fun _ => ?_) hdone) hdone
  exact .branch .refuse_then hdone

/-! ## Operands and operators -/

theorem parsePrimaryType_forms : Forms f (Grown f) (parsePrimaryType g) := by
  refine .fetch fun t ht => ?_
  have keyword : Grown f (.newText .typeKeyword t.span t.text) := .newText rfl ht
  have lit {n : Node} (h : Grown f n) : Grown f (.new .typeLit t.span [n]) :=
    .new rfl ht (by simp [h])
  split
  · exact .skip fun _ => .branch (.skip fun _ => .pure keyword) (parseTypeReference_forms hg)
  · exact .skip fun _ => .pure keyword
  · exact .skip fun _ => .pure keyword
  · exact .skip fun _ => .pure keyword
  · exact .skip fun _ => .pure (lit (.literal ht))
  · exact .skip fun _ => .pure (lit (.literal ht))
  · exact .skip fun _ => .pure (lit (grown_literalOf ht))
  · exact .skip fun _ => .pure (lit (grown_literalOf ht))
  · exact .skip fun _ => .pure (lit (grown_literalOf ht))
  · refine .skip fun _ => .fetch fun num hnum => .branch .unexpected (.skip fun _ => ?_)
    refine .spanTo_then ht fun span hspan => .pure ?_
    have hneg : Grown f (.newOp .unary .minus span [literalOf num]) :=
      .newOp rfl hspan (by simp [grown_literalOf hnum])
    exact .new rfl hspan (by simp [hneg])
  · exact parseTemplateType_forms hg
  · exact parseTemplateType_forms hg
  · exact parseTypeQuery_forms hg
  · exact parseImportType_forms hg
  · exact .skip fun _ => .branch (parseMappedType_forms hg) (parseTypeLiteral_forms hg)
  · exact parseTupleType_forms hg
  · refine .skip fun _ => .bind (hg.type _) fun inner hinner => .skip fun _ => ?_
    exact .grow (by decide) ht (by simp [hinner])
  · exact .refuse
  · exact .refuse

theorem parsePostfixType_forms : Forms f (Grown f) (parsePostfixType g) := by
  refine .bind (parsePrimaryType_forms hg) fun first hfirst => .loop hfirst fun type htype => ?_
  refine .skip fun t => .branch (.leave htype) (.skip fun _ => .skip fun _ => .branch ?_ ?_)
  · exact .grow_then (by decide) htype.span (by simp [htype]) fun n hn => .again hn
  · refine .bind (hg.type _) fun index hindex => .skip fun _ => ?_
    exact .grow_then (by decide) htype.span (by simp [htype, hindex]) fun n hn => .again hn

theorem parseTypeOperator_forms [g.Orderly] {noCond : Bool} :
    Forms f (Grown f) (parseTypeOperator g noCond) := by
  refine .fetch fun t ht => .skip fun _ => .branch (.skip fun _ => ?_) ?_
  · refine .bind (hg.typeOperator _) fun arg harg =>
      .grow_then (by decide) ht (by simp [harg]) fun n hn => ?_
    exact .pure hn.withText
  · refine .skip fun _ => .branch (.skip fun _ => parseInfer_forms hg ht)
      (parsePostfixType_forms hg)

theorem parseHeritageList_forms : Forms f (Grown f) (parseHeritageList g) := by
  refine .fetch fun start hstart => .bind (parseTypeReference_forms hg) fun first hfirst => ?_
  refine .bind (.loop (I := GrownAll f) (by simp [hfirst]) fun kids hkids => ?_)
    fun kids hkids => .grow (by decide) hstart hkids
  refine .skip fun _ => .branch ?_ (.leave hkids)
  exact .bind (parseTypeReference_forms hg) fun n hn => .again (hkids.snoc hn)

end ScriptLower.Parse

import ScriptLower.Proofs.Parse.Forms

/-!
# The forms of patterns and parameters

The rules for names, keys, patterns, arguments and parameters read trees that fit the places they
are read for, if the parts of the grammar do so. Types fit no places, as lowering drops them; that
they are read from the file is all there is to say of them.
-/

namespace ScriptLower.Parse

open ScriptLower

/-- The parts of the grammar read trees that fit their places. -/
structure Rules.Form (f : SourceFile) (g : Rules) : Prop where
  assign : Forms f (Formed f .expr) (g .assign)
  binary : ∀ above, Forms f (Formed f .expr) (g (.binary above))
  unary : Forms f (Formed f .expr) (g .unary)
  lhs : Forms f (Formed f .expr) (g .lhs)
  construct : Forms f (Formed f .expr) (g .construct)
  binding : Forms f (Formed f .pattern) (g .binding)
  element : ∀ t, f.spans t.span = true → Forms f (Formed f .element) (g (.element t))
  statement : ∀ top, Forms f (Formed f .stmt) (g (.statement top))
  namespaceFrom : ∀ t flags, f.spans t.span = true →
    Forms f (Formed f .namespaceDecl) (g (.namespaceFrom t flags))
  type : ∀ noCond, Forms f (Grown f) (g (.type noCond))
  typeOperator : ∀ noCond, Forms f (Grown f) (g (.typeOperator noCond))

section

variable {f : SourceFile} {g : Rules} {p : Place} {n : Node} {t : Token}

theorem formed_identOf (ht : f.spans t.span = true) (ha : p.allows false .ident = true) :
    Formed f p (identOf t) := .ident ht ha

theorem formed_literalOf (ht : f.spans t.span = true) (ha : p.allows false .literal = true) :
    Formed f p (literalOf t) := .literal ht ha

theorem formed_stringOf (ht : f.spans t.span = true) (ha : p.allows false .literal = true) :
    Formed f p (stringOf t) := .literal ht ha

theorem grown_identOf (ht : f.spans t.span = true) : Grown f (identOf t) := .ident ht

theorem grown_literalOf (ht : f.spans t.span = true) : Grown f (literalOf t) := .literal ht

theorem grown_stringOf (ht : f.spans t.span = true) : Grown f (stringOf t) := .literal ht

/-! ## Names and keys -/

theorem parseExpression_forms (hg : g.Form f) : Forms f (Formed f .expr) (parseExpression g) := by
  refine .bind hg.assign fun first hfirst => .skip fun comma => .branch (.pure hfirst) ?_
  refine .bind (.loop (I := FormedAll f .expr) (FormedAll.nil.snoc hfirst) fun kids hkids => ?_)
    fun kids hkids => .node hfirst.span fun s hs => .new rfl (by decide) hs (.each hkids)
  refine .skip fun comma => .branch ?_ (.leave hkids)
  exact .bind hg.assign fun n hn => .again (hkids.snoc hn)

theorem parseBindingIdent_forms (ha : p.allows false .ident = true) :
    Forms f (Formed f p) parseBindingIdent := by
  refine .fetch fun t ht => .branch (.skip fun _ => .pure (formed_identOf ht ha)) ?_
  exact .branch (.skip fun _ => .fail) .unexpected

/-- A name of a type. -/
theorem parseTypeName_forms : Forms f (Grown f) parseBindingIdent :=
  (parseBindingIdent_forms (p := .name) rfl).grown

theorem parseMemberName_forms : Forms f (Formed f .name) parseMemberName := by
  refine .fetch fun t ht => .branch (.skip fun _ => .pure ?_) ?_
  · exact .newText rfl (by decide) ht .none
  · exact .branch (.skip fun _ => .pure (formed_identOf ht rfl)) .unexpected

/-- A key and the mark for brackets around it. -/
def IsKey (f : SourceFile) (key : Node × Flags) : Prop :=
  Formed f (keyPlace key.2.computed) key.1 ∧ key.2.exprBody = false

theorem parsePropertyKey_forms (hg : g.Form f) : Forms f (IsKey f) (parsePropertyKey g) := by
  refine .fetch fun t ht => ?_
  have hlit : IsKey f (literalOf t, {}) := ⟨formed_literalOf ht rfl, rfl⟩
  split
  · exact .skip fun _ => .pure hlit
  · exact .skip fun _ => .pure hlit
  · exact .skip fun _ => .pure hlit
  · exact .skip fun _ => .pure ⟨.newText rfl (by decide) ht .none, rfl⟩
  · exact .skip fun _ => .bind (.withIn hg.assign) fun key hkey => .skip fun _ => .pure ⟨hkey, rfl⟩
  · exact .branch (.skip fun _ => .pure ⟨formed_identOf ht rfl, rfl⟩) .unexpected

theorem parsePropertyKey_grown (hg : g.Form f) :
    Forms f (fun key => Grown f key.1 ∧ key.2.exprBody = false) (parsePropertyKey g) :=
  (parsePropertyKey_forms hg).mono fun _ hkey => ⟨hkey.1.grown, hkey.2⟩

/-! ## Expressions as targets -/

instance {n : Node} : Keeps (checkSimpleTarget n) := by
  unfold checkSimpleTarget
  split <;> infer_instance

instance {s : Span} : Keeps (restNotLast s : Parser Unit) :=
  inferInstanceAs (Keeps (errorAt _ _ _ >>= fun _ => _))

mutual

theorem toTarget_forms (inside : Bool) :
    ∀ n, Formed f .expr n → Forms f (Formed f .expr) (toTarget inside n)
  | .absent, hn => .skip fun _ => .pure hn
  | .mk h ks ds t a x, hn => by
    have hkids := hn.kids rfl
    unfold toTarget
    refine .choose (fun hassign => ?_) fun _ => .branch (.pure hn) ?_
    · simp only [Bool.and_eq_true, beq_iff_eq] at hassign
      rw [hassign.1.2] at hkids
      exact .bind (toFirst_forms _ ks hkids) fun ks' hks' =>
        .pure (hn.again rfl (by decide) rfl hks')
    split
    · rename_i hk
      rw [hk] at hkids
      exact .bind (toElements_forms ks (formedKids_each.1 hkids)) fun ks' hks' =>
        .pure (hn.again rfl (by decide) rfl (.each hks'))
    · rename_i hk
      rw [hk] at hkids
      exact .bind (toMembers_forms ks (formedKids_each.1 hkids)) fun ks' hks' =>
        .pure (hn.again rfl (by decide) rfl (.each hks'))
    · exact .pure hn
    · exact .pure hn
    · exact .skip fun _ => .pure hn

theorem toFirst_forms (ps : List Place) : ∀ ns, FormedKids f (.expr :: ps) .none ns →
    Forms f (FormedKids f (.expr :: ps) .none) (toFirst ns)
  | [], h => .pure h
  | n :: r, h => by
    obtain ⟨hn, hr⟩ := formedKids_first.1 h
    exact .bind (toTarget_forms false n hn) fun n' hn' => .pure (.first hn' hr)

theorem toSecond_forms (key : Place) : ∀ ns, FormedKids f [key, .expr] .none ns →
    Forms f (FormedKids f [key, .expr] .none) (toSecond ns)
  | [], h => .pure h
  | [_], h => .pure h
  | k :: n :: r, h => by
    obtain ⟨hk, hrest⟩ := formedKids_first.1 h
    obtain ⟨hn, hr⟩ := formedKids_first.1 hrest
    exact .bind (toTarget_forms true n hn) fun n' hn' => .pure (.first hk (.first hn' hr))

theorem toElements_forms : ∀ ns, FormedAll f .expr ns → Forms f (FormedAll f .expr) (toElements ns)
  | [], h => .pure h
  | .absent :: r, h => absurd (h .absent List.mem_cons_self).fits (by simp [Fits, Place.isOptional])
  | .mk h ks ds t a x :: r, hall => by
    obtain ⟨hn, hr⟩ := formedAll_cons.1 hall
    have hkids := hn.kids rfl
    have then_rest {n : Node} (hn : Formed f .expr n) :
        Forms f (FormedAll f .expr) (do return n :: (← toElements r)) :=
      .bind (toElements_forms r hr) fun r' hr' => .pure (formedAll_cons.2 ⟨hn, hr'⟩)
    unfold toElements
    refine .branch (then_rest hn) (.choose (fun hspread => ?_) fun _ => ?_)
    · rw [beq_iff_eq.1 hspread] at hkids
      have spread : Forms f (FormedAll f .expr) (do
          return .mk { h with kind := .restElement } (← toFirst ks) ds t a x :: (← toElements r)) :=
        .bind (toFirst_forms _ ks hkids) fun ks' hks' =>
          then_rest (hn.again rfl (by decide) rfl hks')
      exact .branch (.skip fun _ => spread) spread
    · exact .bind (toTarget_forms true _ hn) fun n' hn' => then_rest hn'

theorem toMembers_forms :
    ∀ ns, FormedAll f .objectMember ns → Forms f (FormedAll f .patternMember) (toMembers ns)
  | [], _ => .pure .nil
  | .absent :: r, h => absurd (h .absent List.mem_cons_self).fits (by simp [Fits, Place.isOptional])
  | .mk h ks ds t a x :: r, hall => by
    obtain ⟨hn, hr⟩ := formedAll_cons.1 hall
    have hkids := hn.kids rfl
    have then_rest {n : Node} (hn : Formed f .patternMember n) :
        Forms f (FormedAll f .patternMember) (do return n :: (← toMembers r)) :=
      .bind (toMembers_forms r hr) fun r' hr' => .pure (formedAll_cons.2 ⟨hn, hr'⟩)
    unfold toMembers
    refine .choose (fun hprop => ?_) fun _ => .choose (fun hspread => ?_) fun _ => .refuse
    · rw [beq_iff_eq.1 hprop] at hkids
      refine .bind (toSecond_forms _ ks hkids) fun ks' hks' => then_rest ?_
      refine hn.again (k := h.kind) (o := h.op) rfl ?_ ?_ ?_ <;> rw [beq_iff_eq.1 hprop]
      · decide
      · rfl
      · exact hks'
    · rw [beq_iff_eq.1 hspread] at hkids
      have spread : Forms f (FormedAll f .patternMember) (do
          return .mk { h with kind := .restElement } (← toFirst ks) ds t a x :: (← toMembers r)) :=
        .bind (toFirst_forms _ ks hkids) fun ks' hks' =>
          then_rest (hn.again rfl (by decide) rfl hks')
      exact .branch (.skip fun _ => spread) spread

end

/-! ## Patterns in declarations -/

theorem formed_hole (ht : f.spans t.span = true) : Formed f .expr (Node.new .hole t.span []) :=
  .new rfl (by decide) ht .none

theorem parseBindingElement_forms (hg : g.Form f) :
    Forms f (Formed f .expr) (parseBindingElement g) := by
  refine .bind (hg.binding.le .pattern_expr) fun target htarget => .skip fun _ =>
    .branch (.pure htarget) ?_
  refine .bind (.withIn hg.assign) fun value hvalue => .node htarget.span fun s hs => ?_
  exact .new rfl (by decide) hs (.first htarget (.first hvalue .none))

theorem parseRestElement_forms {close : TokenKind} {target : Parser Node}
    (ht : f.spans t.span = true) (ha : p.allows false .restElement = true)
    (h : Forms f (Formed f .expr) target) :
    Forms f (Formed f p) (parseRestElement t close target) := by
  refine .bind h fun target htarget => .node_then ht fun s hs => .skip fun _ => ?_
  refine .branch .refuse_then (.pure ?_)
  exact .new ha (by decide) hs (.first htarget .none)

theorem parseArrayBinding_forms (hg : g.Form f) :
    Forms f (Formed f .pattern) (parseArrayBinding g) := by
  refine .fetch fun open_ hopen => .bind (.listUntil .nil fun kids hkids => .fetch fun t ht => ?_)
    fun kids hkids => .skip fun _ => .node hopen fun s hs => .new rfl (by decide) hs (.each hkids)
  split
  · exact .skip fun _ => .pure (hkids.snoc (formed_hole ht))
  · have hrest : Forms f (Formed f .expr) (parseRestElement t .rBracket (g .binding)) :=
      parseRestElement_forms ht rfl (hg.binding.le .pattern_expr)
    exact .skip fun _ => .bind hrest fun e he => .pure (hkids.snoc he)
  · exact .bind (parseBindingElement_forms hg) fun e he =>
      .skip fun _ => .pure (hkids.snoc he)

theorem parseBindingProperty_forms (hg : g.Form f) :
    Forms f (Formed f .patternMember) (parseBindingProperty g) := by
  refine .fetch fun start hstart => .bind (parsePropertyKey_forms hg) fun key hkey =>
    .skip fun colon => ?_
  refine .branch ?_ (.choose (fun _ => .unexpected) fun hname => .skip fun assigned => ?_)
  · refine .bind (parseBindingElement_forms hg) fun value hvalue => .node_then hstart fun s hs =>
      .pure ?_
    exact .flagged rfl (by decide) hs (.first hkey.1 (.first hvalue .none))
  · -- a name alone: the key stands for the value too
    simp only [Bool.or_eq_true, bne_iff_ne, ne_eq, not_or, Decidable.not_not,
      Bool.not_eq_true] at hname
    have hkeyed : Formed f .name key.1 := by
      have h := hkey.1
      rw [hname.2] at h
      exact h
    have hspan : f.spans key.1.span = true := hkeyed.span
    have hident : Formed f .expr (Node.ident key.1.text key.1.span) := .ident hspan rfl
    have hprop {value : Node} (hvalue : Formed f .expr value) :
        Forms f (Formed f .patternMember) (do
        let prop ← node .objProp start.span [key.1, value]
        return prop.addFlags (key.2.or { shorthand := true })) := by
      refine .node_then hstart fun s hs => .pure ?_
      refine .flagged rfl (by decide) hs ?_
      rw [shapeOf_congr (g := key.2) (by simp [Flags.or]) (by simp [Flags.or])]
      exact .first hkey.1 (.first hvalue .none)
    refine .branch
      (.bind (.withIn hg.assign) fun value hvalue => .node_then hspan fun s hs => ?_) ?_
    · exact hprop (.new rfl (by decide) hs (.first hident (.first hvalue .none)))
    · exact .pure_then (hprop hident)

theorem parseObjectBinding_forms (hg : g.Form f) :
    Forms f (Formed f .pattern) (parseObjectBinding g) := by
  refine .fetch fun open_ hopen => .bind (.listUntil .nil fun kids hkids => .fetch fun t ht => ?_)
    fun kids hkids => .skip fun _ => .node hopen fun s hs => .new rfl (by decide) hs (.each hkids)
  refine .branch (.skip fun _ => ?_) ?_
  · exact .bind (parseRestElement_forms ht rfl (parseBindingIdent_forms rfl)) fun e he =>
      .pure (hkids.snoc he)
  · exact .bind (parseBindingProperty_forms hg) fun p hp => .skip fun _ => .pure (hkids.snoc hp)

theorem parseBindingTarget_forms (hg : g.Form f) :
    Forms f (Formed f .pattern) (parseBindingTarget g) := by
  refine .skip fun t => ?_
  split
  · exact parseArrayBinding_forms hg
  · exact parseObjectBinding_forms hg
  · exact parseBindingIdent_forms rfl

/-! ## Types in the places where expressions meet them -/

section

variable (hg : g.Form f)

include hg

theorem parseType_forms : Forms f (Grown f) (parseType g) := .inType (hg.type _)

theorem parseTypeAnnotation_forms : Forms f (Grown f) ( parseTypeAnnotation g) :=
  .skip fun _ => .skip fun _ => parseType_forms hg

theorem parseAnnotationOpt_forms : Forms f (Grown f) (parseAnnotationOpt g) :=
  .skip fun _ => .branch (parseTypeAnnotation_forms hg) (.pure .absent)

omit hg in
instance : Keeps parseTypeParamModifiers := .of_any parseTypeParamModifiers_obeys

theorem parseTypeParam_forms : Forms f (Grown f) (parseTypeParam g) := by
  refine .fetch fun start hstart => .skip fun mods => .bind parseTypeName_forms fun name hname => ?_
  refine .skip fun _ => .either (hg.type _) (.pure .absent) fun bound hbound => ?_
  refine .skip fun _ => .either (hg.type _) (.pure .absent) fun default_ hdefault => ?_
  exact .grow_then (by decide) hstart (by simp [hname, hbound, hdefault]) fun n hn =>
    .pure hn.withText

theorem parseTypeParamsOpt_forms : Forms f (Grown f) (parseTypeParamsOpt g) := by
  refine .skip fun _ => .branch (.pure .absent) (.fetch fun lt hlt => .skip fun _ => .inType ?_)
  refine .bind (.growCommas (parseTypeParam_forms hg)) fun kids hkids => ?_
  exact .branch .refuse_then (.skip fun _ => .grow (by decide) hlt hkids)

theorem parseTypeArgs_forms : Forms f (Grown f) (parseTypeArgs g) := by
  refine .splitNext (.fetch fun lt hlt => .skip fun _ => .inType ?_)
  refine .bind (.growCommas (hg.type _)) fun kids hkids => ?_
  exact .branch .refuse_then (.skip fun _ => .grow (by decide) hlt hkids)

end

/-! ## Arguments and decorators -/

theorem parseSpreadable_forms (hg : g.Form f) (ha : p.allows false .spread = true)
    (hp : Place.expr.Le p) : Forms f (Formed f p) (parseSpreadable g) := by
  refine .fetch fun t ht => .branch (.skip fun _ => ?_) (hg.assign.le hp)
  exact .bind hg.assign fun e he => .node ht fun s hs =>
    .new ha (by decide) hs (.first he .none)

theorem parseArguments_forms (hg : g.Form f) : Forms f (FormedAll f .expr) (parseArguments g) := by
  refine .skip fun _ => .withIn ?_
  exact .bind (.commaList (parseSpreadable_forms hg rfl (.refl _))) fun args hargs =>
    .skip fun _ => .pure hargs

theorem parseCall_forms (hg : g.Form f) {callee targs : Node} (hc : Formed f .expr callee)
    (ht : Grown f targs) : Forms f (Formed f .expr) (parseCall g callee targs) := by
  refine .bind (parseArguments_forms hg) fun args hargs => .spanTo_then hc.span fun s hs => .pure ?_
  refine .withTargs ?_ ht
  exact .new rfl (by decide) hs (.first hc (.each hargs))

theorem parseParen_forms (hg : g.Form f) : Forms f (Formed f .expr) (parseParen g) := by
  refine .fetch fun open_ hopen => .bind (.withIn (parseExpression_forms hg)) fun e he => ?_
  exact .skip fun _ => .node hopen fun s hs => .new rfl (by decide) hs (.first he .none)

/-- A name behind a dot. -/
theorem formed_member {e name : Node} {s : Span} (he : Formed f .expr e) (hn : Formed f .name name)
    (hs : f.spans s = true) : Formed f .expr (Node.new .member s [e, name]) :=
  .new rfl (by decide) hs (.first he (.first hn .none))

theorem parseDecoratorPath_forms {first : Node} (h : Formed f .expr first) :
    Forms f (Formed f .expr) (parseDecoratorPath first) := by
  refine .loop h fun e he => .skip fun _ => .branch ?_ (.leave he)
  refine .bind parseMemberName_forms fun name hname => .node_then he.span fun s hs => ?_
  exact .again (formed_member he hname hs)

theorem parseDecoratorExpr_forms (hg : g.Form f) :
    Forms f (Formed f .expr) (parseDecoratorExpr g) := by
  refine .skip fun _ => .branch (parseParen_forms hg) (.fetch fun t ht => .branch .unexpected ?_)
  refine .skip fun _ => .bind (parseDecoratorPath_forms (formed_identOf ht rfl)) fun e he => ?_
  have hcall (targs : Node) (h : Grown f targs) : Forms f (Formed f .expr) (do
      if ← at_ .lParen then parseCall g e targs else return e) :=
    .skip fun _ => .branch (parseCall_forms hg he h) (.pure he)
  refine .skip fun _ => .skip fun _ => .branch ?_ (.pure_then (hcall _ .absent))
  exact .bind (parseTypeArgs_forms hg) hcall

theorem parseDecorators_forms (hg : g.Form f) :
    Forms f (FormedAll f .decorator) (parseDecorators g) := by
  refine .loop (I := FormedAll f .decorator) .nil fun ds hds => ?_
  refine .skip fun _ => .branch (.fetch fun t ht => .skip fun v => ?_) (.leave hds)
  have hrest : Forms f (Sum.elim (FormedAll f .decorator) (FormedAll f .decorator)) (do
      let e ← parseDecoratorExpr g
      return .inl (ds ++ [← node .decorator t.span [e]])) := by
    refine .bind (parseDecoratorExpr_forms hg) fun e he => .node_then ht fun s hs => ?_
    exact .again (hds.snoc (.new rfl (by decide) hs (.first he .none)))
  exact .branch (.skip fun _ => hrest) hrest

/-! ## Parameters -/

instance {ctor : Bool} : Keeps (parseParameterModifiers ctor) :=
    .of_any parseParameterModifiers_obeys

theorem parseReceiver_forms (hg : g.Form f) (ht : f.spans t.span = true) :
    Forms f (Formed f .param) (parseReceiver g t) := by
  refine .fetch fun u hu => .skip fun _ => .bind (parseAnnotationOpt_forms hg) fun type htype => ?_
  have hthis : Formed f .expr (.new .thisExpr u.span []) := .new rfl (by decide) hu .none
  refine .node_then ht fun s hs => .pure (.withType (.addFlags rfl rfl ?_) htype)
  exact .new rfl (by decide) hs (.first hthis (.first (.absent rfl) .none))

theorem parseParameter_forms (hg : g.Form f) {ctor first : Bool} :
    Forms f (Formed f .param) (parseParameter g ctor first) := by
  refine .fetch fun start hstart => .either (R := FormedAll f .decorator) (parseDecorators_forms hg)
    (.pure .nil) fun decos hdecos => .skip fun flags => .skip fun _ => ?_
  refine .branch (parseReceiver_forms hg hstart) (.skip fun rest => ?_)
  refine .bind (hg.binding.le .pattern_expr) fun binding hbinding => .skip fun _ =>
    .skip fun question => ?_
  extract_lets tail
  have htail (optional : Bool) : Forms f (Formed f .param) (tail optional) := by
    refine .bind (parseAnnotationOpt_forms hg) fun type htype => .skip fun _ => ?_
    refine .either (hg.assign.le .expr_optExpr) (.pure (.absent rfl)) fun value hvalue => ?_
    refine .node_then hstart fun s hs => .pure (.withDecos (.withType ?_ htype) hdecos)
    exact .flagged rfl (by decide) hs (.first hbinding (.first hvalue .none))
  exact .branch (.skip fun _ => .skip fun _ => .pure_then (htail true)) (.pure_then (htail false))

theorem parseParams_forms (hg : g.Form f) {ctor : Bool} :
    Forms f (Formed f .params) (parseParams g ctor) := by
  refine .fetch fun open_ hopen => .bind (.listUntil .nil fun kids hkids => ?_)
    fun kids hkids => .skip fun _ => .node hopen fun s hs => .new rfl (by decide) hs (.each hkids)
  refine .bind (parseParameter_forms hg) fun p hp => .skip fun _ => ?_
  exact .branch .refuse_then (.skip fun _ => .pure (hkids.snoc hp))

end

end ScriptLower.Parse

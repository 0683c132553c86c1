import ScriptLower.Proofs.Parse.FunctionForms

/-!
# The forms of expressions

The operator between two operands binds more tightly than nothing, so it has a level. The pieces of
a template and the expressions between them take turns.
-/

namespace ScriptLower.Parse

open ScriptLower

variable {f : SourceFile} {g : Rules} {p : Place} {t : Token}

/-! ## Elements -/

theorem formed_tagName {s : Span} {text : Bytes} (hs : f.spans s = true) :
    Formed f .tag (.newText .jsxName s text) := .newText rfl (by decide) hs .none

theorem parseTagPath_forms {start : Span} {first : Node} (hs : f.spans start = true)
    (h : Formed f .tag first) : Forms f (Formed f .tag) (parseTagPath start first) := by
  refine .loop h fun name hname => .skip fun _ => .branch (.fetch fun t ht => ?_) (.leave hname)
  refine .branch .unexpected (.skip fun _ => .node_then hs fun s hs => .again ?_)
  exact .newTag hs hname (formed_tagName ht)

theorem parseTagName_forms : Forms f (Formed f .tag) parseTagName := by
  refine .fetch fun first hfirst => .skip fun _ => ?_
  refine .branch (.skip fun part => .spanTo_then hfirst fun s hs => ?_) ?_
  · exact .pure (formed_tagName hs)
  · exact parseTagPath_forms hfirst (formed_tagName hfirst)

theorem parseElement_forms (hg : g.Form f) : Forms f (Formed f .element) (parseElement g) :=
  .fetch fun t ht => hg.element t ht

theorem parseAttributeValue_forms (hg : g.Form f) :
    Forms f (Formed f .attributeValue) (parseAttributeValue g) := by
  refine .fetch fun t ht => ?_
  split
  · exact .skip fun _ => .pure (formed_stringOf ht rfl)
  · refine .skip fun _ => .skip fun _ => .branch .refuse_then ?_
    refine .bind (.withIn hg.assign) fun e he => .skip fun _ => .node ht fun s hs => ?_
    exact .new rfl (by decide) hs (.first he .none)
  · exact (parseElement_forms hg).le .element_attributeValue
  · exact .unexpected

theorem parseAttribute_forms (hg : g.Form f) : Forms f (Formed f .attr) (parseAttribute g) := by
  refine .fetch fun first hfirst => ?_
  extract_lets tail
  have htail (name : Bytes) : Forms f (Formed f .attr) (tail name) := by
    refine .spanTo_then hfirst fun s hs => .skip fun _ => .either (R := Formed f .attributeValue)
      (parseAttributeValue_forms hg) (.pure (.absent rfl)) fun value hvalue =>
        .node hfirst fun s' hs' => ?_
    exact .new rfl (by decide) hs' (.first (formed_tagName hs) (.first hvalue .none))
  exact .skip fun _ => .branch (.skip fun part => .pure_then (htail _)) (.pure_then (htail _))

theorem parseSpreadAttribute_forms (hg : g.Form f) :
    Forms f (Formed f .attr) (parseSpreadAttribute g) := by
  refine .fetch fun open_ hopen => .skip fun _ => .bind (.withIn hg.assign) fun e he => ?_
  exact .skip fun _ => .node hopen fun s hs => .new rfl (by decide) hs (.first he .none)

theorem parseAttributes_forms (hg : g.Form f) {opening : Token} :
    Forms f (Formed f .attributes) (parseAttributes g opening) := by
  refine .fetch fun start hstart => .bind (.loop (I := FormedAll f .attr) .nil fun kids hkids => ?_)
    fun kids hkids => .node hstart fun s hs => .new rfl (by decide) hs (.each hkids)
  refine .skip fun t => ?_
  split
  · exact .leave hkids
  · exact .leave hkids
  · exact .skip fun _ => .fail
  · exact .bind (parseSpreadAttribute_forms hg) fun a ha => .again (hkids.snoc ha)
  · exact .bind (parseAttribute_forms hg) fun a ha => .again (hkids.snoc ha)

theorem parseChildExpr_forms (hg : g.Form f) (ht : f.spans t.span = true) :
    Forms f (Formed f .child) (parseChildExpr g t) := by
  refine .skip fun _ => .branch (.node ht fun s hs => ?_) (.skip fun spread => ?_)
  · exact .new rfl (by decide) hs (.first (.absent rfl) .none)
  · refine .bind (.withIn (parseExpression_forms hg)) fun e he => .skip fun _ =>
      .node ht fun s hs => ?_
    cases spread with
    | true => exact .new rfl (by decide) hs (.first he .none)
    | false =>
      exact .new rfl (by decide) hs (.first (he.le .expr_optExpr) .none)

instance {name : Node} : Keeps (parseClosingTag name) := by
  refine ⟨fun f => .skip fun v =>
    .branch (.skip fun _ => ?_) (.bind parseTagName_forms fun _ _ => ?_)⟩
  · exact .branch .refuse_then (.skip fun _ => .pure trivial)
  · exact .branch (.skip fun s => .refuse_then) (.skip fun _ => .pure trivial)

theorem parseChildren_forms (hg : g.Form f) {opening : Token} {name : Node} :
    Forms f (Formed f .children) (parseChildren g opening name) := by
  refine .look fun v hv => .bind (.loop (I := FormedAll f .child) .nil fun kids hkids => ?_)
    fun kids hkids => .node hv fun s hs => .new rfl (by decide) hs (.each hkids)
  refine .fetch fun t ht => ?_
  split
  · exact .skip fun _ => .fail
  · exact .again (hkids.snoc (.newText rfl (by decide) ht .none))
  · exact .bind (parseChildExpr_forms hg ht) fun e he => .again (hkids.snoc he)
  · refine .skip fun _ => .branch (.skip fun _ => .leave hkids) ?_
    exact .bind (hg.element t ht) fun e he => .again (hkids.snoc (he.le .element_child))
  · exact .unexpected

theorem parseElementRest_forms (hg : g.Form f) (ht : f.spans t.span = true) :
    Forms f (Formed f .element) (parseElementRest g t) := by
  refine .skip fun _ => .branch ?_ (.bind parseTagName_forms fun name hname => ?_)
  · refine .bind (parseChildren_forms hg) fun children hchildren => .node ht fun s hs => ?_
    exact .new rfl (by decide) hs (.first hchildren .none)
  · refine .skip fun _ => .skip fun v => .either (parseTypeArgs_forms hg) (.pure .absent)
      fun targs htargs => .bind (parseAttributes_forms hg) fun attrs hattrs => ?_
    extract_lets tail
    have htail (children : Node) (h : Formed f .children children) :
        Forms f (Formed f .element) (tail children) := by
      refine .node_then ht fun s hs => .pure (.withTargs ?_ htargs)
      exact .new rfl (by decide) hs (.first hname (.first hattrs (.first h .none)))
    refine .skip fun _ => .branch (.skip fun _ => .look fun v hv => ?_) (.skip fun _ => ?_)
    · exact .pure_then (htail _ (.new rfl (by decide) (SourceFile.spans_atStart hv) .none))
    · exact .bind (parseChildren_forms hg) htail

/-! ## Operands -/

/-- The pieces of a template so far, the last of which is a text. -/
structure Woven (f : SourceFile) (kids : List Node) : Prop where
  /-- Texts and expressions take turns. -/
  turns : FormedKids f [] (.turns .quasi .expr) kids
  /-- The last piece is a text. -/
  odd : kids.length % 2 = 1

theorem formedKids_turns {q : Place} {n : Node} {ns : List Node} :
    FormedKids f [] (.turns p q) (n :: ns) ↔ Formed f p n ∧ FormedKids f [] (.turns q p) ns := by
  refine ⟨fun h => ?_, fun h => ⟨?_, grownAll_cons.2 ⟨h.1.grown, h.2.grown⟩⟩⟩
  · have hfit := h.fit
    rw [kidsFit_turns, Bool.and_eq_true] at hfit
    obtain ⟨hn, hns⟩ := grownAll_cons.1 h.grown
    exact ⟨⟨hfit.1, hn⟩, ⟨hfit.2, hns⟩⟩
  · rw [kidsFit_turns, h.1.fits, h.2.fit]
    rfl

theorem formedKids_turns_snoc {q : Place} {n m : Node} (hn : Formed f q n) (hm : Formed f p m) :
    ∀ ns : List Node, ns.length % 2 = 1 → FormedKids f [] (.turns p q) ns →
      FormedKids f [] (.turns p q) (ns ++ [n, m])
  | [], hlen, _ => by simp at hlen
  | [a], _, h => formedKids_turns.2 ⟨(formedKids_turns.1 h).1,
      formedKids_turns.2 ⟨hn, formedKids_turns.2 ⟨hm, .none⟩⟩⟩
  | a :: b :: r, hlen, h => by
    obtain ⟨ha, hrest⟩ := formedKids_turns.1 h
    obtain ⟨hb, hr⟩ := formedKids_turns.1 hrest
    have hmore := formedKids_turns_snoc hn hm r (by simp at hlen; omega) hr
    exact formedKids_turns.2 ⟨ha, formedKids_turns.2 ⟨hb, hmore⟩⟩

theorem Woven.snoc {kids : List Node} {e piece : Node} (h : Woven f kids) (he : Formed f .expr e)
    (hp : Formed f .quasi piece) : Woven f (kids ++ [e, piece]) where
  turns := formedKids_turns_snoc he hp kids h.odd h.turns
  odd := by
    have hodd := h.odd
    simp only [List.length_append, List.length_cons, List.length_nil]
    omega

theorem formed_templatePiece (ht : f.spans t.span = true) : Formed f .quasi (templatePiece t) :=
  .newText rfl (by decide) ht .none

theorem woven_first (ht : f.spans t.span = true) : Woven f [templatePiece t] :=
  ⟨formedKids_turns.2 ⟨formed_templatePiece ht, .none⟩, rfl⟩

theorem parseTemplate_forms (hg : g.Form f) : Forms f (Formed f .template) (parseTemplate g) := by
  refine .fetch fun head hhead => .branch (.pure ?_) ?_
  · exact .new rfl (by decide) hhead (woven_first hhead).turns
  · refine .bind (parseTemplateTail_forms (.withIn (parseExpression_forms hg)) (woven_first hhead)
      fun kids e t hkids he ht => hkids.snoc he (formed_templatePiece ht)) fun kids hkids => ?_
    exact .node hhead fun s hs => .new rfl (by decide) hs hkids.turns

theorem parseArrayLiteral_forms (hg : g.Form f) :
    Forms f (Formed f .expr) (parseArrayLiteral g) := by
  refine .fetch fun open_ hopen =>
    .withIn (.bind (.listUntil .nil fun kids hkids => .fetch fun t ht => ?_)
    fun kids hkids => .skip fun _ => .node hopen fun s hs => .new rfl (by decide) hs (.each hkids))
  refine .branch (.skip fun _ => .pure (hkids.snoc (formed_hole ht))) ?_
  exact .bind (parseSpreadable_forms hg rfl (.refl _)) fun e he =>
    .skip fun _ => .pure (hkids.snoc he)

theorem parseShorthand_forms (hg : g.Form f) {key : Node} (ht : f.spans t.span = true)
    (hkey : Formed f .name key) : Forms f (Formed f .objectMember) (parseShorthand g t key) := by
  unfold parseShorthand
  extract_lets name tail
  have htail (value : Node) (h : Formed f .expr value) :
      Forms f (Formed f .objectMember) (tail value) :=
    .node_then ht fun s hs => .pure (.flagged rfl (by decide) hs
      (.first hkey (.first h .none)))
  have hname : Formed f .expr name := .ident hkey.span rfl
  refine .skip fun _ => .branch (.bind hg.assign fun default_ hdefault => ?_)
    (.pure_then (htail _ hname))
  refine .spanTo_then hname.span fun s hs => .pure_then (htail _ ?_)
  exact .newOp rfl rfl (.inl (by decide)) hs (.first hname (.first hdefault .none))

instance {start : Token} : Keeps (parseMethodWord start) := by
  unfold parseMethodWord
  infer_instance

/-- Behind a look at three dots only what they spread is read. -/
theorem parseSpreadable_dots (k : Token → Parser Node) :
    (Parse.peek >>= fun t => if t.kind == .dotDotDot then parseSpreadable g else k t) =
      Parse.peek >>= fun t => if t.kind == .dotDotDot then
        Parse.advance >>= fun _ => g .assign >>= fun e => node .spread t.span [e] else k t := by
  funext s
  rw [Parser.bind_ok (peek_eq s), Parser.bind_ok (peek_eq s)]
  split
  · rw [parseSpreadable, Parser.bind_ok (peek_peeked s), if_pos ‹_›]
  · rfl

theorem parseObjectMember_forms (hg : g.Form f) :
    Forms f (Formed f .objectMember) (parseObjectMember g) := by
  rw [parseObjectMember, parseSpreadable_dots]
  refine .fetch fun start hstart => .branch (.skip fun _ => .bind hg.assign fun e he =>
    .node hstart fun s hs => .new rfl (by decide) hs (.first he .none)) ?_
  refine .skip fun word => .skip fun generator =>
    .bind (parsePropertyKey_forms hg) fun key hkey => ?_
  obtain ⟨key, keyFlags⟩ := key
  refine .skip fun _ => .branch (parseMethod_forms hg rfl (.inl rfl) hstart ?_) (.skip fun _ => ?_)
  · simpa [Flags.or] using hkey.1
  · refine .branch (.bind hg.assign fun value hvalue => ?_)
      (.choose (fun _ => .unexpected) fun hname => ?_)
    · exact .node_then hstart fun s hs => .pure (.flagged rfl (by decide) hs
        (.first hkey.1 (.first hvalue .none)))
    · simp only [Bool.or_eq_true, bne_iff_ne, ne_eq, not_or, Decidable.not_not,
        Bool.not_eq_true] at hname
      have h := hkey.1
      rw [show keyFlags.computed = false from hname.1.2] at h
      exact parseShorthand_forms hg hstart h

theorem parseObjectLiteral_forms (hg : g.Form f) :
    Forms f (Formed f .expr) (parseObjectLiteral g) :=
  .fetch fun _ hopen => .withIn (.bind (.commaList (parseObjectMember_forms hg)) fun _ hkids =>
    .skip fun _ => .node hopen fun _ hs => .new rfl (by decide) hs (.each hkids))

theorem formed_metaProp {s : Span} {text : Bytes} (hs : f.spans s = true) :
    Formed f .expr (.newText .metaProp s text) := .newText rfl (by decide) hs .none

theorem parseImportExpr_forms (hg : g.Form f) : Forms f (Formed f .expr) (parseImportExpr g) := by
  refine .fetch fun start hstart => .skip fun _ =>
    .branch (.skip fun _ => .branch .unexpected ?_) ?_
  · exact .skip fun _ => .spanTo_then hstart fun s hs => .pure (formed_metaProp hs)
  · refine .bind (parseArguments_forms hg) fun args hargs => .choose (fun _ => ?_) fun hcount => ?_
    · exact .skip fun span => .refuse_then
    · refine .node hstart fun s hs => ?_
      cases args with
      | nil => simp at hcount
      | cons a r =>
        obtain ⟨ha, hr⟩ := List.forall_mem_cons.1 hargs
        exact .new rfl (by decide) hs (.first ha (.each hr))

theorem parseRegExp_forms (ht : t.Stands f) (hk : t.kind ≠ .eof) :
    Forms f (Formed f .expr) (parseRegExp t) :=
  .bind (.readRegExp ht hk) fun _ hre =>
    .branch (.pure (formed_literalOf (hre) rfl)) .fail

theorem parsePrimary_forms (hg : g.Form f) : Forms f (Formed f .expr) (parsePrimary g) := by
  refine .peek_then fun t ht => ?_
  have hspan := spans_lies ht.toLies
  have literal : Formed f .expr (literalOf t) := formed_literalOf hspan rfl
  have keyword : Formed f .expr (Node.keyword t.kind t.span) := .literal hspan rfl
  have template := (parseTemplate_forms hg).mono fun n hn => hn.le .template_expr
  split
  · refine .skip fun next => .branch (parseFunctionExpr_forms hg) (.skip fun _ => .pure ?_)
    exact formed_identOf hspan rfl
  · exact .skip fun _ => .pure (.new rfl (by decide) hspan .none)
  · refine .skip fun _ => .skip fun _ => .branch .refuse_then (.pure ?_)
    exact .new rfl (by decide) hspan .none
  · exact .skip fun _ => .pure literal
  · exact .skip fun _ => .pure literal
  · exact .skip fun _ => .pure literal
  · exact .skip fun _ => .pure keyword
  · exact .skip fun _ => .pure keyword
  · exact .skip fun _ => .pure keyword
  · exact parseRegExp_forms ht (by simp_all)
  · exact parseRegExp_forms ht (by simp_all)
  · exact template
  · exact template
  · exact parseParen_forms hg
  · exact parseArrayLiteral_forms hg
  · exact parseObjectLiteral_forms hg
  · exact parseFunctionExpr_forms hg
  · exact parseClassExpr_forms hg hspan .nil
  · refine .bind (parseDecorators_forms hg) fun decos hdecos => .skip fun _ =>
      .branch .unexpected ?_
    exact parseClassExpr_forms hg hspan hdecos
  · exact parseImportExpr_forms hg
  · refine .skip fun _ => .skip fun _ => .branch .refuse_then (.pure ?_)
    exact .newText rfl (by decide) hspan .none
  · refine .skip fun next => .skip fun v => .branch ?_ ?_
    · exact (parseElement_forms hg).mono fun n hn => hn.le .element_expr
    · exact .branch (.skip fun _ => .fail) .unexpected
  · exact .skip fun _ => .fail
  · exact .unexpected

/-! ## What follows an operand -/

instance : Keeps startsExpression := .of_any startsExpression_obeys

section

variable (hg : g.Form f) {base : Node} (hbase : Formed f .expr base)

include hg hbase

theorem parseIndex_forms : Forms f (Formed f .expr) (parseIndex g base) := by
  refine .skip fun _ => .bind (.withIn (parseExpression_forms hg)) fun index hindex =>
    .skip fun _ => ?_
  exact .node hbase.span fun s hs => .new rfl (by decide) hs
    (.first hbase (.first hindex .none))

theorem parseTagged_forms {targs : Node} (ht : Grown f targs) :
    Forms f (Formed f .expr) (parseTagged g base targs) := by
  refine .bind (parseTemplate_forms hg) fun template htemplate =>
    .node_then hbase.span fun s hs => ?_
  refine .pure (.withTargs ?_ ht)
  exact .new rfl (by decide) hs (.first hbase (.first htemplate .none))

theorem parseTypeArgsInExpr_forms {allowCall : Bool} :
    Forms f (Formed f .expr) (parseTypeArgsInExpr g base allowCall) := by
  refine .bind (parseTypeArgs_forms hg) fun targs htargs => .skip fun next => ?_
  extract_lets alone
  have halone : Forms f (Formed f .expr) alone := by
    refine .node_then hbase.span fun s hs => .pure (.withTargs ?_ htargs)
    exact .new rfl (by decide) hs (.first hbase .none)
  split
  · exact .branch (parseCall_forms hg hbase htargs) halone
  · exact parseTagged_forms hg hbase htargs
  · exact parseTagged_forms hg hbase htargs
  · exact .skip fun _ => .branch halone .fail

theorem parseOptionalLink_forms : Forms f (Formed f .expr) (parseOptionalLink g base) := by
  unfold parseOptionalLink
  extract_lets tail
  have htail (link : Node) (h : Formed f .expr link) : Forms f (Formed f .expr) (tail link) :=
    .pure (.addFlags rfl rfl h)
  have typed : Forms f (Formed f .expr) (do
      let targs ← parseTypeArgs g
      let __do_lift ← parseCall g base targs
      tail __do_lift) :=
    .bind (parseTypeArgs_forms hg) fun targs htargs =>
      .bind (parseCall_forms hg hbase htargs) htail
  refine .skip fun t => ?_
  split
  · exact .bind (parseCall_forms hg hbase .absent) htail
  · exact .bind (parseIndex_forms hg hbase) htail
  · exact typed
  · exact typed
  · refine .bind parseMemberName_forms fun name hname => ?_
    exact .bind (.node hbase.span fun s hs => formed_member hbase hname hs) htail

/-- Type arguments behind an operand, where types are allowed. -/
theorem typedLink_forms [g.Orderly] {allowCall optional : Bool} :
    Forms f (fun o => ∀ link ∈ o, Formed f .expr link.1) (do
      if !(← view).grammar.types then return none
      match ← speculate (parseTypeArgsInExpr g base allowCall) with
      | some n => return some (n, optional)
      | none => return none) := by
  refine .skip fun v => .branch .none (.bind (.speculate (framed_of_obeys parseTypeArgsInExpr_obeys)
    (parseTypeArgsInExpr_forms hg hbase)) fun tried htried => ?_)
  split
  · exact .some (htried _ rfl)
  · exact .none

theorem parseLink_forms [g.Orderly] {allowCall optional : Bool} :
    Forms f (fun o => ∀ link ∈ o, Formed f .expr link.1) (parseLink g allowCall optional base) := by
  refine .skip fun t => ?_
  split
  · refine .skip fun _ => .bind parseMemberName_forms fun name hname => ?_
    exact .node_then hbase.span fun s hs => .some (formed_member hbase hname hs)
  · refine .branch .refuse_then (.skip fun _ => ?_)
    exact .bind (parseOptionalLink_forms hg hbase) fun n hn => .some hn
  · exact .bind (parseIndex_forms hg hbase) fun n hn => .some hn
  · exact .branch (.bind (parseCall_forms hg hbase .absent) fun n hn => .some hn) .none
  · exact .branch .refuse_then
      (.bind (parseTagged_forms hg hbase .absent) fun n hn => .some hn)
  · exact .branch .refuse_then
      (.bind (parseTagged_forms hg hbase .absent) fun n hn => .some hn)
  · refine .skip fun v => .branch .none (.skip fun _ => ?_)
    exact .node_then hbase.span fun s hs =>
      .some (.new rfl (by decide) hs (.first hbase .none))
  · exact typedLink_forms hg hbase
  · exact typedLink_forms hg hbase
  · exact .none

theorem parseCallTail_forms [g.Orderly] {allowCall : Bool} :
    Forms f (Formed f .expr) (parseCallTail g allowCall base) := by
  refine .bind (R := fun link => Formed f .expr link.1)
    (.loop (I := fun link => Formed f .expr link.1) hbase fun link hlink => ?_) fun link hlink =>
      .pure ?_
  · refine .bind (parseLink_forms hg hlink) fun next hnext => ?_
    split
    · exact .again (hnext _ rfl)
    · exact .leave hlink
  · split
    · exact .new rfl (by decide) hlink.span (.first hlink .none)
    · exact hlink

end

section

variable (hg : g.Form f)

include hg

theorem parseNew_forms [g.Orderly] : Forms f (Formed f .expr) (parseNew g) := by
  refine .fetch fun start hstart => .skip fun _ =>
    .branch (.skip fun _ => .branch .unexpected ?_) ?_
  · exact .skip fun _ => .spanTo_then hstart fun s hs => .pure (formed_metaProp hs)
  · refine .skip fun _ => .either hg.construct (parsePrimary_forms hg) fun operand hoperand => ?_
    refine .bind (parseCallTail_forms hg hoperand) fun callee hcallee => ?_
    -- the types of an instantiation move to the construction
    have hbase : Formed f .expr (if callee.kind == .instantiation then (callee.kid 0, callee.targs)
        else (callee, .absent)).1 ∧ Grown f (if callee.kind == .instantiation then
          (callee.kid 0, callee.targs) else (callee, .absent)).2 := by
      split
      · rename_i hk
        have hk := beq_iff_eq.1 hk
        have hplaced := placed_of_kind hcallee.fits hk rfl (by decide)
        exact ⟨⟨hplaced.kid hk 0 rfl, hcallee.grown.kid 0⟩, hcallee.grown.targs⟩
      · exact ⟨hcallee, .absent⟩
    refine .skip fun _ => .branch (.bind (parseArguments_forms hg) fun args hargs => ?_) ?_
    · refine .node_then hstart fun s hs => .pure (.addFlags rfl rfl (.withTargs ?_ hbase.2))
      exact .new rfl (by decide) hs (.first hbase.1 (.each hargs))
    · refine .node_then hstart fun s hs => .pure (.withTargs ?_ hbase.2)
      exact .new rfl (by decide) hs (.first hbase.1 .none)

theorem parseLhs_forms [g.Orderly] : Forms f (Formed f .expr) (parseLhs g) :=
  .skip fun _ => .either hg.construct (parsePrimary_forms hg) fun _ hbase =>
    parseCallTail_forms hg hbase

/-! ## Operators -/

theorem parsePostfix_forms : Forms f (Formed f .expr) (parsePostfix g) := by
  refine .bind hg.lhs fun e he => .skip fun t => .branch ?_ (.pure he)
  refine .skip fun _ => .skip fun _ => .spanTo_then he.span fun s hs => .pure ?_
  exact .newOp rfl rfl (.inl (by decide)) hs (.first he .none)

theorem parseTypeAssertion_forms : Forms f (Formed f .expr) (parseTypeAssertion g) := by
  refine .fetch fun lt hlt => .bind (parseType_forms hg) fun type htype => .skip fun _ => ?_
  refine .bind hg.unary fun arg harg => .node_then hlt fun s hs => .pure (.withType ?_ htype)
  exact .new rfl (by decide) hs (.first harg .none)

theorem parseUnary_forms : Forms f (Formed f .expr) (parseUnary g) := by
  refine .fetch fun t ht => .skip fun v => ?_
  have operator : Forms f (Formed f .expr) (do
      let _ ← advance
      let arg ← g .unary
      if t.kind == .kwDelete && v.grammar.strictEarlyErrors && arg.unparen.kind == .ident then
        errorAt arg.span .strictDelete "deleting an identifier is not allowed in strict mode"
      return Node.newOp .unary t.kind (← spanTo t.span) [arg]) := by
    refine .skip fun _ => .bind hg.unary fun arg harg => ?_
    extract_lets tail
    have htail (u : Unit) : Forms f (Formed f .expr) (tail u) :=
      .spanTo_then ht fun s hs =>
        .pure (.newOp rfl rfl (.inl (by decide)) hs (.first harg .none))
    exact .branch (.skip fun _ => htail ()) (htail ())
  have update : Forms f (Formed f .expr) (do
      let _ ← advance
      let arg ← g .unary
      checkSimpleTarget arg
      return (Node.newOp .update t.kind (← spanTo t.span) [arg]).addFlags
        { prefixed := true }) := by
    refine .skip fun _ => .bind hg.unary fun arg harg => .skip fun _ =>
      .spanTo_then ht fun s hs => ?_
    exact .pure (.addFlags rfl rfl (.newOp rfl rfl (.inl (by decide)) hs (.first harg .none)))
  split
  iterate 7 · exact operator
  · exact update
  · exact update
  · exact .branch (parseTypeAssertion_forms hg) (parsePostfix_forms hg)
  · refine .branch (.skip fun _ => ?_) (parsePostfix_forms hg)
    exact .bind hg.unary fun arg harg => .node ht fun s hs =>
      .new rfl (by decide) hs (.first harg .none)
  · exact parsePostfix_forms hg

theorem parseAssertion_forms {word : Token} {left : Node} (hleft : Formed f .expr left) :
    Forms f (Formed f .expr) (parseAssertion g word left) := by
  refine .skip fun _ => .skip fun _ => ?_
  extract_lets isAs tail
  have htail (type : Node) (h : Grown f type) : Forms f (Formed f .expr) (tail type) := by
    refine .node_then hleft.span fun s hs => .pure (.withType ?_ h)
    cases isAs <;> exact .new rfl (by decide) hs (.first hleft .none)
  refine .skip fun _ => .branch (.fetch fun c hc => .pure_then (htail _ (.newText rfl hc))) ?_
  exact .bind (parseType_forms hg) htail

theorem parseBinaryRest_forms {above : Nat} {left : Node} (hleft : Formed f .expr left) :
    Forms f (Formed f .expr) (parseBinaryRest g above left) := by
  refine .loop hleft fun left hleft => .skip fun t => .branch ?_ (.skip fun v => ?_)
  · exact .bind (parseAssertion_forms hg hleft) fun n hn => .again hn
  · refine .choose (fun _ => .leave hleft) fun hprec => .skip fun _ => ?_
    extract_lets tail
    have hlevel : t.kind.precedence ≠ 0 := by
      intro hzero
      rw [hzero] at hprec
      simp at hprec
    have htail (u : Unit) : Forms f (Sum.elim (Formed f .expr) (Formed f .expr)) (tail u) :=
      .bind (hg.binary _) fun right hright => .spanTo_then hleft.span fun s hs =>
        .again (.newOp rfl rfl (.inr hlevel) hs (.first hleft (.first hright .none)))
    exact .branch (.skip fun _ => htail ()) (htail ())

theorem parseBinary_forms {above : Nat} : Forms f (Formed f .expr) (parseBinary g above) :=
  .bind hg.unary fun _ hleft => parseBinaryRest_forms hg hleft

theorem parseConditional_forms : Forms f (Formed f .expr) (parseConditional g) := by
  refine .bind (hg.binary 0) fun test htest => .skip fun _ => .branch (.pure htest) ?_
  refine .bind (.withIn hg.assign) fun yes hyes => .skip fun _ => .bind hg.assign fun no hno => ?_
  exact .node htest.span fun s hs => .new rfl (by decide) hs
    (.first htest (.first hyes (.first hno .none)))

theorem parseYield_forms : Forms f (Formed f .expr) (parseYield g) := by
  have hassign : Forms f (Formed f .optExpr) (g .assign) :=
    hg.assign.mono fun n hn => hn.le .expr_optExpr
  have hyield {arg : Node} {s : Span} (hs : f.spans s = true) (harg : Formed f .optExpr arg) :
      Formed f .expr (.new .yield s [arg]) := .new rfl (by decide) hs (.first harg .none)
  refine .fetch fun start hstart => .skip fun _ => .branch (.bind hassign fun arg harg => ?_) ?_
  · exact .node_then hstart fun s hs => .pure (.addFlags rfl rfl (hyield hs harg))
  · refine .skip fun t => .skip fun _ => .either hassign (.pure (.absent rfl)) fun arg harg => ?_
    exact .node hstart fun s hs => hyield hs harg

theorem parseAssign_forms [g.Orderly] : Forms f (Formed f .expr) (parseAssign g) := by
  refine .skip fun t => .skip fun v => .branch (parseYield_forms hg) ?_
  refine .bind (tryArrow_forms hg) fun arrow harrow => ?_
  split
  · exact .pure (harrow _ rfl)
  · refine .bind (parseConditional_forms hg) fun left hleft => .skip fun op => ?_
    refine .branch (.pure hleft) ?_
    extract_lets tail
    have htail (target : Node) (h : Formed f .expr target) :
        Forms f (Formed f .expr) (tail target) :=
      .skip fun _ => .bind hg.assign fun right hright => .spanTo_then h.span fun s hs =>
        .pure (.newOp rfl rfl (.inl (by decide)) hs (.first h (.first hright .none)))
    refine .branch (.bind (toTarget_forms false left hleft) htail) (.skip fun _ => ?_)
    exact .pure_then (htail left hleft)

end

end ScriptLower.Parse

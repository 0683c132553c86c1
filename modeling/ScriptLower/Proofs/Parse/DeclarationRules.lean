import ScriptLower.Proofs.Parse.ExpressionRules

/-!
# Declarations, imports and exports keep the discipline

The rules of statements promise more than the others: the node of a statement stretches from the
token it was given as its start to the last token consumed.
-/

namespace ScriptLower.Parse

open ScriptLower

variable {g : Rules} {q : Bool} {k : Know}

/-! ## Variables -/

theorem parseDeclarator_obeys {keyword : Bytes} {flags : Flags} {inFor : Bool} (h : k.Reads 0) :
    Obeys g q k (parseDeclarator g keyword flags inFor) (Gives k.past) := by
  refine .part_then h fun target => .peek_then fun t => ?_
  extract_lets definite isPattern rest
  have hrest (u : Unit) : Obeys g q k.past (rest u) (Gives k.past) := by
    refine .seq parseAnnotationOpt_obeys fun type => .bind eat_obeys fun b m hm => ?_
    extract_lets last
    have hlast (value : Node) : Obeys g q k.past (last value) (Gives k.past) :=
      .seq declareAll_obeys fun _ => .node_then fun n => .done
    refine .forget (k := k.past) ?_ hm.loose
    split
    · exact .part_then (.inl rfl) hlast
    · refine .view_then fun v => ?_
      split
      · exact .errorAt_then (.pure_then (hlast _).keep)
      · exact .pure_then (hlast _)
  split
  · exact .advance_any fun _ => .requireTypes_then (hrest ())
  · exact (hrest ()).keep

theorem parseVarDeclList_spans {start : Token} {keyword : Bytes} {flags : Flags} {inFor : Bool} :
    Obeys g q k.past (parseVarDeclList g start keyword flags inFor) (Spans k.past start) := by
  refine .seq (.repeat_past fun kids => ?_) fun kids => .node_finish (by simp)
  refine .seq (parseDeclarator_obeys (.round (.inl rfl))) fun d => ?_
  exact .eat_then .again fun _ _ => .leave

theorem parseVarStatement_spans {start : Token} {keyword : Bytes} {flags : Flags} :
    Obeys g q k.past (parseVarStatement g start keyword flags) (Spans k.past start) := by
  refine .bind parseVarDeclList_spans fun n m hn => .forget (k := k.past) ?_ hn.1
  refine .semicolon_then (.spanTo_ends fun sp => .pure ⟨?_, ?_, sp, rfl, ?_⟩)
  · exact ⟨rfl, id, id, .inl rfl, id, .inl rfl, rfl⟩
  · simpa using hn.2.1
  · exact Node.span_withSpan _ _ hn.2.1

/-! ## Enumerations and types with a name -/

theorem parseEnumMember_obeys : Obeys g q k (parseEnumMember g) (Gives k.past) := by
  refine .peek_then fun t => .addLeading_then ?_
  extract_lets key rest
  split
  · exact .error_then .refuse_then
  · rename_i ht
    have he : t.kind ≠ .eof := fun he => ht (by rw [he]; decide)
    refine .advance_then ⟨t, rfl, he⟩ fun _ => ?_
    refine .eat_either (m := k.past) (.withIn (part_obeys (.inl rfl)))
      (fun _ _ => .done) fun value => ?_
    exact node_obeys

theorem parseEnum_spans {start : Token} {flags : Flags} :
    Obeys g q k (parseEnum g start flags) (Spans k.past start) := by
  refine .expect_then fun _ => .requireTypes_then (.seq parseBindingIdent_obeys fun name => ?_)
  refine .expect_then fun _ =>
    .seq (commaList_obeys fun _ _ _ => parseEnumMember_obeys) fun ms => ?_
  exact .addDangling_then fun _ => .expect_then fun _ => .node_finish (by simp)

theorem parseInterface_spans {start : Token} {flags : Flags} :
    Obeys g q k (parseInterface g start flags) (Spans k.past start) := by
  refine .advance_any fun _ => .requireTypes_then (.inType ?_)
  refine .seq parseBindingIdent_obeys fun name => .seq parseTypeParamsOpt_obeys fun tparams => ?_
  refine .eat_either (m := k.past) parseHeritageList_obeys (fun _ _ => .done) fun bases => ?_
  exact .seq parseTypeLiteral_obeys fun body => .node_finish (by simp)

theorem parseTypeAlias_spans {start : Token} {flags : Flags} :
    Obeys g q k (parseTypeAlias g start flags) (Spans k.past start) := by
  refine .advance_any fun _ => .requireTypes_then (.inType ?_)
  refine .seq parseBindingIdent_obeys fun name => .seq parseTypeParamsOpt_obeys fun tparams => ?_
  refine .expect_then fun _ => .seq (parseType_obeys (.inl rfl)) fun type => ?_
  exact .semicolon_then (.node_finish (by simp))

/-! ## Namespaces -/

theorem parseNamespaceBlock_spans {start : Token} {name : Node} {flags : Flags} :
    Obeys g q k (parseNamespaceBlock g start name flags) (Spans k.past start) := by
  refine .expect_then fun open_ =>
    .seq (.inScope (parseStatementList_obeys (.inl rfl))) fun stmts => ?_
  refine .addDangling_then fun _ => .expect_then fun _ => .node_then fun body =>
    .node_finish (by simp)

theorem parseNamespaceBody_spans {start : Token} {name : Node} {flags : Flags} :
    Obeys g q k (parseNamespaceBody g start name flags) (Spans k.past start) := by
  unfold parseNamespaceBody
  split
  · exact .inAmbient parseNamespaceBlock_spans
  · exact parseNamespaceBlock_spans

theorem parseNamespace_spans {start : Token} {flags : Flags} :
    Obeys g q k (parseNamespace g start flags) (Spans k.past start) := by
  refine .advance_any fun word => .requireTypes_then (.peek_then fun t => ?_)
  split
  · exact parseNamespaceBody_spans
  · split
    · refine .advance_then (Know.sees (beq_iff_eq.1 ‹_›)) fun _ => ?_
      extract_lets flags
      refine .at_then (fun _ _ => parseNamespaceBody_spans) fun _ _ => ?_
      exact .semicolon_then (.node_finish (by simp))
    · refine .seq parseBindingIdent_obeys fun name => .peek_then fun dot => ?_
      split
      · exact .part_then (.inl rfl) fun inner => .node_finish (by simp)
      · exact parseNamespaceBody_spans

/-! ## Ambient declarations -/

/-- A namespace that is read as a part of the grammar stretches from its start, too. -/
theorem namespaceFrom_spans {start : Token} {flags : Flags} (h : k.Reads 0) :
    Obeys g q k (g (.namespaceFrom start flags)) (Spans k.past start) :=
  .part h (by simp) fun _ _ hm hn => ⟨hm, hn⟩

theorem parseDeclared_spans {start : Token} :
    Obeys g q k.past (parseDeclared g start) (Spans k.past start) := by
  refine .peek_then fun t => .peek2_then fun next => ?_
  refine .branch (fun _ => .advance_any fun _ => parseVarStatement_spans) fun _ => ?_
  refine .branch (fun _ => .advance_any fun _ => parseEnum_spans) fun _ => ?_
  refine .branch (fun _ => parseFunctionDecl_spans) fun _ => ?_
  refine .branch (fun _ => parseClassDecl_spans) fun _ => ?_
  refine .branch (fun _ => .advance_any fun _ => parseClassDecl_spans) fun _ => ?_
  refine .branch (fun _ => parseEnum_spans) fun _ => ?_
  refine .branch (fun _ => namespaceFrom_spans (.inl rfl)) fun _ => ?_
  refine .branch (fun _ => namespaceFrom_spans (.inl rfl)) fun _ => ?_
  refine .branch (fun _ => parseInterface_spans) fun _ => ?_
  exact .branch (fun _ => parseTypeAlias_spans) fun _ => unexpected_obeys

theorem parseDeclare_spans {start : Token} (h : k.Sees) :
    Obeys g q k (parseDeclare g start) (Spans k.past start) := by
  refine .advance_then h fun _ => .requireTypes_then ?_
  refine .bind (.inAmbient parseDeclared_spans) fun n m hn => .forget (k := k.past) ?_ hn.1
  refine .spanTo_ends fun sp => .pure ⟨?_, ?_, sp, rfl, ?_⟩
  · exact ⟨rfl, id, id, .inl rfl, id, .inl rfl, rfl⟩
  · simpa using hn.2.1
  · exact Node.span_withSpan _ _ (by simpa using hn.2.1)

theorem parseLabeled_spans {t : Token} (ht : k.next = .is t) (he : t.kind ≠ .eof) :
    Obeys g q k (parseLabeled g) (Spans k.past t) := by
  refine .start_then ht he (.advance_any fun _ => .atAny_then fun u => ?_)
  exact .seq (.inLabel (part_obeys (.inl rfl))) fun body => node_spans

/-- Behind a statement that may be there: if it is, it stretches from `t`, and else nothing is
consumed. -/
def MaybeSpans (k : Know) (t : Token) : Option Node → Know → Prop
  | some n, m => Spans k.past t n m
  | none, m => k.Le m

theorem Obeys.some_spans {t : Token} {p : Parser Node} {m : Know}
    (h : Obeys g q m p (Spans k.past t)) :
    Obeys g q m (p >>= fun n => Pure.pure (some n)) (MaybeSpans k t) :=
  .bind h fun _ _ hn => .pure hn

theorem tryContextualStatement_obeys {t : Token} (ht : k.next = .is t) (hk : t.kind = .ident)
    (h : k.Reads 0) : Obeys g q k (tryContextualStatement g t) (MaybeSpans k t) := by
  have he : t.kind ≠ .eof := by simp [hk]
  have nothing : Obeys g q k (pure none) (MaybeSpans k t) := .pure (Know.Le.refl k)
  refine .branch (fun _ => nothing) fun _ => .peek2_then fun next => ?_
  refine .branch (fun _ => ?_) fun _ => ?_
  · exact .start_then ht he (.some_spans parseVarStatement_spans)
  refine .branch (fun _ => .some_spans parseFunctionDecl_spans) fun _ => ?_
  refine .branch (fun _ => .some_spans parseInterface_spans) fun _ => ?_
  refine .branch (fun _ => .some_spans parseTypeAlias_spans) fun _ => ?_
  refine .branch (fun _ => .some_spans (namespaceFrom_spans h)) fun _ => ?_
  refine .branch (fun _ => .some_spans (namespaceFrom_spans h)) fun _ => .view_then fun v => ?_
  refine .branch (fun _ => .some_spans (namespaceFrom_spans h)) fun _ => ?_
  refine .branch (fun _ => .some_spans (parseDeclare_spans ⟨t, ht, he⟩)) fun _ => ?_
  refine .branch (fun _ => ?_) fun _ => ?_
  · exact .start_then ht he (.some_spans parseClassDecl_spans)
  refine .branch (fun _ => ?_) fun _ => nothing
  exact .checkRuntime_then (.some_spans (parseLabeled_spans ht he))

/-! ## Imports -/

theorem parseExportName_obeys : Obeys g q k parseExportName (Gives k.past) := by
  refine .peek_then fun t => ?_
  split
  · exact .advance_then (Know.sees (beq_iff_eq.1 ‹_›)) fun _ => .done
  split
  · exact .advance_then ⟨t, rfl, isPropertyName_ne_eof ‹_›⟩ fun _ => .done
  · exact unexpected_obeys

theorem parseModuleSpecifier_obeys : Obeys g q k parseModuleSpecifier (Gives k.past) := by
  refine .peek_then fun t => ?_
  split
  · exact .advance_then (Know.sees (beq_iff_eq.1 ‹_›)) fun _ => .done
  · exact unexpected_obeys

theorem parseImportAttributes_obeys : Obeys g q k (parseImportAttributes g) (Gives k.loose) := by
  refine .peek_then fun t => ?_
  split
  · exact .done
  · refine .advance_any fun _ => .at_then (fun u hu => ?_) fun _ _ => unexpected_obeys
    exact (parseObjectLiteral_obeys (Know.sees hu)).gives

theorem parseImportLocal_obeys : Obeys g q k parseImportLocal (Gives k.past) :=
  .seq parseBindingIdent_obeys fun _ => .declare_then .done

theorem typeModifiesAs_obeys : Obeys g q k typeModifiesAs (Gives k) := by
  refine .lookahead ?_ fun _ => Know.Le.refl k
  exact .advance_any fun _ => .advance_any fun _ => .peek_then fun _ => .pure trivial

theorem eatTypeModifier_obeys : Obeys g q k eatTypeModifier (Gives k.loose) := by
  refine .peek_then fun t => ?_
  split
  · exact .done
  refine .peek2_then fun next => ?_
  extract_lets last
  have hlast (b : Bool) : Obeys g q (k.see t) (last b) (Gives k.loose) := by
    simp only [last]
    split
    · exact .done
    · exact .advance_any fun _ => .requireTypes_then .done
  split
  · exact .pure_then (hlast false)
  split
  · exact .seq typeModifiesAs_obeys hlast
  · exact .pure_then (hlast _)

theorem checkImportedName_obeys {n : Node} : Obeys g q k (checkImportedName n) (Gives k) := by
  refine .branch (fun _ => .errorAt_then .refuse_then) fun _ => ?_
  refine .branch (fun _ => .errorAt_then .refuse_then) fun _ => ?_
  exact .declare_then (.pure (Know.Le.refl k))

theorem parseImportSpecifier_obeys : Obeys g q k parseImportSpecifier (Gives k.past) := by
  refine .peek_then fun start => .seq eatTypeModifier_obeys fun typeOnly => ?_
  refine .seq parseExportName_obeys fun imported => ?_
  refine .eatWord_either (m := k.past) parseImportLocal_obeys (fun t => ?_) fun bound => ?_
  · exact checkImportedName_obeys.gives
  · exact .node_then fun n => .done

theorem parseImportSpecifiers_obeys (h : k.Sees) :
    Obeys g q k parseImportSpecifiers (Gives k.past) := by
  refine .advance_then h fun _ => ?_
  refine .seq (commaList_obeys fun _ _ _ => parseImportSpecifier_obeys) fun specs => ?_
  exact .expect_then fun _ => .done

theorem parseImportRest_spans {start : Token} {flags : Flags} {specs : List Node} {clause : Bool} :
    Obeys g q k (parseImportRest g start flags specs clause) (Spans k.past start) := by
  unfold parseImportRest
  extract_lets rest
  have hrest (u : Unit) : Obeys g q k.loose (rest u) (Spans k.past start) := by
    refine .seq parseModuleSpecifier_obeys fun src =>
      .seq parseImportAttributes_obeys fun attrs => ?_
    exact .semicolon_then (.node_finish (by simp))
  split
  · exact .seq expectWord_obeys fun _ => (hrest ()).keep
  · exact (hrest ()).keep

theorem parseImportEquals_spans {start : Token} {name : Node} {flags : Flags} :
    Obeys g q k.past (parseImportEquals start name flags) (Spans k.past start) := by
  refine .advance_any fun _ => .requireTypes_then (.peek_then fun t => .peek2_then fun next => ?_)
  extract_lets last
  have hlast (ref : Node) : Obeys g q k.past (last ref) (Spans k.past start) :=
    .semicolon_then (.node_finish (by simp))
  refine .branch (fun _ => ?_) fun _ => .seq (.inType parseEntityName_obeys) hlast
  refine .advance_any fun _ => .advance_any fun _ => .seq parseModuleSpecifier_obeys fun src => ?_
  exact .expect_then fun _ => .node_then hlast

theorem isTypeOnlyImport_obeys {next : Token} : Obeys g q k (isTypeOnlyImport next) (Gives k) := by
  refine .branch (fun _ => .lookahead ?_ fun _ => Know.Le.refl k) fun _ => .pure (Know.Le.refl k)
  exact .advance_any fun _ => .advance_any fun _ => .peek_then fun _ => .pure trivial

theorem parseImportClause_obeys : Obeys g q k parseImportClause (Gives k.past) := by
  refine .peek_then fun t => ?_
  split
  · refine .advance_any fun star => .seq expectWord_obeys fun _ => ?_
    exact .seq parseImportLocal_obeys fun name => .node_then fun n => .done
  · exact parseImportSpecifiers_obeys (Know.sees ‹_›)
  · exact unexpected_obeys

theorem parseImport_spans {t : Token} (ht : k.next = .is t) (he : t.kind ≠ .eof) :
    Obeys g q k (parseImport g) (Spans k.past t) := by
  refine .start_then ht he (.peek_then fun u => .peek2_then fun next => ?_)
  refine .branch (fun _ => parseImportRest_spans) fun _ => ?_
  refine .either (m := k.past) (fun _ => ?_) (fun _ => .done) fun typeOnly => ?_
  · exact isTypeOnlyImport_obeys.gives
  dsimp -zeta only
  extract_lets flags rest
  have hrest (u : Unit) : Obeys g q k.past (rest u) (Spans k.past t) := by
    refine .at_then (fun _ _ => ?_) fun _ _ => ?_
    · refine .seq (m := k.past) parseImportLocal_obeys fun name =>
        .at_then (fun _ _ => ?_) fun _ _ => ?_
      · exact parseImportEquals_spans.keep
      · refine .eat_then ?_ fun _ _ => ?_
        · exact .seq parseImportClause_obeys fun specs => parseImportRest_spans
        · rw [if_neg Bool.false_ne_true]
          exact parseImportRest_spans
    · exact .seq parseImportClause_obeys fun specs => parseImportRest_spans
  refine .branch (fun _ => ?_) fun _ => hrest ()
  exact .advance_any fun _ => .requireTypes_then (hrest ())

/-! ## Exports -/

theorem parseExportAll_spans {start : Token} {flags : Flags} :
    Obeys g q k (parseExportAll g start flags) (Spans k.past start) := by
  refine .advance_any fun _ => ?_
  refine .eatWord_either (m := k.loose) parseExportName_obeys.gives
    (fun _ => .done) fun exported => ?_
  refine .seq expectWord_obeys fun _ => .seq parseModuleSpecifier_obeys fun src => ?_
  exact .seq parseImportAttributes_obeys fun attrs => .semicolon_then (.node_finish (by simp))

theorem parseExportSpecifier_obeys : Obeys g q k parseExportSpecifier (Gives k.past) := by
  refine .peek_then fun start => .seq eatTypeModifier_obeys fun typeOnly => ?_
  refine .seq parseExportName_obeys fun name => ?_
  refine .eatWord_either (m := k.past) parseExportName_obeys (fun _ => .done) fun exported => ?_
  exact .node_then fun n => .done

theorem checkExportedNames_obeys {specs : List Node} :
    Obeys g q k (checkExportedNames specs) (Gives k) := by
  induction specs with
  | nil => exact .pure (Know.Le.refl k)
  | cons spec specs ih => exact .branch (fun _ => .errorAt_then .refuse_then) fun _ => ih

theorem parseExportNamed_spans {start : Token} {flags : Flags} :
    Obeys g q k (parseExportNamed g start flags) (Spans k.past start) := by
  refine .advance_any fun _ => ?_
  refine .seq (commaList_obeys fun _ _ _ => parseExportSpecifier_obeys) fun specs => ?_
  refine .expect_then fun _ => .eatWord_then ?_ fun _ => ?_
  · refine .seq parseModuleSpecifier_obeys fun src =>
      .seq parseImportAttributes_obeys fun attrs => ?_
    exact .pure_then (.semicolon_then (.node_finish (by simp)))
  · refine .seq checkExportedNames_obeys fun _ => ?_
    exact .pure_then (.semicolon_then (.node_finish (by simp)))

theorem parseDecoratedClass_spans {decos : List Node} {start : Token} :
    Obeys g q k (parseDecoratedClass g decos (some start)) (Spans k.past start) := by
  refine .eatWord_any fun isAbstract => .peek_then fun c => ?_
  exact .branch (fun _ => unexpected_obeys) fun _ => parseClassDecl_spans

theorem parseDecoratedClass_obeys {decos : List Node} {start : Option Token} :
    Obeys g q k (parseDecoratedClass g decos start) (Gives k.past) := by
  refine .eatWord_any fun isAbstract => .peek_then fun c => ?_
  exact .branch (fun _ => unexpected_obeys) fun _ => parseClassDecl_spans.spans

theorem parseExportDefault_spans {start : Token} {decos : List Node} :
    Obeys g q k.past (parseExportDefault g start decos) (Spans k.past start) := by
  refine .advance_any fun _ => .peek_then fun t => .peek2_then fun next => ?_
  extract_lets flags last
  have hlast (decl : Node) : Obeys g q k.past (last decl) (Spans k.past start) := node_spans
  refine .branch (fun _ => .seq parseFunctionDecl_spans.spans hlast) fun _ => ?_
  refine .branch (fun _ => .seq parseClassDecl_spans.spans hlast) fun _ => ?_
  refine .branch (fun _ => ?_) fun _ => ?_
  · refine .seq parseDecorators_obeys fun more => .peek_then fun c => ?_
    refine .branch (fun _ => .unexpected_then) fun _ => ?_
    exact .seq parseClassDecl_spans.spans hlast
  refine .branch (fun _ => .advance_any fun _ => .seq parseClassDecl_spans.spans hlast) fun _ => ?_
  refine .branch (fun _ => .seq parseInterface_spans.spans hlast) fun _ => ?_
  refine .branch (fun _ => .unexpected_then) fun _ => ?_
  refine .seq (.withIn (part_obeys (.inl rfl))) fun e => ?_
  exact .semicolon_then (.pure_then (hlast e))

theorem parseExportedDeclaration_obeys {t : Token} {decos : List Node}
    (ht : k.next = .is t) (hm : k.moved = true) :
    Obeys g q k (parseExportedDeclaration g t decos) (Gives k.past) := by
  unfold parseExportedDeclaration
  extract_lets tail
  refine .branch (fun hk => ?_) fun _ => .pure_then ?_
  · -- behind more decorators only a class may follow
    refine .seq parseDecorators_obeys fun more =>
      .branch (fun _ => parseDecoratedClass_obeys) fun _ => ?_
    rw [beq_iff_eq.1 hk]
    exact unexpected_obeys
  · refine .branch (fun _ => parseDecoratedClass_obeys) fun _ => ?_
    split
    · exact .start_then ht (by simp [*]) parseVarStatement_spans.spans
    · refine .peek2_then fun next => .start_then ht (by simp [*]) ?_
      exact .branch (fun _ => parseEnum_spans.spans) fun _ => parseVarStatement_spans.spans
    · exact parseFunctionDecl_spans.spans
    · exact parseClassDecl_spans.spans
    · exact parseEnum_spans.spans
    · refine .bind (tryContextualStatement_obeys ht ‹_› (.inl hm)) ?_
      rintro (_ | n) m hn
      · exact unexpected_obeys
      · exact .branch (fun _ => .errorAt_then .refuse) fun _ => .pure hn.1
    · exact unexpected_obeys

theorem parseExport_spans {t : Token} {decos : List Node} (ht : k.next = .is t)
    (he : t.kind ≠ .eof) : Obeys g q k (parseExport g decos) (Spans k.past t) := by
  refine .start_then ht he (.peek_then fun u => .peek2_then fun next => ?_)
  refine .branch (fun _ => parseExportDefault_spans.keep) fun _ => ?_
  refine .branch (fun _ => ?_) fun _ => ?_
  · refine .advance_any fun _ =>
      .requireTypes_then (.seq (.withIn (part_obeys (.inl rfl))) fun e => ?_)
    exact .semicolon_then node_spans
  refine .branch (fun _ => ?_) fun _ => ?_
  · refine .advance_any fun _ => .requireTypes_then (.seq expectWord_obeys fun _ => ?_)
    exact .seq parseBindingIdent_obeys fun name => .semicolon_then node_spans
  refine .branch (fun _ => parseExportAll_spans) fun _ => ?_
  refine .branch (fun _ => parseExportNamed_spans) fun _ => ?_
  refine .branch (fun _ => ?_) fun _ => ?_
  · refine .advance_any fun _ => .requireTypes_then (.at_then (fun _ _ => ?_) fun _ _ => ?_)
    · exact parseExportAll_spans
    · exact parseExportNamed_spans
  refine .branch (fun hu => ?_) fun _ => ?_
  · refine .seq (parseImport_spans rfl (by simp_all)).spans fun imp => ?_
    exact .branch (fun _ => .errorAt_then .refuse_then) fun _ => node_spans
  · exact .seq (parseExportedDeclaration_obeys rfl rfl) fun decl => node_spans

end ScriptLower.Parse

import ScriptLower.Proofs.Parse.NameRules

/-!
# Types keep the discipline

A type reads the types below its operators in front of the same token, so ranks matter here: a type
reads its operands before anything is consumed.
-/

namespace ScriptLower.Parse

open ScriptLower

variable {g : Rules} {q : Bool} {k : Know}

/-! ## Predicates and functions -/

theorem parsePredicateSubject_obeys (h : k.Sees) :
    Obeys g q k parsePredicateSubject (Gives k.past) := by
  refine .advance_then h fun t => ?_
  split <;> exact .done

/-- Behind a consumed token it does not matter what the subject is. -/
theorem parsePredicateSubject_moved : Obeys g q k.past parsePredicateSubject (Gives k.past) := by
  refine .advance_any fun t => ?_
  split <;> exact .done

theorem parseTypeOrPredicate_obeys (h : k.Reads 2) :
    Obeys g q k (parseTypeOrPredicate g) (Gives k.past) := by
  refine .peek_then fun t => .peek2_then fun next => ?_
  split
  · rename_i ht
    simp only [Bool.and_eq_true] at ht
    refine .advance_then (Know.sees (Token.kind_of_is ht.1.1)) fun _ => ?_
    refine .seq parsePredicateSubject_moved fun subject => .peek_then fun is_ => ?_
    extract_lets tail
    have htail (type : Node) : Obeys g q k.past (tail type) (Gives k.past) :=
      .node_then fun _ => .done
    split
    · rename_i his
      simp only [Bool.and_eq_true] at his
      refine .advance_then (Know.sees (Token.kind_of_is his.1)) fun _ => ?_
      exact .seq (parseType_obeys (.inl rfl)) htail
    · exact .pure_then ((htail _).forget (k.past.loose_le_see is_))
  · split
    · rename_i ht
      simp only [Bool.and_eq_true, Bool.or_eq_true, beq_iff_eq] at ht
      refine .seq (parsePredicateSubject_obeys ⟨t, rfl, ?_⟩) fun subject => ?_
      · rcases ht.1.1 with h | h <;> simp [h]
      refine .advance_any fun _ => ?_
      exact .seq (parseType_obeys (.inl rfl)) fun type => node_obeys
    · exact parseType_obeys h

theorem parseReturnTypeOpt_obeys : Obeys g q k (parseReturnTypeOpt g) (Gives k.loose) := by
  refine .at_then (fun t ht => ?_) fun _ _ => .done
  refine .advance_then (Know.sees ht) fun colon => .requireTypes_then ?_
  exact .inType (parseTypeOrPredicate_obeys (.inl rfl)).gives

theorem opensParameters_obeys (h : k.Sees) : Obeys g q k (opensParameters g) (Gives k) := by
  refine .lookahead ?_ fun _ => Know.Le.refl k
  refine .advance_then h fun _ => ?_
  extract_lets behind
  have hbehind (m : Know) : Obeys g true m behind fun _ _ => True := by
    refine .peek_then fun t => ?_
    split
    · exact .pure trivial
    · exact .pure trivial
    · exact .pure trivial
    · exact .pure trivial
    · exact .advance_any fun _ => .at_last fun _ => trivial
    · exact .pure trivial
  refine .peek_then fun t => ?_
  split
  · exact .pure trivial
  · exact .pure trivial
  · exact .part_then (.inl rfl) fun _ => hbehind _
  · exact .part_then (.inl rfl) fun _ => hbehind _
  · exact .advance_any fun _ => hbehind _
  · exact .advance_any fun _ => hbehind _
  · exact .pure trivial

theorem startsFunctionType_obeys : Obeys g q k (startsFunctionType g) (Gives k.loose) := by
  refine .peek_then fun t => ?_
  split
  · exact .done
  · split
    · exact .peek2_then fun _ => .done
    · split
      · exact .done
      · rename_i ht
        exact (opensParameters_obeys (Know.sees (by simpa using ht))).gives

theorem parseFunctionType_obeys : Obeys g q k (parseFunctionType g) (Gives k.past) := by
  refine .peek_then fun start => .eatWord_any fun isAbstract => ?_
  refine .eat_either (m := k.loose) .done (fun _ _ => .done) fun kind => ?_
  refine .seq parseTypeParamsOpt_obeys fun tparams => ?_
  refine .seq (.keepingFunction parseParams_obeys) fun params => ?_
  refine .expect_then fun _ => ?_
  refine .seq (parseTypeOrPredicate_obeys (.inl rfl)) fun result => ?_
  exact .node_then fun n => .done

/-! ## Unions and conditions -/

theorem parseTypeList_obeys {sep : TokenKind} {kind : NodeKind} {item : Parser Node} {r : Nat}
    (hi : ∀ m : Know, m.Reads r → Obeys g q m item (Gives m.past)) (h : k.Reads r)
    [hs : Evident (sep ≠ .eof)] : Obeys g q k (parseTypeList g sep kind item) (Gives k.past) := by
  refine .peek_then fun start => .eat_any fun leading => ?_
  refine .seq (hi _ h) fun first => .at_ask fun _ => ?_
  split
  · exact .done
  · refine .seq (.repeat fun kids => ?_) fun kids => ?_
    · refine .eat_then ?_ fun _ _ => .leave
      refine .seq startsFunctionType_obeys fun b => ?_
      exact .either (fun _ => parseFunctionType_obeys) (fun _ => hi _ (.inl rfl)) fun n => .again
    · split
      · exact .done
      · exact node_obeys

theorem parseUnionType_obeys {noCond : Bool} (h : k.Reads 1) :
    Obeys g q k (parseUnionType g noCond) (Gives k.past) :=
  parseTypeList_obeys (fun _ hm => parseTypeList_obeys (fun _ hm' => part_obeys hm') hm) h

theorem parseTypeInner_obeys {noCond : Bool} (h : k.Reads 1) :
    Obeys g q k (parseTypeInner g noCond) (Gives k.past) := by
  refine .seq startsFunctionType_obeys fun b => ?_
  split
  · exact parseFunctionType_obeys
  · refine .peek_then fun start => .seq (parseUnionType_obeys h) fun check => ?_
    refine .at_ask fun t => .peek_seen rfl ?_
    split
    · exact .done
    · rename_i hc
      refine .advance_then ⟨t, rfl, fun he => hc ?_⟩ fun _ => ?_
      · simp [he]
      refine .part_then (.inl rfl) fun bound => .expect_then fun _ => ?_
      refine .part_then (.inl rfl) fun yes => .expect_then fun _ => ?_
      exact .part_then (.inl rfl) fun no => node_obeys

/-! ## Names of types -/

theorem parseInfer_obeys {start : Token} {noCond : Bool} :
    Obeys g q k.past (parseInfer g start noCond) (Gives k.past) := by
  refine .advance_any fun name => ?_
  have tried : Obeys g q k.past (speculate do
      let _ ← advance
      let c ← g (.type true)
      if noCond && (← at_ .question) then fail .otherReading else return c) (Gives k.past) := by
    refine .speculate ?_ (Know.Le.refl _)
    refine .advance_any fun _ => .part_then (.inl rfl) fun c => .at_ask fun _ => ?_
    split
    · exact .fail (by simp) fun _ => rfl
    · exact .pure (k.past.loose_le_see _)
  refine .at_then (fun t ht => ?_) fun _ _ => ?_
  · refine .seq (tried.forget (k.past.loose_le_see t)) fun c => .pure_then ?_
    exact .node_then fun param => node_obeys
  · exact .pure_then (.node_then fun param => node_obeys)

theorem parseEntityName_obeys : Obeys g q k parseEntityName (Gives k.past) := by
  refine .peek_then fun t => ?_
  extract_lets path
  have hpath (first : Node) : Obeys g q k.past (path first) (Gives k.past) := by
    refine .repeat fun name => .eat_then ?_ fun _ _ => .leave
    exact .seq parseMemberName_obeys fun right => .node_then fun n => .again
  split
  · exact .advance_then (Know.sees ‹_›) fun _ => hpath _
  · exact .advance_then (Know.sees ‹_›) fun _ => hpath _
  · split
    · exact .error_then .refuse
    · exact unexpected_obeys

theorem parseTypeArgsOpt_obeys {split : Bool} :
    Obeys g q k (parseTypeArgsOpt g split) (Gives k.loose) := by
  refine .peek_then fun t => ?_
  split
  · exact parseTypeArgs_obeys.gives
  · exact .done

theorem parseTypeReference_obeys : Obeys g q k (parseTypeReference g) (Gives k.past) := by
  refine .inType (.peek_then fun start => ?_)
  refine .seq parseEntityName_obeys fun name => .seq parseTypeArgsOpt_obeys fun targs => ?_
  exact .node_then fun n => .done

theorem parseQualifier_obeys : Obeys g q k parseQualifier (Gives k.loose) := by
  refine .repeat fun qual => .eat_then ?_ fun _ _ => .leave
  refine .seq parseMemberName_obeys fun right => ?_
  split
  · exact .node_then fun n => .again
  · exact .again

theorem parseImportType_obeys (h : k.Sees) : Obeys g q k (parseImportType g) (Gives k.past) := by
  refine .advance_then h fun start => .expect_then fun _ => .peek_then fun src => ?_
  split
  · exact unexpected_obeys
  · rename_i hs
    refine .advance_then (Know.sees (by simpa using hs)) fun _ => ?_
    refine .eat_any fun comma => .at_ask fun t => ?_
    extract_lets tail
    have htail (u : Unit) : Obeys g q k.past (tail u) (Gives k.past) := by
      refine .expect_then fun _ => .seq parseQualifier_obeys fun qual => ?_
      exact .seq parseTypeArgsOpt_obeys fun targs => .node_then fun n => .done
    split
    · refine .seq (.withIn (part_obeys (.inl rfl))) fun _ => ?_
      exact .eat_any fun _ => htail ()
    · exact (htail ()).forget (k.past.loose_le_see t)

theorem parseTypeQuery_obeys (h : k.Sees) : Obeys g q k (parseTypeQuery g) (Gives k.past) := by
  refine .advance_then h fun start => ?_
  refine .at_either (m := k.past) (fun t ht => parseImportType_obeys (Know.sees ht))
    (fun _ _ => parseEntityName_obeys) fun name => ?_
  exact .seq parseTypeArgsOpt_obeys fun targs => .node_then fun n => .done

/-! ## Templates and tuples -/

theorem parseTemplateTail_obeys {item : Parser Node} {message : String} {head : Token}
    (h : Obeys g q k.round item (Gives k.round.past)) :
    Obeys g q k (parseTemplateTail item message head) (Gives k.past) := by
  refine .repeat_past fun kids => .seq h fun e => .peek_then fun t => ?_
  split
  · exact .error_then .refuse_then
  · rename_i ht
    refine .bind (R := fun u m => m = { k.round.past with
      told := k.round.told || (u.kind != .templateMiddle && u.kind != .templateTail) })
      (.readTemplate rfl (by simpa using ht) fun u => rfl) ?_
    rintro cont m rfl
    split
    · exact .again
    · exact .pure ⟨rfl, id, id, .inl rfl, by simp +contextual, .inl rfl, rfl⟩
    · rename_i hm ht
      refine .fail (fun _ => ?_) (by simp)
      simp [show cont.kind ≠ _ from hm, show cont.kind ≠ _ from ht]

theorem parseTemplateType_obeys (h : k.Sees) :
    Obeys g q k (parseTemplateType g) (Gives k.past) := by
  refine .advance_then h fun head => ?_
  split
  · exact .done
  · refine .seq (parseTemplateTail_obeys (part_obeys (.round (.inl rfl)))) fun kids => ?_
    exact node_obeys

theorem startsNamedElement_obeys : Obeys g q k startsNamedElement (Gives k) := by
  refine .lookahead ?_ fun _ => Know.Le.refl k
  exact .advance_any fun _ => .eat_any fun _ => .at_last fun _ => trivial

theorem parseTupleElement_obeys (h : k.Reads 2) :
    Obeys g q k (parseTupleElement g) (Gives k.past) := by
  refine .peek_then fun start => .eat_any fun rest => .peek_then fun t => .peek2_then fun next => ?_
  refine .seq startsNamedElement_obeys fun b => ?_
  split
  · rename_i ht
    simp only [Bool.and_eq_true] at ht
    refine .advance_then ⟨t, rfl, isPropertyName_ne_eof ht.1.1⟩ fun _ => ?_
    refine .eat_any fun optional => .advance_any fun _ => .part_then (.inl rfl) fun type => ?_
    exact .node_then fun n => .done
  · refine .part_then h fun type => ?_
    split
    · exact node_obeys
    · exact .eat_then node_obeys fun _ _ => .done

theorem parseTupleType_obeys (h : k.Sees) : Obeys g q k (parseTupleType g) (Gives k.past) := by
  refine .advance_then h fun open_ => ?_
  refine .seq (commaList_obeys fun _ _ _ => parseTupleElement_obeys (.see (.round (.inl rfl))))
    fun kids => ?_
  exact .expect_then fun _ => node_obeys

/-! ## Type literals -/

theorem isMappedType_obeys : Obeys g q k isMappedType (Gives k) := by
  refine .lookahead ?_ fun _ => Know.Le.refl k
  refine .advance_any fun _ => .atAny_then fun t => ?_
  extract_lets tail
  have htail (m : Know) (u : Unit) : Obeys g true m (tail u) fun _ _ => True := by
    refine .eatWord_any fun _ => .eat_then ?_ fun _ _ => .pure trivial
    refine .at_then (fun _ _ => ?_) fun _ _ => .pure trivial
    exact .advance_any fun _ => .at_last fun _ => trivial
  split
  · refine .advance_any fun _ => .atWord_ask fun _ => ?_
    split
    · exact .pure trivial
    · exact htail _ ()
  · exact htail _ ()

theorem parseMappedOptional_obeys : Obeys g q k parseMappedOptional (Gives k.loose) := by
  refine .peek_then fun t => ?_
  split
  · refine .advance_any fun _ => .at_then (fun u hu => ?_) fun u _ => ?_
    · exact .advance_any fun _ => .done
    · refine .peek_then fun got => .bind errorSpan_obeys fun _ _ _ => ?_
      exact .errorAt_then .refuse_then
  · exact .eat_then .done fun _ _ => .done

theorem parseMappedType_obeys (h : k.Sees) : Obeys g q k (parseMappedType g) (Gives k.past) := by
  refine .advance_then h fun open_ => .peek_then fun sign => ?_
  extract_lets signed tail
  have htail (u : Unit) : Obeys g q k.past (tail u) (Gives k.past) := by
    refine .eatWord_any fun isReadonly => .advance_any fun _ => ?_
    refine .advance_any fun name => .advance_any fun _ => .part_then (.inl rfl) fun constraint => ?_
    refine .node_then fun param => ?_
    refine .eatWord_either (part_obeys (.inl rfl)) (fun _ => .done) fun nameType => ?_
    refine .expect_then fun _ => .seq parseMappedOptional_obeys fun optional => ?_
    refine .eat_either (part_obeys (.inl rfl)) (fun _ _ => .done) fun value => ?_
    refine .eat_any fun _ => .eat_any fun _ => .expect_then fun _ => .node_then fun n => .done
  split
  · exact .advance_any fun _ => htail ()
  · exact (htail ()).forget (k.past.loose_le_see sign)

theorem isIndexSignature_obeys : Obeys g q k isIndexSignature (Gives k) := by
  refine .lookahead ?_ fun _ => Know.Le.refl k
  refine .advance_any fun _ => .at_then (fun _ _ => ?_) fun _ _ => .pure trivial
  exact .advance_any fun _ => .at_last fun _ => trivial

theorem parseIndexSignature_obeys {start : Token} {kind : NodeKind} {flags : Flags} (h : k.Sees) :
    Obeys g q k (parseIndexSignature g start kind flags) (Gives k.past) := by
  refine .advance_then h fun _ => .inType (.advance_any fun name => ?_)
  refine .seq parseTypeAnnotation_obeys fun keyType => .expect_then fun _ =>
    .node_then fun param => ?_
  exact .seq parseAnnotationOpt_obeys fun type => .node_then fun n => .done

theorem parseSignature_obeys {start : Token} {kind : NodeKind} {key : List Node} :
    Obeys g q k (parseSignature g start kind key) (Gives k.past) := by
  refine .seq parseTypeParamsOpt_obeys fun tparams => ?_
  refine .seq (.keepingFunction parseParams_obeys) fun params => ?_
  refine .eat_either (parseTypeOrPredicate_obeys (.inl rfl)) (fun _ _ => .done) fun result => ?_
  exact .node_then fun n => .done

theorem parseAccessorWord_obeys {starOk : Bool} :
    Obeys g q k (parseAccessorWord starOk) (Gives k.loose) := by
  refine .peek_then fun t => ?_
  split
  · refine .peek2_then fun next => ?_
    split
    · exact .advance_any fun _ => .done
    · exact .done
  · exact .done

theorem parseKeyedTypeMember_obeys {start : Token} :
    Obeys g q k (parseKeyedTypeMember g start) (Gives k.past) := by
  refine .peek2_then fun next => ?_
  extract_lets tail
  have htail (isReadonly : Bool) : Obeys g q k.loose (tail isReadonly) (Gives k.past) := by
    refine .at_ask fun t => .seq isIndexSignature_obeys fun b => ?_
    split
    · rename_i ht
      simp only [Bool.and_eq_true, beq_iff_eq] at ht
      exact parseIndexSignature_obeys (Know.sees ht.1)
    · refine .seq parseAccessorWord_obeys fun word => .seq parsePropertyKey_obeys fun key => ?_
      refine .eat_any fun optional => .atAny_then fun u => ?_
      split
      · exact .seq parseSignature_obeys fun n => .done
      · refine .eat_either (part_obeys (.inl rfl)) (fun _ _ => .done) fun type => ?_
        exact .node_then fun n => .done
  split
  · exact .advance_any fun _ => .pure_then (htail _)
  · exact .pure_then ((htail _).forget k.loose_le)

theorem parseTypeMember_obeys : Obeys g q k (parseTypeMember g) (Gives k.past) := by
  refine .peek_then fun start => .peek2_then fun next => ?_
  split
  · exact parseSignature_obeys
  · split
    · exact .advance_any fun _ => parseSignature_obeys
    · exact parseKeyedTypeMember_obeys

theorem parseTypeLiteral_obeys : Obeys g q k (parseTypeLiteral g) (Gives k.past) := by
  refine .expect_then fun open_ => .inType ?_
  refine .seq (listUntil_obeys fun members t _ _ => ?_) fun members => .expect_then fun _ =>
    node_obeys
  refine .seq parseTypeMember_obeys fun m => ?_
  refine .eat_then (.pure rfl) fun _ _ => .eat_then (.pure rfl) fun _ _ => .peek_then fun u => ?_
  split
  · exact .error_then .refuse_then
  · exact .pure rfl

/-! ## Operands and operators -/

theorem parsePrimaryType_obeys : Obeys g q k (parsePrimaryType g) (Gives k.past) := by
  refine .peek_then fun t => ?_
  have word {n : Node} (h : t.kind ≠ .eof) : Obeys g q (k.see t) (advance >>= fun _ => pure n)
      (Gives k.past) := .advance_then ⟨t, rfl, h⟩ fun _ => .done
  split
  · refine .peek2_then fun next => ?_
    split
    · exact word (by simp [*])
    · exact parseTypeReference_obeys
  iterate 8 · exact word (by simp [*])
  · refine .advance_then (Know.sees ‹_›) fun _ => .peek_then fun num => ?_
    split
    · exact unexpected_obeys
    · exact .advance_any fun _ => .spanTo_then fun span => .done
  · exact parseTemplateType_obeys (Know.sees ‹_›)
  · exact parseTemplateType_obeys (Know.sees ‹_›)
  · exact parseTypeQuery_obeys (Know.sees ‹_›)
  · exact parseImportType_obeys (Know.sees ‹_›)
  · refine .seq isMappedType_obeys fun b => ?_
    split
    · exact parseMappedType_obeys (Know.sees ‹_›)
    · exact parseTypeLiteral_obeys
  · exact parseTupleType_obeys (Know.sees ‹_›)
  · refine .advance_then (Know.sees ‹_›) fun _ => .part_then (.inl rfl) fun inner => ?_
    exact .expect_then fun _ => node_obeys
  · exact .error_then .refuse
  · exact .error_then .refuse

theorem parsePostfixType_obeys : Obeys g q k (parsePostfixType g) (Gives k.past) := by
  refine .seq parsePrimaryType_obeys fun first => .repeat fun type => .peek_then fun t => ?_
  split
  · exact .leave
  · rename_i ht
    simp only [Bool.or_eq_true, not_or] at ht
    refine .advance_then (Know.sees (by simpa using ht.1)) fun _ =>
      .eat_then (.node_then fun n => .again) fun _ _ => ?_
    refine .part_then (.inl rfl) fun index => .expect_then fun _ => .node_then fun n => .again

theorem parseTypeOperator_obeys {noCond : Bool} :
    Obeys g q k (parseTypeOperator g noCond) (Gives k.past) := by
  refine .peek_then fun t => .peek2_then fun next => ?_
  split
  · rename_i ht
    simp only [Bool.and_eq_true, Bool.or_eq_true] at ht
    have hk : t.kind = .ident := by
      rcases ht.1 with (h | h) | h <;> exact Token.kind_of_is h
    refine .advance_then (Know.sees hk) fun _ => .part_then (.inl rfl) fun arg => ?_
    exact .node_then fun n => .done
  · refine .peek2_then fun next => ?_
    split
    · rename_i ht
      simp only [Bool.and_eq_true] at ht
      refine .advance_then (Know.sees (Token.kind_of_is ht.1)) fun _ => ?_
      exact parseInfer_obeys
    · exact parsePostfixType_obeys

end ScriptLower.Parse

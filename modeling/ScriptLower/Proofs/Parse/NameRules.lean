import ScriptLower.Proofs.Parse.Steps

/-!
# Names, patterns, arguments and parameters keep the discipline

Each rule is followed through its text. A rule that always consumes a token gives `k.past`; one that
may consume nothing gives `k.loose`. Where a rule reads a part of the grammar first, it asks that
the part may be read here.
-/

namespace ScriptLower.Parse

open ScriptLower

variable {g : Rules} {q : Bool} {k : Know}

/-! ## Types and expressions on their own -/

theorem parseType_obeys (h : k.Reads 2) : Obeys g q k (parseType g) (Gives k.past) :=
  .inType (part_obeys h)

theorem parseExpression_obeys (h : k.Reads 5) : Obeys g q k (parseExpression g) (Gives k.past) := by
  refine .part_then h fun first => ?_
  refine .at_then (fun t _ => ?_) fun t _ => .done
  refine .seq (.repeat fun kids => ?_) fun kids => node_obeys
  refine .eat_then ?_ fun u _ => .leave
  exact .part_then (.inl rfl) fun n => .again

/-! ## Names -/

theorem parseBindingIdent_obeys : Obeys g q k parseBindingIdent (Gives k.past) := by
  refine .peek_then fun t => ?_
  split
  · exact .advance_then (Know.sees (beq_iff_eq.1 ‹_›)) fun _ => .done
  · split
    · exact .error_then .refuse
    · exact unexpected_obeys

theorem isPropertyName_ne_eof {t : Token} (h : t.kind.isPropertyName = true) : t.kind ≠ .eof := by
  intro he
  rw [he] at h
  exact absurd h (by decide)

theorem parseMemberName_obeys : Obeys g q k parseMemberName (Gives k.past) := by
  refine .peek_then fun t => ?_
  split
  · exact .advance_then (Know.sees (beq_iff_eq.1 ‹_›)) fun _ => .done
  · split
    · exact .advance_then ⟨t, rfl, isPropertyName_ne_eof ‹_›⟩ fun _ => .done
    · exact unexpected_obeys

theorem parsePropertyKey_obeys : Obeys g q k (parsePropertyKey g) (Gives k.past) := by
  refine .peek_then fun t => ?_
  have literal (h : t.kind ≠ .eof) : Obeys g q (k.see t)
      (advance >>= fun _ => pure (literalOf t, ({} : Flags))) (Gives k.past) :=
    .advance_then ⟨t, rfl, h⟩ fun _ => .done
  split
  · exact literal (by simp [*])
  · exact literal (by simp [*])
  · exact literal (by simp [*])
  · exact .advance_then (Know.sees ‹_›) fun _ => .done
  · refine .advance_then (Know.sees ‹_›) fun _ => ?_
    refine .seq (.withIn (part_obeys (.inl rfl))) fun key => ?_
    exact .expect_then fun _ => .done
  · split
    · exact .advance_then ⟨t, rfl, isPropertyName_ne_eof ‹_›⟩ fun _ => .done
    · exact unexpected_obeys

/-! ## Types in the places where expressions meet them -/

theorem parseTypeAnnotation_obeys : Obeys g q k ( parseTypeAnnotation g) (Gives k.past) :=
  .expect_then fun _ => .requireTypes_then (parseType_obeys (.inl rfl))

theorem parseAnnotationOpt_obeys : Obeys g q k (parseAnnotationOpt g) (Gives k.loose) :=
  .at_then (fun _ _ => parseTypeAnnotation_obeys.gives) fun _ _ => .done

theorem parseTypeParamModifiers_obeys :
    Obeys g q k parseTypeParamModifiers (Gives k.loose) := by
  refine .repeat fun mods => ?_
  refine .peek_then fun t => ?_
  split
  · exact .leave
  · rename_i hc
    refine .peek2_then fun next => ?_
    split
    · exact .leave
    · refine .advance_then ⟨t, rfl, fun h => hc ?_⟩ fun _ => .again
      simp [Token.is, h]

theorem parseTypeParam_obeys : Obeys g q k (parseTypeParam g) (Gives k.past) := by
  refine .peek_then fun start => ?_
  refine .seq parseTypeParamModifiers_obeys fun mods => ?_
  refine .seq parseBindingIdent_obeys fun name => ?_
  refine .eat_either (part_obeys (.inl rfl)) (fun _ _ => .done) fun constraint => ?_
  refine .eat_either (part_obeys (.inl rfl)) (fun _ _ => .done) fun default_ => ?_
  exact .node_then fun param => .done

theorem parseTypeParamsOpt_obeys : Obeys g q k (parseTypeParamsOpt g) (Gives k.loose) := by
  refine .at_then (fun t ht => ?_) fun _ _ => .done
  refine .advance_then (Know.sees ht) fun lt => ?_
  refine .requireTypes_then (.inType ?_)
  refine .seq (commaList_obeys fun _ _ _ => parseTypeParam_obeys) fun kids => ?_
  split
  · exact .error_then .refuse_then
  · exact .expect_then fun _ => node_obeys

theorem parseTypeArgs_obeys : Obeys g q k (parseTypeArgs g) (Gives k.past) := by
  refine .peek_then fun t => ?_
  extract_lets rest
  have hrest (u : Unit) : Obeys g q k.loose (rest u) (Gives k.past) := by
    refine .expect_then fun lt => .requireTypes_then (.inType ?_)
    refine .seq (commaList_obeys fun _ _ _ => ?_) fun kids => ?_
    · exact part_obeys (.see (.round (.inl rfl)))
    split
    · exact .error_then .refuse_then
    · exact .expect_then fun _ => node_obeys
  split
  · rename_i ht
    simp only [Bool.or_eq_true, beq_iff_eq] at ht
    refine .bind (R := fun _ m => k.loose.Le m) (.splitLess rfl ht fun u _ => ?_)
      fun u _ hm => (hrest u).forget hm
    exact k.loose_le_see u
  · exact (hrest ()).forget (k.loose_le_see t)

/-! ## Expressions as targets -/

/-- Turning an expression into a target reads nothing. -/
theorem checkSimpleTarget_obeys {n : Node} : Obeys g q k (checkSimpleTarget n) (Gives k) := by
  unfold checkSimpleTarget
  split
  · exact .pure (Know.Le.refl k)
  · exact .fail (by simp) (by simp)
  · exact .errorAt_then .refuse

theorem Obeys.restNotLast_then {α β : Type} {span : Span} {f : α → Parser β} {Q : β → Know → Prop} :
    Obeys g q k (restNotLast span >>= f) Q :=
  .bind (R := fun _ _ => False) (.errorAt_then .refuse) fun _ _ h => h.elim

mutual

theorem toTarget_obeys (inside : Bool) : ∀ n : Node, Obeys g q k (toTarget inside n) (Gives k)
  | .absent => .seq checkSimpleTarget_obeys fun _ => .pure (Know.Le.refl k)
  | .mk h ks ds t a x => by
    unfold toTarget
    split
    · exact .seq (toFirst_obeys ks) fun _ => .pure (Know.Le.refl k)
    · split
      · exact .pure (Know.Le.refl k)
      · split
        · exact .seq (toElements_obeys ks) fun _ => .pure (Know.Le.refl k)
        · exact .seq (toMembers_obeys ks) fun _ => .pure (Know.Le.refl k)
        · exact .pure (Know.Le.refl k)
        · exact .pure (Know.Le.refl k)
        · exact .seq checkSimpleTarget_obeys fun _ => .pure (Know.Le.refl k)

theorem toFirst_obeys : ∀ ns : List Node, Obeys g q k (toFirst ns) (Gives k)
  | [] => .pure (Know.Le.refl k)
  | n :: _ => .seq (toTarget_obeys false n) fun _ => .pure (Know.Le.refl k)

theorem toSecond_obeys : ∀ ns : List Node, Obeys g q k (toSecond ns) (Gives k)
  | [] => .pure (Know.Le.refl k)
  | [_] => .pure (Know.Le.refl k)
  | _ :: n :: _ => .seq (toTarget_obeys true n) fun _ => .pure (Know.Le.refl k)

theorem toElements_obeys : ∀ ns : List Node, Obeys g q k (toElements ns) (Gives k)
  | [] => .pure (Know.Le.refl k)
  | .absent :: r => .seq (toElements_obeys r) fun _ => .pure (Know.Le.refl k)
  | .mk h ks ds t a x :: r => by
    unfold toElements
    split
    · exact .seq (toElements_obeys r) fun _ => .pure (Know.Le.refl k)
    · split
      · split
        · exact .restNotLast_then
        · exact .seq (toFirst_obeys ks) fun _ =>
            .seq (toElements_obeys r) fun _ => .pure (Know.Le.refl k)
      · exact .seq (toTarget_obeys true _) fun _ =>
          .seq (toElements_obeys r) fun _ => .pure (Know.Le.refl k)

theorem toMembers_obeys : ∀ ns : List Node, Obeys g q k (toMembers ns) (Gives k)
  | [] => .pure (Know.Le.refl k)
  | .absent :: r => .seq (toMembers_obeys r) fun _ => .pure (Know.Le.refl k)
  | .mk h ks ds t a x :: r => by
    unfold toMembers
    split
    · exact .seq (toSecond_obeys ks) fun _ =>
        .seq (toMembers_obeys r) fun _ => .pure (Know.Le.refl k)
    · split
      · split
        · exact .restNotLast_then
        · exact .seq (toFirst_obeys ks) fun _ =>
            .seq (toMembers_obeys r) fun _ => .pure (Know.Le.refl k)
      · exact .errorAt_then .refuse

end

/-! ## Patterns in declarations -/

theorem parseBindingElement_obeys (h : k.Reads 0) :
    Obeys g q k (parseBindingElement g) (Gives k.past) := by
  refine .part_then h fun target => ?_
  refine .eat_then ?_ fun _ _ => .done
  exact .seq (.withIn (part_obeys (.inl rfl))) fun value => node_obeys

theorem parseRestElement_obeys {dots : Token} {close : TokenKind} {target : Parser Node}
    (h : Obeys g q k target (Gives k.past)) :
    Obeys g q k (parseRestElement dots close target) (Gives k.past) := by
  refine .seq h fun n => .node_then fun e => ?_
  exact .at_then (fun _ _ => .done) fun _ _ => .error_then .refuse_then

theorem parseArrayBinding_obeys (h : k.Sees) :
    Obeys g q k (parseArrayBinding g) (Gives k.past) := by
  refine .advance_then h fun open_ => ?_
  refine .seq (listUntil_obeys fun kids t _ _ => ?_) fun kids => .expect_then fun _ => node_obeys
  refine .peek_seen rfl ?_
  split
  · exact .advance_then (Know.sees ‹_›) fun _ => .pure rfl
  · refine .advance_then (Know.sees ‹_›) fun _ => ?_
    exact .seq (parseRestElement_obeys (part_obeys (.inl rfl))) fun _ => .pure rfl
  · refine .seq (parseBindingElement_obeys (.see (.round (.inl rfl)))) fun e => ?_
    exact .seq separator_obeys fun _ => .pure rfl

theorem parseBindingProperty_obeys : Obeys g q k (parseBindingProperty g) (Gives k.past) := by
  refine .peek_then fun start => ?_
  refine .seq parsePropertyKey_obeys fun key => ?_
  refine .eat_then ?_ fun _ _ => ?_
  · refine .seq (parseBindingElement_obeys (.inl rfl)) fun value => ?_
    exact .node_then fun prop => .done
  · rw [if_neg Bool.false_ne_true]
    split
    · exact unexpected_obeys
    · refine .eat_then ?_ fun _ _ => .pure_then (.node_then fun prop => .done)
      refine .seq (.withIn (part_obeys (.inl rfl))) fun value => ?_
      exact .node_then fun value => .node_then fun prop => .done

theorem parseObjectBinding_obeys (h : k.Sees) :
    Obeys g q k (parseObjectBinding g) (Gives k.past) := by
  refine .advance_then h fun open_ => ?_
  refine .seq (listUntil_obeys fun kids t _ _ => ?_) fun kids => .expect_then fun _ => node_obeys
  refine .peek_seen rfl ?_
  split
  · refine .advance_then (Know.sees (beq_iff_eq.1 ‹_›)) fun _ => ?_
    exact .seq (parseRestElement_obeys parseBindingIdent_obeys) fun _ => .pure rfl
  · refine .seq parseBindingProperty_obeys fun p => ?_
    exact .seq separator_obeys fun _ => .pure rfl

theorem parseBindingTarget_obeys : Obeys g q k (parseBindingTarget g) (Gives k.past) := by
  refine .peek_then fun t => ?_
  split
  · exact parseArrayBinding_obeys (Know.sees ‹_›)
  · exact parseObjectBinding_obeys (Know.sees ‹_›)
  · exact parseBindingIdent_obeys

/-! ## Arguments and decorators -/

theorem parseSpreadable_obeys (h : k.Reads 5) : Obeys g q k (parseSpreadable g) (Gives k.past) := by
  refine .peek_then fun t => ?_
  split
  · refine .advance_then (Know.sees (beq_iff_eq.1 ‹_›)) fun _ => ?_
    exact .part_then (.inl rfl) fun e => node_obeys
  · exact part_obeys h

theorem parseArguments_obeys : Obeys g q k (parseArguments g) (Gives k.past) := by
  refine .expect_then fun _ => .withIn ?_
  refine .seq (commaList_obeys fun _ _ _ => parseSpreadable_obeys (.see (.round (.inl rfl))))
    fun args => ?_
  exact .expect_then fun _ => .done

theorem parseCall_obeys {callee targs : Node} :
    Obeys g q k (parseCall g callee targs) (Gives k.past) :=
  .seq parseArguments_obeys fun _ => .spanTo_then fun _ => .done

theorem parseParen_obeys (h : k.Sees) : Obeys g q k (parseParen g) (Gives k.past) := by
  refine .advance_then h fun open_ => ?_
  refine .seq (.withIn (parseExpression_obeys (.inl rfl))) fun e => ?_
  exact .expect_then fun _ => node_obeys

theorem parseDecoratorPath_obeys {first : Node} :
    Obeys g q k (parseDecoratorPath first) (Gives k.loose) := by
  refine .repeat fun e => .eat_then ?_ fun _ _ => .leave
  exact .seq parseMemberName_obeys fun name => .node_then fun n => .again

theorem parseDecoratorExpr_obeys : Obeys g q k (parseDecoratorExpr g) (Gives k.past) := by
  refine .at_then (fun t ht => parseParen_obeys (Know.sees ht)) fun t _ => ?_
  refine .peek_then fun t => ?_
  split
  · exact unexpected_obeys
  · rename_i ht
    refine .advance_then (Know.sees (by simpa using ht)) fun _ => ?_
    refine .seq parseDecoratorPath_obeys fun e => .at_ask fun _ => .view_then fun v => ?_
    refine .either (m := k.past) (fun _ => parseTypeArgs_obeys.gives)
      (fun _ => .done) fun targs => ?_
    exact .at_then (fun _ _ => parseCall_obeys) fun _ _ => .done

theorem parseDecorators_obeys : Obeys g q k (parseDecorators g) (Gives k.loose) := by
  refine .repeat fun ds => .at_then (fun t ht => ?_) fun _ _ => .leave
  refine .advance_then (Know.sees ht) fun t => .view_then fun v => ?_
  extract_lets rest
  have hrest (m : Know) (hm : m.moved = true) (u : Unit) :
      Obeys g q m (rest u) (Turns k.round) := by
    refine .seq parseDecoratorExpr_obeys fun e => ?_
    exact .node_then fun d => .again
  split
  · exact .errorAt_then (hrest _ rfl ())
  · exact hrest _ rfl ()

/-! ## Parameters -/

theorem parameterModifier_ne_eof {t : Token} {f : Flags} (h : parameterModifier? t = some f) :
    t.kind ≠ .eof := by
  intro he
  simp [parameterModifier?, Token.is, he] at h

theorem parseParameterModifiers_obeys {ctor : Bool} :
    Obeys g q k (parseParameterModifiers ctor) (Gives k.loose) := by
  refine .repeat fun flags => .peek_then fun t => ?_
  split
  · exact .leave
  · rename_i f hf
    refine .peek2_then fun next => ?_
    split
    · exact .leave
    · refine .advance_then ⟨t, rfl, parameterModifier_ne_eof hf⟩ fun _ => .requireTypes_then ?_
      split
      · exact .errorAt_then .again
      · exact .again

theorem parseReceiver_obeys {start : Token} (h : k.Sees) :
    Obeys g q k (parseReceiver g start) (Gives k.past) := by
  refine .advance_then h fun t => .requireTypes_then ?_
  exact .seq parseAnnotationOpt_obeys fun type => .node_then fun n => .done

theorem parseParameter_obeys {ctor first : Bool} (h : k.Reads 0) :
    Obeys g q k (parseParameter g ctor first) (Gives k.past) := by
  refine .peek_then fun start => ?_
  refine .either (m := k.loose) (fun _ => parseDecorators_obeys) (fun _ => .done) fun decos => ?_
  refine .seq parseParameterModifiers_obeys fun flags => .at_ask fun t => ?_
  split
  · rename_i ht
    simp only [Bool.and_eq_true, beq_iff_eq] at ht
    exact parseReceiver_obeys (Know.sees ht.2)
  · refine .eat_any fun rest => .part_then h fun binding => ?_
    refine .seq declareAll_obeys fun _ => .peek_then fun question => ?_
    extract_lets tail
    have htail (optional : Bool) : Obeys g q k.past (tail optional) (Gives k.past) := by
      refine .seq parseAnnotationOpt_obeys fun type => ?_
      refine .eat_either (part_obeys (.inl rfl)) (fun _ _ => .done) fun value => ?_
      exact .node_then fun n => .done
    split
    · refine .advance_then (Know.sees (beq_iff_eq.1 ‹_›)) fun _ => .requireTypes_then ?_
      exact .pure_then (htail true)
    · exact .pure_then ((htail false).forget (k.past.loose_le_see question))

theorem parseParams_obeys {ctor : Bool} : Obeys g q k (parseParams g ctor) (Gives k.past) := by
  refine .expect_then fun open_ => ?_
  refine .seq (listUntil_obeys fun kids t _ _ => ?_) fun kids => .expect_then fun _ => node_obeys
  refine .seq (parseParameter_obeys (.see (.round (.inl rfl)))) fun p => ?_
  refine .at_ask fun u => ?_
  split
  · exact .error_then .refuse_then
  · exact .seq separator_obeys fun _ => .pure rfl

end ScriptLower.Parse

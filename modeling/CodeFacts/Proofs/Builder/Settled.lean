import CodeFacts.Builder.Handle
import CodeFacts.Proofs.TypeRef

/-!
A builder takes no more from a reference to a type than its stored text keeps, and no more from
modifiers than their mask. The declarations of references that were stored and read back make the
same additions.
-/

namespace CodeFacts

namespace TypeRef

theorem referencedName?_settled (type : TypeRef) :
    type.settled.referencedName? = type.referencedName? := by
  induction type with
  | primitive name => rfl
  | named kind name enclosing => cases kind <;> rfl
  | array element dimensions ih => exact ih

end TypeRef

section

variable {σ : Type} [TripleStore σ]

namespace Model

theorem bind_settled (model : Model σ) (type : TypeRef) :
    model.bind type.settled = (model.bind type).map TypeRef.settled := by
  induction type with
  | primitive name => rfl
  | named kind name enclosing =>
      cases enclosing with
      | some enclosing => cases kind <;> rfl
      | none =>
          have found (kind : NamedKind) : model.bind (.named kind name none) =
              (model.enclosingType name).map fun enclosing =>
                .named kind name (enclosing.map Identifier.text) := by
            simp only [bind]
            cases model.enclosingType name <;> rfl
          cases kind <;> simp only [TypeRef.settled, found] <;>
            cases model.enclosingType name <;> rfl
  | array element dimensions ih =>
      simp only [TypeRef.settled, bind, ih]
      cases model.bind element <;> rfl

theorem resolve_settled (model : Model σ) (type : TypeRef) :
    model.resolve type.settled = model.resolve type := by
  unfold resolve
  rw [bind_settled]
  cases model.bind type with
  | error fault => rfl
  | ok bound =>
      have resolved : model.isResolved bound.settled = model.isResolved bound := by
        unfold isResolved
        rw [TypeRef.referencedName?_settled]
      show (do
        let resolved ← model.isResolved bound.settled
        let text ← bound.settled.text
        return (text, if resolved then none else bound.settled.referencedName?)) = _
      rw [resolved, TypeRef.text_settled, TypeRef.referencedName?_settled]
      rfl

end Model

/-- An addition whose reference was stored and read back. -/
def Write.settled : Write → Write
  | .resourceType subject predicate type => .resourceType subject predicate type.settled
  | .literalType subject predicate type => .literalType subject predicate type.settled
  | write => write

namespace Draft

theorem write_settled (draft : Draft σ) (first : Write) :
    draft.write first.settled = draft.write first := by
  cases first <;> simp only [Write.settled, write, resolve, Model.resolve_settled]

theorem writeAll_settled (writes : List Write) (draft : Draft σ) :
    draft.writeAll (writes.map Write.settled) = draft.writeAll writes := by
  induction writes generalizing draft with
  | nil => rfl
  | cons first rest ih =>
      rw [List.map_cons, writeAll, writeAll, write_settled]
      cases draft.write first with
      | error fault => rfl
      | ok next => exact ih next

end Draft

end

namespace Declaration

variable {recorded modifiers : List Nat}

theorem headWrites_settled (id : String) (kind : EntityKind) (visibility : Value)
    (same : Modifier.mask recorded = Modifier.mask modifiers) :
    headWrites id kind visibility recorded =
      (headWrites id kind visibility modifiers).map Write.settled := by
  have told : (visibilityWrites id visibility).map Write.settled =
      visibilityWrites id visibility := by
    unfold visibilityWrites
    split
    · rfl
    · split <;> rfl
  rw [headWrites, headWrites, same, List.map_append, List.map_append, told]
  rfl

theorem classWrites_settled (visibility : Value) (extended : Option TypeRef)
    (implemented : List TypeRef) (container id : Identifier)
    (same : Modifier.mask recorded = Modifier.mask modifiers) :
    classWrites visibility recorded (extended.map TypeRef.settled)
        (implemented.map TypeRef.settled) container id =
      (classWrites visibility modifiers extended implemented container id).map Write.settled := by
  simp only [classWrites, headWrites_settled _ _ _ same, List.map_append, List.map_map]
  cases extended <;> rfl

theorem interfaceWrites_settled (visibility : Value) (extended : List TypeRef)
    (container id : Identifier) (same : Modifier.mask recorded = Modifier.mask modifiers) :
    interfaceWrites visibility recorded (extended.map TypeRef.settled) container id =
      (interfaceWrites visibility modifiers extended container id).map Write.settled := by
  simp only [interfaceWrites, headWrites_settled _ _ _ same, List.map_append, List.map_map]
  rfl

theorem enumerationWrites_settled {kept elements : Value} (visibility : Value)
    (implemented : List TypeRef) (container id : Identifier)
    (same : Modifier.mask recorded = Modifier.mask modifiers)
    (listed : kept.items? = elements.items?) :
    enumerationWrites visibility recorded kept (implemented.map TypeRef.settled) container id =
      (enumerationWrites visibility modifiers elements implemented container id).map
        Write.settled := by
  simp only [enumerationWrites, headWrites_settled _ _ _ same, List.map_append, List.map_map,
    listed]
  cases elements.items? <;> rfl

theorem attributeWrites_settled (visibility : Value) (type : TypeRef) (value : Value)
    (container id : Identifier) (same : Modifier.mask recorded = Modifier.mask modifiers) :
    attributeWrites visibility recorded type.settled value container id =
      (attributeWrites visibility modifiers type value container id).map Write.settled := by
  simp only [attributeWrites, headWrites_settled _ _ _ same, List.map_append]
  cases value <;> rfl

theorem parametersWrites_settled (signature : Identifier) (names : List Value)
    (types : List TypeRef) (index : Nat) :
    parametersWrites signature index names (types.map TypeRef.settled) =
      (parametersWrites signature index names types).map Write.settled := by
  induction names generalizing types index with
  | nil => rfl
  | cons name rest ih =>
      cases types with
      | nil => rfl
      | cons type later =>
          have first : parameterWrites signature index name type.settled =
              (parameterWrites signature index name type).map Write.settled := by
            unfold parameterWrites
            cases signature.childOfValues name (.text EntityKind.parameter.key) <;> rfl
          rw [List.map_cons, parametersWrites, parametersWrites, first, ih, List.map_append]

theorem signatureWrites_settled {kept parameters : Value} (owner signature : Identifier)
    (types : List TypeRef) (result : Option TypeRef) (exceptions : List TypeRef)
    (listed : kept.items? = parameters.items?) :
    signatureWrites owner signature kept (types.map TypeRef.settled)
        (result.map TypeRef.settled) (exceptions.map TypeRef.settled) =
      (signatureWrites owner signature parameters types result exceptions).map Write.settled := by
  unfold signatureWrites
  rw [listed]
  cases parameters.items? with
  | none => rfl
  | some names =>
      dsimp only
      rw [List.length_map]
      split
      · rfl
      · simp only [parametersWrites_settled, List.map_append, List.map_map]
        cases result <;> rfl

theorem executableWrites_settled {kept parameters : Value} (kind : EntityKind)
    (visibility overload : Value) (types : List TypeRef) (result : Option TypeRef)
    (exceptions : List TypeRef) (container id : Identifier)
    (same : Modifier.mask recorded = Modifier.mask modifiers)
    (listed : kept.items? = parameters.items?) :
    executableWrites kind visibility recorded overload kept (types.map TypeRef.settled)
        (result.map TypeRef.settled) (exceptions.map TypeRef.settled) container id =
      (executableWrites kind visibility modifiers overload parameters types result exceptions
        container id).map Write.settled := by
  simp only [executableWrites, headWrites_settled _ _ _ same, List.map_append]
  cases id.child (overloadName overload) EntityKind.signature.key with
  | error fault => rfl
  | ok signature => simp only [signatureWrites_settled _ _ _ _ _ listed]; rfl

end Declaration

namespace Builder

variable {σ : Type} [TripleStore σ]

theorem write_settled (builder : Builder σ) (notices : List Notice) (writes : List Write)
    (after : Builder σ → Builder σ) :
    builder.write notices (writes.map Write.settled) after =
      builder.write notices writes after := by
  unfold write Model.writeAll
  rw [Draft.writeAll_settled]

variable {kept writes : (container id : Identifier) → List Write}

theorem openType_settled (builder : Builder σ) (kind : EntityKind) (what : String) (name : Value)
    (same : ∀ container id, kept container id = (writes container id).map Write.settled) :
    builder.openType kind what name kept = builder.openType kind what name writes := by
  unfold openType openScope
  simp only [same, write_settled]

theorem declare_settled (builder : Builder σ) (kind : EntityKind) (what : String)
    (kinds : List EntityKind) (named : Except Fault (String × List Notice))
    (same : ∀ container id, kept container id = (writes container id).map Write.settled) :
    builder.declare kind what kinds named kept = builder.declare kind what kinds named writes := by
  unfold declare
  simp only [same, write_settled]

end Builder

end CodeFacts

import CodeFacts.Proofs.Resolve

/-!
Looking a type up by its name goes from the outside in: what the outer part is known as comes first,
then what is declared there, and what is known from outside last.
-/

namespace CodeFacts

namespace Model

variable {σ : Type} [TripleStore σ] (model : Model σ)

/-- What a name is known as, given what its outer part is known as. -/
theorem declaredType_eq {name : String} (filled : "" ∉ Dotted.segments name) :
    model.declaredType name = do
      let enclosing ← model.enclosingType name
      match ← model.declaredAs enclosing name EntityKind.types with
      | some id => return some id
      | none =>
          if model.symbols.knows name then some <$> candidate enclosing name .classType
          else return none := by
  have whole := Dotted.segments_eq_of_filled filled
  have joined : Dotted.join (Dotted.segments name) = name := Dotted.join_segments name
  rw [declaredType, enclosingType]
  by_cases outermost : Dotted.outer name = ""
  · rw [if_pos outermost, List.nil_append] at whole
    rw [whole] at joined ⊢
    rw [if_pos outermost, List.reverse_singleton, declaredBySegments, List.reverse_singleton,
      joined]
    rfl
  · rw [if_neg outermost] at whole
    rw [whole] at joined ⊢
    rw [if_neg outermost, List.reverse_append, List.reverse_singleton, List.singleton_append,
      declaredBySegments, List.reverse_cons, List.reverse_reverse, joined, Dotted.join_segments,
      if_neg outermost]
    rfl

variable {model}

theorem declaredType_declared {name : String} {enclosing : Option Identifier} {id : Identifier}
    (filled : "" ∉ Dotted.segments name) (around : model.enclosingType name = .ok enclosing)
    (looked : model.declaredAs enclosing name EntityKind.types = .ok (some id)) :
    model.declaredType name = .ok (some id) := by
  rw [model.declaredType_eq filled, around]
  show (model.declaredAs enclosing name EntityKind.types >>= _) = _
  rw [looked]
  rfl

theorem declaredType_undeclared {name : String} {enclosing : Option Identifier}
    (filled : "" ∉ Dotted.segments name) (around : model.enclosingType name = .ok enclosing)
    (looked : model.declaredAs enclosing name EntityKind.types = .ok none) :
    model.declaredType name =
      if model.symbols.knows name then some <$> candidate enclosing name .classType
      else .ok none := by
  rw [model.declaredType_eq filled, around]
  show (model.declaredAs enclosing name EntityKind.types >>= _) = _
  rw [looked]
  rfl

/-- What is found declared is a candidate; where nothing is, no candidate is declared. -/
theorem declaredAs_found {enclosing : Option Identifier} {name : String}
    {kinds : List EntityKind} {found : Option Identifier}
    (looked : model.declaredAs enclosing name kinds = .ok found) :
    (∀ id ∈ found, ∃ kind ∈ kinds, candidate enclosing name kind = .ok id ∧
      model.hasKind id.text kind = true) ∧
    (found = none → ∀ kind ∈ kinds, ∃ id, candidate enclosing name kind = .ok id ∧
      model.hasKind id.text kind = false) := by
  induction kinds with
  | nil =>
      obtain rfl : none = found := Except.ok.inj looked
      exact ⟨nofun, nofun⟩
  | cons kind rest ih =>
      simp only [declaredAs, Steps.bind_ok_iff] at looked
      obtain ⟨id, made, looked⟩ := looked
      cases declared : model.hasKind id.text kind with
      | true =>
          rw [declared, if_pos rfl] at looked
          obtain rfl : some id = found := Except.ok.inj looked
          refine ⟨?_, nofun⟩
          rintro _ ⟨rfl⟩
          exact ⟨kind, List.mem_cons_self, made, declared⟩
      | false =>
          rw [declared, if_neg Bool.false_ne_true] at looked
          obtain ⟨sound, complete⟩ := ih looked
          refine ⟨fun other member => ?_, fun none other member => ?_⟩
          · obtain ⟨later, listed, found⟩ := sound other member
            exact ⟨later, List.mem_cons_of_mem kind listed, found⟩
          · rcases List.mem_cons.mp member with rfl | listed
            · exact ⟨id, made, declared⟩
            · exact complete none other listed

/-- A name in a reference is reported just where the reference alone is not resolved. -/
theorem resolve_unknown {type : TypeRef} {text name : String}
    (resolved : model.resolve type = .ok (text, some name)) :
    model.isResolved (.named .classType name none) = .ok false := by
  simp only [resolve, Steps.bind_ok_iff, Steps.pure_ok_iff] at resolved
  obtain ⟨bound, _, answer, asked, _, _, pair⟩ := resolved
  cases answer with
  | true => cases pair
  | false =>
      have referenced : bound.referencedName? = some name := (Prod.mk.inj pair).2
      rw [← asked, isResolved, isResolved, referenced]
      rfl

end Model

end CodeFacts

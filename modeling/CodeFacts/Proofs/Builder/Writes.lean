import CodeFacts.Proofs.Builder.Atomic

/-!
What the additions of a call come to: they leave the rules as they are, and what refuses them is a
fault of the guarded store. Where none is refused, the store has all they state and nothing they do
not make.
-/

namespace CodeFacts

variable {σ : Type} [TripleStore σ]

namespace Ontology

/-- Whether a fault is one that a guarded store finds with an addition. -/
def OfAddition : Fault → Prop
  | .violation _ _ _ _ => True
  | fault => Store.OfTerms fault

theorem ofAddition_of_terms {fault : Fault} (terms : Store.OfTerms fault) : OfAddition fault := by
  cases fault <;> first | exact terms | trivial

theorem judged_only (ontology : Ontology) (subject predicate : String) (given : Value)
    (validate : String → String → Except ValidationFault Relation) :
    Steps.Only OfAddition
      ((ontology.judge (.text subject) (.text predicate) validate).mapError
        (asViolation (.text subject) (.text predicate) given)) := by
  have judged : ontology.judge (.text subject) (.text predicate) validate =
      (validate subject predicate).mapError .validation := rfl
  rw [judged]
  cases validate subject predicate with
  | ok relation => exact Steps.only_ok relation
  | error cause => exact Steps.only_error trivial

end Ontology

namespace Draft

theorem addResource_only (draft : Draft σ) (subject : String) (predicate : Predicate)
    (object : String) :
    Steps.Only Ontology.OfAddition (draft.addResource subject predicate object) := by
  have stored := (Store.edit_only draft.model.store
    (.addResource (.text subject) (.text predicate.uri) (.text object))).mono
      fun _ => Ontology.ofAddition_of_terms
  have guarded : Steps.Only Ontology.OfAddition
      (draft.model.ontology.addResource draft.model.store (.text subject) (.text predicate.uri)
        (.text object)) := by
    refine Steps.Only.bind ?_ fun _ => stored
    exact Ontology.judged_only draft.model.ontology subject predicate.uri (.text object)
      fun subject predicate => draft.model.ontology.validateResource subject predicate object
  exact guarded.bind fun _ => Steps.only_ok _

theorem addLiteral_only (draft : Draft σ) (subject : String) (predicate : Predicate)
    (value : Value) :
    Steps.Only Ontology.OfAddition (draft.addLiteral subject predicate value) := by
  have stored := (Store.edit_only draft.model.store
    (.addLiteral (.text subject) (.text predicate.uri) value)).mono
      fun _ => Ontology.ofAddition_of_terms
  have guarded : Steps.Only Ontology.OfAddition
      (draft.model.ontology.addLiteral draft.model.store (.text subject) (.text predicate.uri)
        value) := by
    refine Steps.Only.bind ?_ fun _ => stored
    exact Ontology.judged_only draft.model.ontology subject predicate.uri value
      draft.model.ontology.validateLiteral
  exact guarded.bind fun _ => Steps.only_ok _

theorem write_ontology {draft next : Draft σ} {first : Write}
    (written : draft.write first = .ok next) :
    next.model.ontology = draft.model.ontology := by
  obtain ⟨unknown, _, rfl⟩ := write_ok written
  rfl

theorem writeAll_ontology (writes : List Write) (draft : Draft σ) :
    (draft.writeAll writes).1.model.ontology = draft.model.ontology := by
  induction writes generalizing draft with
  | nil => rfl
  | cons first rest ih =>
      unfold writeAll
      cases written : draft.write first with
      | ok next => exact (ih next).trans (write_ontology written)
      | error fault => rfl

theorem writeAll_only {sort : Fault → Prop} (writes : List Write) (draft : Draft σ)
    (each : ∀ first ∈ writes, ∀ draft : Draft σ, Steps.Only sort (draft.write first)) :
    ∀ fault ∈ (draft.writeAll writes).2, sort fault := by
  induction writes generalizing draft with
  | nil =>
      intro fault refused
      cases refused
  | cons first rest ih =>
      unfold writeAll
      cases written : draft.write first with
      | ok next => exact ih next fun later member => each later (List.mem_cons_of_mem first member)
      | error fault =>
          rintro _ ⟨rfl⟩
          exact each first List.mem_cons_self draft fault written

end Draft

theorem Model.writeAll_ontology (model : Model σ) (writes : List Write) :
    (model.writeAll writes).1.ontology = model.ontology := by
  have drafted := Draft.writeAll_ontology writes (Draft.start model)
  unfold writeAll
  generalize (Draft.start model).writeAll writes = result at drafted
  obtain ⟨draft, outcome⟩ := result
  cases outcome with
  | none => exact drafted
  | some fault => exact drafted

theorem Model.writeAll_only {sort : Fault → Prop} (model : Model σ) {writes : List Write}
    (each : ∀ first ∈ writes, ∀ draft : Draft σ, Steps.Only sort (draft.write first)) :
    Steps.Only sort (model.writeAll writes).2 := by
  intro fault refused
  have drafted := Draft.writeAll_only writes (Draft.start model) each
  unfold writeAll at refused
  generalize (Draft.start model).writeAll writes = result at refused drafted
  obtain ⟨draft, outcome⟩ := result
  cases outcome with
  | none => cases refused
  | some cause => exact drafted fault (congrArg some (Except.error.inj refused))

/-! Additions to a plain store of which none is refused. -/

/-- Whether some additions lead from some triples to others, which come behind those. -/
structure Grows (writes : List Write) (before after : List Triple) : Prop where
  behind : ∃ new, after = before ++ new
  made : ∀ triple ∈ after, triple ∈ before ∨
    ∃ first ∈ writes, ∃ stored, triple ∈ first.triples stored
  stated : ∀ subject predicate object, Write.resource subject predicate object ∈ writes →
    ⟨subject, predicate.uri, object, false⟩ ∈ after

theorem Grows.kept {writes : List Write} {before after : List Triple}
    (grows : Grows writes before after) : ∀ triple ∈ before, triple ∈ after := by
  obtain ⟨new, rfl⟩ := grows.behind
  exact fun _ member => List.mem_append_left new member

theorem Grows.refl (triples : List Triple) : Grows [] triples triples :=
  ⟨⟨[], (List.append_nil triples).symm⟩, fun _ member => .inl member, nofun⟩

theorem Grows.cons {first : Write} {rest : List Write} {before between after : List Triple}
    (stored : TypeRef → String) (behind : ∃ new, between = before ++ new)
    (added : ∀ triple, triple ∈ between ↔ triple ∈ before ∨ triple ∈ first.triples stored)
    (grows : Grows rest between after) : Grows (first :: rest) before after where
  behind := by
    obtain ⟨new, rfl⟩ := behind
    obtain ⟨more, rfl⟩ := grows.behind
    exact ⟨new ++ more, List.append_assoc before new more⟩
  made triple member := by
    rcases grows.made triple member with earlier | ⟨later, listed, made⟩
    · rcases (added triple).mp earlier with old | new
      · exact .inl old
      · exact .inr ⟨first, List.mem_cons_self, stored, new⟩
    · exact .inr ⟨later, List.mem_cons_of_mem first listed, made⟩
  stated subject predicate object member := by
    rcases List.mem_cons.mp member with rfl | later
    · exact grows.kept _ ((added _).mpr (.inr List.mem_cons_self))
    · exact grows.stated subject predicate object later

theorem Draft.writeAll_grows (writes : List Write) {draft last : Draft PlainStore}
    (written : draft.writeAll writes = (last, none)) :
    Grows writes draft.model.store.triples last.model.store.triples := by
  induction writes generalizing draft with
  | nil =>
      obtain rfl : draft = last := congrArg Prod.fst written
      exact .refl _
  | cons first rest ih =>
      unfold writeAll at written
      cases step : draft.write first with
      | error fault =>
          rw [step] at written
          cases written
      | ok next =>
          rw [step] at written
          obtain ⟨unknown, _, rfl⟩ := write_ok step
          obtain ⟨new, behind, _⟩ :=
            PlainStore.insertAll_extends (first.triples draft.model.storedText) draft.model.store
          exact (ih written).cons _ ⟨new, behind⟩ (PlainStore.mem_insertAll _ draft.model.store)

/-- Additions to a model are accepted where those to its draft are. -/
theorem Model.writeAll_drafted {model next : Model σ} {writes : List Write}
    {unknown : List String} (written : model.writeAll writes = (next, .ok unknown)) :
    ∃ last, (Draft.start model).writeAll writes = (last, none) ∧ last.model = next ∧
      last.unknown = unknown := by
  unfold writeAll at written
  cases drafted : (Draft.start model).writeAll writes with
  | mk last outcome =>
      rw [drafted] at written
      cases outcome with
      | some fault => cases written
      | none =>
          obtain ⟨same, noted⟩ := Prod.mk.inj written
          exact ⟨last, rfl, same, Except.ok.inj noted⟩

/-- What is written of parameters is written of one of them at its place. -/
theorem Declaration.of_mem_parametersWrites {signature : Identifier} {names : List Value}
    {types : List TypeRef} {index : Nat} {first : Write}
    (member : first ∈ parametersWrites signature index names types) :
    ∃ name ∈ names, ∃ type ∈ types, ∃ place < index + names.length,
      first ∈ parameterWrites signature place name type := by
  induction names generalizing types index with
  | nil => cases member
  | cons name rest ih =>
      cases types with
      | nil => cases member
      | cons type later =>
          rw [List.length_cons]
          rcases List.mem_append.mp member with here | behind
          · exact ⟨name, List.mem_cons_self, type, List.mem_cons_self, index, by omega, here⟩
          · obtain ⟨other, named, written, typed, place, within, there⟩ := ih behind
            exact ⟨other, List.mem_cons_of_mem name named, written, List.mem_cons_of_mem type typed,
              place, by omega, there⟩

theorem Model.writeAll_grows {model next : Model PlainStore} {writes : List Write}
    {unknown : List String} (written : model.writeAll writes = (next, .ok unknown)) :
    Grows writes model.store.triples next.store.triples := by
  obtain ⟨last, drafted, rfl, _⟩ := writeAll_drafted written
  exact Draft.writeAll_grows writes drafted

end CodeFacts

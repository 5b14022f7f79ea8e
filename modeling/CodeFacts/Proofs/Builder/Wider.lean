import CodeFacts.Proofs.Builder.Accept
import CodeFacts.Proofs.Builder.Standing
import CodeFacts.Proofs.Ontology.Gate

/-!
Rules that allow more. What is accepted under some rules is accepted under them and others, and
comes to the same: only what is refused can change.
-/

namespace CodeFacts

namespace Ontology

/-- Whether rules are all among others. -/
structure Within (few many : Ontology) : Prop where
  filed : few.Filed
  filed_many : many.Filed
  rules : ∀ relation ∈ few.relations, relation ∈ many.relations

variable {σ : Type} [TripleStore σ] {few many : Ontology} {store next : σ}

/-- What one of few rules lets through, one of many does. -/
theorem Within.judged (within : few.Within many) {subject predicate : String}
    {test : Relation → Bool} {otherwise : ValidationFault} {change : Fault → Fault}
    {relation : Relation}
    (passed : ((few.firstCandidate subject predicate test otherwise).mapError
      Fault.validation).mapError change = .ok relation) :
    ∃ other, ((many.firstCandidate subject predicate test otherwise).mapError
      Fault.validation).mapError change = .ok other := by
  obtain ⟨rule, defined, fits⟩ :=
    within.filed.firstCandidate_iff.mp ⟨relation, mapError_ok (mapError_ok passed)⟩
  obtain ⟨other, found⟩ :=
    within.filed_many.firstCandidate_iff.mpr ⟨rule, within.rules rule defined, fits⟩
  exact ⟨other, by rw [found]; rfl⟩

theorem mem_defineAll (relations : List Relation) {ontology : Ontology} (filed : ontology.Filed)
    {relation : Relation} (member : relation ∈ (ontology.defineAll relations).1.relations) :
    relation ∈ ontology.relations ∨ relation ∈ relations := by
  induction relations generalizing ontology with
  | nil => exact .inl member
  | cons first rest ih =>
      unfold defineAll at member
      cases defined : ontology.define first with
      | error fault =>
          rw [defined] at member
          exact .inl member
      | ok next =>
          rw [defined] at member
          obtain ⟨next_filed, rules⟩ := filed.define defined
          rcases ih next_filed member with before | later
          · rw [rules] at before
            rcases List.mem_append.mp before with old | last
            · exact .inl old
            · rw [List.mem_singleton.mp last]
              exact .inr List.mem_cons_self
          · exact .inr (List.mem_cons_of_mem first later)

/-- Rules chosen from those of the profile are within it. -/
theorem within_java {relations : List Relation}
    (chosen : ∀ relation ∈ relations, relation ∈ libraryRelations ++ structureRelations) :
    (ofRelations relations).Within java where
  filed := filed_ofRelations relations
  filed_many := java_filed
  rules := by
    intro relation member
    rw [java_relations]
    rcases mem_defineAll relations filed_empty member with none | among
    · exact absurd none List.not_mem_nil
    · exact chosen relation among

variable {subject predicate : String}

theorem Within.addResource (within : few.Within many) {object : String}
    (added : few.addResource store (.text subject) (.text predicate) (.text object) = .ok next) :
    many.addResource store (.text subject) (.text predicate) (.text object) = .ok next := by
  obtain ⟨relation, passed, stored⟩ := Steps.bind_ok_iff.mp added
  obtain ⟨other, passed⟩ := within.judged passed
  exact Steps.bind_ok_iff.mpr ⟨other, passed, stored⟩

theorem Within.addLiteral (within : few.Within many) {literal : Value}
    (added : few.addLiteral store (.text subject) (.text predicate) literal = .ok next) :
    many.addLiteral store (.text subject) (.text predicate) literal = .ok next := by
  obtain ⟨relation, passed, stored⟩ := Steps.bind_ok_iff.mp added
  obtain ⟨other, passed⟩ := within.judged passed
  exact Steps.bind_ok_iff.mpr ⟨other, passed, stored⟩

theorem Within.addCollection (within : few.Within many) {items : List Value}
    (added : few.addCollection store (.text subject) (.text predicate) (.list items) = .ok next) :
    many.addCollection store (.text subject) (.text predicate) (.list items) = .ok next := by
  obtain ⟨relation, passed, stored⟩ := Steps.bind_ok_iff.mp added
  obtain ⟨other, passed⟩ := within.judged passed
  exact Steps.bind_ok_iff.mpr ⟨other, passed, stored⟩

end Ontology

section

variable {σ : Type} [TripleStore σ] {few many : Ontology}

namespace Model

/-- A model under other rules. -/
def under (model : Model σ) (rules : Ontology) : Model σ := { model with ontology := rules }

variable (model : Model σ) (rules : Ontology)

theorem declaredBySegments_under (segments : List String) :
    (model.under rules).declaredBySegments segments = model.declaredBySegments segments := by
  have declaredAs (enclosing : Option Identifier) (name : String) (kinds : List EntityKind) :
      (model.under rules).declaredAs enclosing name kinds =
        model.declaredAs enclosing name kinds := by
    induction kinds with
    | nil => rfl
    | cons kind rest ih => simp only [Model.declaredAs, ih]; rfl
  induction segments with
  | nil => rfl
  | cons simple outer ih => simp only [declaredBySegments, ih, declaredAs]; rfl

theorem declaredType_under (name : String) :
    (model.under rules).declaredType name = model.declaredType name :=
  model.declaredBySegments_under rules _

theorem isResolved_under (type : TypeRef) :
    (model.under rules).isResolved type = model.isResolved type := by
  simp only [isResolved, declaredType_under]
  rfl

theorem resolve_under (type : TypeRef) :
    (model.under rules).resolve type = model.resolve type := by
  have bound (type : TypeRef) : (model.under rules).bind type = model.bind type := by
    induction type with
    | primitive => rfl
    | named kind name enclosing =>
        cases enclosing with
        | some => rfl
        | none => simp only [Model.bind, enclosingType, declaredType_under]
    | array element dimensions ih => simp only [Model.bind, ih]
  simp only [resolve, bound, isResolved_under]

end Model

namespace Draft

def under (draft : Draft σ) (rules : Ontology) : Draft σ :=
  { draft with model := draft.model.under rules }

variable {draft next : Draft σ} (within : draft.model.ontology.Within many)
include within

theorem addResource_under {subject object : String} {predicate : Predicate}
    (written : draft.addResource subject predicate object = .ok next) :
    (draft.under many).addResource subject predicate object = .ok (next.under many) ∧
      next.model.ontology = draft.model.ontology := by
  obtain ⟨store, added, same⟩ := Steps.bind_ok_iff.mp written
  cases same
  exact ⟨Steps.bind_ok_iff.mpr ⟨store, within.addResource added, rfl⟩, rfl⟩

theorem addLiteral_under {subject : String} {predicate : Predicate} {value : Value}
    (written : draft.addLiteral subject predicate value = .ok next) :
    (draft.under many).addLiteral subject predicate value = .ok (next.under many) ∧
      next.model.ontology = draft.model.ontology := by
  obtain ⟨store, added, same⟩ := Steps.bind_ok_iff.mp written
  cases same
  exact ⟨Steps.bind_ok_iff.mpr ⟨store, within.addLiteral added, rfl⟩, rfl⟩

theorem addElements_under {subject : String} {predicate : Predicate} {values : List Value}
    (written : draft.addElements subject predicate values = .ok next) :
    (draft.under many).addElements subject predicate values = .ok (next.under many) ∧
      next.model.ontology = draft.model.ontology := by
  obtain ⟨store, added, same⟩ := Steps.bind_ok_iff.mp written
  cases same
  exact ⟨Steps.bind_ok_iff.mpr ⟨store, within.addCollection added, rfl⟩, rfl⟩

theorem write_under {first : Write} (written : draft.write first = .ok next) :
    (draft.under many).write first = .ok (next.under many) ∧
      next.model.ontology = draft.model.ontology := by
  have resolved {type : TypeRef} {text : String} {later : Draft σ}
      (found : draft.resolve type = .ok (text, later)) :
      (draft.under many).resolve type = .ok (text, later.under many) ∧
        later.model.ontology = draft.model.ontology := by
    obtain ⟨answer, read, same⟩ := Steps.bind_ok_iff.mp found
    cases same
    refine ⟨Steps.bind_ok_iff.mpr ⟨answer, ?_, rfl⟩, rfl⟩
    exact (draft.model.resolve_under many type).trans read
  cases first with
  | resource => exact addResource_under within written
  | literal => exact addLiteral_under within written
  | elements => exact addElements_under within written
  | resourceType =>
      obtain ⟨⟨text, later⟩, found, added⟩ := Steps.bind_ok_iff.mp written
      obtain ⟨found, same⟩ := resolved found
      obtain ⟨added, kept⟩ := addResource_under (same ▸ within) added
      exact ⟨Steps.bind_ok_iff.mpr ⟨_, found, added⟩, kept.trans same⟩
  | literalType =>
      obtain ⟨⟨text, later⟩, found, added⟩ := Steps.bind_ok_iff.mp written
      obtain ⟨found, same⟩ := resolved found
      obtain ⟨added, kept⟩ := addLiteral_under (same ▸ within) added
      exact ⟨Steps.bind_ok_iff.mpr ⟨_, found, added⟩, kept.trans same⟩
  | refuse => cases written

theorem writeAll_under (writes : List Write) {last : Draft σ}
    (written : draft.writeAll writes = (last, none)) :
    (draft.under many).writeAll writes = (last.under many, none) := by
  induction writes generalizing draft with
  | nil =>
      obtain rfl : draft = last := congrArg Prod.fst written
      rfl
  | cons first rest ih =>
      unfold writeAll at written ⊢
      cases step : draft.write first with
      | error fault =>
          rw [step] at written
          cases written
      | ok next =>
          rw [step] at written
          obtain ⟨step, same⟩ := write_under within step
          rw [step]
          exact ih (same ▸ within) written

end Draft

theorem Model.writeAll_under {model next : Model σ} (within : model.ontology.Within many)
    {writes : List Write} {unknown : List String}
    (written : model.writeAll writes = (next, .ok unknown)) :
    (model.under many).writeAll writes = (next.under many, .ok unknown) := by
  unfold writeAll at written ⊢
  cases drafted : (Draft.start model).writeAll writes with
  | mk draft outcome =>
      rw [drafted] at written
      cases outcome with
      | some fault => cases written
      | none =>
          cases written
          rw [show Draft.start (model.under many) = (Draft.start model).under many from rfl,
            Draft.writeAll_under within writes drafted]
          rfl

theorem Model.follows_under {model : Model σ} (within : model.ontology.Within many) :
    model.Follows (fun model => model.under many) False where
  finds := fun _ => rfl
  adds := by
    intro writes added
    cases written : model.writeAll writes with
    | mk next outcome =>
        cases outcome with
        | error fault =>
            rw [written] at added
            exact absurd (added.resolve_left id) nofun
        | ok unknown => exact writeAll_under within written

namespace Builder

/-- A builder whose model is under other rules. -/
def under (builder : Builder σ) (rules : Ontology) : Builder σ :=
  { builder with model := builder.model.under rules }

omit [TripleStore σ] in
@[simp] theorem under_store (builder : Builder σ) (rules : Ontology) :
    (builder.under rules).model.store = builder.model.store := rfl

omit [TripleStore σ] in
theorem start_under (few many : Ontology) (symbols : SymbolTable) (store : σ) (date : String) :
    (start ⟨few, symbols, store⟩ date).under many = start ⟨many, symbols, store⟩ date := rfl

variable {builder : Builder σ} (within : builder.model.ontology.Within many)
include within

/-- A call that is accepted under some rules comes to the same under more. -/
theorem handle_under {call : Call} (accepted : (builder.handle call).1.isAccepted = true) :
    (builder.under many).handle call =
      ((builder.handle call).1, (builder.handle call).2.under many) :=
  handle_along (Model.follows_under within) (.inl rfl) (.inr accepted)

omit within in
/-- Calls that are accepted under some rules come to the same under more. -/
theorem after_under (calls : List Call) {builder : Builder σ}
    (within : builder.model.ontology.Within many)
    (accepted : (Handler.trace builder calls).all (·.1.isAccepted) = true) :
    Handler.after (builder.under many) calls = (Handler.after builder calls).under many := by
  induction calls generalizing builder with
  | nil => rfl
  | cons call rest ih =>
      obtain ⟨first, later⟩ := Bool.and_eq_true_iff.mp accepted
      have same : builder.model.ontology = (builder.handle call).2.model.ontology :=
        (handle_ontology builder call).symm
      have step : ((builder.under many).handle call).2 = (builder.handle call).2.under many :=
        congrArg Prod.snd (handle_under within first)
      show Handler.after ((builder.under many).handle call).2 rest = _
      rw [step]
      exact ih (same ▸ within) later

omit within in
theorem handleAll_under (calls : List Call) {builder : Builder σ}
    (within : builder.model.ontology.Within many)
    (passed : (Handler.handleAll builder calls).1 = none) :
    (Handler.handleAll (builder.under many) calls).1 = none := by
  induction calls generalizing builder with
  | nil => rfl
  | cons call rest ih =>
      have accepted : (builder.handle call).1.isAccepted = true :=
        Handler.accepted_of_handleAll passed
      have goes := (Handler.handleAll_of_accepted rest accepted).1
      have step := handle_under within accepted
      have accepted_again : ((builder.under many).handle call).1.isAccepted = true := by
        rw [step]
        exact accepted
      have same : builder.model.ontology = (builder.handle call).2.model.ontology :=
        (handle_ontology builder call).symm
      rw [(Handler.handleAll_of_accepted rest accepted_again).1]
      show (Handler.handleAll ((builder.under many).handle call).2 rest).1 = none
      rw [step]
      exact ih (same ▸ within) (goes.symm.trans passed)

end Builder

end

end CodeFacts

import CodeFacts.Model
import CodeFacts.Proofs.Names
import CodeFacts.Proofs.Ontology.Profile
import CodeFacts.Proofs.TypeRef

/-!
Resolving types. Where the names in a reference have no marks but dots, resolving it never fails,
whatever is known; and what is stored for a reference by name is an entity of the kind it expects.
-/

namespace CodeFacts

namespace TypeRef

/-- Whether the names in a type have no marks but dots and leave open what they are nested in. -/
def isPlain : TypeRef → Bool
  | .primitive _ => true
  | .named _ name enclosing => enclosing.isNone && decide (Dotted.Unmarked name)
  | .array element _ => element.isPlain

/-- Whether a type is a reference by name to entities of a kind. -/
def refersTo (kind : EntityKind) : TypeRef → Bool
  | .named found _ _ => decide (found.entity = kind)
  | _ => false

/-- Whether a type is a plain reference to entities of a kind. -/
def names (kind : EntityKind) (type : TypeRef) : Bool := type.isPlain && type.refersTo kind

end TypeRef

namespace Identifier

theorem packagesOf_unmarked {name : String} (unmarked : Dotted.Unmarked name) :
    ∃ packages, packagesOf name = .ok packages := by
  unfold packagesOf
  by_cases single : Dotted.outer name = ""
  · exact ⟨[], by simp only [single, if_true]⟩
  · simp only [single, if_false]
    obtain ⟨packages, made, _⟩ := TypeRef.mapM_make
      (fun segment member => unmarked.outer.segment_plain member) EntityKind.package.key_plain
    exact ⟨packages, made⟩

theorem ofTypeName_unmarked {name : String} (kind : EntityKind)
    (unmarked : Dotted.Unmarked name) :
    ∃ id, ofTypeName name kind.key = .ok id ∧ id.strongestQualifier = .ok kind.key := by
  obtain ⟨packages, outer⟩ := packagesOf_unmarked unmarked
  have valid := And.intro unmarked.simple_plain kind.key_plain
  refine ⟨({ empty with fragments := packages } : Identifier).push
    ⟨Dotted.simple name, kind.key, valid.1, valid.2.1, valid.2.2⟩, ?_, ?_⟩
  · rw [ofTypeName, outer, Fragment.make, dif_pos valid]
    rfl
  · exact strongestQualifier_push _ _

end Identifier

namespace Model

variable {σ : Type} [TripleStore σ] (model : Model σ)

theorem candidate_unmarked (enclosing : Option Identifier) {name : String} (kind : EntityKind)
    (unmarked : Dotted.Unmarked name) :
    ∃ id, candidate enclosing name kind = .ok id ∧ id.strongestQualifier = .ok kind.key := by
  cases enclosing with
  | none => exact Identifier.ofTypeName_unmarked kind unmarked
  | some outer => exact outer.child_plain kind unmarked.simple_plain

/-- A reference inside of what its name's outer part is known as is stored as the candidate of the
kind it expects. -/
theorem text_of_candidate {enclosing : Option Identifier} {kind : NamedKind} {name : String}
    {id : Identifier} (made : candidate enclosing name kind.entity = .ok id) :
    (TypeRef.named kind name (enclosing.map Identifier.text)).text = .ok id.text := by
  cases enclosing with
  | none =>
      have own : Identifier.ofTypeName name kind.entity.key = .ok id := made
      rw [Option.map_none, TypeRef.text, own]
      rfl
  | some outer =>
      have own : outer.child (Dotted.simple name) kind.entity.key = .ok id := made
      rw [Option.map_some, TypeRef.text, Identifier.read_text]
      show (do return (← outer.child (Dotted.simple name) kind.entity.key).text) = _
      rw [own]
      rfl

theorem declaredAs_unmarked (enclosing : Option Identifier) {name : String}
    (unmarked : Dotted.Unmarked name) (kinds : List EntityKind) :
    ∃ found, model.declaredAs enclosing name kinds = .ok found := by
  induction kinds with
  | nil => exact ⟨none, rfl⟩
  | cons kind rest ih =>
      obtain ⟨candidate, made, _⟩ := candidate_unmarked enclosing kind unmarked
      refine Steps.bind_passes ⟨candidate, made⟩ fun id _ => ?_
      by_cases declared : model.hasKind id.text kind = true
      · rw [if_pos declared]
        exact ⟨some id, rfl⟩
      · rw [if_neg declared]
        exact ih

theorem declaredBySegments_unmarked (segments : List String)
    (unmarked : ∀ segment ∈ segments, Dotted.Unmarked segment) :
    ∃ found, model.declaredBySegments segments = .ok found := by
  induction segments with
  | nil => exact ⟨none, rfl⟩
  | cons simple outer ih =>
      have around := ih fun segment member => unmarked segment (List.mem_cons_of_mem simple member)
      unfold declaredBySegments
      extract_lets name rest
      have whole : Dotted.Unmarked name :=
        Dotted.unmarked_join fun segment member => unmarked segment (List.mem_reverse.mp member)
      have inside (enclosing : Option Identifier) : ∃ found, rest enclosing = .ok found := by
        refine Steps.bind_passes (model.declaredAs_unmarked enclosing whole _) fun found _ => ?_
        cases found with
        | some id => exact ⟨some id, rfl⟩
        | none =>
            obtain ⟨id, made, _⟩ := candidate_unmarked enclosing .classType whole
            dsimp only
            split
            · rw [made]
              exact ⟨some id, rfl⟩
            · exact ⟨none, rfl⟩
      by_cases outermost : Dotted.join outer.reverse = ""
      · rw [if_pos outermost]
        exact inside none
      · rw [if_neg outermost]
        exact Steps.bind_passes around fun enclosing _ => inside enclosing

theorem declaredType_unmarked {name : String} (unmarked : Dotted.Unmarked name) :
    ∃ found, model.declaredType name = .ok found :=
  model.declaredBySegments_unmarked _ fun _ member => unmarked.segment (List.mem_reverse.mp member)

theorem enclosingType_unmarked {name : String} (unmarked : Dotted.Unmarked name) :
    ∃ found, model.enclosingType name = .ok found := by
  unfold enclosingType
  by_cases outermost : Dotted.outer name = ""
  · exact ⟨none, by simp only [outermost, if_true]⟩
  · simp only [outermost, if_false]
    exact model.declaredType_unmarked unmarked.outer

theorem isResolved_unmarked {type : TypeRef}
    (unmarked : ∀ name ∈ type.referencedName?, Dotted.Unmarked name) :
    ∃ answer, model.isResolved type = .ok answer := by
  unfold isResolved
  split
  · exact ⟨true, rfl⟩
  · rename_i name referenced
    split
    · exact ⟨true, rfl⟩
    · refine Steps.bind_passes (model.declaredType_unmarked (unmarked name referenced)) ?_
      exact fun found _ => ⟨found.isSome, rfl⟩

/-- A reference by name is bound to the text of an identifier of the kind it expects. -/
theorem bind_named (kind : NamedKind) {name : String} (unmarked : Dotted.Unmarked name) :
    ∃ (bound : TypeRef) (id : Identifier),
      model.bind (.named kind name none) = .ok bound ∧ bound.text = .ok id.text ∧
      id.strongestQualifier = .ok kind.entity.key ∧ bound.referencedName? = some name := by
  obtain ⟨enclosing, found⟩ := model.enclosingType_unmarked unmarked
  have bound : model.bind (.named kind name none) =
      .ok (.named kind name (enclosing.map Identifier.text)) := by
    rw [bind, found]
    rfl
  obtain ⟨id, made, strongest⟩ := candidate_unmarked enclosing kind.entity unmarked
  exact ⟨_, id, bound, text_of_candidate made, strongest, rfl⟩

theorem bind_plain {type : TypeRef} (plain : type.isPlain = true) :
    ∃ bound text, model.bind type = .ok bound ∧ bound.text = .ok text ∧
      ∀ name ∈ bound.referencedName?, Dotted.Unmarked name := by
  induction type with
  | primitive name => exact ⟨_, _, rfl, rfl, nofun⟩
  | named kind name enclosing =>
      obtain ⟨open_end, unmarked⟩ := Bool.and_eq_true_iff.mp plain
      obtain rfl := Option.isNone_iff_eq_none.mp open_end
      have unmarked := of_decide_eq_true unmarked
      obtain ⟨bound, id, made, text, _, referenced⟩ := model.bind_named kind unmarked
      refine ⟨bound, id.text, made, text, ?_⟩
      rintro other same
      rw [referenced] at same
      exact Option.some.inj same ▸ unmarked
  | array element dimensions ih =>
      obtain ⟨bound, text, made, written, unmarked⟩ := ih plain
      refine ⟨.array bound dimensions,
        TypeRef.arrayStart ++ Text.decimal dimensions ++ ":" ++ text, ?_, ?_, unmarked⟩
      · rw [bind, made]
        rfl
      · rw [TypeRef.text, written]
        rfl

theorem resolve_of_bind {type bound : TypeRef} {text : String} (made : model.bind type = .ok bound)
    (written : bound.text = .ok text)
    (unmarked : ∀ name ∈ bound.referencedName?, Dotted.Unmarked name) :
    ∃ unknown, model.resolve type = .ok (text, unknown) := by
  obtain ⟨answer, resolved⟩ := model.isResolved_unmarked unmarked
  refine ⟨if answer then none else bound.referencedName?, ?_⟩
  simp only [resolve, Steps.bind_ok_iff]
  exact ⟨bound, made, answer, resolved, text, written, rfl⟩

theorem resolve_plain {type : TypeRef} (plain : type.isPlain = true) :
    ∃ text unknown, model.resolve type = .ok (text, unknown) := by
  obtain ⟨bound, text, made, written, unmarked⟩ := model.bind_plain plain
  exact ⟨text, model.resolve_of_bind made written unmarked⟩

theorem resolve_refersTo {type : TypeRef} {kind : EntityKind} (plain : type.isPlain = true)
    (refers : type.refersTo kind = true) :
    ∃ text unknown, model.resolve type = .ok (text, unknown) ∧ Carries text kind := by
  cases type with
  | primitive => cases refers
  | array => cases refers
  | named found name enclosing =>
      obtain rfl : found.entity = kind := of_decide_eq_true refers
      obtain ⟨open_end, unmarked⟩ := Bool.and_eq_true_iff.mp plain
      obtain rfl := Option.isNone_iff_eq_none.mp open_end
      have unmarked := of_decide_eq_true unmarked
      obtain ⟨bound, id, made, written, strongest, referenced⟩ :=
        model.bind_named found unmarked
      have known : ∀ other ∈ bound.referencedName?, Dotted.Unmarked other := by
        rintro other same
        rw [referenced] at same
        exact Option.some.inj same ▸ unmarked
      obtain ⟨unknown, resolved⟩ := model.resolve_of_bind made written known
      exact ⟨id.text, unknown, resolved, Identifier.carries strongest⟩

end Model

end CodeFacts

import CodeFacts.Ontology.Basic
import CodeFacts.Proofs.Steps

/-!
What an ontology accepts, said of its rules alone: the rules filed under a predicate are those that
have it, so a triple is accepted just if one of all rules has its predicate and fits it.
-/

namespace CodeFacts.Ontology

/-- Under each predicate stand the rules that have it. -/
def Filed (ontology : Ontology) : Prop :=
  ontology.byPredicate.Files Relation.predicate ontology.relations

theorem filed_empty : empty.Filed := Index.files_empty _

theorem Filed.define {ontology next : Ontology} (filed : ontology.Filed) {relation : Relation}
    (defined : ontology.define relation = .ok next) :
    next.Filed ∧ next.relations = ontology.relations ++ [relation] := by
  unfold Ontology.define at defined
  split at defined
  · cases defined
  · cases defined
    exact ⟨Index.Files.file filed relation, rfl⟩

theorem Filed.defineAll (relations : List Relation) {ontology : Ontology}
    (filed : ontology.Filed) : (ontology.defineAll relations).1.Filed := by
  induction relations generalizing ontology with
  | nil => exact filed
  | cons relation rest ih =>
      unfold Ontology.defineAll
      cases defined : ontology.define relation with
      | error fault => exact filed
      | ok next => exact ih (filed.define defined).1

theorem Filed.mem_relationsFor {ontology : Ontology} (filed : ontology.Filed)
    (predicate : String) (relation : Relation) :
    relation ∈ ontology.relationsFor predicate ↔
      relation ∈ ontology.relations ∧ relation.predicate = predicate :=
  Index.Files.mem_find filed predicate relation

variable {ontology : Ontology} {subject predicate : String} {test : Relation → Bool}
  {otherwise : ValidationFault}

theorem mem_of_candidates {fitting : List Relation}
    (found : ontology.candidates subject predicate = .ok fitting) :
    fitting = (ontology.relationsFor predicate).filter (·.acceptsSubject subject) := by
  unfold candidates at found
  split at found
  · cases found
  · split at found
    · cases found
    · cases found
      rfl

theorem candidates_of_mem {relation : Relation}
    (filed : relation ∈ ontology.relationsFor predicate)
    (fits : relation.acceptsSubject subject = true) :
    ∃ fitting, ontology.candidates subject predicate = .ok fitting ∧ relation ∈ fitting := by
  have kept : relation ∈ (ontology.relationsFor predicate).filter (·.acceptsSubject subject) :=
    List.mem_filter.mpr ⟨filed, fits⟩
  unfold candidates
  split
  · rename_i none
    rw [none] at filed
    cases filed
  · split
    · rename_i none
      rw [none] at kept
      cases kept
    · exact ⟨_, rfl, kept⟩

theorem firstCandidate_sound {relation : Relation}
    (found : ontology.firstCandidate subject predicate test otherwise = .ok relation) :
    relation ∈ ontology.relationsFor predicate ∧ relation.acceptsSubject subject = true ∧
      test relation = true := by
  simp only [firstCandidate, Steps.bind_ok_iff] at found
  obtain ⟨fitting, candidates, found⟩ := found
  split at found
  · rename_i first located
    rw [Steps.pure_ok_iff] at found
    subst found
    have member := List.mem_of_find?_eq_some located
    rw [mem_of_candidates candidates] at member
    obtain ⟨filed, fits⟩ := List.mem_filter.mp member
    exact ⟨filed, fits, List.find?_some located⟩
  · cases found

theorem firstCandidate_complete {relation : Relation}
    (filed : relation ∈ ontology.relationsFor predicate)
    (fits : relation.acceptsSubject subject = true) (passes : test relation = true) :
    ∃ first, ontology.firstCandidate subject predicate test otherwise = .ok first := by
  obtain ⟨fitting, candidates, member⟩ := candidates_of_mem filed fits
  have located : (fitting.find? test).isSome = true :=
    List.find?_isSome.mpr ⟨relation, member, passes⟩
  obtain ⟨first, located⟩ := Option.isSome_iff_exists.mp located
  refine ⟨first, Steps.bind_ok_iff.mpr ⟨fitting, candidates, ?_⟩⟩
  rw [located]
  rfl

/-- Whether a rule of an ontology has a predicate, fits a subject and passes a test. -/
def Allows (ontology : Ontology) (subject predicate : String) (test : Relation → Bool) : Prop :=
  ∃ relation ∈ ontology.relations, relation.predicate = predicate ∧
    relation.acceptsSubject subject = true ∧ test relation = true

theorem Filed.firstCandidate_iff (filed : ontology.Filed) :
    (∃ relation, ontology.firstCandidate subject predicate test otherwise = .ok relation) ↔
      ontology.Allows subject predicate test := by
  constructor
  · rintro ⟨relation, found⟩
    obtain ⟨member, fits, passes⟩ := firstCandidate_sound found
    obtain ⟨defined, same⟩ := (filed.mem_relationsFor predicate relation).mp member
    exact ⟨relation, defined, same, fits, passes⟩
  · rintro ⟨relation, defined, same, fits, passes⟩
    have member := (filed.mem_relationsFor predicate relation).mpr ⟨defined, same⟩
    exact firstCandidate_complete member fits passes

end CodeFacts.Ontology

import CodeFacts.Ontology.Profile
import CodeFacts.Proofs.Identifier
import CodeFacts.Proofs.Ontology.Rules
import Mathlib.Data.List.Nodup

/-!
What the rules of a model of Java code accept, said of kinds. The pattern of a rule is met through
the text of an identifier, which ends with the qualifier of its last fragment whatever stands
before it.
-/

namespace CodeFacts

/-- What a text ends with is looked for behind its first hash mark alone. -/
theorem qualifierPattern_behind {text : String} {start path : List Char}
    (whole : text.toList = start ++ '#' :: path) (absent : '#' ∉ start) :
    qualifierPattern text =
      ((Text.splitOn '.' path).reverse.findSome? (Text.cut ':')).elim (String.ofList path)
        fun cut => String.ofList (cut.1 ++ [':']) := by
  rw [qualifierPattern, whole, Text.cut_append_mark path absent]
  dsimp only
  cases (Text.splitOn '.' path).reverse.findSome? (Text.cut ':') with
  | none => rfl
  | some => rfl

/-- Whether a text goes on behind the space of the model with a qualifier in its first section, and
with another as the last one that is written in a later section. -/
def Shows (text first : String) (later : Option String) : Prop :=
  ∃ path part rest, text.toList = modelSpace.toList ++ path ∧
    Text.splitOn '.' path = part :: rest ∧
    (Text.cut ':' part).map Prod.fst = some first.toList ∧
    (rest.reverse.findSome? (Text.cut ':')).map Prod.fst = later.map String.toList

theorem Shows.pattern {text first : String} {later : Option String}
    (shows : Shows text first later) : qualifierPattern text = later.getD first ++ ":" := by
  obtain ⟨path, part, rest, whole, parts, head, tail⟩ := shows
  have space : modelSpace.toList = "http://www.rdfcoder.org/2007/1.0".toList ++ ['#'] := by
    decide +kernel
  rw [space, List.append_assoc, List.singleton_append] at whole
  have last : ((part :: rest).reverse.findSome? (Text.cut ':')).map Prod.fst =
      some (later.getD first).toList := by
    rw [List.reverse_cons, List.findSome?_append, Option.map_or, tail, List.findSome?_singleton,
      head]
    cases later <;> rfl
  obtain ⟨cut, found, same⟩ := Option.map_eq_some_iff.mp last
  rw [qualifierPattern_behind whole (by decide +kernel), parts, found, Option.elim_some, same]
  apply String.toList_injective
  simp

namespace Identifier

/-- The last qualifier written in some sections, or the one before them where none is written, is
that of the last fragment. -/
theorem lastQualifier_sectionTexts (fragments : List Fragment) (current : Option String) :
    (((sectionTexts current fragments).reverse.findSome? (Text.cut ':')).map Prod.fst).or
        (current.map String.toList) =
      (fragments.getLast?.map (·.qualifier.toList)).or (current.map String.toList) := by
  induction fragments generalizing current with
  | nil => rfl
  | cons fragment rest ih =>
      have name := (reservedMark?_eq_none_iff _).mp fragment.name_plain
      have behind := ih (some fragment.qualifier)
      rw [List.getLast?_cons, Option.map_some, Option.some_or]
      rw [sectionTexts, List.reverse_cons, List.findSome?_append]
      cases written : (sectionTexts (some fragment.qualifier) rest).reverse.findSome?
          (Text.cut ':') with
      | some parts =>
          rw [written] at behind
          cases last : rest.getLast? <;> simp_all
      | none =>
          have inherited : (rest.getLast?.getD fragment).qualifier = fragment.qualifier := by
            rw [written] at behind
            cases last : rest.getLast? with
            | none => rfl
            | some other =>
                rw [last] at behind
                exact (String.toList_injective (Option.some.inj behind)).symm
          rw [inherited]
          by_cases left_out : current = some fragment.qualifier
          · have uncut := Text.cut_eq_none_iff.mpr name.2.1
            simp [left_out, uncut]
          · have found := fragment.cut_text
            simp [left_out, found]

/-- The text of an identifier has the qualifier of its last fragment. -/
theorem qualifierPattern_text {id : Identifier} {qualifier : String}
    (strongest : id.strongestQualifier = .ok qualifier) :
    qualifierPattern id.text = qualifier ++ ":" := by
  obtain ⟨start, ends, absent⟩ := id.space.toList_eq
  have whole : id.text.toList = start ++ '#' :: id.path := by
    rw [toList_text, ends, List.append_assoc]
    rfl
  unfold strongestQualifier at strongest
  cases last : id.fragments.getLast? with
  | none =>
      rw [last] at strongest
      cases strongest
  | some fragment =>
      rw [last] at strongest
      have some_fragment : id.fragments ≠ [] := by
        rintro none
        rw [none] at last
        cases last
      have parts : Text.splitOn '.' id.path = sectionTexts none id.fragments := by
        refine Text.splitOn_joinWith ?_ (sectionTexts_undotted none _)
        cases shape : id.fragments with
        | nil => exact absurd shape some_fragment
        | cons => exact List.cons_ne_nil _ _
      have sections := lastQualifier_sectionTexts id.fragments none
      rw [last, Option.map_none, Option.or_none, Option.or_none, Option.map_some] at sections
      obtain ⟨found, written, same⟩ := Option.map_eq_some_iff.mp sections
      rw [qualifierPattern_behind whole absent, parts, written, Option.elim_some, same,
        ← Except.ok.inj strongest]
      apply String.toList_injective
      simp

/-- The rules take every identifier for what its last fragment is, whatever its space and wherever
the qualifier of that is written; one without fragments ends with nothing. -/
theorem qualifierPattern_eq_strongest (id : Identifier) :
    (id.fragments ≠ [] → ∃ qualifier, id.strongestQualifier = .ok qualifier ∧
        qualifierPattern id.text = qualifier ++ ":") ∧
      (id.fragments = [] → qualifierPattern id.text = "") := by
  constructor
  · intro filled
    have last : id.strongestQualifier = .ok (id.fragments.getLast filled).qualifier := by
      rw [strongestQualifier, List.getLast?_eq_some_getLast filled]
    exact ⟨_, last, qualifierPattern_text last⟩
  · intro none
    obtain ⟨start, ends, absent⟩ := id.space.toList_eq
    have whole : id.text.toList = start ++ '#' :: [] := by
      rw [toList_text, ends, path, none]
      simp [sectionTexts, Text.joinWith]
    rw [qualifierPattern_behind whole absent]
    rfl

/-- The qualifier of the last fragment need not be written beside it, and the space may have dots
and colons of its own. -/
theorem qualifierPattern_nestedClass :
    ∃ id : Identifier, id.text = "urn:a.b:c.#jpackage:p.jclass:A.B" ∧
      id.fragments.map (·.name) = ["p", "A", "B"] ∧ qualifierPattern id.text = "jclass:" ∧
      qualifierPattern (text ⟨id.space, []⟩) = "" := by
  let inner (name : String) (plain : reservedMark? name = none) : Fragment :=
    ⟨name, "jclass", plain, by decide +kernel, by decide +kernel⟩
  let id : Identifier := ⟨⟨"urn:a.b:c.#", by decide +kernel⟩,
    [⟨"p", "jpackage", by decide +kernel, by decide +kernel, by decide +kernel⟩,
      inner "A" (by decide +kernel), inner "B" (by decide +kernel)]⟩
  obtain ⟨qualifier, strongest, pattern⟩ :=
    (qualifierPattern_eq_strongest id).1 (List.cons_ne_nil _ _)
  obtain rfl : "jclass" = qualifier := Except.ok.inj strongest
  exact ⟨id, by decide +kernel, rfl, pattern,
    (qualifierPattern_eq_strongest ⟨id.space, []⟩).2 rfl⟩

end Identifier

/-- Whether a text is that of an entity of a kind, as the patterns of rules see it. -/
structure Carries (text : String) (kind : EntityKind) : Prop where
  filled : text ≠ ""
  pattern : qualifierPattern text = kind.pattern

theorem Identifier.carries {id : Identifier} {kind : EntityKind}
    (strongest : id.strongestQualifier = .ok kind.key) : Carries id.text kind where
  filled := by
    intro empty
    obtain ⟨start, ends, _⟩ := id.space.toList_eq
    have none := congrArg String.toList empty
    rw [toList_text, ends] at none
    simp at none
  pattern := Identifier.qualifierPattern_text strongest

/-- Whether no part of a rule is missing. -/
def Relation.isWhole (relation : Relation) : Bool :=
  relation.subject != "" && relation.predicate != "" && relation.target != .resource ""

namespace Ontology

/-- Rules of which no part is missing and none is there twice are all added. -/
theorem Filed.defineAll_relations (relations : List Relation) {ontology : Ontology}
    (filed : ontology.Filed) (whole : relations.all Relation.isWhole = true)
    (distinct : (ontology.relations ++ relations).Nodup) :
    (ontology.defineAll relations).1.relations = ontology.relations ++ relations := by
  induction relations generalizing ontology with
  | nil => exact (List.append_nil _).symm
  | cons relation rest ih =>
      obtain ⟨formed, later⟩ := Bool.and_eq_true_iff.mp whole
      simp only [Relation.isWhole, Bool.and_eq_true, bne_iff_ne] at formed
      have absent : relation ∉ ontology.byPredicate.find relation.predicate := by
        intro filed_before
        have member := ((filed.mem_relationsFor _ _).mp filed_before).1
        exact (List.nodup_append.mp distinct).2.2 relation member relation List.mem_cons_self rfl
      have accepted : ontology.definitionFault? relation = none := by
        rw [definitionFault?, if_neg (not_or.mpr formed.1), if_neg formed.2, if_neg absent]
      have defined : ontology.define relation =
          .ok ⟨ontology.relations ++ [relation],
            ontology.byPredicate.file relation.predicate relation⟩ := by
        rw [Ontology.define, accepted]
      rw [← List.singleton_append, ← List.append_assoc] at distinct
      have added := ih (filed.define defined).1 later distinct
      rw [List.append_assoc, List.singleton_append] at added
      rw [Ontology.defineAll, defined]
      exact added

theorem filed_ofRelations (relations : List Relation) : (ofRelations relations).Filed :=
  filed_empty.defineAll relations

theorem relations_ofRelations {relations : List Relation}
    (whole : relations.all Relation.isWhole = true) (distinct : relations.Nodup) :
    (ofRelations relations).relations = relations :=
  filed_empty.defineAll_relations relations whole distinct

theorem java_filed : java.Filed := by
  unfold java
  exact filed_ofRelations (libraryRelations ++ structureRelations)

/-- No rule of the profile is refused, for no two have the same predicate and subject. -/
theorem java_relations : java.relations = libraryRelations ++ structureRelations := by
  have whole : (libraryRelations ++ structureRelations).all Relation.isWhole = true := by
    decide +kernel
  have distinct : ((libraryRelations ++ structureRelations).map fun relation =>
      (relation.predicate, relation.subject)).Nodup := by
    decide +kernel
  unfold java
  exact relations_ofRelations whole distinct.of_map

theorem pattern_of_pattern (kind : EntityKind) : qualifierPattern kind.pattern = kind.pattern := by
  cases kind <;> decide +kernel

variable {subject object : String} {kind other : EntityKind} {predicate : Predicate}

theorem java_allows {relation : Relation} {test : Relation → Bool}
    (rule : relation ∈ structureRelations) (carries : Carries subject kind)
    (starts : relation.subject = kind.pattern) (passes : test relation = true) :
    java.Allows subject relation.predicate test := by
  refine ⟨relation, ?_, rfl, ?_, passes⟩
  · rw [java_relations]
    exact List.mem_append_right _ rule
  · rw [Relation.acceptsSubject, starts, pattern_of_pattern, carries.pattern]
    exact beq_self_eq_true _

theorem java_allows_link (rule : linkRule kind predicate other ∈ structureRelations)
    (carries : Carries subject kind) (leads : Carries object other) :
    java.Allows subject predicate.uri (·.acceptsResource object) := by
  refine java_allows rule carries rfl ?_
  simp [Relation.acceptsResource, linkRule, pattern_of_pattern, leads.pattern]

theorem java_allows_note (rule : noteRule kind predicate ∈ structureRelations)
    (carries : Carries subject kind) :
    java.Allows subject predicate.uri (·.acceptsLiteral) :=
  java_allows rule carries rfl rfl

theorem java_allows_kind (carries : Carries subject kind) :
    java.Allows subject Predicate.subClassOf.uri (·.acceptsResource kind.uri) := by
  have listed : kind ∈ EntityKind.all := by cases kind <;> decide
  have rule : ⟨kind.pattern, Predicate.subClassOf.uri, .resource kind.uri⟩ ∈
      structureRelations := by
    unfold structureRelations kindRelations
    simp only [List.mem_append, List.mem_map]
    exact .inl (.inl (.inl ⟨kind, listed, rfl⟩))
  refine java_allows rule carries rfl ?_
  simp [Relation.acceptsResource]

/-! Which entities hold which, refer to which, and carry which literals. -/

/-- Whether entities of a kind may stand directly inside those of another. -/
def Holds (container kind : EntityKind) : Prop :=
  linkRule container (.contains kind) kind ∈ structureRelations

theorem structure_of_containment {relation : Relation}
    (rule : relation ∈ containmentRelations) : relation ∈ structureRelations :=
  List.mem_append_left _ (List.mem_append_left _ (List.mem_append_right _ rule))

theorem structure_of_hierarchy {relation : Relation} (rule : relation ∈ hierarchyRelations) :
    relation ∈ structureRelations :=
  List.mem_append_left _ (List.mem_append_right _ rule)

theorem holds_package : Holds .package .package := by
  apply structure_of_containment
  simp [containmentRelations]

theorem holds_type {container : EntityKind} (around : container ∈ .package :: EntityKind.types)
    (type : kind ∈ EntityKind.types) : Holds container kind := by
  apply structure_of_containment
  simp only [containmentRelations, List.mem_append, List.mem_flatMap, List.mem_map]
  exact .inl (.inl (.inr ⟨container, around, kind, type, rfl⟩))

theorem holds_member {container : EntityKind} (type : container ∈ EntityKind.types)
    (member : kind ∈ [EntityKind.attribute, .method]) : Holds container kind := by
  apply structure_of_containment
  simp only [containmentRelations, List.mem_append, List.mem_flatMap]
  refine .inl (.inr ⟨container, type, ?_⟩)
  rcases List.mem_pair.mp member with rfl | rfl
  · exact List.mem_cons_self
  · exact List.mem_cons_of_mem _ List.mem_cons_self

theorem holds_constructor {container : EntityKind}
    (constructible : container ∈ [EntityKind.classType, .enumeration]) :
    Holds container .constructor := by
  apply structure_of_containment
  rcases List.mem_pair.mp constructible with rfl | rfl <;> simp [containmentRelations]

theorem holds_signature {container : EntityKind}
    (executable : container ∈ [EntityKind.constructor, .method]) :
    Holds container .signature := by
  apply structure_of_containment
  rcases List.mem_pair.mp executable with rfl | rfl <;> simp [containmentRelations]

theorem holds_parameter : Holds .signature .parameter := by
  apply structure_of_containment
  simp [containmentRelations]

theorem java_allows_containment {container : EntityKind} (holds : Holds container kind)
    (around : Carries subject container) (carries : Carries object kind) :
    java.Allows subject (Predicate.contains kind).uri (·.acceptsResource object) :=
  java_allows_link holds around carries

theorem note_declared (declared : kind ∈ declaredKinds) :
    noteRule kind .hasVisibility ∈ structureRelations ∧
      noteRule kind .hasModifiers ∈ structureRelations := by
  simp only [structureRelations, literalRelations, List.mem_append, List.mem_flatMap]
  refine ⟨.inr (.inl ⟨kind, declared, ?_⟩), .inr (.inl ⟨kind, declared, ?_⟩)⟩
  · exact List.mem_cons_self
  · exact List.mem_cons_of_mem _ List.mem_cons_self

theorem java_allows_elements (carries : Carries subject .enumeration) (size : Nat) :
    java.Allows subject Predicate.containsElement.uri (·.acceptsCollection size) := by
  have rule : ⟨EntityKind.enumeration.pattern, Predicate.containsElement.uri,
      .collection Bounds.atLeastZero⟩ ∈ structureRelations := by
    unfold structureRelations containmentRelations
    simp
  exact java_allows rule carries rfl rfl

end Ontology

end CodeFacts

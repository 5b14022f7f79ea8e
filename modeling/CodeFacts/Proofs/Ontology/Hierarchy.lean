import CodeFacts.Proofs.Resolve

/-!
Which types may be extended, implemented and thrown. The rules see a type by the last qualifier in
its text, so every kind of reference is traced to the qualifiers it is written with. The text of an
array holds another one whole, which is where rules and types come apart.
-/

namespace CodeFacts

/-- The text of an array repeats the space of the model, whose dots begin new sections: the first
qualifier of its elements is written behind the last dot of the space. -/
theorem Shows.array {text first : String} {later : Option String}
    (shows : Shows text first later) (dimensions : Int) :
    Shows (TypeRef.arrayStart ++ Text.decimal dimensions ++ ":" ++ text) arrayKey
      (some (later.getD ("0#" ++ first))) := by
  obtain ⟨path, part, rest, whole, parts, head, tail⟩ := shows
  obtain ⟨⟨before, after⟩, cut, same⟩ := Option.map_eq_some_iff.mp head
  obtain rfl : before = first.toList := same
  obtain ⟨rfl, colon⟩ := Text.eq_of_cut cut
  -- The dots of the inner space, at which the text falls into four sections.
  have space : modelSpace.toList = "http://www".toList ++ '.' :: ("rdfcoder".toList ++
      '.' :: ("org/2007/1".toList ++ '.' :: "0#".toList)) := by decide +kernel
  let start := arrayKey.toList ++ ':' :: ((Text.decimal dimensions).toList ++ ":http://www".toList)
  let last := "0#".toList ++ (first.toList ++ ':' :: after)
  have undotted : '.' ∉ start := by
    have count : '.' ∉ (Text.decimal dimensions).toList := fun member =>
      (Text.decimal_unmarked dimensions '.' member).1 rfl
    simpa [start, count] using (by decide +kernel : '.' ∉ arrayKey.toList)
  have behind : Text.splitOn '.' ("0#".toList ++ path) = last :: rest :=
    Text.splitOn_part_append (by decide +kernel) parts
  refine ⟨start ++ '.' :: ("rdfcoder".toList ++ '.' :: ("org/2007/1".toList ++
      '.' :: ("0#".toList ++ path))), start,
    "rdfcoder".toList :: "org/2007/1".toList :: last :: rest, ?_, ?_, ?_, ?_⟩
  · simp [TypeRef.arrayStart, resource, whole, space, start]
  · rw [Text.splitOn_append_mark _ undotted, Text.splitOn_append_mark _ (by decide +kernel),
      Text.splitOn_append_mark _ (by decide +kernel), behind]
  · rw [Text.cut_append_mark _ (by decide +kernel)]
    rfl
  · have shown : (Text.cut ':' last).map Prod.fst = some ("0#" ++ first).toList := by
      have unmarked : ':' ∉ "0#".toList ++ first.toList := by simpa using colon
      simp only [last]
      rw [← List.append_assoc, Text.cut_append_mark _ unmarked, String.toList_append]
      rfl
    simp only [List.reverse_cons, List.append_assoc, List.findSome?_append, Option.map_or, tail,
      List.findSome?_singleton, shown]
    cases later <;> rfl

namespace Identifier

/-- An identifier shows the qualifier of its first fragment, and later the last one that is written
behind it. -/
theorem shows_sections (first : Fragment) (rest : List Fragment) {later : Option String}
    (written : ((sectionTexts (some first.qualifier) rest).reverse.findSome? (Text.cut ':')).map
      Prod.fst = later.map String.toList) :
    Shows (text { empty with fragments := first :: rest }) first.qualifier later := by
  refine ⟨_, _, _, toList_text _, Text.splitOn_joinWith (List.cons_ne_nil _ _)
    (sectionTexts_undotted none (first :: rest)), ?_, written⟩
  rw [if_neg (by simp), first.cut_text]
  rfl

theorem shows_single (fragment : Fragment) :
    Shows (text { empty with fragments := [fragment] }) fragment.qualifier none :=
  shows_sections fragment [] rfl

/-- The qualifier of the last fragment is written, if it is another one than that of the first. -/
theorem shows_last (first : Fragment) (rest : List Fragment) {last : Fragment}
    (other : last.qualifier ≠ first.qualifier) :
    Shows (text { empty with fragments := first :: (rest ++ [last]) }) first.qualifier
      (some last.qualifier) := by
  have ends := lastQualifier_sectionTexts (rest ++ [last]) (some first.qualifier)
  rw [List.getLast?_concat, Option.map_some, Option.map_some, Option.some_or] at ends
  apply shows_sections
  rcases Option.or_eq_some_iff.mp ends with written | ⟨_, inherited⟩
  · exact written
  · exact absurd (String.toList_injective (Option.some.inj inherited)).symm other

end Identifier

namespace TypeRef

/-- Whether a type is an array whose innermost elements are referred to by a name in a package, as
entities of a kind. -/
inductive ArrayOf (kind : EntityKind) : TypeRef → Prop
  | elements {found : NamedKind} {name : String} {enclosing : Option String} {dimensions : Int}
      (expects : found.entity = kind) (packaged : Dotted.outer name ≠ "") :
      ArrayOf kind (.array (.named found name enclosing) dimensions)
  | nested {element : TypeRef} {dimensions : Int} (inner : ArrayOf kind element) :
      ArrayOf kind (.array element dimensions)

/-- Whether a type is primitive, referred to by a name without marks but dots, or an array of such
types. -/
def Referable : TypeRef → Prop
  | .primitive name => name ∈ primitiveNames
  | .named _ name enclosing => enclosing = none ∧ Dotted.Proper name
  | .array element _ => element.Referable

/-- The qualifier the text of a type begins with. -/
def firstQualifier : TypeRef → String
  | .primitive _ => primitiveKey
  | .named kind name _ =>
      if Dotted.outer name = "" then kind.entity.key else EntityKind.package.key
  | .array _ _ => arrayKey

/-- The last qualifier that is written in the text of a type behind its first section. -/
def laterQualifier? : TypeRef → Option String
  | .primitive _ => none
  | .named kind name _ => if Dotted.outer name = "" then none else some kind.entity.key
  | .array element _ => some (element.laterQualifier?.getD ("0#" ++ element.firstQualifier))

/-- A type is in no package just if its name has no outer part. -/
theorem packages_eq_nil_iff {name : String} (filled : "" ∉ Dotted.segments name)
    {packages : List Fragment} {last : Fragment}
    (names : (packages ++ [last]).map (·.name) = Dotted.segments name) :
    packages = [] ↔ Dotted.outer name = "" := by
  rw [Dotted.segments_eq_of_filled filled, List.map_append] at names
  have outer : packages.map (·.name) = _ := List.append_inj_left' names rfl
  rw [← List.map_eq_nil_iff, outer]
  split
  · simp [*]
  · simp [*, Dotted.segments_ne_nil]

theorem shows_named (kind : NamedKind) {name : String} (proper : Dotted.Proper name) :
    ∃ text, (named kind name none).text = .ok text ∧
      Shows text (named kind name none).firstQualifier (named kind name none).laterQualifier? := by
  obtain ⟨packages, last, made, names, outer, qualifier⟩ := ofTypeName_ok kind.entity proper.1
    fun segment member => proper.2.segment_plain member
  have unpackaged := packages_eq_nil_iff proper.1 names
  refine ⟨_, by rw [text, made]; rfl, ?_⟩
  cases packages with
  | nil =>
      have single := unpackaged.mp rfl
      rw [firstQualifier, laterQualifier?, if_pos single, if_pos single, ← qualifier]
      exact Identifier.shows_single last
  | cons package rest =>
      have packaged : Dotted.outer name ≠ "" := fun single =>
        List.cons_ne_nil _ _ (unpackaged.mpr single)
      have first := outer package List.mem_cons_self
      rw [firstQualifier, laterQualifier?, if_neg packaged, if_neg packaged, ← first, ← qualifier]
      refine Identifier.shows_last package rest fun same => ?_
      rw [qualifier, first] at same
      cases kind <;> cases EntityKind.key_injective same

/-- The text of a type shows the qualifiers of the type. -/
theorem shows_text {type : TypeRef} (referable : type.Referable) :
    ∃ text, type.text = .ok text ∧ Shows text type.firstQualifier type.laterQualifier? := by
  induction type with
  | primitive name =>
      have undotted : ∀ name ∈ primitiveNames, '.' ∉ (primitiveKey ++ ":" ++ name).toList := by
        decide +kernel
      refine ⟨primitiveText name, rfl, (primitiveKey ++ ":" ++ name).toList,
        (primitiveKey ++ ":" ++ name).toList, [], ?_, ?_, ?_, rfl⟩
      · simp [primitiveText, resource]
      · exact Text.splitOn_eq_singleton (undotted name referable)
      · have unmarked : ':' ∉ primitiveKey.toList := by decide +kernel
        simp [Text.cut_append_mark _ unmarked, firstQualifier]
  | named kind name enclosing =>
      obtain ⟨rfl, proper⟩ := referable
      exact shows_named kind proper
  | array element dimensions ih =>
      obtain ⟨text, written, shows⟩ := ih referable
      refine ⟨_, ?_, shows.array dimensions⟩
      rw [TypeRef.text, written]
      rfl

/-- A later section of the text of a type names a kind just if the type or, in an array, what its
innermost elements are, is an entity of that kind in a package. -/
theorem laterQualifier?_eq_some_iff {type : TypeRef} {kind : EntityKind} :
    type.laterQualifier? = some kind.key ↔
      (∃ found name enclosing, type = .named found name enclosing ∧ found.entity = kind ∧
        Dotted.outer name ≠ "") ∨ type.ArrayOf kind := by
  induction type with
  | primitive =>
      constructor
      · intro later
        cases later
      · rintro (⟨_, _, _, same, _⟩ | array)
        · cases same
        · cases array
  | named found name enclosing =>
      constructor
      · intro later
        by_cases single : Dotted.outer name = ""
        · rw [laterQualifier?, if_pos single] at later
          cases later
        · rw [laterQualifier?, if_neg single] at later
          exact .inl ⟨found, name, enclosing, rfl,
            EntityKind.key_injective (Option.some.inj later), single⟩
      · rintro (⟨_, _, _, same, rfl, packaged⟩ | array)
        · cases same
          rw [laterQualifier?, if_neg packaged]
        · cases array
  | array element dimensions ih =>
      have marked : "0#" ++ element.firstQualifier ≠ kind.key := by
        intro same
        have plain := ((reservedMark?_eq_none_iff _).mp kind.key_plain.1).2.2
        rw [← same] at plain
        simp at plain
      have inner : (array element dimensions).laterQualifier? = some kind.key ↔
          element.laterQualifier? = some kind.key := by
        rw [laterQualifier?]
        cases element.laterQualifier? <;> simp [marked]
      rw [inner, ih]
      constructor
      · rintro (⟨_, _, _, rfl, expects, packaged⟩ | inner)
        · exact .inr (.elements expects packaged)
        · exact .inr (.nested inner)
      · rintro (⟨_, _, _, same, _⟩ | array)
        · cases same
        · cases array with
          | elements expects packaged => exact .inl ⟨_, _, _, rfl, expects, packaged⟩
          | nested inner => exact .inr inner

/-- The text of a type ends with the qualifier of a kind just if the type is a reference to entities
of the kind, or an array of such in packages. -/
theorem pattern_iff {type : TypeRef} {kind : EntityKind} {text : String}
    (type_kind : kind ∈ EntityKind.types)
    (shows : Shows text type.firstQualifier type.laterQualifier?) :
    qualifierPattern text = kind.pattern ↔ type.refersTo kind = true ∨ type.ArrayOf kind := by
  rw [shows.pattern, EntityKind.pattern, String.append_left_inj]
  cases type with
  | primitive name =>
      have other : primitiveKey ≠ kind.key := by
        revert kind
        decide
      refine iff_of_false other ?_
      rintro (refers | array)
      · cases refers
      · cases array
  | named found name enclosing =>
      have expected : (named found name enclosing).laterQualifier?.getD
          (named found name enclosing).firstQualifier = found.entity.key := by
        by_cases single : Dotted.outer name = ""
        · rw [laterQualifier?, if_pos single, firstQualifier, if_pos single, Option.getD_none]
        · rw [laterQualifier?, if_neg single, Option.getD_some]
      rw [expected, refersTo, decide_eq_true_eq]
      constructor
      · intro same
        exact .inl (EntityKind.key_injective same)
      · rintro (rfl | array)
        · rfl
        · cases array
  | array element dimensions =>
      have later : (array element dimensions).laterQualifier? = some kind.key ↔ _ :=
        laterQualifier?_eq_some_iff
      rw [laterQualifier?, Option.some_inj] at later
      have unnamed : (array element dimensions).refersTo kind = false := rfl
      rw [laterQualifier?, Option.getD_some, later, unnamed]
      simp

end TypeRef

namespace Ontology

/-- The rules about what types extend, implement and throw are the only ones of their predicates,
but for the subjects. -/
theorem java_hierarchy_target {rule relation : Relation} (listed : rule ∈ hierarchyRelations)
    (defined : relation ∈ java.relations) (same : relation.predicate = rule.predicate) :
    relation.target = rule.target := by
  have all : ∀ rule ∈ hierarchyRelations, ∀ relation ∈ libraryRelations ++ structureRelations,
      relation.predicate = rule.predicate → relation.target = rule.target := by
    decide +kernel
  rw [java_relations] at defined
  exact all rule listed relation defined same

theorem java_hierarchy_iff {subject : Identifier} {kind other : EntityKind} {predicate : Predicate}
    {type : TypeRef} {text : String} (listed : linkRule kind predicate other ∈ hierarchyRelations)
    (strongest : subject.strongestQualifier = .ok kind.key) (type_kind : other ∈ EntityKind.types)
    (shows : Shows text type.firstQualifier type.laterQualifier?) :
    (∃ relation, java.validateResource subject.text predicate.uri text = .ok relation) ↔
      type.refersTo other = true ∨ type.ArrayOf other := by
  rw [← TypeRef.pattern_iff type_kind shows, validateResource, java_filed.firstCandidate_iff]
  constructor
  · rintro ⟨relation, defined, same, _, accepts⟩
    have target := java_hierarchy_target listed defined same
    simp only [Relation.acceptsResource, target, linkRule, pattern_of_pattern, beq_iff_eq]
      at accepts
    exact accepts.symm
  · intro pattern
    refine java_allows (structure_of_hierarchy listed) (Identifier.carries strongest) rfl ?_
    simp [Relation.acceptsResource, linkRule, pattern_of_pattern, pattern]

/-- Of the types that can be referred to, the rules let a class extend those that are classes by
their name, and a signature throw these; a class or enumeration may implement those that are
interfaces, and an interface extend them. They take an array for what its innermost elements are,
if those are named in a package. -/
theorem java_hierarchy_accepts {type : TypeRef} (referable : type.Referable) :
    ∃ text, type.text = .ok text ∧ ∀ subject : Identifier,
      let accepts (predicate : Predicate) : Prop :=
        ∃ relation, java.validateResource subject.text predicate.uri text = .ok relation
      (subject.strongestQualifier = .ok EntityKind.classType.key →
        (accepts .extendsClass ↔
          type.refersTo .classType = true ∨ type.ArrayOf .classType)) ∧
      (subject.strongestQualifier = .ok EntityKind.signature.key →
        (accepts .throwsException ↔
          type.refersTo .classType = true ∨ type.ArrayOf .classType)) ∧
      (∀ kind ∈ [EntityKind.classType, .enumeration], subject.strongestQualifier = .ok kind.key →
        (accepts .implementsInterface ↔
          type.refersTo .interface = true ∨ type.ArrayOf .interface)) ∧
      (subject.strongestQualifier = .ok EntityKind.interface.key →
        (accepts .extendsInterface ↔
          type.refersTo .interface = true ∨ type.ArrayOf .interface)) := by
  obtain ⟨text, written, shows⟩ := TypeRef.shows_text referable
  refine ⟨text, written, fun subject => ⟨?_, ?_, ?_, ?_⟩⟩
  · intro strongest
    exact java_hierarchy_iff (by simp [hierarchyRelations]) strongest (by decide) shows
  · intro strongest
    exact java_hierarchy_iff (by simp [hierarchyRelations]) strongest (by decide) shows
  · intro kind listed strongest
    refine java_hierarchy_iff ?_ strongest (by decide) shows
    rcases List.mem_pair.mp listed with rfl | rfl <;> simp [hierarchyRelations]
  · intro strongest
    exact java_hierarchy_iff (by simp [hierarchyRelations]) strongest (by decide) shows

/-- Classes in no package, as the elements of arrays of arrays, are extended by no class. -/
theorem arrayOfUnpackaged_unextended :
    let type : TypeRef := .array (.array (.named .classType "B" none) 1) 2
    type.Referable ∧ ∃ text, type.text = .ok text ∧ ∀ subject : Identifier,
      subject.strongestQualifier = .ok EntityKind.classType.key →
        ¬∃ relation, java.validateResource subject.text Predicate.extendsClass.uri text =
          .ok relation := by
  intro type
  have referable : type.Referable := ⟨rfl, by decide +kernel⟩
  obtain ⟨text, written, accepts⟩ := java_hierarchy_accepts referable
  refine ⟨referable, text, written, fun subject strongest extended => ?_⟩
  rcases ((accepts subject).1 strongest).mp extended with refers | array
  · cases refers
  · change TypeRef.ArrayOf _ (.array (.array (.named .classType "B" none) 1) 2) at array
    cases array with
    | nested inner =>
        cases inner with
        | elements _ packaged => exact packaged (by decide +kernel)
        | nested inner => cases inner

/-- A class may extend the arrays of a class in a package, which are no classes. -/
theorem arrayInPackage_extended :
    let subject := "http://www.rdfcoder.org/2007/1.0#jclass:A"
    let type : TypeRef := .array (.named .classType "p.B" none) 1
    let object := "http://www.rdfcoder.org/2007/1.0#jarray:1:" ++
      "http://www.rdfcoder.org/2007/1.0#jpackage:p.jclass:B"
    (∃ id : Identifier, id.text = subject ∧
        id.strongestQualifier = .ok EntityKind.classType.key) ∧
      type.Referable ∧ type.refersTo .classType = false ∧ type.text = .ok object ∧
      ∃ relation, java.validateResource subject Predicate.extendsClass.uri object =
        .ok relation := by
  intro subject type object
  let id : Identifier := ⟨Space.model,
    [⟨"A", "jclass", by decide +kernel, by decide +kernel, by decide +kernel⟩]⟩
  have called : id.text = subject := by decide +kernel
  have strongest : id.strongestQualifier = .ok EntityKind.classType.key := rfl
  have referable : type.Referable := ⟨rfl, by decide +kernel⟩
  have written : type.text = .ok object := Steps.ok_of_toOption (by decide +kernel)
  obtain ⟨_, again, shows⟩ := TypeRef.shows_text referable
  obtain rfl := Except.ok.inj (written.symm.trans again)
  have listed : linkRule .classType .extendsClass .classType ∈ hierarchyRelations := by
    simp [hierarchyRelations]
  refine ⟨⟨id, called, strongest⟩, referable, rfl, written, ?_⟩
  rw [← called, java_hierarchy_iff listed strongest (by decide) shows]
  exact .inr (.elements rfl (by decide +kernel))

end Ontology

end CodeFacts

import CodeFacts.Proofs.Builder.Writes
import CodeFacts.Proofs.Event.Record
import CodeFacts.Proofs.Resolve
import CodeFacts.Proofs.Text.Integer
import CodeFacts.Proofs.Vocabulary

/-!
The additions of declarations against the rules of the profile. An addition fits where a rule allows
it by the kinds of its parts, whatever the store holds and the table knows; all additions of a
declaration fit where its container may hold it and its types refer to what they should.
-/

namespace CodeFacts

/-- Whether the rules of the profile accept an addition, in any store and with any known names. -/
def Write.Fits : Write → Prop
  | .resource subject predicate object =>
      subject ≠ "" ∧ object ≠ "" ∧
        Ontology.java.Allows subject predicate.uri (·.acceptsResource object)
  | .literal subject predicate value =>
      subject ≠ "" ∧ value.isText = true ∧
        Ontology.java.Allows subject predicate.uri (·.acceptsLiteral)
  | .elements subject predicate values =>
      subject ≠ "" ∧ (∀ value ∈ values, value.isText = true) ∧
        Ontology.java.Allows subject predicate.uri (·.acceptsCollection values.length)
  | .resourceType subject predicate type =>
      subject ≠ "" ∧ type.isPlain = true ∧ ∃ kind, type.refersTo kind = true ∧
        ∀ object, Carries object kind →
          Ontology.java.Allows subject predicate.uri (·.acceptsResource object)
  | .literalType subject predicate type =>
      subject ≠ "" ∧ type.isPlain = true ∧
        Ontology.java.Allows subject predicate.uri (·.acceptsLiteral)
  | .refuse _ => False

/-! An addition that fits is made. -/

namespace Ontology

variable {σ : Type} [TripleStore σ] (store : σ) {subject predicate object : String}

theorem java_validates {test : Relation → Bool} {otherwise : ValidationFault}
    (allows : java.Allows subject predicate test) :
    ∃ relation, java.firstCandidate subject predicate test otherwise = .ok relation :=
  java_filed.firstCandidate_iff.mpr allows

theorem java_addResource (some_subject : subject ≠ "") (some_predicate : predicate ≠ "")
    (some_object : object ≠ "")
    (allows : java.Allows subject predicate (·.acceptsResource object)) :
    ∃ next, java.addResource store (.text subject) (.text predicate) (.text object) =
      .ok next := by
  obtain ⟨relation, found⟩ := java_validates allows
  refine Steps.bind_passes ⟨relation, ?_⟩ fun _ _ =>
    ⟨TripleStore.insert store ⟨subject, predicate, object, false⟩, ?_⟩
  · rw [judgeObject, judge, validateResource, found]
    rfl
  · rw [Store.addResource, Store.resourceTriple, Store.checkTerm, if_neg some_subject,
      Store.checkTerm, if_neg some_predicate, Store.checkTerm, if_neg some_object]
    rfl

theorem literalTriple_text (some_subject : subject ≠ "") (some_predicate : predicate ≠ "")
    {value : Value} (text : value.isText = true) :
    ∃ triple, Store.literalTriple (.text subject) (.text predicate) value = .ok triple := by
  obtain ⟨given, rfl⟩ := Value.eq_text text
  refine ⟨⟨subject, predicate, given, true⟩, ?_⟩
  rw [Store.literalTriple, Store.checkTerm, if_neg some_subject, Store.checkTerm,
    if_neg some_predicate]
  rfl

theorem java_addLiteral (some_subject : subject ≠ "") (some_predicate : predicate ≠ "")
    {value : Value} (text : value.isText = true)
    (allows : java.Allows subject predicate (·.acceptsLiteral)) :
    ∃ next, java.addLiteral store (.text subject) (.text predicate) value = .ok next := by
  obtain ⟨relation, found⟩ := java_validates allows
  obtain ⟨triple, made⟩ := literalTriple_text some_subject some_predicate text
  refine Steps.bind_passes ⟨relation, ?_⟩ fun _ _ => ⟨TripleStore.insert store triple, ?_⟩
  · rw [judgeLiteral, judge, validateLiteral, found]
    rfl
  · rw [Store.addLiteral, made]
    rfl

theorem java_addCollection (some_subject : subject ≠ "") (some_predicate : predicate ≠ "")
    {values : List Value} (texts : ∀ value ∈ values, value.isText = true)
    (allows : java.Allows subject predicate (·.acceptsCollection values.length)) :
    ∃ next, java.addCollection store (.text subject) (.text predicate) (.list values) =
      .ok next := by
  obtain ⟨relation, found⟩ := java_validates allows
  have made := Steps.mapM_passes values fun value member =>
    literalTriple_text some_subject some_predicate (texts value member)
  refine Steps.bind_passes ⟨relation, ?_⟩ fun _ _ => ?_
  · rw [judgeObject, judge, validateCollection, found]
    rfl
  · exact Steps.bind_passes made fun triples _ => ⟨triples.foldl TripleStore.insert store, rfl⟩

end Ontology

namespace Draft

variable {σ : Type} [TripleStore σ] {draft : Draft σ}

theorem addResource_fits (java : draft.model.ontology = .java) {subject object : String}
    {predicate : Predicate} (fits : (Write.resource subject predicate object).Fits) :
    ∃ next, draft.addResource subject predicate object = .ok next := by
  obtain ⟨some_subject, some_object, allows⟩ := fits
  unfold addResource
  rw [java]
  refine Steps.bind_passes ?_ fun store _ => ⟨_, rfl⟩
  exact Ontology.java_addResource _ some_subject predicate.uri_ne_empty some_object allows

theorem addLiteral_fits (java : draft.model.ontology = .java) {subject : String}
    {predicate : Predicate} {value : Value} (fits : (Write.literal subject predicate value).Fits) :
    ∃ next, draft.addLiteral subject predicate value = .ok next := by
  obtain ⟨some_subject, text, allows⟩ := fits
  unfold addLiteral
  rw [java]
  refine Steps.bind_passes ?_ fun store _ => ⟨_, rfl⟩
  exact Ontology.java_addLiteral _ some_subject predicate.uri_ne_empty text allows

theorem write_fits (java : draft.model.ontology = .java) {first : Write} (fits : first.Fits) :
    ∃ next, draft.write first = .ok next := by
  cases first with
  | resource => exact addResource_fits java fits
  | literal => exact addLiteral_fits java fits
  | refuse => cases fits
  | elements subject predicate values =>
      obtain ⟨some_subject, texts, allows⟩ := fits
      unfold write addElements
      rw [java]
      refine Steps.bind_passes ?_ fun store _ => ⟨_, rfl⟩
      exact Ontology.java_addCollection _ some_subject predicate.uri_ne_empty texts allows
  | resourceType subject predicate type =>
      obtain ⟨some_subject, plain, kind, refers, allows⟩ := fits
      obtain ⟨text, unknown, resolved, carries⟩ := draft.model.resolve_refersTo plain refers
      let noted : Draft σ := { draft with unknown := draft.unknown ++ unknown.toList }
      have reached : draft.resolve type = .ok (text, noted) := by
        rw [resolve, resolved]
        rfl
      have rules : noted.model.ontology = .java := java
      simp only [write, reached]
      exact addResource_fits rules ⟨some_subject, carries.filled, allows text carries⟩
  | literalType subject predicate type =>
      obtain ⟨some_subject, plain, allows⟩ := fits
      obtain ⟨text, unknown, resolved⟩ := draft.model.resolve_plain plain
      let noted : Draft σ := { draft with unknown := draft.unknown ++ unknown.toList }
      have reached : draft.resolve type = .ok (text, noted) := by
        rw [resolve, resolved]
        rfl
      have rules : noted.model.ontology = .java := java
      have literal : (Write.literal subject predicate (.text text)).Fits :=
        ⟨some_subject, rfl, allows⟩
      simp only [write, reached]
      exact addLiteral_fits rules literal

theorem writeAll_fits (writes : List Write) {draft : Draft σ}
    (java : draft.model.ontology = .java) (fits : ∀ first ∈ writes, first.Fits) :
    (draft.writeAll writes).2 = none := by
  induction writes generalizing draft with
  | nil => rfl
  | cons first rest ih =>
      obtain ⟨next, written⟩ := write_fits java (fits first List.mem_cons_self)
      unfold writeAll
      rw [written]
      exact ih ((write_ontology written).trans java) fun later member =>
        fits later (List.mem_cons_of_mem first member)

end Draft

theorem Model.writeAll_fits {σ : Type} [TripleStore σ] {model : Model σ} {writes : List Write}
    (java : model.ontology = .java) (fits : ∀ first ∈ writes, first.Fits) :
    ∃ unknown, (model.writeAll writes).2 = .ok unknown := by
  have started : (Draft.start model).model.ontology = .java := java
  have drafted := Draft.writeAll_fits writes started fits
  unfold writeAll
  generalize (Draft.start model).writeAll writes = result at drafted
  obtain ⟨draft, outcome⟩ := result
  obtain rfl : outcome = none := drafted
  exact ⟨draft.unknown, rfl⟩

def Visibility.isWordOrMissing : Value → Bool
  | .null => true
  | visibility => isWord visibility

def Value.isSegment : Value → Bool
  | .text name => (reservedMark? name).isNone
  | _ => false

namespace Declaration

theorem overloadName_plain (overload : Int) :
    reservedMark? (overloadName (.int overload)) = none := by
  have unmarked := Text.decimal_unmarked overload
  have shown : (overloadName (.int overload)).toList =
      '_' :: (Text.decimal overload).toList := by
    simp [overloadName, Value.plain, Value.shown]
  rw [reservedMark?_eq_none_iff, shown]
  refine ⟨?_, ?_, ?_⟩
  all_goals
    intro member
    rcases List.mem_cons.mp member with same | later
    · revert same
      decide
  · exact (unmarked _ later).1 rfl
  · exact (unmarked _ later).2.1 rfl
  · exact (unmarked _ later).2.2 rfl

variable {container id : Identifier} {subject : String} {holder kind : EntityKind}

theorem kindWrites_fit (carries : Carries subject kind) :
    ∀ first ∈ kindWrites subject kind, first.Fits := by
  intro first member
  rw [List.mem_singleton.mp member]
  exact ⟨carries.filled, kind.uri_ne_empty, Ontology.java_allows_kind carries⟩

theorem containment_fits (holds : Ontology.Holds holder kind)
    (around : Carries container.text holder) (carries : Carries subject kind) :
    (containment container kind subject).Fits :=
  ⟨around.filled, carries.filled, Ontology.java_allows_containment holds around carries⟩

theorem headWrites_fit (declared : kind ∈ Ontology.declaredKinds)
    (carries : Carries subject kind) {visibility : Value}
    (word : Visibility.isWordOrMissing visibility = true) (modifiers : List Nat) :
    ∀ first ∈ headWrites subject kind visibility modifiers, first.Fits := by
  obtain ⟨visible, modified⟩ := Ontology.note_declared declared
  have told : ∀ first ∈ visibilityWrites subject visibility, first.Fits := by
    by_cases missing : visibility = .null
    · subst missing
      exact List.forall_mem_nil _
    · have word : Visibility.isWord visibility = true := by
        cases visibility <;> first | exact word | exact absurd rfl missing
      obtain ⟨visibility, rfl⟩ := Visibility.eq_word word
      intro first member
      simp only [visibilityWrites, Visibility.ofValue, Visibility.ofValue?,
        Visibility.ofWord?_word, List.mem_singleton] at member
      rw [member]
      exact ⟨carries.filled, rfl, Ontology.java_allows_note visible carries⟩
  simp only [headWrites, List.forall_mem_append, List.forall_mem_singleton]
  refine ⟨⟨kindWrites_fit carries, carries.filled, rfl, ?_⟩, told⟩
  exact Ontology.java_allows_note modified carries

theorem references_fit {predicate : Predicate} {other : EntityKind} {types : List TypeRef}
    (rule : Ontology.linkRule kind predicate other ∈ Ontology.hierarchyRelations)
    (carries : Carries subject kind) (names : types.all (·.names other) = true) :
    ∀ first ∈ types.map (Write.resourceType subject predicate), first.Fits := by
  intro first member
  obtain ⟨type, listed, rfl⟩ := List.mem_map.mp member
  obtain ⟨plain, refers⟩ := Bool.and_eq_true_iff.mp (List.all_eq_true.mp names type listed)
  refine ⟨carries.filled, plain, other, refers, fun object leads => ?_⟩
  exact Ontology.java_allows_link (Ontology.structure_of_hierarchy rule) carries leads

theorem literalType_fits {predicate : Predicate}
    (rule : Ontology.noteRule kind predicate ∈ Ontology.structureRelations)
    (carries : Carries subject kind) {type : TypeRef} (plain : type.isPlain = true) :
    (Write.literalType subject predicate type).Fits :=
  ⟨carries.filled, plain, Ontology.java_allows_note rule carries⟩

theorem packageWrites_fit (around : Carries container.text .package)
    (carries : Carries id.text .package) :
    ∀ first ∈ packageWrites container id, first.Fits := by
  simp only [packageWrites, List.forall_mem_append, List.forall_mem_singleton]
  exact ⟨kindWrites_fit carries, containment_fits Ontology.holds_package around carries⟩

section

variable {visibility : Value} (word : Visibility.isWordOrMissing visibility = true)
  (modifiers : List Nat) (holder_kind : holder ∈ EntityKind.package :: EntityKind.types)
  (around : Carries container.text holder)

include word holder_kind around

theorem classWrites_fit (carries : Carries id.text .classType) {extended : Option TypeRef}
    {implemented : List TypeRef} (extends_class : extended.all (·.names .classType) = true)
    (interfaces : implemented.all (·.names .interface) = true) :
    ∀ first ∈ classWrites visibility modifiers extended implemented container id,
      first.Fits := by
  have super : extended.toList.all (·.names .classType) = true := by
    cases extended with
    | none => rfl
    | some type => simpa using extends_class
  simp only [classWrites, List.forall_mem_append, List.forall_mem_singleton]
  refine ⟨⟨⟨?_, ?_⟩, ?_⟩, ?_⟩
  · exact headWrites_fit (by decide) carries word modifiers
  · exact references_fit (by simp [Ontology.hierarchyRelations]) carries super
  · exact references_fit (by simp [Ontology.hierarchyRelations]) carries interfaces
  · exact containment_fits (Ontology.holds_type holder_kind (by decide)) around carries

theorem interfaceWrites_fit (carries : Carries id.text .interface) {extended : List TypeRef}
    (interfaces : extended.all (·.names .interface) = true) :
    ∀ first ∈ interfaceWrites visibility modifiers extended container id, first.Fits := by
  simp only [interfaceWrites, List.forall_mem_append, List.forall_mem_singleton]
  refine ⟨⟨?_, ?_⟩, ?_⟩
  · exact headWrites_fit (by decide) carries word modifiers
  · exact references_fit (by simp [Ontology.hierarchyRelations]) carries interfaces
  · exact containment_fits (Ontology.holds_type holder_kind (by decide)) around carries

theorem enumerationWrites_fit (carries : Carries id.text .enumeration) {elements : Value}
    {implemented : List TypeRef} (texts : elements.holdsTexts = true)
    (interfaces : implemented.all (·.names .interface) = true) :
    ∀ first ∈ enumerationWrites visibility modifiers elements implemented container id,
      first.Fits := by
  obtain ⟨names, listed⟩ := Value.eq_texts texts
  simp only [enumerationWrites, listed, List.forall_mem_append, List.forall_mem_singleton]
  refine ⟨⟨⟨?_, ?_⟩, ?_⟩, ?_⟩
  · exact headWrites_fit (by decide) carries word modifiers
  · exact references_fit (by simp [Ontology.hierarchyRelations]) carries interfaces
  · refine ⟨carries.filled, ?_, Ontology.java_allows_elements carries _⟩
    intro value member
    obtain ⟨name, _, rfl⟩ := List.mem_map.mp member
    rfl
  · exact containment_fits (Ontology.holds_type holder_kind (by decide)) around carries

end

theorem attributeWrites_fit {visibility value : Value}
    (word : Visibility.isWordOrMissing visibility = true) (modifiers : List Nat)
    (type_scope : holder ∈ EntityKind.types) (around : Carries container.text holder)
    (carries : Carries id.text .attribute) {type : TypeRef} (plain : type.isPlain = true)
    (given : value.isTextOrMissing = true) :
    ∀ first ∈ attributeWrites visibility modifiers type value container id, first.Fits := by
  obtain ⟨text, rfl⟩ := Value.eq_ofText? given
  have valued : ∀ first ∈ (match Value.ofText? text with
      | .null => []
      | value => [Write.literal id.text .attributeValue value]), first.Fits := by
    cases text with
    | none => exact List.forall_mem_nil _
    | some text =>
        have rule : Ontology.noteRule .attribute .attributeValue ∈ Ontology.structureRelations := by
          simp [Ontology.structureRelations, Ontology.literalRelations]
        intro first member
        rw [List.mem_singleton.mp member]
        exact ⟨carries.filled, rfl, Ontology.java_allows_note rule carries⟩
  simp only [attributeWrites, List.forall_mem_append, List.forall_mem_singleton]
  refine ⟨⟨⟨?_, ?_⟩, valued⟩, ?_⟩
  · exact headWrites_fit (by decide) carries word modifiers
  · refine literalType_fits ?_ carries plain
    simp [Ontology.structureRelations, Ontology.literalRelations]
  · exact containment_fits (Ontology.holds_member type_scope (by decide)) around carries

theorem parameterWrites_fit {signature : Identifier}
    (strongest : signature.strongestQualifier = .ok EntityKind.signature.key) (index : Nat)
    {name : Value} (segment : name.isSegment = true) {type : TypeRef}
    (plain : type.isPlain = true) :
    ∀ first ∈ parameterWrites signature index name type, first.Fits := by
  cases name with
  | text name =>
      have unmarked : reservedMark? name = none := Option.isNone_iff_eq_none.mp segment
      obtain ⟨id, made, parameter⟩ := signature.child_plain .parameter unmarked
      have carries := Identifier.carries parameter
      simp only [parameterWrites, Identifier.childOfValues_text, made, List.forall_mem_append,
        List.forall_mem_cons]
      refine ⟨kindWrites_fit carries, ?_, ⟨carries.filled, rfl, ?_⟩, ?_, List.forall_mem_nil _⟩
      · refine literalType_fits ?_ carries plain
        simp [Ontology.structureRelations, Ontology.literalRelations]
      · refine Ontology.java_allows_note ?_ carries
        simp [Ontology.structureRelations, Ontology.literalRelations]
      · exact containment_fits Ontology.holds_parameter (Identifier.carries strongest) carries
  | _ => cases segment

theorem parametersWrites_fit {signature : Identifier}
    (strongest : signature.strongestQualifier = .ok EntityKind.signature.key)
    (names : List Value) (types : List TypeRef) (index : Nat)
    (segments : names.all (·.isSegment) = true) (plain : types.all (·.isPlain) = true) :
    ∀ first ∈ parametersWrites signature index names types, first.Fits := by
  intro first member
  obtain ⟨name, named, type, typed, place, _, written⟩ := of_mem_parametersWrites member
  have segment := List.all_eq_true.mp segments name named
  have plain_type := List.all_eq_true.mp plain type typed
  exact parameterWrites_fit strongest place segment plain_type first written

/-- Whether there is a name for each of some parameters, which can stand in identifiers. -/
def namesEach (parameters : Value) (types : List TypeRef) : Bool :=
  (parameters.items?).any fun names =>
    names.length == types.length && names.all (·.isSegment)

theorem signatureWrites_fit {owner signature : Identifier}
    (executable : holder ∈ [EntityKind.constructor, .method])
    (around : Carries owner.text holder)
    (strongest : signature.strongestQualifier = .ok EntityKind.signature.key)
    {parameters : Value} {types : List TypeRef} {result : Option TypeRef}
    {exceptions : List TypeRef} (named : namesEach parameters types = true)
    (plain : types.all (·.isPlain) = true) (returned : result.all (·.isPlain) = true)
    (thrown : exceptions.all (·.names .classType) = true) :
    ∀ first ∈ signatureWrites owner signature parameters types result exceptions,
      first.Fits := by
  have carries := Identifier.carries strongest
  unfold namesEach at named
  cases listed : parameters.items? with
  | none =>
      rw [listed] at named
      cases named
  | some names =>
      rw [listed] at named
      obtain ⟨same, segments⟩ := Bool.and_eq_true_iff.mp named
      have level : ¬names.length ≠ types.length := not_not.mpr (beq_iff_eq.mp same)
      simp only [signatureWrites, listed, if_neg level, List.forall_mem_append,
        List.forall_mem_singleton]
      refine ⟨⟨⟨⟨?_, ?_⟩, ?_⟩, ?_⟩, ?_⟩
      · exact kindWrites_fit carries
      · exact parametersWrites_fit strongest names types 0 segments plain
      · intro first member
        obtain ⟨type, given, rfl⟩ := List.mem_map.mp member
        obtain rfl := Option.mem_toList.mp given
        refine literalType_fits ?_ carries returned
        simp [Ontology.structureRelations, Ontology.literalRelations]
      · exact references_fit (by simp [Ontology.hierarchyRelations]) carries thrown
      · exact containment_fits (Ontology.holds_signature executable) around carries

theorem executableWrites_fit {visibility overload parameters : Value}
    (word : Visibility.isWordOrMissing visibility = true) (modifiers : List Nat)
    (whole : overload.isWhole = true) (executable : kind ∈ [EntityKind.constructor, .method])
    (holds : Ontology.Holds holder kind) (around : Carries container.text holder)
    (strongest : id.strongestQualifier = .ok kind.key) {types : List TypeRef}
    {result : Option TypeRef} {exceptions : List TypeRef}
    (named : namesEach parameters types = true) (plain : types.all (·.isPlain) = true)
    (returned : result.all (·.isPlain) = true)
    (thrown : exceptions.all (·.names .classType) = true) :
    ∀ first ∈ executableWrites kind visibility modifiers overload parameters types result
      exceptions container id, first.Fits := by
  have carries := Identifier.carries strongest
  have declared : kind ∈ Ontology.declaredKinds := by
    rcases List.mem_pair.mp executable with rfl | rfl <;> decide
  obtain ⟨overload, rfl⟩ := Value.eq_int whole
  obtain ⟨signature, made, inner⟩ := id.child_plain .signature (overloadName_plain overload)
  simp only [executableWrites, made, List.forall_mem_append, List.forall_mem_singleton]
  refine ⟨⟨?_, ?_⟩, ?_⟩
  · exact headWrites_fit declared carries word modifiers
  · exact signatureWrites_fit executable carries inner named plain returned thrown
  · exact containment_fits holds around carries

end Declaration

end CodeFacts

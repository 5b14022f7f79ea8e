import CodeFacts.Proofs.Builder.Roots
import CodeFacts.Proofs.Text.Integer
import CodeFacts.Query.Basic

/-!
Answers to queries, from the triples a store lists. What an entity is called is read from the text
of its identifier alone; what else is said of it must be readable.
-/

namespace CodeFacts.Query

variable {σ : Type} [TripleStore σ] {store : σ} {triples : List Triple}

/-- Whether a store finds the triples of a list that fit a pattern, in the order of the list. -/
def Lists (store : σ) (triples : List Triple) : Prop :=
  ∀ pattern, TripleStore.search store pattern = triples.filter pattern.holds

theorem lists_memory (store : MemoryStore) : Lists store store.triples :=
  store.sound.search_eq

theorem lists_plain (store : PlainStore) : Lists store store.triples := fun _ => rfl

namespace Lists

variable (lists : Lists store triples)
include lists

theorem search (pattern : Pattern) :
    TripleStore.search store pattern = triples.filter pattern.holds :=
  lists pattern

theorem mem_objects {subject object : String} {predicate : Predicate} :
    object ∈ objects store (some subject) predicate ↔
      ∃ literal, ⟨subject, predicate.uri, object, literal⟩ ∈ triples := by
  simp only [objects, lists.search, List.mem_map, List.mem_filter, Pattern.holds, agrees,
    Bool.and_true, Bool.and_eq_true, beq_iff_eq]
  constructor
  · rintro ⟨⟨_, _, _, literal⟩, ⟨member, rfl, rfl⟩, rfl⟩
    exact ⟨literal, member⟩
  · rintro ⟨literal, member⟩
    exact ⟨_, ⟨member, rfl, rfl⟩, rfl⟩

theorem found_iff {subject predicate object : String} :
    (!(TripleStore.search store ⟨some subject, some predicate, some object⟩).isEmpty) = true ↔
      ∃ literal, ⟨subject, predicate, object, literal⟩ ∈ triples := by
  rw [lists.search, Bool.not_eq_true', List.isEmpty_eq_false_iff_exists_mem]
  simp only [List.mem_filter, Pattern.holds, agrees, Bool.and_eq_true, beq_iff_eq]
  constructor
  · rintro ⟨⟨_, _, _, literal⟩, member, ⟨rfl, rfl⟩, rfl⟩
    exact ⟨literal, member⟩
  · rintro ⟨literal, member⟩
    exact ⟨_, member, ⟨rfl, rfl⟩, rfl⟩

theorem hasKind_iff {id : String} {kind : EntityKind} :
    hasKind store (some id) kind = true ↔
      ∃ literal, ⟨id, Predicate.subClassOf.uri, kind.uri, literal⟩ ∈ triples :=
  lists.found_iff

/-- Objects come once each where they are all of one sort. -/
theorem objects_nodup (distinct : triples.Nodup) {subject : String} {predicate : Predicate}
    (sort : Bool) (same_sort : ∀ object literal,
      ⟨subject, predicate.uri, object, literal⟩ ∈ triples → literal = sort) :
    (objects store (some subject) predicate).Nodup := by
  rw [objects, lists.search]
  refine List.Nodup.map_on (fun left first right second same => ?_) (distinct.filter _)
  have determined (triple : Triple)
      (found : triple ∈ triples.filter (Pattern.holds ⟨subject, predicate.uri, none⟩)) :
      triple = ⟨subject, predicate.uri, triple.object, sort⟩ := by
    obtain ⟨told, holds⟩ := List.mem_filter.mp found
    obtain ⟨_, _, object, literal⟩ := triple
    simp only [Pattern.holds, agrees, Bool.and_true, Bool.and_eq_true, beq_iff_eq] at holds
    obtain ⟨rfl, rfl⟩ := holds
    rw [same_sort object literal told]
  rw [determined left first, determined right second, same]

theorem mem_allOfKind {id : String} {kind : EntityKind} :
    id ∈ allOfKind store kind ↔ hasKind store (some id) kind = true := by
  rw [lists.hasKind_iff, allOfKind, sorted, List.mem_mergeSort, lists.search]
  simp only [List.mem_map, List.mem_filter, Pattern.holds, agrees, Bool.true_and,
    Bool.and_eq_true, beq_iff_eq]
  constructor
  · rintro ⟨⟨_, _, _, literal⟩, ⟨member, rfl, rfl⟩, rfl⟩
    exact ⟨literal, member⟩
  · rintro ⟨literal, member⟩
    exact ⟨_, ⟨member, rfl, rfl⟩, rfl⟩

end Lists

theorem value?_of_only {subject : Option String} {predicate : Predicate} {object : String}
    (told : object ∈ objects store subject predicate)
    (only : ∀ other ∈ objects store subject predicate, other = object) :
    value? store subject predicate = some object := by
  rw [value?]
  cases listed : objects store subject predicate with
  | nil =>
      rw [listed] at told
      exact absurd told List.not_mem_nil
  | cons first rest =>
      rw [List.head?_cons, only first (listed ▸ List.mem_cons_self)]

theorem mem_of_value? {id : Option String} {predicate : Predicate} {value : String}
    (found : value? store id predicate = some value) : value ∈ objects store id predicate :=
  List.mem_of_head? found

/-! ### Entities -/

/-- How what has an identifier is called. -/
def called (id : Identifier) : Naming :=
  ⟨id.text, (id.fragments.getLast?.map (·.name)).getD "", id.dottedName⟩

theorem naming_text (id : Identifier) : naming id.text = .ok (called id) := by
  simp only [naming, simpleName, Identifier.read_text]
  rfl

theorem called_name {outer id : Identifier} {name qualifier : String}
    (child : outer.child name qualifier = .ok id) : (called id).name = name := by
  obtain ⟨fragment, rfl, rfl, _⟩ := Identifier.push_of_child child
  simp [called, Identifier.push]

theorem visibility_of_value? {id : Option String} {visibility : Visibility}
    (told : value? store id .hasVisibility = some visibility.word) :
    Query.visibility store id = .ok (some visibility) := by
  rw [Query.visibility, told]
  simp only [Option.mapM_some, Visibility.ofValue, Visibility.ofValue?, Visibility.ofWord?_word]
  rfl

theorem modifiers_of_value? {id : Option String} {mask : Nat}
    (told : value? store id .hasModifiers = some (toString mask))
    (short : (Text.naturalText mask).length ≤ Text.digitLimit) :
    Query.modifiers store id = .ok (Modifier.ofMask mask) := by
  rw [Query.modifiers, told]
  simp only [if_neg (Text.toString_ne_empty mask), Text.readWhole_toString short]
  rfl

/-- Whether what is said of an entity besides its kind can be read: a visibility by its word, and
modifiers by a number of few enough digits. -/
structure Readable (store : σ) (id : String) : Prop where
  visible : ∀ word ∈ objects store (some id) .hasVisibility,
    ∃ visibility : Visibility, word = visibility.word
  modified : ∀ mask ∈ objects store (some id) .hasModifiers, ∃ value : Nat,
    mask = toString value ∧ (Text.naturalText value).length ≤ Text.digitLimit

variable {id : Identifier}

theorem Readable.visibility (readable : Readable store id.text) :
    ∃ found, visibility store id.text = .ok found := by
  cases told : value? store (some id.text) .hasVisibility with
  | none =>
      rw [Query.visibility, told]
      exact ⟨none, rfl⟩
  | some word =>
      obtain ⟨visibility, rfl⟩ := readable.visible word (mem_of_value? told)
      exact ⟨some visibility, visibility_of_value? told⟩

theorem Readable.modifiers (readable : Readable store id.text) :
    ∃ found, modifiers store id.text = .ok found := by
  cases told : value? store (some id.text) .hasModifiers with
  | none =>
      rw [Query.modifiers, told]
      exact ⟨[], rfl⟩
  | some mask =>
      obtain ⟨value, rfl, short⟩ := readable.modified mask (mem_of_value? told)
      exact ⟨Modifier.ofMask value, modifiers_of_value? told short⟩

theorem Readable.access (readable : Readable store id.text) :
    ∃ naming access, Query.access store id.text = .ok (naming, access) ∧
      naming.id = id.text ∧ naming.qualifiedName = id.dottedName := by
  obtain ⟨visibility, seen⟩ := readable.visibility
  obtain ⟨modifiers, read⟩ := readable.modifiers
  rw [Query.access, naming_text, seen, read]
  exact ⟨_, _, rfl, rfl, rfl⟩

/-- A type of which all that is said can be read is read with its identifier and dotted name. -/
theorem Readable.entity (readable : Readable store id.text) {kind : EntityKind}
    (type : kind ∈ EntityKind.types) :
    ∃ entity, Query.entity store kind id.text = .ok entity ∧ entity.id = id.text ∧
      entity.qualifiedName = id.dottedName := by
  obtain ⟨naming, access, read, identified, named⟩ := readable.access
  cases kind with
  | classType | interface | enumeration =>
      simp only [Query.entity, read]
      exact ⟨_, rfl, identified, named⟩
  | _ => exact absurd type (by decide)

end CodeFacts.Query

import CodeFacts.Proofs.Grammar
import CodeFacts.Proofs.Query.Answers
import CodeFacts.Proofs.Stored
import CodeFacts.Proofs.View

/-!
What a name is known as. The identifier is that of a type in packages, each type around it is known
under its own name, and a reference by the name is stored as the same identifier with the kind it
expects in the place of the last one.
-/

namespace CodeFacts

namespace Fragment

/-- The fragment of the same name and another kind. -/
def requalified (fragment : Fragment) (kind : EntityKind) : Fragment :=
  ⟨fragment.name, kind.key, fragment.name_plain, kind.key_unmarked, kind.key_ne_empty⟩

theorem make_requalified (fragment : Fragment) (kind : EntityKind) :
    make fragment.name kind.key = .ok (fragment.requalified kind) := by
  rw [make, dif_pos ⟨fragment.name_plain, kind.key_plain⟩]
  rfl

theorem requalified_eq_iff {fragment : Fragment} {kind : EntityKind} :
    fragment.requalified kind = fragment ↔ fragment.qualifier = kind.key := by
  cases fragment
  simp [requalified, eq_comm]

end Fragment

namespace Identifier

/-- The identifier with another kind for its last fragment. -/
def requalified (id : Identifier) (kind : EntityKind) : Identifier :=
  { id with
    fragments := id.fragments.dropLast ++ id.fragments.getLast?.toList.map (·.requalified kind) }

@[simp] theorem requalified_push (outer : Identifier) (fragment : Fragment) (kind : EntityKind) :
    (outer.push fragment).requalified kind = outer.push (fragment.requalified kind) := by
  simp [requalified, push]

theorem mem_of_strongest {id : Identifier} {qualifier : String}
    (strongest : id.strongestQualifier = .ok qualifier) :
    ∃ fragment ∈ id.fragments, fragment.qualifier = qualifier := by
  unfold strongestQualifier at strongest
  split at strongest
  · rename_i last
    exact ⟨_, List.mem_of_getLast? last, Except.ok.inj strongest⟩
  · cases strongest

end Identifier

namespace Model

variable {σ : Type} [TripleStore σ] {model : Model σ} {name : String} {id : Identifier}

/-- The candidates for a name differ in the kind of their last fragment alone. -/
theorem candidate_push {enclosing : Option Identifier} {kind : EntityKind}
    (made : candidate enclosing name kind = .ok id) :
    ∃ (outer : Identifier) (fragment : Fragment), id = outer.push fragment ∧
      fragment.qualifier = kind.key ∧
      ∀ other, candidate enclosing name other = .ok (outer.push (fragment.requalified other)) := by
  cases enclosing with
  | none =>
      have own : Identifier.ofTypeName name kind.key = .ok id := made
      simp only [Identifier.ofTypeName, Steps.bind_ok_iff, Steps.pure_ok_iff] at own
      obtain ⟨packages, outer, fragment, last, rfl⟩ := own
      obtain ⟨named, qualifier⟩ := Identifier.make_ok_iff.mp last
      refine ⟨{ Identifier.empty with fragments := packages }, fragment, rfl, qualifier,
        fun other => ?_⟩
      show Identifier.ofTypeName name other.key = _
      rw [Identifier.ofTypeName, outer, ← named]
      show (Fragment.make fragment.name other.key >>= _) = _
      rw [Fragment.make_requalified]
      rfl
  | some outer =>
      obtain ⟨fragment, rfl, named, qualifier⟩ := Identifier.push_of_child made
      refine ⟨outer, fragment, rfl, qualifier, fun other => ?_⟩
      show outer.child (Dotted.simple name) other.key = _
      rw [← named, Identifier.child, Fragment.make_requalified]
      rfl

namespace Known

theorem shape (known : model.Known name id) (proper : Dotted.Proper name) :
    ∃ packages types, id.fragments = packages ++ types ∧ types ≠ [] ∧
      (∀ fragment ∈ packages, fragment.qualifier = EntityKind.package.key) ∧
      ∀ fragment ∈ types, ∃ kind ∈ EntityKind.types, fragment.qualifier = kind.key := by
  induction known with
  | packaged _ _ type made =>
      obtain ⟨packages, last, whole, _, outer, qualifier⟩ := TypeRef.ofTypeName_ok _ proper.1
        fun segment member => proper.2.segment_plain member
      rw [whole] at made
      obtain rfl := Except.ok.inj made
      refine ⟨packages, [last], rfl, List.cons_ne_nil _ _, outer, fun fragment member => ?_⟩
      rw [List.mem_singleton.mp member]
      exact ⟨_, type, qualifier⟩
  | nested _ inside _ type made _ ih =>
      obtain ⟨packages, types, fragments, _, outer, inner⟩ := ih (proper.outer inside)
      obtain ⟨last, rfl, _, qualifier⟩ := Identifier.push_of_child made
      refine ⟨packages, types ++ [last], ?_, by simp, outer, fun fragment member => ?_⟩
      · rw [Identifier.push, fragments, List.append_assoc]
      · rcases List.mem_append.mp member with around | same
        · exact inner fragment around
        · rw [List.mem_singleton.mp same]
          exact ⟨_, type, qualifier⟩

/-- What a proper name is known as is the identifier of a type of that name. -/
theorem ofType (known : model.Known name id) (proper : Dotted.Proper name) :
    id.OfType ∧ id.fragments.map (·.name) = Dotted.segments name := by
  have spells := known.spells proper.1 fun segment member => proper.2.segment_plain member
  refine ⟨⟨known.shape proper, fun fragment member => ?_⟩, spells.names⟩
  apply proper.filled
  rw [← spells.names]
  exact List.mem_map_of_mem member

theorem dottedName (known : model.Known name id) (proper : Dotted.Proper name) :
    id.dottedName = name :=
  TypeRef.dottedName_eq proper.1 (known.ofType proper).2

theorem found (known : model.Known name id) : model.declaredType name = .ok (some id) := by
  cases known with
  | packaged found => exact found
  | nested found => exact found

theorem candidate (known : model.Known name id) : ∃ enclosing,
    model.enclosingType name = .ok enclosing ∧ ∃ kind ∈ EntityKind.types,
      Model.candidate enclosing name kind = .ok id ∧ model.Tells name kind id := by
  cases known with
  | packaged _ outermost type made told => exact ⟨none, outermost, _, type, made, told⟩
  | nested _ inside around type made told =>
      refine ⟨some _, ?_, _, type, made, told⟩
      rw [enclosingType, if_neg inside]
      exact around.found

theorem whole_known (known : model.Known name id) (proper : Dotted.Proper name)
    {other : Identifier} (space : other.space = id.space) (same : other.fragments = id.fragments) :
    model.declaredType other.dottedName = .ok (some other) := by
  obtain rfl : other = id := by
    cases other
    cases id
    exact congrArg₂ Identifier.mk space same
  rw [known.dottedName proper]
  exact known.found

/-- Each type around what a name is known as is what its own name is known as. -/
theorem outer_known (known : model.Known name id) (proper : Dotted.Proper name) {outer : Identifier}
    (space : outer.space = id.space) (before : outer.fragments <+: id.fragments)
    (type : ∃ kind ∈ EntityKind.types, outer.strongestQualifier = .ok kind.key) :
    model.declaredType outer.dottedName = .ok (some outer) := by
  induction known with
  | packaged found outermost own made told =>
      have known := Known.packaged found outermost own made told
      obtain ⟨packages, last, single, _, packaged, _⟩ := TypeRef.ofTypeName_ok _ proper.1
        fun segment member => proper.2.segment_plain member
      rw [single] at made
      obtain rfl := Except.ok.inj made
      rcases List.prefix_concat_iff.mp before with whole | shorter
      · exact known.whole_known proper space whole
      · obtain ⟨kind, listed, strongest⟩ := type
        obtain ⟨fragment, member, qualifier⟩ := Identifier.mem_of_strongest strongest
        rw [packaged fragment (shorter.subset member)] at qualifier
        obtain rfl := EntityKind.key_injective qualifier
        exact absurd listed (by decide)
  | nested found inside around own made told ih =>
      have known := Known.nested found inside around own made told
      obtain ⟨last, rfl, _⟩ := Identifier.push_of_child made
      rcases List.prefix_concat_iff.mp before with whole | shorter
      · exact known.whole_known proper space whole
      · exact ih (proper.outer inside) space shorter

end Known

theorem boundText_of_candidate {enclosing : Option Identifier} {kind : NamedKind}
    (around : model.enclosingType name = .ok enclosing)
    (made : candidate enclosing name kind.entity = .ok id) :
    model.boundText (.named kind name none) = .ok id.text := by
  have bound : model.bind (.named kind name none) =
      .ok (.named kind name (enclosing.map Identifier.text)) := by
    rw [bind, around]
    rfl
  rw [boundText, bound]
  exact text_of_candidate made

theorem hasKind_iff_stored (model : Model MemoryStore) {id : String} {kind : EntityKind} :
    model.hasKind id kind = true ↔
      ∃ literal, ⟨id, Predicate.subClassOf.uri, kind.uri, literal⟩ ∈ model.store.triples :=
  (Query.lists_memory model.store).hasKind_iff

/-- What a proper name is known as is the identifier of a type of that name: of packages and types
in them, each of which is known under its own name. The model holds its kind, or it is a class that
is known from outside. A reference by the name is stored as the same identifier but for the kind the
reference expects. -/
theorem declaredType_sound (model : Model MemoryStore) {name : String} {id : Identifier}
    (proper : Dotted.Proper name) (found : model.declaredType name = .ok (some id)) :
    (id.OfType ∧ Dotted.join (id.fragments.map (·.name)) = name) ∧
      (∀ outer : Identifier, outer.space = id.space → outer.fragments <+: id.fragments →
        (∃ kind ∈ EntityKind.types, outer.strongestQualifier = .ok kind.key) →
        model.declaredType outer.dottedName = .ok (some outer)) ∧
      (∃ kind ∈ EntityKind.types, id.strongestQualifier = .ok kind.key ∧
        ((∃ literal, ⟨id.text, Predicate.subClassOf.uri, kind.uri, literal⟩ ∈
            model.store.triples) ∨
          kind = .classType ∧ model.symbols.knows name = true)) ∧
      ∀ kind : NamedKind,
        model.boundText (.named kind name none) = .ok (id.requalified kind.entity).text ∧
          (model.boundText (.named kind name none) = .ok id.text ↔
            id.strongestQualifier = .ok kind.entity.key) := by
  have known := known_of_declaredType proper.1 found
  obtain ⟨type, names⟩ := known.ofType proper
  obtain ⟨enclosing, around, kind, listed, made, told⟩ := known.candidate
  obtain ⟨outer, fragment, rfl, qualifier, candidates⟩ := candidate_push made
  have strongest := Identifier.strongestQualifier_push outer fragment
  refine ⟨⟨type, ?_⟩, fun _ => known.outer_known proper, ⟨kind, listed, ?_, ?_⟩, fun expected => ?_⟩
  · rw [names, Dotted.join_segments]
  · rw [strongest, qualifier]
  · rw [← model.hasKind_iff_stored]
    exact told
  · have bound := boundText_of_candidate around (candidates expected.entity)
    rw [bound, Identifier.requalified_push, strongest]
    refine ⟨rfl, ?_⟩
    constructor
    · intro same
      have whole := Identifier.text_injective (Except.ok.inj same)
      exact congrArg Except.ok
        (Fragment.requalified_eq_iff.mp (Identifier.push_injective whole).2)
    · intro same
      rw [Fragment.requalified_eq_iff.mpr (Except.ok.inj same)]

/-- A class known from outside in an interface that is declared. A reference that expects an
interface has another text. -/
theorem knownInInterface_found :
    let id := "http://www.rdfcoder.org/2007/1.0#jpackage:p.jinterface:A.jclass:B"
    let around := "http://www.rdfcoder.org/2007/1.0#jpackage:p.jinterface:A"
    let symbols := SymbolTable.empty.register "p.A.B" .source
    let store := MemoryStore.empty.insert
      ⟨around, Predicate.subClassOf.uri, EntityKind.interface.uri, false⟩
    let model : Model MemoryStore := ⟨.java, symbols, store⟩
    Dotted.Proper "p.A.B" ∧ ∃ known, model.declaredType "p.A.B" = .ok (some known) ∧
      known.text = id ∧ model.boundText (.named .classType "p.A.B" none) = .ok id ∧
      model.boundText (.named .interface "p.A.B" none) ≠ .ok id := by
  intro id around symbols store model
  have proper : Dotted.Proper "p.A.B" := by decide +kernel
  have answer : (model.declaredType "p.A.B").toOption.map (·.map fun known =>
      (known.text, known.strongestQualifier.toOption)) =
        some (some (id, some EntityKind.classType.key)) := by
    decide +kernel
  obtain ⟨_, found, parts⟩ := Option.map_eq_some_iff.mp answer
  obtain ⟨known, rfl, pair⟩ := Option.map_eq_some_iff.mp parts
  obtain ⟨text, last⟩ := Prod.mk.inj pair
  have strongest := Steps.ok_of_toOption last
  have lookup := Steps.ok_of_toOption found
  obtain ⟨_, _, _, bound⟩ := declaredType_sound model proper lookup
  rw [← text]
  refine ⟨proper, known, lookup, rfl, (bound .classType).2.mpr strongest, fun same => ?_⟩
  have other := (bound .interface).2.mp same
  rw [strongest] at other
  exact absurd (Except.ok.inj other) (by decide)

end Model

end CodeFacts

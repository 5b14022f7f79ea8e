import CodeFacts.Proofs.Builder.Access
import CodeFacts.Proofs.Query.Types

/-!
Who may refer to an entity and how it is modified, as a store that a run filled tells it. The reader
takes the first word that is said. Entities that are declared once have no other; the overloads of a
method share it, and what they say of it adds up.
-/

namespace CodeFacts

namespace Query

variable {σ : Type} [TripleStore σ] {store : σ} {id : Identifier}

/-- What a store tells of the access to an entity that some calls declared: what each of them said of
it, once and in order, and what the first said where it is asked for. -/
structure Accessed (store : σ) (id : Identifier) (first : Call) (rest : List Call) : Prop where
  given : ∀ call ∈ first :: rest, call.GivesAccess
  told : ∀ predicate ∈ accessPredicates, TripleStore.search store (saidOf id.text predicate) =
    wordTriples id.text predicate
      ((first :: rest).flatMap (·.accessWords predicate)).eraseDups
  visibility : Query.visibility store id.text =
    .ok ((first :: rest).filterMap Call.visibility?).head?
  modifiers : ∀ mask ∈ first.mask?, Query.modifiers store id.text = .ok (Modifier.ofMask mask)

theorem head?_eraseDups (words : List String) : words.eraseDups.head? = words.head? := by
  cases words with
  | nil => rfl
  | cons first rest => rw [List.eraseDups_cons, List.head?_cons, List.head?_cons]

theorem value?_of_told {text : String} {predicate : Predicate} {words : List String}
    (told : TripleStore.search store (saidOf text predicate) =
      wordTriples text predicate words.eraseDups) :
    value? store (some text) predicate = words.head? := by
  have listed : objects store (some text) predicate = words.eraseDups := by
    show (TripleStore.search store (saidOf text predicate)).map (·.object) = _
    rw [told, wordTriples, List.map_map]
    exact List.map_id _
  rw [value?, listed, head?_eraseDups]

theorem accessed_of_told {first : Call} {rest : List Call}
    (given : ∀ call ∈ first :: rest, call.GivesAccess)
    (short : ∀ mask ∈ first.mask?, (Text.naturalText mask).length ≤ Text.digitLimit)
    (told : ∀ predicate ∈ accessPredicates, TripleStore.search store (saidOf id.text predicate) =
      wordTriples id.text predicate
        ((first :: rest).flatMap (·.accessWords predicate)).eraseDups) :
    Accessed store id first rest where
  given
  told
  visibility := by
    have words : (first :: rest).flatMap (·.accessWords .hasVisibility) =
        ((first :: rest).filterMap Call.visibility?).map Visibility.word := by
      rw [List.filterMap_eq_flatMap_toList, List.map_flatMap]
      rfl
    have found := value?_of_told (told .hasVisibility (by decide))
    rw [words, List.head?_map] at found
    cases given : ((first :: rest).filterMap Call.visibility?).head? with
    | none =>
        rw [given] at found
        rw [Query.visibility, found]
        rfl
    | some known =>
        rw [given] at found
        exact visibility_of_value? found
  modifiers := by
    intro mask masked
    have found := value?_of_told (told .hasModifiers (by decide))
    rw [List.flatMap_cons, Call.accessWords, show first.mask? = some mask from masked] at found
    exact modifiers_of_value? found (short mask masked)

/-- What is said of an entity with one declaration: one literal for its modifiers, and one for its
visibility if it was given. -/
theorem Accessed.alone {call : Call} (accessed : Accessed store id call []) :
    ∃ visibility modifiers, call.access? = some (visibility, modifiers) ∧
      TripleStore.search store ⟨some id.text, some Predicate.hasModifiers.uri, none⟩ =
        [⟨id.text, Predicate.hasModifiers.uri, toString (Modifier.mask modifiers), true⟩] ∧
      (visibility ≠ .null → ∃ known : Visibility, visibility = .text known.word ∧
        TripleStore.search store ⟨some id.text, some Predicate.hasVisibility.uri, none⟩ =
          [⟨id.text, Predicate.hasVisibility.uri, known.word, true⟩]) := by
  obtain ⟨visibility, modifiers, access, given⟩ := accessed.given call List.mem_cons_self
  have only {predicate : Predicate} {word : String} (own : predicate ∈ accessPredicates)
      (words : call.accessWords predicate = [word]) :
      TripleStore.search store (saidOf id.text predicate) =
        [⟨id.text, predicate.uri, word, true⟩] := by
    rw [accessed.told predicate own, List.flatMap_singleton, words,
      eraseDups_of_nodup (List.nodup_singleton word)]
    rfl
  refine ⟨visibility, modifiers, access, only (by decide) ?_, fun some_given => ?_⟩
  · rw [Call.accessWords, Call.mask?, access]
    rfl
  · obtain ⟨known, rfl⟩ := given.resolve_left some_given
    refine ⟨known, rfl, only (by decide) ?_⟩
    rw [Call.accessWords, Call.visibility?, access, Option.bind_some, Visibility.ofValue?,
      Visibility.ofWord?_word]
    rfl

end Query

/-- The mask of a declaration with a short mask can be read. -/
theorem Call.short_of_mask {call : Call} {mask : Nat} (short : call.shortMask = true)
    (masked : call.mask? = some mask) : (Text.naturalText mask).length ≤ Text.digitLimit := by
  unfold Call.shortMask at short
  rw [Call.modifiers?_eq] at short
  unfold Call.mask? at masked
  cases given : call.access? with
  | none =>
      rw [given] at masked
      cases masked
  | some access =>
      rw [given] at masked short
      cases masked
      exact of_decide_eq_true short

namespace Builder

section

variable {σ : Type} [TripleStore σ]

/-- The calls that declare an entity among some, in order. -/
def declarationsOf (builder : Builder σ) (calls : List Call) (id : Identifier) : List Call :=
  ((builder.declarations calls).filter fun one => one.1 = id).map Prod.snd

end

variable {builder : Builder PlainStore} {calls : List Call} {id : Identifier}

theorem mem_declarationsOf {σ : Type} [TripleStore σ] {builder : Builder σ} {call : Call} :
    call ∈ builder.declarationsOf calls id ↔ (id, call) ∈ builder.declarations calls := by
  simp only [declarationsOf, List.mem_map, List.mem_filter, decide_eq_true_eq]
  constructor
  · rintro ⟨⟨_, _⟩, ⟨member, rfl⟩, rfl⟩
    exact member
  · intro member
    exact ⟨(id, call), ⟨member, rfl⟩, rfl⟩

/-- Over an empty store, what is said of the access to an entity is what its declarations said. -/
theorem told_after (empty : builder.model.store.triples = []) {σ : Type} [TripleStore σ] {store : σ}
    (lists : Query.Lists store (Handler.after builder calls).model.store.triples)
    {predicate : Predicate} (own : predicate ∈ accessPredicates) :
    TripleStore.search store (saidOf id.text predicate) =
      wordTriples id.text predicate
        ((builder.declarationsOf calls id).flatMap (·.accessWords predicate)).eraseDups := by
  have words : declaredWords (builder.declarations calls) id.text predicate =
      (builder.declarationsOf calls id).flatMap (·.accessWords predicate) := by
    rw [declaredWords, declarationsOf, List.flatMap_map]
    refine congrArg (List.flatMap _) (List.filter_congr fun one _ => ?_)
    exact decide_eq_decide.mpr ⟨Identifier.text_injective, congrArg Identifier.text⟩
  have apart : Function.Injective fun word : String =>
      (⟨id.text, predicate.uri, word, true⟩ : Triple) := by
    intro left right same
    exact (Triple.mk.inj same).2.2.1
  rw [lists.search, continued_after calls builder predicate own id.text, empty, List.filter_nil,
    List.nil_append, words]
  exact eraseDups_map apart _

/-- An entity that is no method is declared once, where declarations are told apart by their entity
and overload. -/
theorem declared_once
    (once : ((builder.declarations calls).map fun one => (one.1, one.2.overload?)).Nodup)
    {kind : EntityKind} (other : kind ≠ .method) (strongest : id.strongestQualifier = .ok kind.key)
    {call : Call} {rest : List Call} (declared : builder.declarationsOf calls id = call :: rest) :
    rest = [] := by
  have plain : ∀ one ∈ builder.declarationsOf calls id, one.overload? = none := by
    intro one member
    by_contra given
    obtain ⟨overload, given⟩ := Option.ne_none_iff_exists'.mp given
    obtain ⟨state, _, declares⟩ := mem_declarations.mp (mem_declarationsOf.mp member)
    have method := strongest_of_overload given declares
    rw [strongest] at method
    exact other (EntityKind.key_injective (Except.ok.inj method))
  have distinct : ((builder.declarationsOf calls id).map Call.overload?).Nodup := by
    have kept := once.sublist ((List.filter_sublist (p := fun one => one.1 = id)).map _)
    have same : ((builder.declarationsOf calls id).map Call.overload?).map (Prod.mk id) =
        ((builder.declarations calls).filter fun one => one.1 = id).map
          fun one => (one.1, one.2.overload?) := by
      rw [declarationsOf, List.map_map, List.map_map]
      refine List.map_congr_left fun one member => ?_
      rw [← of_decide_eq_true (List.mem_filter.mp member).2]
      rfl
    rw [← same] at kept
    exact kept.of_map
  cases rest with
  | nil => rfl
  | cons second later =>
      rw [declared] at distinct plain
      rw [List.map_cons, List.map_cons, plain call List.mem_cons_self,
        plain second (List.mem_cons_of_mem call List.mem_cons_self)] at distinct
      exact absurd List.mem_cons_self (List.nodup_cons.mp distinct).1

/-- What is of one of these kinds was declared. -/
theorem declared_of_kind (empty : builder.model.store.triples = []) (kinded : builder.Kinded)
    {text : String} {kind : EntityKind} {literal : Bool} (own : kind ∈ Ontology.declaredKinds)
    (told : ⟨text, Predicate.subClassOf.uri, kind.uri, literal⟩ ∈
      (Handler.after builder calls).model.store.triples) :
    ∃ id : Identifier, id.text = text ∧ id.strongestQualifier = .ok kind.key ∧
      ∃ call rest, builder.declarationsOf calls id = call :: rest := by
  obtain ⟨state, call, accepts, said⟩ := said_of_empty empty told
  obtain ⟨container, id, found, entity, same⟩ := said .subClassOf rfl
  obtain ⟨rfl, _, uri, _⟩ := Triple.mk.inj same
  obtain rfl := EntityKind.uri_injective uri
  have member := mem_declarationsOf.mpr
    (mem_declarations.mpr ⟨state, accepts, entity.declared own accepts.accepted⟩)
  obtain ⟨earlier, later, _, rfl⟩ := accepts.made
  exact ⟨id, rfl, entity.strongest (kinded.after earlier) own,
    List.exists_cons_of_ne_nil (List.ne_nil_of_mem member)⟩

/-- In every state that calls reach over an empty store, whatever the rules, where no type, attribute
or constructor and no overload of a method is declared twice: what is said of the access to a type, an
attribute or a constructor is what its one declaration said, a literal for the modifiers and one for
the visibility if it was given; what is said of a method is what its overloads said, each literal
once. The reader answers with what was said first. -/
theorem access_as_declared (ontology : Ontology) (symbols : SymbolTable) (date : String)
    (calls : List Call) (short : ∀ call ∈ calls, call.shortMask = true) :
    let first := start ⟨ontology, symbols, MemoryStore.empty⟩ date
    let store := (Handler.after first calls).model.store
    ((first.declarations calls).map fun one => (one.1, one.2.overload?)).Nodup →
    ∀ kind ∈ Ontology.declaredKinds, ∀ text, Query.hasKind store (some text) kind = true →
      ∃ (id : Identifier) (call : Call) (rest : List Call), id.text = text ∧
        first.declarationsOf calls id = call :: rest ∧ Query.Accessed store id call rest ∧
        (kind ≠ .method → rest = [] ∧ ∃ visibility modifiers,
          call.access? = some (visibility, modifiers) ∧
          TripleStore.search store ⟨some text, some Predicate.hasModifiers.uri, none⟩ =
            [⟨text, Predicate.hasModifiers.uri, toString (Modifier.mask modifiers), true⟩] ∧
          (visibility ≠ .null → ∃ known : Visibility, visibility = .text known.word ∧
            TripleStore.search store ⟨some text, some Predicate.hasVisibility.uri, none⟩ =
              [⟨text, Predicate.hasVisibility.uri, known.word, true⟩])) := by
  intro first store once kind own text told
  let plain := first.map MemoryStore.view
  have lists : Query.Lists store (Handler.after plain calls).model.store.triples := by
    rw [after_map]
    exact Query.lists_memory store
  have same : plain.declarations calls = first.declarations calls := declarations_map _ first calls
  have all (id : Identifier) : plain.declarationsOf calls id = first.declarationsOf calls id := by
    rw [declarationsOf, same, declarationsOf]
  obtain ⟨literal, told⟩ := lists.hasKind_iff.mp told
  have empty : plain.model.store.triples = [] := rfl
  obtain ⟨id, rfl, strongest, call, rest, declared⟩ :=
    declared_of_kind empty (kinded_start _ date) own told
  have accessed : Query.Accessed store id call rest := by
    refine Query.accessed_of_told (fun one member => ?_) (fun mask masked => ?_) fun predicate own => ?_
    · rw [← declared] at member
      obtain ⟨state, _, declares⟩ := mem_declarations.mp (mem_declarationsOf.mp member)
      exact givesAccess_of_declared declares
    · have member : call ∈ plain.declarationsOf calls id := declared ▸ List.mem_cons_self
      obtain ⟨state, accepts, _⟩ := mem_declarations.mp (mem_declarationsOf.mp member)
      exact Call.short_of_mask (short call accepts.mem) masked
    · rw [← declared]
      exact told_after rfl lists own
  refine ⟨id, call, rest, rfl, (all id).symm.trans declared, accessed, fun other => ?_⟩
  have alone : rest = [] := by
    rw [← same] at once
    exact declared_once once other strongest declared
  subst alone
  exact ⟨rfl, accessed.alone⟩

/-! A class without a visibility, whose method has a public and a private overload. -/

/-- Rules for classes and the access to their methods, all of them rules of the profile. -/
def accessRules : List Relation :=
  [EntityKind.classType, .method, .signature].map (fun kind =>
    ⟨kind.pattern, Predicate.subClassOf.uri, .resource kind.uri⟩) ++
  [Ontology.linkRule .package (.contains .classType) .classType,
    Ontology.linkRule .classType (.contains .method) .method,
    Ontology.linkRule .method (.contains .signature) .signature,
    Ontology.noteRule .classType .hasModifiers,
    Ontology.noteRule .method .hasModifiers,
    Ontology.noteRule .method .hasVisibility]

def overloadedClass : List Call :=
  [.startParsing (.text "lib") (.text "/lib"), .startClass .null (.text "C") [] none [],
    .method (.text "public") (.text "m") (.list []) [] none [] [] (.int 0),
    .method (.text "private") (.text "m") (.list []) [] none [] [] (.int 1)]

theorem overloadedClass_plain :
    let first : Builder PlainStore := start ⟨.ofRelations accessRules, .empty, .empty⟩ "2024-01-01"
    let store := (Handler.after first overloadedClass).model.store
    let declared := "http://www.rdfcoder.org/2007/1.0#jclass:C"
    let method := "http://www.rdfcoder.org/2007/1.0#jclass:C.jmethod:m"
    (Handler.trace first overloadedClass).all (·.1.isAccepted) = true ∧
      ((first.declarations overloadedClass).map fun one => (one.1, one.2.overload?)).Nodup ∧
      Query.hasKind store (some declared) .classType = true ∧
      TripleStore.search store (saidOf declared .hasVisibility) = [] ∧
      Query.hasKind store (some method) .method = true ∧
      TripleStore.search store (saidOf method .hasVisibility) =
        [⟨method, Predicate.hasVisibility.uri, "public", true⟩,
          ⟨method, Predicate.hasVisibility.uri, "private", true⟩] := by
  decide +kernel

theorem overloadedMethod_accessed :
    let first := start ⟨.ofRelations accessRules, .empty, MemoryStore.empty⟩ "2024-01-01"
    let store := (Handler.after first overloadedClass).model.store
    let method := "http://www.rdfcoder.org/2007/1.0#jclass:C.jmethod:m"
    (∀ call ∈ overloadedClass, call.shortMask = true) ∧
      ((first.declarations overloadedClass).map fun one => (one.1, one.2.overload?)).Nodup ∧
      EntityKind.method ∈ Ontology.declaredKinds ∧
      Query.hasKind store (some method) .method = true ∧
      ∃ (id : Identifier) (call : Call) (rest : List Call), id.text = method ∧
        first.declarationsOf overloadedClass id = call :: rest ∧
        Query.Accessed store id call rest := by
  intro first store method
  have short : ∀ call ∈ overloadedClass, call.shortMask = true := by decide +kernel
  obtain ⟨_, once, _, _, told, _⟩ := overloadedClass_plain
  have begun : first.map MemoryStore.view =
      start ⟨.ofRelations accessRules, .empty, .empty⟩ "2024-01-01" :=
    start_map MemoryStore.view _ _ _ _
  have once : ((first.declarations overloadedClass).map fun one =>
      (one.1, one.2.overload?)).Nodup := by
    rw [← declarations_map MemoryStore.view, begun]
    exact once
  have told : Query.hasKind store (some method) .method = true := by
    rw [Query.hasKind, search_after_map MemoryStore.view, begun]
    exact told
  obtain ⟨id, call, rest, same, declared, accessed, _⟩ := access_as_declared
    (.ofRelations accessRules) .empty "2024-01-01" overloadedClass short once .method (by decide)
    method told
  exact ⟨short, once, by decide, told, id, call, rest, same, declared, accessed⟩

/-- The overloads of a method may say different things of it, and a class need not have a visibility:
no entity is declared twice here, and the method has two literals for its visibility and the class
none. -/
theorem overloadedClass_ambiguous :
    let first := start ⟨.java, .empty, MemoryStore.empty⟩ "2024-01-01"
    let store := (Handler.after first overloadedClass).model.store
    let declared := "http://www.rdfcoder.org/2007/1.0#jclass:C"
    let method := "http://www.rdfcoder.org/2007/1.0#jclass:C.jmethod:m"
    ((first.declarations overloadedClass).map fun one => (one.1, one.2.overload?)).Nodup ∧
      Query.hasKind store (some declared) .classType = true ∧
      TripleStore.search store ⟨some declared, some Predicate.hasVisibility.uri, none⟩ = [] ∧
      Query.hasKind store (some method) .method = true ∧
      TripleStore.search store ⟨some method, some Predicate.hasVisibility.uri, none⟩ =
        [⟨method, Predicate.hasVisibility.uri, "public", true⟩,
          ⟨method, Predicate.hasVisibility.uri, "private", true⟩] := by
  intro first store declared method
  have within : (Ontology.ofRelations accessRules).Within .java :=
    Ontology.within_java (by decide +kernel)
  have begun : first.map MemoryStore.view =
      (start ⟨.ofRelations accessRules, .empty, .empty⟩ "2024-01-01").under .java :=
    (start_map MemoryStore.view _ _ _ _).trans (start_under _ _ _ _ _).symm
  obtain ⟨accepted, once, classed, unseen, told, seen⟩ := overloadedClass_plain
  have reached := after_under overloadedClass within accepted
  refine ⟨?_, ?_, ?_, ?_, ?_⟩
  · rw [← declarations_map MemoryStore.view, begun,
      declarations_under overloadedClass within accepted]
    exact once
  · rw [Query.hasKind, search_after_map MemoryStore.view, begun, reached, under_store]
    exact classed
  · rw [search_after_map MemoryStore.view, begun, reached, under_store]
    exact unseen
  · rw [Query.hasKind, search_after_map MemoryStore.view, begun, reached, under_store]
    exact told
  · rw [search_after_map MemoryStore.view, begun, reached, under_store]
    exact seen

end Builder

end CodeFacts

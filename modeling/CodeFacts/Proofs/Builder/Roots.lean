import CodeFacts.Proofs.Builder.Outcome
import CodeFacts.Proofs.Vocabulary

/-!
Planting entities. In a forest of entities just what has a kind is held, by what is known and where
its identifier says; the additions of a declaration plant its entities, so they keep a forest one.
-/

namespace CodeFacts

def kindTriple (text : String) (kind : EntityKind) : Triple :=
  ⟨text, Predicate.subClassOf.uri, kind.uri, false⟩

def holdingTriple (holder : String) (kind : EntityKind) (text : String) : Triple :=
  ⟨holder, (Predicate.contains kind).uri, text, false⟩

@[simp] theorem kindTriple_predicate (text : String) (kind : EntityKind) :
    (kindTriple text kind).predicate = Predicate.subClassOf.uri := rfl

@[simp] theorem holdingTriple_predicate (holder : String) (kind : EntityKind) (text : String) :
    (holdingTriple holder kind text).predicate = (Predicate.contains kind).uri := rfl

namespace Identifier

/-- What an identifier hangs from: itself without its last fragment, or the default package. -/
def holder (id : Identifier) : Identifier :=
  if id.size ≤ 1 then defaultPackage else id.parent

theorem holder_push {outer : Identifier} (filled : 0 < outer.size) (fragment : Fragment) :
    (outer.push fragment).holder = outer := by
  have deeper : ¬(outer.push fragment).size ≤ 1 := by
    rw [size_push]
    omega
  rw [holder, if_neg deeper, parent_push]

theorem holder_push_first {outer : Identifier} (none : outer.size = 0) (fragment : Fragment) :
    (outer.push fragment).holder = defaultPackage := by
  have alone : (outer.push fragment).size ≤ 1 := by
    rw [size_push]
    omega
  rw [holder, if_pos alone]

theorem holder_of_child {outer id : Identifier} {name qualifier : String} (filled : 0 < outer.size)
    (child : outer.child name qualifier = .ok id) : id.holder = outer := by
  obtain ⟨fragment, rfl, _⟩ := push_of_child child
  exact holder_push filled fragment

end Identifier

/-- Whether a predicate makes up the forest: it gives the kind of an entity, or what holds one that
is no package. -/
def Predicate.isStructural : Predicate → Bool
  | .subClassOf => true
  | .contains kind => decide (kind ≠ .package)
  | _ => false

/-- Whether triples know a text as an entity or the default package. -/
def Known (triples : List Triple) (text : String) : Prop :=
  text = Identifier.defaultPackage.text ∨ ∃ kind, kindTriple text kind ∈ triples

/-- Whether an entity of a kind stands in triples: its kind and what holds it are told, it is held
by what is known, and where its identifier says. Packages may have skipped one another. -/
structure Planted (triples : List Triple) (container id : Identifier) (kind : EntityKind) :
    Prop where
  strongest : id.strongestQualifier = .ok kind.key
  told : kindTriple id.text kind ∈ triples
  held : holdingTriple container.text kind id.text ∈ triples
  known : Known triples container.text
  below : kind ≠ .package → id.holder = container

/-- Entities have a kind just if they are held, all by what is known, and where their identifiers
say. -/
structure Forest (triples : List Triple) : Prop where
  held : ∀ text kind, kind ≠ .package → kindTriple text kind ∈ triples →
    ∃ holder, holdingTriple holder kind text ∈ triples
  placed : ∀ triple ∈ triples, ∀ kind, kind ≠ .package →
    triple.predicate = (Predicate.contains kind).uri → ∃ container id : Identifier,
      triple = holdingTriple container.text kind id.text ∧ Planted triples container id kind

theorem forest_empty : Forest [] := ⟨nofun, nofun⟩

def Write.Aside (first : Write) : Prop :=
  ∀ predicate ∈ first.predicate?, predicate.isStructural = false

/-- Whether an addition leaves the forest alone or is one of the two that plant an entity, which
stands in the triples after it. -/
def Write.Roots (after : List Triple) (first : Write) : Prop :=
  first.Aside ∨ ∃ container id kind, Planted after container id kind ∧
    (first = .resource id.text .subClassOf kind.uri ∨
      kind ≠ .package ∧ first = Declaration.containment container kind id.text)

section

variable {before after : List Triple} {writes : List Write}

theorem Known.mono {text : String} (known : Known before text)
    (kept : ∀ triple ∈ before, triple ∈ after) : Known after text := by
  rcases known with default | ⟨kind, told⟩
  · exact .inl default
  · exact .inr ⟨kind, kept _ told⟩

theorem Planted.mono {container id : Identifier} {kind : EntityKind}
    (planted : Planted before container id kind) (kept : ∀ triple ∈ before, triple ∈ after) :
    Planted after container id kind where
  strongest := planted.strongest
  told := kept _ planted.told
  held := kept _ planted.held
  known := planted.known.mono kept
  below := planted.below

/-- A triple of the forest is an old one or one of the two that plant an entity. -/
theorem structural_triple (grows : Grows writes before after)
    (roots : ∀ first ∈ writes, first.Roots after) {triple : Triple} (member : triple ∈ after)
    {predicate : Predicate} (structural : predicate.isStructural = true)
    (same : triple.predicate = predicate.uri) :
    triple ∈ before ∨ ∃ container id kind, Planted after container id kind ∧
      (triple = kindTriple id.text kind ∨
        kind ≠ .package ∧ triple = holdingTriple container.text kind id.text) := by
  rcases grows.made triple member with old | ⟨first, listed, stored, made⟩
  · exact .inl old
  -- The predicate of the triple tells which addition it comes from.
  · obtain ⟨told, found, uri⟩ := Write.predicate_of_mem made
    obtain rfl : told = predicate := Predicate.uri_injective (uri.symm.trans same)
    rcases roots first listed with aside | ⟨container, id, kind, planted, rfl | ⟨other, rfl⟩⟩
    · rw [aside told found] at structural
      cases structural
    · exact .inr ⟨container, id, kind, planted, .inl (List.mem_singleton.mp made)⟩
    · exact .inr ⟨container, id, kind, planted, .inr ⟨other, List.mem_singleton.mp made⟩⟩

theorem Forest.grows (forest : Forest before) (grows : Grows writes before after)
    (roots : ∀ first ∈ writes, first.Roots after) : Forest after where
  held text kind other member := by
    have structural : Predicate.subClassOf.isStructural = true := rfl
    rcases structural_triple grows roots member structural rfl with
      old | ⟨container, id, found, planted, same | ⟨_, same⟩⟩
    · obtain ⟨holder, held⟩ := forest.held text kind other old
      exact ⟨holder, grows.kept _ held⟩
    · obtain ⟨rfl, _, kinds, _⟩ := Triple.mk.inj same
      obtain rfl := EntityKind.uri_injective kinds
      exact ⟨container.text, planted.held⟩
    · cases Predicate.uri_injective (Triple.mk.inj same).2.1
  placed triple member kind other same := by
    have structural : (Predicate.contains kind).isStructural = true := decide_eq_true other
    rcases structural_triple grows roots member structural same with
      old | ⟨container, id, found, planted, rfl | ⟨_, rfl⟩⟩
    · obtain ⟨container, id, held, planted⟩ := forest.placed triple old kind other same
      exact ⟨container, id, held, planted.mono grows.kept⟩
    · rw [kindTriple_predicate] at same
      cases Predicate.uri_injective same
    · rw [holdingTriple_predicate] at same
      obtain rfl := Predicate.contains.inj (Predicate.uri_injective same)
      exact ⟨container, id, rfl, planted⟩

/-- An entity that is no package hangs from one container, as an entity of one kind. -/
theorem Planted.unique {left right first second : Identifier} {kind other : EntityKind}
    (planted : Planted after left first kind) (again : Planted after right second other)
    (same : first.text = second.text) (type : kind ≠ .package) :
    left = right ∧ kind = other := by
  obtain rfl := Identifier.text_injective same
  have kinds : kind = other :=
    EntityKind.key_injective (Except.ok.inj (planted.strongest.symm.trans again.strongest))
  exact ⟨(planted.below type).symm.trans (again.below (kinds ▸ type)), kinds⟩

end

/-! The additions of declarations plant entities. -/

def States (after : List Triple) (writes : List Write) : Prop :=
  ∀ subject predicate object, Write.resource subject predicate object ∈ writes →
    ⟨subject, predicate.uri, object, false⟩ ∈ after

theorem states_append_iff {after : List Triple} {first last : List Write} :
    States after (first ++ last) ↔ States after first ∧ States after last := by
  constructor
  · intro states
    exact ⟨fun _ _ _ member => states _ _ _ (List.mem_append_left last member),
      fun _ _ _ member => states _ _ _ (List.mem_append_right first member)⟩
  · rintro ⟨early, late⟩ _ _ _ member
    rcases List.mem_append.mp member with here | there
    · exact early _ _ _ here
    · exact late _ _ _ there

theorem Write.roots_aside {after : List Triple} {first : Write} {predicate : Predicate}
    (told : first.predicate? = some predicate) (aside : predicate.isStructural = false) :
    first.Roots after := by
  refine .inl fun other found => ?_
  rw [told] at found
  exact Option.some.inj found ▸ aside

theorem Write.roots_refuse {after : List Triple} (fault : Fault) :
    ∀ first ∈ [Write.refuse fault], first.Roots after := by
  intro first member
  rw [List.mem_singleton.mp member]
  exact .inl nofun

namespace Declaration

variable {after : List Triple} {container id : Identifier} {kind : EntityKind}

theorem references_root {predicate : Predicate} (aside : predicate.isStructural = false)
    (subject : String) (types : List TypeRef) :
    ∀ first ∈ types.map (Write.resourceType subject predicate), first.Roots after := by
  intro first member
  obtain ⟨type, _, rfl⟩ := List.mem_map.mp member
  exact Write.roots_aside rfl aside

theorem kindWrites_root (planted : Planted after container id kind) :
    ∀ first ∈ kindWrites id.text kind, first.Roots after := by
  intro first member
  exact .inr ⟨container, id, kind, planted, .inl (List.mem_singleton.mp member)⟩

theorem containment_roots (planted : Planted after container id kind) :
    (containment container kind id.text).Roots after := by
  by_cases package : kind = .package
  · subst package
    exact Write.roots_aside rfl rfl
  · exact .inr ⟨container, id, kind, planted, .inr ⟨package, rfl⟩⟩

theorem headWrites_root (planted : Planted after container id kind) (visibility : Value)
    (modifiers : List Nat) :
    ∀ first ∈ headWrites id.text kind visibility modifiers, first.Roots after := by
  have visible : ∀ first ∈ visibilityWrites id.text visibility, first.Roots after := by
    unfold visibilityWrites
    split
    · exact List.forall_mem_nil _
    · split
      · intro first member
        rw [List.mem_singleton.mp member]
        exact Write.roots_aside rfl rfl
      · exact Write.roots_refuse _
  simp only [headWrites, List.forall_mem_append, List.forall_mem_singleton]
  exact ⟨⟨kindWrites_root planted, Write.roots_aside rfl rfl⟩, visible⟩

theorem packageWrites_root (planted : Planted after container id .package) :
    ∀ first ∈ packageWrites container id, first.Roots after := by
  simp only [packageWrites, List.forall_mem_append, List.forall_mem_singleton]
  exact ⟨kindWrites_root planted, containment_roots planted⟩

theorem classWrites_root (planted : Planted after container id .classType) (visibility : Value)
    (modifiers : List Nat) (extended : Option TypeRef) (implemented : List TypeRef) :
    ∀ first ∈ classWrites visibility modifiers extended implemented container id,
      first.Roots after := by
  simp only [classWrites, List.forall_mem_append, List.forall_mem_singleton]
  exact ⟨⟨⟨headWrites_root planted visibility modifiers, references_root rfl _ _⟩,
    references_root rfl _ _⟩, containment_roots planted⟩

theorem interfaceWrites_root (planted : Planted after container id .interface)
    (visibility : Value) (modifiers : List Nat) (extended : List TypeRef) :
    ∀ first ∈ interfaceWrites visibility modifiers extended container id, first.Roots after := by
  simp only [interfaceWrites, List.forall_mem_append, List.forall_mem_singleton]
  exact ⟨⟨headWrites_root planted visibility modifiers, references_root rfl _ _⟩,
    containment_roots planted⟩

theorem enumerationWrites_root (planted : Planted after container id .enumeration)
    (visibility : Value) (modifiers : List Nat) (elements : Value) (implemented : List TypeRef) :
    ∀ first ∈ enumerationWrites visibility modifiers elements implemented container id,
      first.Roots after := by
  simp only [enumerationWrites, List.forall_mem_append, List.forall_mem_singleton]
  refine ⟨⟨⟨headWrites_root planted visibility modifiers, references_root rfl _ _⟩, ?_⟩,
    containment_roots planted⟩
  cases elements.items? with
  | none => exact Write.roots_refuse _
  | some items =>
      intro first member
      rw [List.mem_singleton.mp member]
      exact Write.roots_aside rfl rfl

theorem attributeWrites_root (planted : Planted after container id .attribute)
    (visibility : Value) (modifiers : List Nat) (type : TypeRef) (value : Value) :
    ∀ first ∈ attributeWrites visibility modifiers type value container id,
      first.Roots after := by
  simp only [attributeWrites, List.forall_mem_append, List.forall_mem_singleton]
  refine ⟨⟨⟨headWrites_root planted visibility modifiers, Write.roots_aside rfl rfl⟩, ?_⟩,
    containment_roots planted⟩
  split
  · exact List.forall_mem_nil _
  · intro first member
    rw [List.mem_singleton.mp member]
    exact Write.roots_aside rfl rfl

theorem parameterWrites_root {signature : Identifier} (filled : 0 < signature.size)
    (known : Known after signature.text) (index : Nat) (name : Value) (type : TypeRef)
    (states : States after (parameterWrites signature index name type)) :
    ∀ first ∈ parameterWrites signature index name type, first.Roots after := by
  unfold parameterWrites at states ⊢
  cases child : signature.childOfValues name (.text EntityKind.parameter.key) with
  | error fault => exact Write.roots_refuse fault
  | ok id =>
      rw [child] at states
      dsimp only at states ⊢
      obtain ⟨given, made⟩ := Identifier.child_of_values child
      have planted : Planted after signature id .parameter :=
        { strongest := Identifier.strongest_of_child made
          told := states _ _ _ (by simp [kindWrites])
          held := states _ _ _ (by simp [containment])
          known
          below := fun _ => Identifier.holder_of_child filled made }
      simp only [List.forall_mem_append, List.forall_mem_cons]
      exact ⟨kindWrites_root planted, Write.roots_aside rfl rfl, Write.roots_aside rfl rfl,
        containment_roots planted, List.forall_mem_nil _⟩

theorem parametersWrites_root {signature : Identifier} (filled : 0 < signature.size)
    (known : Known after signature.text) (names : List Value) (types : List TypeRef) (index : Nat)
    (states : States after (parametersWrites signature index names types)) :
    ∀ first ∈ parametersWrites signature index names types, first.Roots after := by
  induction names generalizing types index with
  | nil => exact List.forall_mem_nil _
  | cons name rest ih =>
      cases types with
      | nil => exact List.forall_mem_nil _
      | cons type later =>
          obtain ⟨early, late⟩ := states_append_iff.mp states
          simp only [parametersWrites, List.forall_mem_append]
          exact ⟨parameterWrites_root filled known index name type early,
            ih later (index + 1) late⟩

theorem signatureWrites_root {owner signature : Identifier} {name : String}
    (child : owner.child name EntityKind.signature.key = .ok signature) (filled : 0 < owner.size)
    (known : Known after owner.text) (parameters : Value) (types : List TypeRef)
    (result : Option TypeRef) (exceptions : List TypeRef)
    (states : States after (signatureWrites owner signature parameters types result exceptions)) :
    ∀ first ∈ signatureWrites owner signature parameters types result exceptions,
      first.Roots after := by
  unfold signatureWrites at states ⊢
  cases listed : parameters.items? with
  | none => exact Write.roots_refuse _
  | some names =>
      rw [listed] at states
      dsimp only at states ⊢
      by_cases uneven : names.length ≠ types.length
      · rw [if_pos uneven]
        exact Write.roots_refuse _
      · rw [if_neg uneven] at states ⊢
        have planted : Planted after owner signature .signature :=
          { strongest := Identifier.strongest_of_child child
            told := states _ _ _ (by simp [kindWrites])
            held := states _ _ _ (by simp [containment])
            known
            below := fun _ => Identifier.holder_of_child filled child }
        have named : Known after signature.text := .inr ⟨.signature, planted.told⟩
        have inner : States after (parametersWrites signature 0 names types) := by
          simp only [states_append_iff] at states
          exact states.1.1.1.2
        simp only [List.forall_mem_append, List.forall_mem_singleton]
        refine ⟨⟨⟨⟨kindWrites_root planted, ?_⟩, ?_⟩, references_root rfl _ _⟩,
          containment_roots planted⟩
        · exact parametersWrites_root (Identifier.size_of_child child) named names types 0 inner
        · intro first member
          obtain ⟨type, _, rfl⟩ := List.mem_map.mp member
          exact Write.roots_aside rfl rfl

theorem executableWrites_root (planted : Planted after container id kind) (filled : 0 < id.size)
    (visibility : Value) (modifiers : List Nat) (overload parameters : Value)
    (types : List TypeRef) (result : Option TypeRef) (exceptions : List TypeRef)
    (states : States after (executableWrites kind visibility modifiers overload parameters types
      result exceptions container id)) :
    ∀ first ∈ executableWrites kind visibility modifiers overload parameters types result
      exceptions container id, first.Roots after := by
  have known : Known after id.text := .inr ⟨kind, planted.told⟩
  simp only [executableWrites, states_append_iff, List.forall_mem_append,
    List.forall_mem_singleton] at states ⊢
  refine ⟨⟨headWrites_root planted visibility modifiers, ?_⟩, containment_roots planted⟩
  cases child : id.child (overloadName overload) EntityKind.signature.key with
  | error fault => exact Write.roots_refuse fault
  | ok signature =>
      rw [child] at states
      exact signatureWrites_root child filled known parameters types result exceptions states.1.2

theorem libraryWrites_root (library location date : String) :
    ∀ first ∈ libraryWrites library location date, first.Roots after := by
  simp only [libraryWrites, List.forall_mem_cons]
  exact ⟨Write.roots_aside rfl rfl, Write.roots_aside rfl rfl, Write.roots_aside rfl rfl,
    List.forall_mem_nil _⟩

end Declaration

end CodeFacts

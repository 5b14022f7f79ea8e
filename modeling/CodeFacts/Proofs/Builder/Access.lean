import CodeFacts.Proofs.Builder.Signature
import CodeFacts.Proofs.Builder.Wider

/-!
What is said of who may refer to an entity, and how it is modified. Each declaration of a type or a
member says both of it. A model has what the declarations of an entity said, once and in the order
they were made.
-/

namespace CodeFacts

/-- The predicates by which declarations say who may refer to an entity and how it is modified. -/
def accessPredicates : List Predicate := [.hasVisibility, .hasModifiers]

theorem Visibility.text_of_ofValue? {value : Value} {known : Visibility}
    (found : ofValue? value = some known) : value = .text known.word := by
  unfold ofValue? at found
  split at found
  · rename_i word
    have same := List.find?_some found
    rw [eq_of_beq same]
  · cases found

namespace Call

/-- The visibility and the modifiers a call declares something with, as they are given. -/
def access? : Call → Option (Value × List Nat)
  | .startClass visibility _ modifiers _ _ | .startInterface _ _ visibility modifiers
  | .startEnumeration visibility _ _ modifiers _ | .attribute visibility _ _ modifiers _
  | .constructor visibility _ _ _ modifiers _ | .method visibility _ _ _ _ modifiers _ _ =>
      some (visibility, modifiers)
  | _ => none

/-- The visibility a call declares something with, where it was given one. -/
def visibility? (call : Call) : Option Visibility :=
  call.access?.bind fun access => Visibility.ofValue? access.1

/-- The mask of the modifiers a call declares something with. -/
def mask? (call : Call) : Option Nat :=
  call.access?.map fun access => Modifier.mask access.2

/-- What a declaration says of its entity by a predicate. -/
def accessWords (call : Call) : Predicate → List String
  | .hasVisibility => call.visibility?.toList.map Visibility.word
  | .hasModifiers => call.mask?.toList.map toString
  | _ => []

/-- Whether a call declares something with a visibility by its word, or with none. -/
def GivesAccess (call : Call) : Prop :=
  ∃ visibility modifiers, call.access? = some (visibility, modifiers) ∧
    (visibility = .null ∨ ∃ known : Visibility, visibility = .text known.word)

/-- What tells a declaration from the others of its entity; only methods share theirs. -/
def overload? : Call → Option String
  | .method _ _ _ _ _ _ _ overload => some (Declaration.overloadName overload)
  | _ => none

theorem modifiers?_eq (call : Call) : call.modifiers? = call.access?.map Prod.snd := by
  cases call <;> rfl

theorem accessWords_none {call : Call} (nothing : call.access? = none) (predicate : Predicate) :
    call.accessWords predicate = [] := by
  unfold accessWords
  split <;> simp [visibility?, mask?, nothing]

theorem access?_closes {call : Call} {kind : EntityKind} (told : call.closes? = some kind) :
    call.access? = none := by
  cases call <;> first | rfl | cases told

theorem access?_note {call : Call} (told : call.isNote = true) : call.access? = none := by
  cases call <;> first | rfl | cases told

theorem access?_opening {call : Call} {kind : EntityKind} {name : Value}
    (told : call.opening? = some (kind, name)) (own : kind ∈ Ontology.declaredKinds) :
    call.access?.isSome = true := by
  cases call with
  | startPackage =>
      cases told
      exact absurd own (by decide)
  | startClass | startInterface | startEnumeration => rfl
  | _ => cases told

theorem access?_declaring {call : Call} {kind : EntityKind} {name : String}
    (told : call.declaring? = some (kind, name)) :
    call.opening? = none ∧ call.access?.isSome = true := by
  cases call with
  | «attribute» | constructor | method => exact ⟨rfl, rfl⟩
  | _ => cases told

end Call

/-- The triples of some words that are said of a text by a predicate. -/
def wordTriples (text : String) (predicate : Predicate) (words : List String) : List Triple :=
  words.map fun word => ⟨text, predicate.uri, word, true⟩

/-- Whether an addition says nothing of who may refer to an entity or how it is modified. -/
def Write.Silent (first : Write) : Prop :=
  ∀ predicate ∈ accessPredicates, first.predicate? ≠ some predicate

namespace Declaration

open Write

/-- The additions by which a call says that an entity is of a kind, and who may refer to it. -/
def accessWrites (call : Call) (id : String) (kind : EntityKind) : List Write :=
  call.access?.toList.flatMap fun access => headWrites id kind access.1 access.2

theorem silent_of {first : Write} {predicate : Predicate} (told : first.predicate? = some predicate)
    (other : predicate ∉ accessPredicates) : first.Silent := by
  intro asked own same
  rw [told] at same
  obtain rfl := Option.some.inj same
  exact other own

theorem silent_refuse (fault : Fault) : (Write.refuse fault).Silent := nofun

theorem silent_kind (id : String) (kind : EntityKind) :
    ∀ first ∈ kindWrites id kind, first.Silent := by
  simp only [kindWrites, List.forall_mem_singleton]
  exact silent_of rfl (by decide)

theorem silent_containment (container : Identifier) (kind : EntityKind) (id : String) :
    (containment container kind id).Silent :=
  silent_of rfl (by simp [accessPredicates])

theorem silent_types {predicate : Predicate} (other : predicate ∉ accessPredicates)
    (id : String) (types : List TypeRef) :
    ∀ first ∈ types.map (Write.resourceType id predicate), first.Silent := by
  intro first member
  obtain ⟨type, _, rfl⟩ := List.mem_map.mp member
  exact silent_of rfl other

theorem silent_parameter (signature : Identifier) (place : Nat) (name : Value) (type : TypeRef) :
    ∀ first ∈ parameterWrites signature place name type, first.Silent := by
  unfold parameterWrites
  cases signature.childOfValues name (.text EntityKind.parameter.key) with
  | error fault => simpa only [List.forall_mem_singleton] using silent_refuse fault
  | ok id =>
      simp only [List.forall_mem_append, List.forall_mem_cons]
      exact ⟨silent_kind _ _, silent_of rfl (by decide), silent_of rfl (by decide),
        silent_containment _ _ _, List.forall_mem_nil _⟩

theorem silent_parameters (signature : Identifier) (names : List Value) (types : List TypeRef)
    (index : Nat) : ∀ first ∈ parametersWrites signature index names types, first.Silent := by
  intro first member
  obtain ⟨name, _, type, _, place, _, written⟩ := of_mem_parametersWrites member
  exact silent_parameter signature place name type first written

theorem silent_signature (owner signature : Identifier) (parameters : Value)
    (types : List TypeRef) (result : Option TypeRef) (exceptions : List TypeRef) :
    ∀ first ∈ signatureWrites owner signature parameters types result exceptions,
      first.Silent := by
  unfold signatureWrites
  cases parameters.items? with
  | none => simpa only [List.forall_mem_singleton] using silent_refuse _
  | some names =>
      dsimp only
      split
      · simpa only [List.forall_mem_singleton] using silent_refuse _
      · simp only [List.forall_mem_append, List.forall_mem_singleton]
        refine ⟨⟨⟨⟨silent_kind _ _, silent_parameters _ _ _ _⟩, ?_⟩, ?_⟩,
          silent_containment _ _ _⟩
        · intro first member
          obtain ⟨type, _, rfl⟩ := List.mem_map.mp member
          exact silent_of rfl (by decide)
        · exact silent_types (by decide) _ _

/-- Every container is opened with what is said of who may refer to it first. -/
theorem opens_access {call : Call} {kind : EntityKind} {writes : Declared}
    (told : call.opens? = some (kind, writes)) (container id : Identifier) :
    ∃ rest, writes container id = accessWrites call id.text kind ++ rest ∧
      ∀ first ∈ rest, first.Silent := by
  cases call with
  | startPackage =>
      cases told
      refine ⟨packageWrites container id, rfl, ?_⟩
      simp only [packageWrites, List.forall_mem_append, List.forall_mem_singleton]
      exact ⟨silent_kind _ _, silent_containment _ _ _⟩
  | startClass visibility name modifiers extended implemented =>
      cases told
      refine ⟨extended.toList.map (.resourceType id.text .extendsClass) ++
        implemented.map (.resourceType id.text .implementsInterface) ++
        [containment container .classType id.text], ?_, ?_⟩
      · simp [accessWrites, Call.access?, classWrites]
      · simp only [List.forall_mem_append, List.forall_mem_singleton]
        exact ⟨⟨silent_types (by decide) _ _, silent_types (by decide) _ _⟩,
          silent_containment _ _ _⟩
  | startInterface name extended visibility modifiers =>
      cases told
      refine ⟨extended.map (.resourceType id.text .extendsInterface) ++
        [containment container .interface id.text], ?_, ?_⟩
      · simp [accessWrites, Call.access?, interfaceWrites]
      · simp only [List.forall_mem_append, List.forall_mem_singleton]
        exact ⟨silent_types (by decide) _ _, silent_containment _ _ _⟩
  | startEnumeration visibility name elements modifiers implemented =>
      cases told
      unfold enumerationWrites
      have listed : ∀ first ∈ implemented.map (Write.resourceType id.text .implementsInterface),
          first.Silent := silent_types (by decide) _ _
      have held : (containment container .enumeration id.text).Silent := silent_containment _ _ _
      cases elements.items? with
      | none =>
          refine ⟨implemented.map (.resourceType id.text .implementsInterface) ++
            [.refuse (.unsupported .operation)] ++ [containment container .enumeration id.text],
            by simp [accessWrites, Call.access?], ?_⟩
          simp only [List.forall_mem_append, List.forall_mem_singleton]
          exact ⟨⟨listed, silent_refuse _⟩, held⟩
      | some items =>
          refine ⟨implemented.map (.resourceType id.text .implementsInterface) ++
            [.elements id.text .containsElement items] ++
            [containment container .enumeration id.text],
            by simp [accessWrites, Call.access?], ?_⟩
          simp only [List.forall_mem_append, List.forall_mem_singleton]
          exact ⟨⟨listed, silent_of rfl (by decide)⟩, held⟩
  | _ => cases told

theorem executable_access (kind : EntityKind) (visibility : Value) (modifiers : List Nat)
    (overload parameters : Value) (types : List TypeRef) (result : Option TypeRef)
    (exceptions : List TypeRef) (container id : Identifier) :
    ∃ rest, executableWrites kind visibility modifiers overload parameters types result exceptions
        container id = headWrites id.text kind visibility modifiers ++ rest ∧
      ∀ first ∈ rest, first.Silent := by
  unfold executableWrites
  cases id.child (overloadName overload) EntityKind.signature.key with
  | error fault =>
      refine ⟨[.refuse fault] ++ [containment container kind id.text], List.append_assoc _ _ _, ?_⟩
      simp only [List.forall_mem_append, List.forall_mem_singleton]
      exact ⟨silent_refuse fault, silent_containment _ _ _⟩
  | ok signature =>
      refine ⟨signatureWrites id signature parameters types result exceptions ++
        [containment container kind id.text], List.append_assoc _ _ _, ?_⟩
      simp only [List.forall_mem_append, List.forall_mem_singleton]
      exact ⟨silent_signature _ _ _ _ _ _, silent_containment _ _ _⟩

/-- Every member is declared with what is said of who may refer to it first. -/
theorem declares_access {call : Call} {kind : EntityKind} {writes : Declared}
    (told : call.declares? = some (kind, writes)) (container id : Identifier) :
    ∃ rest, writes container id = accessWrites call id.text kind ++ rest ∧
      ∀ first ∈ rest, first.Silent := by
  cases call with
  | «attribute» visibility name type modifiers value =>
      cases told
      unfold attributeWrites
      have typed : (Write.literalType id.text .attributeType type).Silent :=
        silent_of rfl (by decide)
      have held : (containment container .attribute id.text).Silent := silent_containment _ _ _
      split
      · refine ⟨[.literalType id.text .attributeType type] ++
          [containment container .attribute id.text], by simp [accessWrites, Call.access?], ?_⟩
        simp only [List.forall_mem_append, List.forall_mem_singleton]
        exact ⟨typed, held⟩
      · refine ⟨[.literalType id.text .attributeType type] ++
          [.literal id.text .attributeValue value] ++
          [containment container .attribute id.text], by simp [accessWrites, Call.access?], ?_⟩
        simp only [List.forall_mem_append, List.forall_mem_singleton]
        exact ⟨⟨typed, silent_of rfl (by decide)⟩, held⟩
  | constructor visibility overload parameters types modifiers exceptions =>
      cases told
      simpa [accessWrites, Call.access?] using executable_access .constructor visibility modifiers
        overload parameters types none exceptions container id
  | method visibility name parameters types result modifiers exceptions overload =>
      cases told
      simpa [accessWrites, Call.access?] using executable_access .method visibility modifiers
        overload parameters types result exceptions container id
  | _ => cases told

theorem library_silent (library location date : String) :
    ∀ first ∈ libraryWrites library location date, first.Silent := by
  simp only [libraryWrites, List.forall_mem_cons]
  exact ⟨silent_of rfl (by decide), silent_of rfl (by decide), silent_of rfl (by decide),
    List.forall_mem_nil _⟩

/-! What these additions add. -/

/-- What is said first of a declaration hangs on no reference. -/
theorem accessWrites_settled (call : Call) (id : String) (kind : EntityKind) :
    ∀ first ∈ accessWrites call id kind, ∀ stored other : TypeRef → String,
      first.triples stored = first.triples other := by
  intro first member stored other
  obtain ⟨access, _, member⟩ := List.mem_flatMap.mp member
  have visible : ∀ first ∈ visibilityWrites id access.1,
      first.triples stored = first.triples other := by
    unfold visibilityWrites
    split
    · exact List.forall_mem_nil _
    · split <;> simp [Write.triples]
  have all : ∀ first ∈ headWrites id kind access.1 access.2,
      first.triples stored = first.triples other := by
    simp only [headWrites, kindWrites, List.forall_mem_append, List.forall_mem_singleton]
    exact ⟨⟨rfl, rfl⟩, visible⟩
  exact all first member

theorem visibilityWrites_triples (id : String) (visibility : Value)
    (stored : TypeRef → String) :
    ((visibilityWrites id visibility).filter
        (fun first => first.predicate? = some .hasVisibility)).flatMap (·.triples stored) =
      wordTriples id .hasVisibility ((Visibility.ofValue? visibility).toList.map Visibility.word) ∧
    (visibilityWrites id visibility).filter
      (fun first => first.predicate? = some .hasModifiers) = [] := by
  unfold visibilityWrites
  split
  · exact ⟨rfl, rfl⟩
  · unfold Visibility.ofValue
    cases Visibility.ofValue? visibility with
    | none => simp [wordTriples]
    | some found => simp [wordTriples]

theorem visibility_of_unrefused (id : String) {visibility : Value}
    (unrefused : ∀ fault, .refuse fault ∉ visibilityWrites id visibility) :
    visibility = .null ∨ ∃ known : Visibility, visibility = .text known.word := by
  unfold visibilityWrites at unrefused
  split at unrefused
  · exact .inl rfl
  · unfold Visibility.ofValue at unrefused
    cases found : Visibility.ofValue? visibility with
    | none =>
        rw [found] at unrefused
        exact absurd List.mem_cons_self (unrefused _)
    | some known => exact .inr ⟨known, Visibility.text_of_ofValue? found⟩

theorem accessWrites_triples (call : Call) (id : String) (kind : EntityKind)
    {predicate : Predicate} (own : predicate ∈ accessPredicates) (stored : TypeRef → String) :
    ((accessWrites call id kind).filter
        (fun first => first.predicate? = some predicate)).flatMap (·.triples stored) =
      wordTriples id predicate (call.accessWords predicate) := by
  simp only [accessPredicates, List.mem_cons, List.not_mem_nil, or_false] at own
  unfold accessWrites Call.accessWords Call.visibility? Call.mask?
  cases call.access? with
  | none => rcases own with rfl | rfl <;> rfl
  | some access =>
      obtain ⟨visible, silent⟩ := visibilityWrites_triples id access.1 stored
      rcases own with rfl | rfl
      · simpa [headWrites, kindWrites] using visible
      · simp [headWrites, kindWrites, silent, wordTriples]

end Declaration

namespace Draft

variable {draft last : Draft PlainStore}

/-- Accepted additions add their triples in order; of a predicate whose additions hang on no
reference they are known. -/
theorem writeAll_adds (writes : List Write) {predicate : Predicate} (stored : TypeRef → String)
    (settled : ∀ first ∈ writes, first.predicate? = some predicate →
      ∀ other, first.triples other = first.triples stored)
    (written : draft.writeAll writes = (last, none)) :
    ∃ added : List Triple, last.model.store = added.foldl TripleStore.insert draft.model.store ∧
      added.filter (fun triple => triple.predicate = predicate.uri) =
        (writes.filter fun first => first.predicate? = some predicate).flatMap
          (·.triples stored) := by
  induction writes generalizing draft with
  | nil =>
      obtain rfl : draft = last := congrArg Prod.fst written
      exact ⟨[], rfl, rfl⟩
  | cons first rest ih =>
      unfold writeAll at written
      cases step : draft.write first with
      | error fault =>
          rw [step] at written
          cases written
      | ok next =>
          rw [step] at written
          obtain ⟨unknown, _, rfl⟩ := write_ok step
          obtain ⟨added, behind, told⟩ :=
            ih (fun other member => settled other (List.mem_cons_of_mem first member)) written
          refine ⟨first.triples draft.model.storedText ++ added, ?_, ?_⟩
          · rw [behind, List.foldl_append]
            rfl
          · have own := Write.triples_with draft.model.storedText predicate [first]
            rw [List.flatMap_singleton] at own
            rw [List.filter_append, told, own, List.filter_cons, List.filter_cons]
            by_cases same : first.predicate? = some predicate
            · simp [same, settled first List.mem_cons_self same draft.model.storedText]
            · simp [same]

end Draft

/-- The search for what is said of a text by a predicate. -/
def saidOf (text : String) (predicate : Predicate) : Pattern := ⟨some text, some predicate.uri, none⟩

theorem holds_saidOf (text : String) (predicate : Predicate) (triple : Triple) :
    (saidOf text predicate).holds triple =
      (decide (triple.subject = text) && decide (triple.predicate = predicate.uri)) := by
  simp [saidOf, Pattern.holds, agrees, Bool.beq_eq_decide_eq, eq_comm]

theorem filter_wordTriples (text other : String) (predicate : Predicate) (words : List String) :
    (wordTriples other predicate words).filter (saidOf text predicate).holds =
      if other = text then wordTriples text predicate words else [] := by
  by_cases same : other = text
  · rw [if_pos same, same, List.filter_eq_self]
    intro triple member
    obtain ⟨word, _, rfl⟩ := List.mem_map.mp member
    simp [holds_saidOf]
  · rw [if_neg same, List.filter_eq_nil_iff]
    intro triple member
    obtain ⟨word, _, rfl⟩ := List.mem_map.mp member
    simp [holds_saidOf, same]

/-- What some declarations say of a text by a predicate. -/
def declaredWords (declarations : List (Identifier × Call)) (text : String)
    (predicate : Predicate) : List String :=
  (declarations.filter fun one => one.1.text = text).flatMap fun one =>
    one.2.accessWords predicate

/-- Whether of the access to each entity a store says what one before it says, and then what some
declarations say, each once. -/
def Continued (declarations : List (Identifier × Call)) (before after : PlainStore) : Prop :=
  ∀ predicate ∈ accessPredicates, ∀ text,
    after.triples.filter (saidOf text predicate).holds =
      (before.triples.filter (saidOf text predicate).holds ++
        wordTriples text predicate (declaredWords declarations text predicate)).eraseDups

theorem Continued.refl (store : PlainStore) : Continued [] store store := by
  intro predicate _ text
  show _ = (_ ++ []).eraseDups
  rw [List.append_nil, eraseDups_of_nodup (store.distinct.filter _)]

theorem Continued.trans {first second : List (Identifier × Call)} {before middle after : PlainStore}
    (left : Continued first before middle) (right : Continued second middle after) :
    Continued (first ++ second) before after := by
  intro predicate own text
  rw [right predicate own text, left predicate own text, eraseDups_eraseDups_append,
    List.append_assoc]
  simp only [declaredWords, wordTriples, List.filter_append, List.flatMap_append, List.map_append]

/-- Additions that begin as those of a declaration continue a store by it. -/
theorem Model.writeAll_continued {model next : Model PlainStore} {unknown : List String}
    {call : Call} {id : Identifier} (kind : EntityKind) {rest : List Write}
    (silent : ∀ first ∈ rest, first.Silent)
    (written : model.writeAll (Declaration.accessWrites call id.text kind ++ rest) =
      (next, .ok unknown)) :
    Continued [(id, call)] model.store next.store := by
  intro predicate own text
  obtain ⟨last, drafted, rfl, _⟩ := writeAll_drafted written
  have settled : ∀ first ∈ Declaration.accessWrites call id.text kind ++ rest,
      first.predicate? = some predicate →
        ∀ other, first.triples other = first.triples model.storedText := by
    intro first member same other
    rcases List.mem_append.mp member with access | later
    · exact Declaration.accessWrites_settled call id.text kind first access _ _
    · exact absurd same (silent first later predicate own)
  obtain ⟨added, stored, told⟩ := Draft.writeAll_adds _ model.storedText settled drafted
  have no_more : rest.filter (fun first => first.predicate? = some predicate) = [] := by
    rw [List.filter_eq_nil_iff]
    intro first member same
    exact silent first member predicate own (of_decide_eq_true same)
  have both : added.filter (saidOf text predicate).holds =
      (added.filter fun triple => triple.predicate = predicate.uri).filter
        (saidOf text predicate).holds := by
    rw [List.filter_filter]
    refine List.filter_congr fun triple _ => ?_
    rw [holds_saidOf, Bool.and_assoc, Bool.and_self]
  have words : wordTriples text predicate (declaredWords [(id, call)] text predicate) =
      if id.text = text then wordTriples text predicate (call.accessWords predicate) else [] := by
    by_cases same : id.text = text <;> simp [declaredWords, wordTriples, same]
  rw [stored, PlainStore.filter_insertAll, both, told, List.filter_append, no_more,
    List.append_nil, Declaration.accessWrites_triples call id.text kind own, filter_wordTriples,
    words]
  rfl

/-- A call without access to tell continues nothing. -/
theorem Continued.none {call : Call} {id : Identifier} {before after : PlainStore}
    (continued : Continued [(id, call)] before after) (nothing : call.access? = .none) :
    Continued [] before after := by
  intro predicate own text
  rw [continued predicate own text]
  by_cases same : id.text = text <;> simp [declaredWords, same, call.accessWords_none nothing]

namespace Builder

section

variable {σ : Type} [TripleStore σ]

/-- The entity that a call declares with a visibility and modifiers, where it is accepted. -/
def declared? (builder : Builder σ) (call : Call) : Option Identifier :=
  if (builder.handle call).1.isAccepted && call.access?.isSome then
    match call.opening? with
    | some _ => (builder.handle call).2.scopes.head?.map (·.identifier)
    | none => builder.member? call
  else none

/-- The entities that some calls declare, each with the call, in order. -/
def declarations (builder : Builder σ) : List Call → List (Identifier × Call)
  | [] => []
  | call :: rest =>
      (builder.declared? call).toList.map (fun id => (id, call)) ++
        (builder.handle call).2.declarations rest

end

variable {builder : Builder PlainStore} {call : Call} {id : Identifier}

/-- A call that is accepted adds nothing, or it begins with what it says of the access to the entity
it declares. -/
theorem writes_of_accepted (accepted : (builder.handle call).1.isAccepted = true) :
    (call.access? = none ∧ (builder.handle call).2.model.store = builder.model.store) ∨
    ∃ id kind rest unknown, (∀ first ∈ rest, first.Silent) ∧
      (∀ access, call.access? = some access → builder.declared? call = some id) ∧
      builder.model.writeAll (Declaration.accessWrites call id.text kind ++ rest) =
        ((builder.handle call).2.model, .ok unknown) := by
  have outcome := outcome_handle builder call
  generalize same : builder.handle call = result at outcome
  have accepting : result.1.isAccepted = true := same ▸ accepted
  cases outcome with
  | refuses => cases accepting
  | begins _ _ _ _ told => exact .inl ⟨told ▸ rfl, rfl⟩
  | beginsUnit _ told => exact .inl ⟨told ▸ rfl, rfl⟩
  | endsUnit _ told => exact .inl ⟨told ▸ rfl, rfl⟩
  | closes _ _ _ told => exact .inl ⟨Call.access?_closes told, rfl⟩
  | notes _ _ told => exact .inl ⟨Call.access?_note told, rfl⟩
  | ends model unknown told _ _ _ written =>
      obtain rfl := told
      -- The end of a run has no access to tell, whatever it were told of.
      exact .inr ⟨builder.path, .package, _, unknown, Declaration.library_silent _ _ _, nofun,
        written⟩
  | opens kind writes segments name notices path model unknown told _ _ _ _ written _ _ given =>
      obtain ⟨text, opening, _⟩ := given
      obtain ⟨rest, same_writes, silent⟩ := Declaration.opens_access told builder.container path
      rw [same_writes] at written
      refine .inr ⟨path, kind, rest, unknown, silent, fun access known => ?_, written⟩
      simp only [declared?, accepted, known, opening]
      rw [same]
      rfl
  | declares kind writes scope outer name id notices model unknown told _ open_scope child written
      given =>
      have innermost : builder.scopes.head? = some scope := by rw [open_scope, List.head?_cons]
      obtain ⟨rest, same_writes, silent⟩ := Declaration.declares_access told scope.identifier id
      rw [same_writes] at written
      refine .inr ⟨id, kind, rest, unknown, silent, fun access known => ?_, written⟩
      simp only [declared?, accepted, known, (Call.access?_declaring given).1,
        member?_eq innermost given, child]
      rfl

theorem continued_handle (builder : Builder PlainStore) (call : Call) :
    Continued ((builder.declared? call).toList.map fun id => (id, call)) builder.model.store
      (builder.handle call).2.model.store := by
  have unsaid (nothing : builder.declared? call = none)
      (unchanged : (builder.handle call).2.model.store = builder.model.store) :
      Continued ((builder.declared? call).toList.map fun id => (id, call)) builder.model.store
        (builder.handle call).2.model.store := by
    rw [nothing, unchanged]
    exact .refl _
  cases accepted : (builder.handle call).1.isAccepted with
  | false =>
      obtain ⟨fault, refused⟩ := Reply.isAccepted_eq_false_iff.mp accepted
      have left := (leaves_handle builder call fault refused).1
      exact unsaid (by simp [declared?, accepted]) (by rw [left])
  | true =>
      obtain ⟨nothing, unchanged⟩ | ⟨id, kind, rest, unknown, silent, declares, written⟩ :=
        writes_of_accepted accepted
      · exact unsaid (by simp [declared?, nothing]) unchanged
      · have continued := Model.writeAll_continued kind silent written
        cases given : call.access? with
        | none =>
            have nothing : builder.declared? call = none := by simp [declared?, given]
            rw [nothing]
            exact continued.none given
        | some access =>
            rw [declares access given]
            exact continued

/-- Of the access to each entity a run leaves what was said before it, and then what each of its
declarations said, once. -/
theorem continued_after (calls : List Call) (builder : Builder PlainStore) :
    Continued (builder.declarations calls) builder.model.store
      (Handler.after builder calls).model.store := by
  induction calls generalizing builder with
  | nil => exact .refl _
  | cons call rest ih => exact (continued_handle builder call).trans (ih _)

theorem accepted_of_declared {σ : Type} [TripleStore σ] {builder : Builder σ}
    (declared : builder.declared? call = some id) :
    (builder.handle call).1.isAccepted = true ∧ call.access?.isSome = true := by
  unfold declared? at declared
  split at declared
  · rename_i both
    simpa using both
  · cases declared

/-- A declaration that is accepted was given the word of a visibility, or none. -/
theorem givesAccess_of_declared (declared : builder.declared? call = some id) :
    call.GivesAccess := by
  obtain ⟨accepted, given⟩ := accepted_of_declared declared
  obtain ⟨access, told⟩ := Option.isSome_iff_exists.mp given
  obtain ⟨nothing, _⟩ | ⟨other, kind, rest, unknown, _, _, written⟩ := writes_of_accepted accepted
  · rw [told] at nothing
    cases nothing
  · have unrefused := Model.writeAll_unrefused written
    refine ⟨access.1, access.2, told,
      Declaration.visibility_of_unrefused other.text fun fault member => ?_⟩
    refine unrefused fault (List.mem_append_left rest ?_)
    rw [Declaration.accessWrites, told, Option.toList_some, List.flatMap_singleton]
    exact List.mem_append_right _ member

section

variable {σ : Type} [TripleStore σ] {builder state : Builder σ} {call : Call}
  {calls : List Call} {container id : Identifier} {kind : EntityKind}

/-- A call with an overload declares a method. -/
theorem strongest_of_overload {overload : String} (given : call.overload? = some overload)
    (declared : builder.declared? call = some id) :
    id.strongestQualifier = .ok EntityKind.method.key := by
  cases call with
  | method visibility name parameters types result modifiers exceptions index =>
      have member : builder.member? (.method visibility name parameters types result modifiers
          exceptions index) = some id := by
        unfold declared? at declared
        split at declared
        · exact declared
        · cases declared
      simp only [member?, Option.bind_eq_bind, Option.bind_eq_some_iff] at member
      obtain ⟨scope, _, ⟨kind, simple⟩, told, child⟩ := member
      cases name with
      | text =>
          cases told
          cases made : scope.identifier.child _ EntityKind.method.key with
          | error fault =>
              rw [made] at child
              cases child
          | ok other =>
              rw [made] at child
              obtain rfl := Option.some.inj child
              exact Identifier.strongest_of_child made
      | _ => cases told
  | _ => cases given

/-- What is of one of these kinds was declared with access by the call it comes from. -/
theorem Entity.declared (entity : state.Entity call container id kind)
    (own : kind ∈ Ontology.declaredKinds) (accepted : (state.handle call).1.isAccepted = true) :
    state.declared? call = some id := by
  cases entity with
  | opened told opened =>
      have given : call.access?.isSome = true := Call.access?_opening told own
      simp [declared?, accepted, given, told, opened]
  | member innermost told child =>
      obtain ⟨closed, given⟩ := Call.access?_declaring told
      simp only [declared?, accepted, given, closed, member?_eq innermost told, child]
      rfl
  | signature => exact absurd own (by decide)
  | parameter => exact absurd own (by decide)

theorem Entity.strongest (entity : state.Entity call container id kind) (kinded : state.Kinded)
    (own : kind ∈ Ontology.declaredKinds) : id.strongestQualifier = .ok kind.key := by
  cases entity with
  | opened _ opened => exact ((kinded.handle call) _ (mem_scopes opened)).2
  | member _ _ child => exact Identifier.strongest_of_child child
  | signature => exact absurd own (by decide)
  | parameter => exact absurd own (by decide)

theorem mem_declarations : (id, call) ∈ builder.declarations calls ↔
    ∃ state, builder.Accepts calls state call ∧ state.declared? call = some id := by
  induction calls generalizing builder with
  | nil =>
      refine iff_of_false List.not_mem_nil ?_
      rintro ⟨state, accepts, _⟩
      exact absurd accepts.mem List.not_mem_nil
  | cons first rest ih =>
      simp only [declarations, List.mem_append, List.mem_map, ih]
      constructor
      · rintro (⟨other, declared, same⟩ | ⟨state, accepts, declared⟩)
        · cases same
          have declared : builder.declared? call = some id := Option.mem_toList.mp declared
          exact ⟨builder, .first (accepted_of_declared declared).1, declared⟩
        · exact ⟨state, accepts.later, declared⟩
      · rintro ⟨state, ⟨⟨earlier, later, split, rfl⟩, accepted⟩, declared⟩
        cases earlier with
        | nil =>
            cases split
            exact .inl ⟨id, Option.mem_toList.mpr declared, rfl⟩
        | cons =>
            cases split
            exact .inr ⟨_, ⟨⟨_, later, rfl, rfl⟩, accepted⟩, declared⟩

theorem declared?_map {τ : Type} [TripleStore τ] (view : StoreMap σ τ) (builder : Builder σ)
    (call : Call) : (builder.map view).declared? call = builder.declared? call := by
  rw [declared?, declared?, handle_map]
  rfl

theorem declarations_map {τ : Type} [TripleStore τ] (view : StoreMap σ τ) (builder : Builder σ)
    (calls : List Call) : (builder.map view).declarations calls = builder.declarations calls := by
  induction calls generalizing builder with
  | nil => rfl
  | cons call rest ih =>
      rw [declarations, declarations, declared?_map, handle_map, ih]

/-- Calls that are accepted declare the same under more rules. -/
theorem declarations_under {many : Ontology} (calls : List Call) {builder : Builder σ}
    (within : builder.model.ontology.Within many)
    (accepted : (Handler.trace builder calls).all (·.1.isAccepted) = true) :
    (builder.under many).declarations calls = builder.declarations calls := by
  induction calls generalizing builder with
  | nil => rfl
  | cons call rest ih =>
      obtain ⟨first, later⟩ := Bool.and_eq_true_iff.mp accepted
      have same : builder.model.ontology = (builder.handle call).2.model.ontology :=
        (handle_ontology builder call).symm
      have step := handle_under within first
      have now : (builder.under many).declared? call = builder.declared? call := by
        rw [declared?, declared?, step]
        rfl
      have behind := ih (same ▸ within) later
      rw [declarations, declarations, now, step]
      exact congrArg _ behind

end

end Builder

end CodeFacts

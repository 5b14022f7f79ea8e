import CodeFacts.Proofs.Builder.Roots

/-!
What the triples of a run come from. Every triple was said by a call that was accepted, and what a
call says is of the entities it declares: the container it opens, or a member with its signature and
the parameters of that.
-/

namespace CodeFacts

/-- A signature as a call declares it: what tells it from the others of its member, its parameters
with their types, the type of its result and what it throws. -/
structure Signing where
  overload : Value
  parameters : Value
  types : List TypeRef
  result : Option TypeRef
  exceptions : List TypeRef

/-- The names of the parameters, as they are given. -/
def Signing.names (signing : Signing) : List Value := signing.parameters.items?.getD []

namespace Call

def signing? : Call → Option Signing
  | .constructor _ overload parameters types _ exceptions =>
      some ⟨overload, parameters, types, none, exceptions⟩
  | .method _ _ parameters types result _ exceptions overload =>
      some ⟨overload, parameters, types, result, exceptions⟩
  | _ => none

/-- The modifiers a call declares something with. -/
def modifiers? : Call → Option (List Nat)
  | .startClass _ _ modifiers _ _ | .startInterface _ _ _ modifiers
  | .startEnumeration _ _ _ modifiers _ | .attribute _ _ _ modifiers _
  | .constructor _ _ _ _ modifiers _ | .method _ _ _ _ _ modifiers _ _ => some modifiers
  | _ => none

theorem kind_of_opening {call : Call} {kind : EntityKind} {name : Value}
    (told : call.opening? = some (kind, name)) : kind ∈ EntityKind.package :: EntityKind.types := by
  unfold opening? at told
  split at told <;> cases told <;> decide

theorem kind_of_declaring {call : Call} {kind : EntityKind} {name : String}
    (told : call.declaring? = some (kind, name)) :
    kind ∈ [EntityKind.attribute, .constructor, .method] := by
  unfold declaring? at told
  split at told <;> cases told <;> decide

theorem no_type_of_declaring {call : Call} {kind : EntityKind} {name : String}
    (told : call.declaring? = some (kind, name)) : kind ∉ EntityKind.types := by
  have apart : ∀ kind ∈ [EntityKind.attribute, .constructor, .method],
      kind ∉ EntityKind.types := by decide
  exact apart kind (kind_of_declaring told)

/-- A call that opens a container does nothing else. -/
theorem only_opens {call : Call} {kind : EntityKind} {name : Value}
    (told : call.opening? = some (kind, name)) :
    call.closes? = none ∧ call.declares? = none ∧ call.isNote = false := by
  cases call <;> first | exact ⟨rfl, rfl, rfl⟩ | cases told

/-- A call that declares a member does nothing else. -/
theorem only_declares {call : Call} {kind : EntityKind} {writes : Declared}
    (told : call.declares? = some (kind, writes)) :
    call.opening? = none ∧ call.closes? = none ∧ call.isNote = false := by
  cases call <;> first | exact ⟨rfl, rfl, rfl⟩ | cases told

end Call

namespace Builder

variable {σ : Type} [TripleStore σ]

/-- The identifier of the member a call declares in the innermost scope. -/
def member? (builder : Builder σ) (call : Call) : Option Identifier := do
  let scope ← builder.scopes.head?
  let (kind, name) ← call.declaring?
  (scope.identifier.child name kind.key).toOption

/-- The identifier of the signature a call declares. -/
def signature? (builder : Builder σ) (call : Call) : Option Identifier := do
  let member ← builder.member? call
  let signing ← call.signing?
  (member.child (Declaration.overloadName signing.overload) EntityKind.signature.key).toOption

/-- The entities a call declares where it is accepted, each below its container. -/
inductive Entity (builder : Builder σ) (call : Call) :
    (container id : Identifier) → EntityKind → Prop
  | opened {scope : Scope} {name : Value} (told : call.opening? = some (scope.kind, name))
      (opened : (builder.handle call).2.scopes = scope :: builder.scopes) :
      Entity builder call builder.container scope.identifier scope.kind
  | member {scope : Scope} {kind : EntityKind} {name : String} {id : Identifier}
      (innermost : builder.scopes.head? = some scope)
      (told : call.declaring? = some (kind, name))
      (child : scope.identifier.child name kind.key = .ok id) :
      Entity builder call scope.identifier id kind
  | signature {member signature : Identifier} (declared : builder.member? call = some member)
      (signed : builder.signature? call = some signature) :
      Entity builder call member signature .signature
  | parameter {signature parameter : Identifier} {name : String}
      (signed : builder.signature? call = some signature)
      (child : signature.child name EntityKind.parameter.key = .ok parameter) :
      Entity builder call signature parameter .parameter

/-- What a call says by a triple with a predicate. Of predicates that only add to an entity nothing
more is kept here. -/
def SaidAs (builder : Builder σ) (call : Call) (triple : Triple) : Predicate → Prop
  | .subClassOf => ∃ container id kind, builder.Entity call container id kind ∧
      triple = kindTriple id.text kind
  | .contains _ => ∃ container id kind, builder.Entity call container id kind ∧
      triple = holdingTriple container.text kind id.text
  | .hasVisibility => ∃ visibility : Visibility, triple.object = visibility.word
  | .hasModifiers => ∃ bits ∈ call.modifiers?, triple.object = toString (Modifier.mask bits)
  | .parameterType => ∃ signature parameter, builder.Entity call signature parameter .parameter ∧
      triple.subject = parameter.text
  | .parameterIndex => ∃ signature parameter, builder.Entity call signature parameter .parameter ∧
      triple.subject = parameter.text ∧ ∃ signing ∈ call.signing?,
        ∃ index < signing.names.length, triple.object = toString index
  | .returnType | .throwsException => ∃ member signature,
      builder.Entity call member signature .signature ∧ triple.subject = signature.text
  | .containsLibrary | .libraryLocation | .libraryDate => call = .endParsing
  | _ => True

/-- Whether a call says a triple. -/
def Said (builder : Builder σ) (call : Call) (triple : Triple) : Prop :=
  ∀ predicate, triple.predicate = predicate.uri → builder.SaidAs call triple predicate

/-- Whether a call says all that an addition may add. -/
def Tells (builder : Builder σ) (call : Call) (first : Write) : Prop :=
  ∀ stored, ∀ triple ∈ first.triples stored, builder.Said call triple

variable {builder : Builder σ} {call : Call} {container id : Identifier} {kind : EntityKind}

theorem tells_of {first : Write} {predicate : Predicate}
    (told : first.predicate? = some predicate)
    (said : ∀ stored, ∀ triple ∈ first.triples stored, builder.SaidAs call triple predicate) :
    builder.Tells call first := by
  intro stored triple member other same
  obtain ⟨found, given, uri⟩ := Write.predicate_of_mem member
  rw [told] at given
  obtain rfl := Option.some.inj given
  obtain rfl := Predicate.uri_injective (uri.symm.trans same)
  exact said stored triple member

theorem tells_detail {first : Write} {predicate : Predicate}
    (told : first.predicate? = some predicate)
    (detail : ∀ triple, builder.SaidAs call triple predicate) : builder.Tells call first :=
  tells_of told fun _ triple _ => detail triple

theorem tells_none : ∀ first ∈ ([] : List Write), builder.Tells call first :=
  fun _ member => absurd member List.not_mem_nil

theorem tells_refuse (fault : Fault) : ∀ first ∈ [Write.refuse fault], builder.Tells call first := by
  intro first member
  rw [List.mem_singleton.mp member]
  exact fun _ _ made => absurd made List.not_mem_nil

theorem tells_details {predicate : Predicate}
    (detail : ∀ triple, builder.SaidAs call triple predicate) (subject : String)
    (types : List TypeRef) :
    ∀ first ∈ types.map (Write.resourceType subject predicate), builder.Tells call first := by
  intro first member
  obtain ⟨type, _, rfl⟩ := List.mem_map.mp member
  exact tells_detail rfl detail

theorem Entity.kind_told (entity : builder.Entity call container id kind) :
    ∀ first ∈ Declaration.kindWrites id.text kind, builder.Tells call first := by
  intro first member
  rw [List.mem_singleton.mp member]
  refine tells_of rfl fun _ triple made => ?_
  exact ⟨container, id, kind, entity, List.mem_singleton.mp made⟩

theorem Entity.holding_told (entity : builder.Entity call container id kind) :
    builder.Tells call (Declaration.containment container kind id.text) :=
  tells_of rfl fun _ _ made => ⟨container, id, kind, entity, List.mem_singleton.mp made⟩

/-! The additions of each declaration. -/

open Declaration

theorem Entity.head_told (entity : builder.Entity call container id kind) (visibility : Value)
    {modifiers : List Nat} (modified : call.modifiers? = some modifiers) :
    ∀ first ∈ headWrites id.text kind visibility modifiers, builder.Tells call first := by
  have visible : ∀ first ∈ visibilityWrites id.text visibility, builder.Tells call first := by
    unfold visibilityWrites
    split
    · exact tells_none
    · split
      · rename_i given _
        intro first member
        rw [List.mem_singleton.mp member]
        refine tells_of rfl fun _ triple made => ⟨given, ?_⟩
        rw [List.mem_singleton.mp made]
      · exact tells_refuse _
  have mask : builder.Tells call
      (.literal id.text .hasModifiers (.text (toString (Modifier.mask modifiers)))) := by
    refine tells_of rfl fun _ triple made => ⟨modifiers, modified, ?_⟩
    rw [List.mem_singleton.mp made]
  simp only [headWrites, List.forall_mem_append, List.forall_mem_singleton]
  exact ⟨⟨entity.kind_told, mask⟩, visible⟩

variable {signing : Signing}

theorem parameter_told {signature : Identifier}
    (signed : builder.signature? call = some signature) (given : call.signing? = some signing)
    (name : Value) (type : TypeRef) {place : Nat} (within : place < signing.names.length) :
    ∀ first ∈ parameterWrites signature place name type, builder.Tells call first := by
  unfold parameterWrites
  cases child : signature.childOfValues name (.text EntityKind.parameter.key) with
  | error fault => exact tells_refuse fault
  | ok id =>
      obtain ⟨segment, made⟩ := Identifier.child_of_values child
      have entity : builder.Entity call signature id .parameter := .parameter signed made
      have typed : builder.Tells call (.literalType id.text .parameterType type) := by
        refine tells_of rfl fun _ triple told => ⟨signature, id, entity, ?_⟩
        rw [List.mem_singleton.mp told]
      have placed : builder.Tells call
          (.literal id.text .parameterIndex (.text (toString place))) := by
        refine tells_of rfl fun _ triple told =>
          ⟨signature, id, entity, ?_, signing, given, place, within, ?_⟩
        all_goals rw [List.mem_singleton.mp told]
      simp only [List.forall_mem_append, List.forall_mem_cons]
      exact ⟨entity.kind_told, typed, placed, entity.holding_told, tells_none⟩

theorem parameters_told {signature : Identifier}
    (signed : builder.signature? call = some signature) (given : call.signing? = some signing)
    (names : List Value) (types : List TypeRef) (index : Nat)
    (within : index + names.length ≤ signing.names.length) :
    ∀ first ∈ parametersWrites signature index names types, builder.Tells call first := by
  intro first member
  obtain ⟨name, _, type, _, place, before, written⟩ := of_mem_parametersWrites member
  exact parameter_told signed given name type (before.trans_le within) first written

theorem Entity.signature_told {member signature : Identifier}
    (entity : builder.Entity call member signature .signature)
    (signed : builder.signature? call = some signature) (given : call.signing? = some signing) :
    ∀ first ∈ signatureWrites member signature signing.parameters signing.types signing.result
      signing.exceptions, builder.Tells call first := by
  unfold signatureWrites
  cases listed : signing.parameters.items? with
  | none => exact tells_refuse _
  | some names =>
      have all : signing.names = names := by rw [Signing.names, listed, Option.getD_some]
      dsimp only
      by_cases uneven : names.length ≠ signing.types.length
      · rw [if_pos uneven]
        exact tells_refuse _
      · rw [if_neg uneven]
        simp only [List.forall_mem_append, List.forall_mem_singleton]
        refine ⟨⟨⟨⟨entity.kind_told, ?_⟩, ?_⟩, ?_⟩, entity.holding_told⟩
        · exact parameters_told signed given names signing.types 0 (by rw [all]; omega)
        · intro first listed
          obtain ⟨type, _, rfl⟩ := List.mem_map.mp listed
          refine tells_of rfl fun _ triple told => ⟨member, signature, entity, ?_⟩
          rw [List.mem_singleton.mp told]
        · intro first listed
          obtain ⟨type, _, rfl⟩ := List.mem_map.mp listed
          refine tells_of rfl fun _ triple told => ⟨member, signature, entity, ?_⟩
          rw [List.mem_singleton.mp told]

omit [TripleStore σ] in
theorem signature?_eq {member : Identifier} (declared : builder.member? call = some member)
    (given : call.signing? = some signing) :
    builder.signature? call =
      (member.child (overloadName signing.overload) EntityKind.signature.key).toOption := by
  rw [signature?, declared, given]
  rfl

omit [TripleStore σ] in
theorem signing_of_signature {signature : Identifier}
    (signed : builder.signature? call = some signature) :
    ∃ member signing, builder.member? call = some member ∧ call.signing? = some signing ∧
      member.child (overloadName signing.overload) EntityKind.signature.key = .ok signature := by
  rw [signature?] at signed
  obtain ⟨member, declared, signed⟩ := Option.bind_eq_some_iff.mp signed
  obtain ⟨signing, given, made⟩ := Option.bind_eq_some_iff.mp signed
  exact ⟨member, signing, declared, given, Steps.ok_of_toOption made⟩

theorem Entity.executable_told (entity : builder.Entity call container id kind)
    (declared : builder.member? call = some id) (visibility : Value) {modifiers : List Nat}
    (modified : call.modifiers? = some modifiers) (given : call.signing? = some signing) :
    ∀ first ∈ executableWrites kind visibility modifiers signing.overload signing.parameters
      signing.types signing.result signing.exceptions container id, builder.Tells call first := by
  simp only [executableWrites, List.forall_mem_append, List.forall_mem_singleton]
  refine ⟨⟨entity.head_told visibility modified, ?_⟩, entity.holding_told⟩
  cases child : id.child (overloadName signing.overload) EntityKind.signature.key with
  | error fault => exact tells_refuse fault
  | ok signature =>
      have signed : builder.signature? call = some signature := by
        rw [signature?_eq declared given, child]
        rfl
      exact (Entity.signature declared signed).signature_told signed given

theorem Entity.opened_told (entity : builder.Entity call container id kind) {writes : Declared}
    (told : call.opens? = some (kind, writes)) :
    ∀ first ∈ writes container id, builder.Tells call first := by
  cases call with
  | startPackage =>
      cases told
      simp only [packageWrites, List.forall_mem_append, List.forall_mem_singleton]
      exact ⟨entity.kind_told, entity.holding_told⟩
  | startClass visibility _ modifiers extended implemented =>
      cases told
      simp only [classWrites, List.forall_mem_append, List.forall_mem_singleton]
      exact ⟨⟨⟨entity.head_told visibility rfl, tells_details (fun _ => by trivial) _ _⟩,
        tells_details (fun _ => by trivial) _ _⟩, entity.holding_told⟩
  | startInterface _ extended visibility modifiers =>
      cases told
      simp only [interfaceWrites, List.forall_mem_append, List.forall_mem_singleton]
      exact ⟨⟨entity.head_told visibility rfl, tells_details (fun _ => by trivial) _ _⟩,
        entity.holding_told⟩
  | startEnumeration visibility _ elements modifiers implemented =>
      cases told
      simp only [enumerationWrites, List.forall_mem_append, List.forall_mem_singleton]
      refine ⟨⟨⟨entity.head_told visibility rfl, tells_details (fun _ => by trivial) _ _⟩, ?_⟩,
        entity.holding_told⟩
      cases elements.items? with
      | none => exact tells_refuse _
      | some items =>
          intro first member
          rw [List.mem_singleton.mp member]
          exact tells_detail rfl fun _ => trivial
  | _ => cases told

theorem Entity.member_told (entity : builder.Entity call container id kind)
    (declared : builder.member? call = some id) {writes : Declared}
    (told : call.declares? = some (kind, writes)) :
    ∀ first ∈ writes container id, builder.Tells call first := by
  cases call with
  | «attribute» visibility _ type modifiers value =>
      cases told
      simp only [attributeWrites, List.forall_mem_append, List.forall_mem_singleton]
      refine ⟨⟨⟨entity.head_told visibility rfl, tells_detail rfl fun _ => trivial⟩, ?_⟩,
        entity.holding_told⟩
      split
      · exact tells_none
      · intro first member
        rw [List.mem_singleton.mp member]
        exact tells_detail rfl fun _ => trivial
  | constructor visibility overload parameters types modifiers exceptions =>
      cases told
      have given : Call.signing? (.constructor visibility overload parameters types modifiers
        exceptions) = some ⟨overload, parameters, types, none, exceptions⟩ := rfl
      have tells := entity.executable_told declared visibility rfl given
      exact tells
  | method visibility name parameters types result modifiers exceptions overload =>
      cases told
      have given : Call.signing? (.method visibility name parameters types result modifiers
        exceptions overload) = some ⟨overload, parameters, types, result, exceptions⟩ := rfl
      have tells := entity.executable_told declared visibility rfl given
      exact tells
  | _ => cases told

theorem library_told (told : call = .endParsing) (library location date : String) :
    ∀ first ∈ libraryWrites library location date, builder.Tells call first := by
  simp only [libraryWrites, List.forall_mem_cons]
  exact ⟨tells_detail rfl fun _ => told, tells_detail rfl fun _ => told,
    tells_detail rfl fun _ => told, tells_none⟩

omit [TripleStore σ] in
theorem member?_eq {scope : Scope} {name : String} (innermost : builder.scopes.head? = some scope)
    (told : call.declaring? = some (kind, name)) :
    builder.member? call = (scope.identifier.child name kind.key).toOption := by
  rw [member?, innermost, told]
  rfl

/-! What a call adds, and what a run leaves. -/

section

variable {builder : Builder PlainStore}

/-- The additions of a call. One that is refused has none; one that is accepted says all it adds. -/
theorem writes_of_handle (builder : Builder PlainStore) (call : Call) :
    ∃ writes, Grows writes builder.model.store.triples
        (builder.handle call).2.model.store.triples ∧
      ∀ first ∈ writes, (builder.handle call).1.isAccepted = true ∧ builder.Tells call first := by
  have unchanged {next : Builder PlainStore} (same : next.model.store = builder.model.store) :
      ∃ writes, Grows writes builder.model.store.triples next.model.store.triples ∧
        ∀ first ∈ writes, (builder.handle call).1.isAccepted = true ∧ builder.Tells call first := by
    refine ⟨[], ?_, fun _ member => absurd member List.not_mem_nil⟩
    rw [same]
    exact .refl _
  have outcome := outcome_handle builder call
  cases accepted : (builder.handle call).1.isAccepted with
  | false =>
      -- A refused call leaves at most its path behind, not a triple.
      obtain ⟨fault, refused⟩ := Reply.isAccepted_eq_false_iff.mp accepted
      rw [(leaves_handle builder call fault refused).1, ← accepted]
      exact unchanged rfl
  | true =>
      rw [accepted] at unchanged
      generalize same : builder.handle call = result at accepted outcome
      cases outcome with
      | refuses => cases accepted
      | begins | beginsUnit | endsUnit | closes | notes => exact unchanged rfl
      | ends model unknown told _ _ _ written =>
          exact ⟨_, Model.writeAll_grows written, fun first member =>
            ⟨rfl, library_told told _ _ _ first member⟩⟩
      | opens kind writes segments name notices path model unknown told _ _ _ _ written _ _ given =>
          obtain ⟨text, opening, _⟩ := given
          have opened : (builder.handle call).2.scopes =
              ⟨kind, path, segments.length, name⟩ :: builder.scopes := by rw [same]
          have entity := Entity.opened opening opened
          exact ⟨_, Model.writeAll_grows written, fun first member =>
            ⟨rfl, entity.opened_told told first member⟩⟩
      | declares kind writes scope outer name id notices model unknown told _ open_scope child
          written given =>
          have innermost : builder.scopes.head? = some scope := by
            rw [open_scope, List.head?_cons]
          have declared : builder.member? call = some id := by
            rw [member?_eq innermost given, child]
            rfl
          have entity := Entity.member innermost given child
          exact ⟨_, Model.writeAll_grows written, fun first member =>
            ⟨rfl, entity.member_told declared told first member⟩⟩

/-- What is new after a call was said by it, and it was accepted. -/
theorem said_handle (builder : Builder PlainStore) (call : Call) :
    ∃ new, (builder.handle call).2.model.store.triples = builder.model.store.triples ++ new ∧
      ∀ triple ∈ new, (builder.handle call).1.isAccepted = true ∧ builder.Said call triple := by
  obtain ⟨writes, grows, tells⟩ := writes_of_handle builder call
  obtain ⟨new, behind⟩ := grows.behind
  refine ⟨new, behind, fun triple member => ?_⟩
  have distinct := (builder.handle call).2.model.store.distinct
  have made := grows.made triple
  rw [behind] at distinct made
  have fresh : triple ∉ builder.model.store.triples := fun old =>
    (List.disjoint_of_nodup_append distinct) old member
  obtain ⟨first, listed, stored, made⟩ :=
    (made (List.mem_append_right _ member)).resolve_left fresh
  obtain ⟨accepted, said⟩ := tells first listed
  exact ⟨accepted, said stored triple made⟩

end

/-! What a call that is accepted did. -/

section

variable {σ : Type} [TripleStore σ] {builder : Builder σ} {call : Call} {kind : EntityKind}

theorem opens_of_accepted {name : Value} (accepted : (builder.handle call).1.isAccepted = true)
    (told : call.opening? = some (kind, name)) :
    ∃ writes segments full unknown, call.opens? = some (kind, writes) ∧
      (builder.handle call).2.scopes =
        ⟨kind, (builder.handle call).2.path, List.length segments, full⟩ :: builder.scopes ∧
      pushAll kind builder.path segments = ((builder.handle call).2.path, none) ∧
      builder.model.writeAll (writes builder.container (builder.handle call).2.path) =
        ((builder.handle call).2.model, .ok unknown) := by
  have outcome := outcome_handle builder call
  generalize builder.handle call = result at accepted outcome ⊢
  cases outcome with
  | refuses => cases accepted
  | opens _ writes segments full _ _ _ unknown opens _ _ _ pushed written _ _ given =>
      obtain ⟨text, opening, _⟩ := given
      rw [told] at opening
      obtain ⟨rfl, rfl⟩ := Prod.mk.inj (Option.some.inj opening)
      exact ⟨writes, segments, full, unknown, opens, rfl, pushed, written⟩
  | begins _ _ _ _ other => cases other ▸ told
  | ends _ _ other => cases other ▸ told
  | beginsUnit _ other => cases other ▸ told
  | endsUnit _ other => cases other ▸ told
  | closes _ _ _ other => cases (Call.only_opens told).1.symm.trans other
  | declares _ _ _ _ _ _ _ _ _ other => cases (Call.only_opens told).2.1.symm.trans other
  | notes _ _ other => cases (Call.only_opens told).2.2.symm.trans other

theorem declares_of_accepted {writes : Declared}
    (accepted : (builder.handle call).1.isAccepted = true)
    (told : call.declares? = some (kind, writes)) :
    ∃ scope name id unknown, builder.scopes.head? = some scope ∧
      call.declaring? = some (kind, name) ∧ scope.identifier.child name kind.key = .ok id ∧
      builder.model.writeAll (writes scope.identifier id) =
        ((builder.handle call).2.model, .ok unknown) := by
  have outcome := outcome_handle builder call
  generalize builder.handle call = result at accepted outcome ⊢
  cases outcome with
  | refuses => cases accepted
  | declares _ _ scope outer name id _ _ unknown declares _ open_scope child written given =>
      rw [told] at declares
      obtain ⟨rfl, rfl⟩ := Prod.mk.inj (Option.some.inj declares)
      refine ⟨scope, name, id, unknown, ?_, given, child, written⟩
      rw [open_scope, List.head?_cons]
  | begins _ _ _ _ other => cases other ▸ told
  | ends _ _ other => cases other ▸ told
  | beginsUnit _ other => cases other ▸ told
  | endsUnit _ other => cases other ▸ told
  | opens _ _ _ _ _ _ _ _ _ _ _ _ _ _ _ _ given =>
      obtain ⟨_, opening, _⟩ := given
      cases (Call.only_declares told).1.symm.trans opening
  | closes _ _ _ other => cases (Call.only_declares told).2.1.symm.trans other
  | notes _ _ other => cases (Call.only_declares told).2.2.symm.trans other

end

/-- Whether a call is accepted among some that are made one after the other, in the state that it
finds. -/
structure Accepts (builder : Builder σ) (calls : List Call) (state : Builder σ) (call : Call) :
    Prop where
  made : ∃ earlier later, calls = earlier ++ call :: later ∧
    state = Handler.after builder earlier
  accepted : (state.handle call).1.isAccepted = true

theorem Accepts.first {rest : List Call} (accepted : (builder.handle call).1.isAccepted = true) :
    builder.Accepts (call :: rest) builder call :=
  ⟨⟨[], rest, rfl, rfl⟩, accepted⟩

theorem Accepts.later {first : Call} {rest : List Call} {state : Builder σ}
    (accepts : (builder.handle first).2.Accepts rest state call) :
    builder.Accepts (first :: rest) state call := by
  obtain ⟨⟨earlier, later, rfl, reached⟩, accepted⟩ := accepts
  exact ⟨⟨first :: earlier, later, rfl, reached⟩, accepted⟩

theorem after_call (builder : Builder σ) (earlier later : List Call) (call : Call) :
    Handler.after builder (earlier ++ call :: later) =
      Handler.after ((Handler.after builder earlier).handle call).2 later := by
  rw [Handler.after, List.foldl_append]
  rfl

theorem Accepts.mem {calls : List Call} {state : Builder σ}
    (accepts : builder.Accepts calls state call) : call ∈ calls := by
  obtain ⟨⟨earlier, later, rfl, _⟩, _⟩ := accepts
  exact List.mem_append_right earlier List.mem_cons_self

theorem reply_map {τ : Type} [TripleStore τ] (view : StoreMap σ τ) (builder : Builder σ)
    (call : Call) : ((builder.map view).handle call).1 = (builder.handle call).1 := by
  rw [handle_map]

theorem accepts_map {τ : Type} [TripleStore τ] (view : StoreMap σ τ) {calls : List Call}
    {state : Builder τ} : (builder.map view).Accepts calls state call ↔
      ∃ origin, state = origin.map view ∧ builder.Accepts calls origin call := by
  constructor
  · rintro ⟨⟨earlier, later, rfl, rfl⟩, accepted⟩
    rw [after_map] at accepted ⊢
    rw [reply_map] at accepted
    exact ⟨_, rfl, ⟨earlier, later, rfl, rfl⟩, accepted⟩
  · rintro ⟨_, rfl, ⟨earlier, later, rfl, rfl⟩, accepted⟩
    refine ⟨⟨earlier, later, rfl, (after_map view earlier builder).symm⟩, ?_⟩
    rw [reply_map]
    exact accepted

/-- What is new after a run was said by a call of it that was accepted. -/
theorem said_after (calls : List Call) (builder : Builder PlainStore) :
    ∃ new, (Handler.after builder calls).model.store.triples =
        builder.model.store.triples ++ new ∧
      ∀ triple ∈ new, ∃ state call, builder.Accepts calls state call ∧
        state.Said call triple := by
  induction calls generalizing builder with
  | nil => exact ⟨[], (List.append_nil _).symm, nofun⟩
  | cons call rest ih =>
      obtain ⟨now, added, said_now⟩ := said_handle builder call
      obtain ⟨later, behind, said_later⟩ := ih (builder.handle call).2
      refine ⟨now ++ later, ?_, fun triple member => ?_⟩
      · rw [← List.append_assoc, ← added]
        exact behind
      · rcases List.mem_append.mp member with first | others
        · obtain ⟨accepted, said⟩ := said_now triple first
          exact ⟨builder, call, .first accepted, said⟩
        · obtain ⟨state, other, accepts, said⟩ := said_later triple others
          exact ⟨state, other, accepts.later, said⟩

theorem kept_after (calls : List Call) {builder : Builder PlainStore} {triple : Triple}
    (member : triple ∈ builder.model.store.triples) :
    triple ∈ (Handler.after builder calls).model.store.triples := by
  obtain ⟨new, behind, _⟩ := said_after calls builder
  rw [behind]
  exact List.mem_append_left new member

theorem said_of_empty {builder : Builder PlainStore} {calls : List Call} {triple : Triple}
    (empty : builder.model.store.triples = [])
    (member : triple ∈ (Handler.after builder calls).model.store.triples) :
    ∃ state call, builder.Accepts calls state call ∧ state.Said call triple := by
  obtain ⟨new, behind, said⟩ := said_after calls builder
  rw [behind, empty] at member
  exact said triple member

end Builder

end CodeFacts

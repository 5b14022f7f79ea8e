import CodeFacts.Proofs.Binding
import CodeFacts.Proofs.Builder.Said
import CodeFacts.Proofs.Builder.Steady

/-!
What a method or a constructor says of its signature. It is all new when the signature is, it comes
in the order of the declaration, and nothing that is said of other signatures adds to it.
-/

namespace CodeFacts

namespace Write

@[simp] theorem predicate?_resource (subject : String) (predicate : Predicate) (object : String) :
    (resource subject predicate object).predicate? = some predicate := rfl

@[simp] theorem predicate?_literal (subject : String) (predicate : Predicate) (value : Value) :
    (literal subject predicate value).predicate? = some predicate := rfl

@[simp] theorem predicate?_resourceType (subject : String) (predicate : Predicate)
    (type : TypeRef) : (resourceType subject predicate type).predicate? = some predicate := rfl

@[simp] theorem predicate?_literalType (subject : String) (predicate : Predicate)
    (type : TypeRef) : (literalType subject predicate type).predicate? = some predicate := rfl

@[simp] theorem predicate?_refuse (fault : Fault) : (refuse fault).predicate? = none := rfl

section

variable (stored : TypeRef → String) (subject : String) (predicate : Predicate)

@[simp] theorem triples_resource (object : String) :
    (resource subject predicate object).triples stored =
      [⟨subject, predicate.uri, object, false⟩] := rfl

@[simp] theorem triples_literal_text (text : String) :
    (literal subject predicate (.text text)).triples stored =
      [⟨subject, predicate.uri, text, true⟩] := rfl

@[simp] theorem triples_resourceType (type : TypeRef) :
    (resourceType subject predicate type).triples stored =
      [⟨subject, predicate.uri, stored type, false⟩] := rfl

@[simp] theorem triples_literalType (type : TypeRef) :
    (literalType subject predicate type).triples stored =
      [⟨subject, predicate.uri, stored type, true⟩] := rfl

end

/-- The triples with a predicate are those of the additions with it. -/
theorem triples_with (stored : TypeRef → String) (predicate : Predicate) (writes : List Write) :
    (writes.flatMap (·.triples stored)).filter (fun triple => triple.predicate = predicate.uri) =
      (writes.filter fun first => first.predicate? = some predicate).flatMap
        (·.triples stored) := by
  induction writes with
  | nil => rfl
  | cons first rest ih =>
      rw [List.flatMap_cons, List.filter_append, ih, List.filter_cons]
      by_cases same : first.predicate? = some predicate
      · have all : (first.triples stored).filter
            (fun triple => triple.predicate = predicate.uri) = first.triples stored := by
          rw [List.filter_eq_self]
          intro triple member
          obtain ⟨found, given, uri⟩ := predicate_of_mem member
          rw [same] at given
          obtain rfl := Option.some.inj given
          exact decide_eq_true uri
        simp only [same, decide_true, if_true, List.flatMap_cons, all]
      · have none : (first.triples stored).filter
            (fun triple => triple.predicate = predicate.uri) = [] := by
          rw [List.filter_eq_nil_iff]
          intro triple member uri
          obtain ⟨found, given, other⟩ := predicate_of_mem member
          have equal := Predicate.uri_injective (other.symm.trans (of_decide_eq_true uri))
          exact same (equal ▸ given)
        simp only [same, decide_false, Bool.false_eq_true, if_false, none, List.nil_append]

end Write

namespace Declaration

open Write

variable {signature : Identifier} {names : List Value} {types : List TypeRef}
  {ids : List Identifier}

/-- The identifiers of the parameters of a signature, by their names. -/
def parameterIds (signature : Identifier) (names : List Value) : Except Fault (List Identifier) :=
  names.mapM fun name => signature.childOfValues name (.text EntityKind.parameter.key)

/-- The additions of one parameter, once it has an identifier. -/
def placedWrites (signature : Identifier) (placed : (Identifier × TypeRef) × Nat) : List Write :=
  kindWrites placed.1.1.text .parameter ++
    [.literalType placed.1.1.text .parameterType placed.1.2,
      .literal placed.1.1.text .parameterIndex (.text (toString placed.2)),
      containment signature .parameter placed.1.1.text]

/-- Parameters that are not refused have identifiers. -/
theorem parameterIds_of_unrefused (start : Nat)
    (unrefused : ∀ fault, .refuse fault ∉ parametersWrites signature start names types)
    (even : names.length = types.length) : ∃ ids, parameterIds signature names = .ok ids := by
  induction names generalizing start types with
  | nil => exact ⟨[], rfl⟩
  | cons name rest ih =>
      cases types with
      | nil => cases even
      | cons type later =>
          simp only [parametersWrites, List.mem_append, not_or] at unrefused
          obtain ⟨ids, made⟩ := ih (start + 1) (fun fault => (unrefused fault).2)
            (Nat.succ.inj even)
          cases child : signature.childOfValues name (.text EntityKind.parameter.key) with
          | error fault =>
              have refused := (unrefused fault).1
              rw [parameterWrites, child] at refused
              exact absurd List.mem_cons_self refused
          | ok id =>
              refine ⟨id :: ids, ?_⟩
              rw [parameterIds] at made ⊢
              rw [List.mapM_cons, child, made]
              rfl

theorem map_placed (made : parameterIds signature names = .ok ids)
    (even : names.length = types.length) (start : Nat) :
    (((ids.zip types).zipIdx start).map fun placed => placed.1.1) = ids := by
  have count : ids.length = types.length := by
    rw [← even, (Steps.mapM_ok_iff.mp made).length_eq]
  have first (placed : (Identifier × TypeRef) × Nat) : placed.1.1 =
      (Prod.fst ∘ Prod.fst) placed := rfl
  simp only [first, ← List.map_map, List.zipIdx_map_fst]
  exact List.map_fst_zip count.le

theorem parametersWrites_eq (start : Nat) (made : parameterIds signature names = .ok ids)
    (even : names.length = types.length) : parametersWrites signature start names types =
      ((ids.zip types).zipIdx start).flatMap (placedWrites signature) := by
  induction names generalizing start types ids with
  | nil =>
      obtain rfl : [] = ids := Except.ok.inj made
      rfl
  | cons name rest ih =>
      cases types with
      | nil => cases even
      | cons type later =>
          simp only [parameterIds, List.mapM_cons, Steps.bind_ok_iff, Steps.pure_ok_iff] at made
          obtain ⟨id, child, ids, others, rfl⟩ := made
          rw [parametersWrites, ih (start + 1) others (Nat.succ.inj even), List.zip_cons_cons,
            List.zipIdx_cons, List.flatMap_cons, parameterWrites, child]
          rfl

/-- The additions of a member and a signature of it, once that and its parameters have
identifiers. -/
def signedWrites (kind : EntityKind) (visibility : Value) (modifiers : List Nat)
    (container member signature : Identifier) (placed : List ((Identifier × TypeRef) × Nat))
    (result : Option TypeRef) (exceptions : List TypeRef) : List Write :=
  headWrites member.text kind visibility modifiers ++
    (kindWrites signature.text .signature ++
      placed.flatMap (placedWrites signature) ++
      result.toList.map (.literalType signature.text .returnType) ++
      exceptions.map (.resourceType signature.text .throwsException) ++
      [containment member .signature signature.text]) ++
    [containment container kind member.text]

variable {kind : EntityKind} {visibility : Value} {modifiers : List Nat}
  {container member : Identifier} {result : Option TypeRef} {exceptions : List TypeRef}

/-- A member that is not refused has a signature with parameters. -/
theorem executableWrites_eq {overload parameters : Value}
    (unrefused : ∀ fault, .refuse fault ∉ executableWrites kind visibility modifiers overload
      parameters types result exceptions container member) :
    ∃ signature names ids,
      member.child (overloadName overload) EntityKind.signature.key = .ok signature ∧
      parameters.items? = some names ∧ names.length = types.length ∧
      parameterIds signature names = .ok ids ∧
      executableWrites kind visibility modifiers overload parameters types result exceptions
          container member =
        signedWrites kind visibility modifiers container member signature
          ((ids.zip types).zipIdx) result exceptions := by
  simp only [executableWrites, List.mem_append, not_or] at unrefused
  cases child : member.child (overloadName overload) EntityKind.signature.key with
  | error fault =>
      have refused := (unrefused fault).1.2
      rw [child] at refused
      exact absurd List.mem_cons_self refused
  | ok signature =>
      rw [child] at unrefused
      simp only [signatureWrites] at unrefused
      cases listed : parameters.items? with
      | none =>
          have refused := (unrefused (.unsupported .operation)).1.2
          rw [listed] at refused
          exact absurd List.mem_cons_self refused
      | some names =>
          rw [listed] at unrefused
          dsimp only at unrefused
          by_cases uneven : names.length ≠ types.length
          · have refused := (unrefused (.value (.parameterCount names.length types.length))).1.2
            rw [if_pos uneven] at refused
            exact absurd List.mem_cons_self refused
          · rw [if_neg uneven] at unrefused
            have even := not_not.mp uneven
            simp only [List.mem_append, not_or] at unrefused
            obtain ⟨ids, made⟩ := parameterIds_of_unrefused 0
              (fun fault => (unrefused fault).1.2.1.1.1.2) even
            refine ⟨signature, names, ids, rfl, rfl, even, made, ?_⟩
            simp only [executableWrites, child, signatureWrites, listed, uneven, if_false,
              parametersWrites_eq 0 made even, signedWrites]

/-- What is said of every member says nothing of a signature. -/
theorem headWrites_with {predicate : Predicate}
    (other : predicate ∉ [.subClassOf, .hasModifiers, .hasVisibility]) (id : String)
    (kind : EntityKind) (visibility : Value) (modifiers : List Nat) :
    (headWrites id kind visibility modifiers).filter
      (fun first => first.predicate? = some predicate) = [] := by
  have each : ∀ first ∈ headWrites id kind visibility modifiers,
      ∀ found ∈ first.predicate?, found ∈ [.subClassOf, .hasModifiers, .hasVisibility] := by
    have visible : ∀ first ∈ visibilityWrites id visibility, ∀ found ∈ first.predicate?,
        found ∈ [Predicate.subClassOf, .hasModifiers, .hasVisibility] := by
      unfold visibilityWrites
      split
      · exact List.forall_mem_nil _
      · split <;> simp
    simp only [headWrites, kindWrites, List.forall_mem_append, List.forall_mem_singleton]
    exact ⟨⟨by simp, by simp⟩, visible⟩
  rw [List.filter_eq_nil_iff]
  intro first member same
  exact other (each first member predicate (of_decide_eq_true same))

/-- The predicates of what is said of a signature alone. -/
def ofSignature : List Predicate :=
  [.contains .parameter, .parameterType, .parameterIndex, .returnType, .throwsException]

/-- What is said of a signature by a predicate, where references are stored as some texts. -/
def signatureTriples (stored : TypeRef → String) (signature : Identifier)
    (placed : List ((Identifier × TypeRef) × Nat)) (result : Option TypeRef)
    (exceptions : List TypeRef) (predicate : Predicate) : List Triple :=
  match predicate with
  | .contains .parameter =>
      placed.map fun one => ⟨signature.text, predicate.uri, one.1.1.text, false⟩
  | .parameterType => placed.map fun one => ⟨one.1.1.text, predicate.uri, stored one.1.2, true⟩
  | .parameterIndex => placed.map fun one => ⟨one.1.1.text, predicate.uri, toString one.2, true⟩
  | .returnType =>
      result.toList.map fun type => ⟨signature.text, predicate.uri, stored type, true⟩
  | .throwsException =>
      exceptions.map fun type => ⟨signature.text, predicate.uri, stored type, false⟩
  | _ => []

theorem signedWrites_triples (stored : TypeRef → String)
    (executable : kind ∈ [EntityKind.constructor, .method])
    (placed : List ((Identifier × TypeRef) × Nat)) {predicate : Predicate}
    (own : predicate ∈ ofSignature) :
    ((signedWrites kind visibility modifiers container member signature placed result
        exceptions).flatMap (·.triples stored)).filter
        (fun triple => triple.predicate = predicate.uri) =
      signatureTriples stored signature placed result exceptions predicate := by
  have head : (headWrites member.text kind visibility modifiers).filter
      (fun first => first.predicate? = some predicate) = [] := by
    have apart : ∀ found ∈ ofSignature,
        found ∉ [Predicate.subClassOf, .hasModifiers, .hasVisibility] := by decide
    exact headWrites_with (apart predicate own) _ _ _ _
  have other : kind ≠ .parameter := by
    rintro rfl
    exact absurd executable (by decide)
  rw [Write.triples_with]
  simp only [ofSignature, List.mem_cons, List.not_mem_nil, or_false] at own
  rcases own with rfl | rfl | rfl | rfl | rfl <;>
    simp [signedWrites, head, kindWrites, placedWrites, containment, signatureTriples,
      List.filter_flatMap, List.filter_map, List.flatMap_assoc, List.flatMap_map,
      ← List.map_eq_flatMap, Function.comp_def, other]

end Declaration

/-- A call with a signature declares a constructor or a method. -/
theorem Call.of_signing {call : Call} {signing : Signing} (given : call.signing? = some signing) :
    ∃ kind ∈ [EntityKind.constructor, .method], ∃ visibility modifiers,
      call.declares? = some (kind, Declaration.executableWrites kind visibility modifiers
        signing.overload signing.parameters signing.types signing.result signing.exceptions) := by
  cases call with
  | constructor | method =>
      cases given
      exact ⟨_, by decide, _, _, rfl⟩
  | _ => cases given

namespace Builder

variable {state : Builder PlainStore} {call : Call} {signing : Signing}

theorem Tells.noType (given : call.signing? = some signing) {first : Write}
    (tells : state.Tells call first) : first.NoType := by
  intro stored triple member same kind type object
  obtain ⟨container, id, found, entity, rfl⟩ := tells stored triple member .subClassOf same
  obtain rfl := EntityKind.uri_injective object
  cases entity with
  | opened told =>
      obtain ⟨_, _, _, _, declares⟩ := Call.of_signing given
      cases (Call.only_declares declares).1.symm.trans told
  | member _ told => exact Call.no_type_of_declaring told type
  | signature => exact absurd type (by decide)
  | parameter => exact absurd type (by decide)

/-- What an accepted call with a signature adds to a model that was there before. -/
structure Signs (state : Builder PlainStore) (call : Call) (signing : Signing)
    (member signature : Identifier) (ids : List Identifier) : Prop where
  declares : state.member? call = some member
  signs : state.signature? call = some signature
  child : member.child (Declaration.overloadName signing.overload) EntityKind.signature.key =
    .ok signature
  even : signing.names.length = signing.types.length
  made : Declaration.parameterIds signature signing.names = .ok ids
  added : ∃ kind ∈ [EntityKind.constructor, .method], ∃ visibility modifiers container,
    (state.handle call).2.model.store =
      ((Declaration.signedWrites kind visibility modifiers container member signature
        ((ids.zip signing.types).zipIdx) signing.result signing.exceptions).flatMap
          (·.triples state.model.storedText)).foldl TripleStore.insert state.model.store

section

variable {member signature : Identifier} {ids : List Identifier}
  (signs : state.Signs call signing member signature ids)
include signs

/-- What the additions of a signature state outright is in the model after the call. -/
theorem Signs.stated : ∃ kind ∈ [EntityKind.constructor, .method],
    ∃ visibility modifiers container, ∀ subject predicate object,
      .resource subject predicate object ∈ Declaration.signedWrites kind visibility modifiers
        container member signature ((ids.zip signing.types).zipIdx) signing.result
        signing.exceptions →
      ⟨subject, predicate.uri, object, false⟩ ∈ (state.handle call).2.model.store.triples := by
  obtain ⟨kind, executable, visibility, modifiers, container, added⟩ := signs.added
  refine ⟨kind, executable, visibility, modifiers, container, fun subject predicate object => ?_⟩
  intro listed
  rw [added]
  refine (PlainStore.mem_insertAll _ _ _).mpr (.inr ?_)
  exact List.mem_flatMap.mpr ⟨_, listed, List.mem_singleton_self _⟩

theorem Signs.member_told : ∃ kind ∈ [EntityKind.constructor, .method],
    kindTriple member.text kind ∈ (state.handle call).2.model.store.triples := by
  obtain ⟨kind, executable, _, _, _, stated⟩ := signs.stated
  refine ⟨kind, executable, stated _ _ _ ?_⟩
  simp [Declaration.signedWrites, Declaration.headWrites, Declaration.kindWrites]

theorem Signs.kind_told :
    kindTriple signature.text .signature ∈ (state.handle call).2.model.store.triples := by
  obtain ⟨kind, executable, _, _, _, stated⟩ := signs.stated
  refine stated _ _ _ ?_
  simp [Declaration.signedWrites, Declaration.kindWrites]

theorem Signs.held : holdingTriple member.text .signature signature.text ∈
    (state.handle call).2.model.store.triples := by
  obtain ⟨kind, executable, _, _, _, stated⟩ := signs.stated
  refine stated _ _ _ ?_
  simp [Declaration.signedWrites, Declaration.containment]

theorem Signs.parameter_told {id : Identifier} (listed : id ∈ ids) :
    kindTriple id.text .parameter ∈ (state.handle call).2.model.store.triples := by
  obtain ⟨kind, executable, _, _, _, stated⟩ := signs.stated
  refine stated _ _ _ ?_
  rw [← Declaration.map_placed signs.made signs.even 0] at listed
  obtain ⟨placed, among, rfl⟩ := List.mem_map.mp listed
  have told : .resource placed.1.1.text .subClassOf EntityKind.parameter.uri ∈
      Declaration.placedWrites signature placed := List.mem_cons_self
  simp only [Declaration.signedWrites, List.mem_append, List.mem_flatMap]
  exact .inl (.inr (.inl (.inl (.inl (.inr ⟨placed, among, told⟩)))))

end

theorem signs_of_accepted (accepted : (state.handle call).1.isAccepted = true)
    (given : call.signing? = some signing) :
    ∃ member signature ids, state.Signs call signing member signature ids := by
  obtain ⟨kind, executable, visibility, modifiers, told⟩ := Call.of_signing given
  obtain ⟨scope, name, id, unknown, innermost, named, child, written⟩ :=
    declares_of_accepted accepted told
  have declared : state.member? call = some id := by
    rw [member?_eq innermost named, child]
    rfl
  have tells := (Entity.member innermost named child).member_told declared told
  have steady := Model.writeAll_steady (fun first listed => (tells first listed).noType given)
    written
  obtain ⟨signature, names, ids, signed, listed, even, made, whole⟩ :=
    Declaration.executableWrites_eq (Model.writeAll_unrefused written)
  have all : signing.names = names := by rw [Signing.names, listed, Option.getD_some]
  rw [← all] at even made
  refine ⟨id, signature, ids, declared, ?_, signed, even, made, kind, executable, visibility,
    modifiers, scope.identifier, ?_⟩
  · rw [signature?_eq declared given, signed]
    rfl
  · rw [← whole]
    exact steady

/-- Whether a triple says something of a signature alone: what parameters it has, what it results in
and throws, or what one of its parameters is. -/
def Concerns (signature : Identifier) (triple : Triple) : Prop :=
  (∃ predicate ∈ [Predicate.contains .parameter, .returnType, .throwsException],
      triple.predicate = predicate.uri) ∧ triple.subject = signature.text ∨
    (∃ predicate ∈ [Predicate.parameterType, .parameterIndex],
      triple.predicate = predicate.uri) ∧
      ∃ last, triple.subject = (signature.push last).text

theorem concerns_signature {predicate : Predicate}
    (own : predicate ∈ [Predicate.contains .parameter, .returnType, .throwsException])
    (signature : Identifier) (object : String) (literal : Bool) :
    Concerns signature ⟨signature.text, predicate.uri, object, literal⟩ :=
  .inl ⟨⟨predicate, own, rfl⟩, rfl⟩

theorem concerns_parameter {predicate : Predicate}
    (own : predicate ∈ [Predicate.parameterType, .parameterIndex]) (signature : Identifier)
    (last : Fragment) (object : String) (literal : Bool) :
    Concerns signature ⟨(signature.push last).text, predicate.uri, object, literal⟩ :=
  .inr ⟨⟨predicate, own, rfl⟩, last, rfl⟩

section

variable {σ : Type} [TripleStore σ] {state : Builder σ} {call : Call}
  {container id signature : Identifier}

theorem Entity.of_parameter (entity : state.Entity call container id .parameter) :
    state.signature? call = some container ∧
      ∃ name, container.child name EntityKind.parameter.key = .ok id := by
  generalize same : EntityKind.parameter = kind at entity
  cases entity with
  | opened told => exact absurd (Call.kind_of_opening told) (same ▸ by decide)
  | member _ told => exact absurd (Call.kind_of_declaring told) (same ▸ by decide)
  | signature => cases same
  | parameter signed child => exact ⟨signed, _, child⟩

theorem Entity.of_signature (entity : state.Entity call container id .signature) :
    state.member? call = some container ∧ state.signature? call = some id := by
  generalize same : EntityKind.signature = kind at entity
  cases entity with
  | opened told => exact absurd (Call.kind_of_opening told) (same ▸ by decide)
  | member _ told => exact absurd (Call.kind_of_declaring told) (same ▸ by decide)
  | signature declared signed => exact ⟨declared, signed⟩
  | parameter => cases same

/-- What is said of a signature is said by a call that declares it. -/
theorem Said.declares {triple : Triple} (said : state.Said call triple)
    (concerns : Concerns signature triple) : state.signature? call = some signature := by
  rcases concerns with ⟨⟨predicate, own, same⟩, subject⟩ | ⟨⟨predicate, own, same⟩, last, subject⟩
  · simp only [List.mem_cons, List.not_mem_nil, or_false] at own
    rcases own with rfl | rfl | rfl
    · obtain ⟨container, id, kind, entity, rfl⟩ := said _ same
      obtain rfl := Identifier.text_injective subject
      obtain rfl := Predicate.contains.inj (Predicate.uri_injective same)
      exact entity.of_parameter.1
    · obtain ⟨member, other, entity, told⟩ := said _ same
      obtain rfl := Identifier.text_injective (told.symm.trans subject)
      exact entity.of_signature.2
    · obtain ⟨member, other, entity, told⟩ := said _ same
      obtain rfl := Identifier.text_injective (told.symm.trans subject)
      exact entity.of_signature.2
  · have found : ∃ other parameter, state.Entity call other parameter .parameter ∧
        triple.subject = parameter.text := by
      simp only [List.mem_cons, List.not_mem_nil, or_false] at own
      rcases own with rfl | rfl
      · exact said _ same
      · obtain ⟨other, parameter, entity, told, _⟩ := said _ same
        exact ⟨other, parameter, entity, told⟩
    obtain ⟨other, parameter, entity, told⟩ := found
    obtain ⟨signed, name, child⟩ := entity.of_parameter
    obtain ⟨fragment, rfl, _⟩ := Identifier.push_of_child child
    have whole := Identifier.text_injective (told.symm.trans subject)
    rw [signed, (Identifier.push_injective whole).1]

end

end Builder

/-- What triples say of a signature that was declared once: its kind, the identifiers of its
parameters by their names, and by each predicate of a signature just what it was declared with, once
and in order. References are stored as some texts. -/
structure Signing.Recorded (signing : Signing) (stored : TypeRef → String)
    (signature : Identifier) (ids : List Identifier) (triples : List Triple) : Prop where
  even : signing.names.length = signing.types.length
  made : Declaration.parameterIds signature signing.names = .ok ids
  kind : kindTriple signature.text .signature ∈ triples
  parameter_kind : ∀ id ∈ ids, kindTriple id.text .parameter ∈ triples
  told : ∀ predicate ∈ Declaration.ofSignature, ∀ sort : Triple → Bool,
    (∀ triple, sort triple = true →
      triple.predicate = predicate.uri ∧ Builder.Concerns signature triple) →
    triples.filter sort = ((Declaration.signatureTriples stored signature
      ((ids.zip signing.types).zipIdx) signing.result signing.exceptions predicate).filter
        sort).eraseDups

namespace Builder

/-- Whether a call among some declares a signature. -/
def Declares {σ : Type} [TripleStore σ] (builder : Builder σ) (calls : List Call)
    (signature : Identifier) : Prop :=
  ∃ state call, builder.Accepts calls state call ∧ state.signature? call = some signature

theorem declares_map {σ τ : Type} [TripleStore σ] [TripleStore τ] (view : StoreMap σ τ)
    {builder : Builder σ} {calls : List Call} {signature : Identifier} :
    (builder.map view).Declares calls signature ↔ builder.Declares calls signature := by
  constructor
  · rintro ⟨_, call, accepts, signed⟩
    obtain ⟨state, rfl, origin⟩ := (accepts_map view).mp accepts
    exact ⟨state, call, origin, signed⟩
  · rintro ⟨state, call, accepts, signed⟩
    exact ⟨state.map view, call, (accepts_map view).mpr ⟨state, rfl, accepts⟩, signed⟩

section

variable {builder : Builder PlainStore} {earlier later : List Call} {call : Call}
  {signing : Signing} {member signature : Identifier} {ids : List Identifier}

/-- Of what concerns a signature, a model that no call before and after a declaration of it added to
has just what was declared. -/
theorem Signs.told_after (empty : builder.model.store.triples = [])
    (signs : (Handler.after builder earlier).Signs call signing member signature ids)
    (fresh : ¬ builder.Declares earlier signature)
    (last : ¬ ((Handler.after builder earlier).handle call).2.Declares later signature)
    {predicate : Predicate} (own : predicate ∈ Declaration.ofSignature) {sort : Triple → Bool}
    (concerns : ∀ triple, sort triple = true →
      triple.predicate = predicate.uri ∧ Concerns signature triple) :
    (Handler.after builder (earlier ++ call :: later)).model.store.triples.filter sort =
      ((Declaration.signatureTriples (Handler.after builder earlier).model.storedText signature
        ((ids.zip signing.types).zipIdx) signing.result signing.exceptions predicate).filter
          sort).eraseDups := by
  have before : (Handler.after builder earlier).model.store.triples.filter sort = [] := by
    rw [List.filter_eq_nil_iff]
    intro triple member sorted
    obtain ⟨state, other, accepts, said⟩ := said_of_empty empty member
    exact fresh ⟨state, other, accepts, said.declares (concerns triple sorted).2⟩
  obtain ⟨kind, executable, visibility, modifiers, container, added⟩ := signs.added
  obtain ⟨new, behind, said⟩ := said_after later ((Handler.after builder earlier).handle call).2
  have behind_none : new.filter sort = [] := by
    rw [List.filter_eq_nil_iff]
    intro triple member sorted
    obtain ⟨state, other, accepts, said⟩ := said triple member
    exact last ⟨state, other, accepts, said.declares (concerns triple sorted).2⟩
  have both (triples : List Triple) : triples.filter sort =
      (triples.filter fun triple => triple.predicate = predicate.uri).filter sort := by
    rw [List.filter_filter]
    refine List.filter_congr fun triple _ => ?_
    cases sorted : sort triple with
    | false => rfl
    | true => simp [(concerns triple sorted).1]
  rw [after_call, behind, List.filter_append, behind_none, List.append_nil, added,
    PlainStore.filter_insertAll, before, List.nil_append, both,
    Declaration.signedWrites_triples _ executable _ own]

/-- What a call declares is recorded in any later state, if no call before or after it declares the
signature as well. -/
theorem Signs.recorded (empty : builder.model.store.triples = [])
    (signs : (Handler.after builder earlier).Signs call signing member signature ids)
    (fresh : ¬ builder.Declares earlier signature)
    (last : ¬ ((Handler.after builder earlier).handle call).2.Declares later signature) :
    signing.Recorded (Handler.after builder earlier).model.storedText signature ids
      (Handler.after builder (earlier ++ call :: later)).model.store.triples where
  even := signs.even
  made := signs.made
  kind := after_call builder earlier later call ▸ kept_after later signs.kind_told
  parameter_kind _ listed :=
    after_call builder earlier later call ▸ kept_after later (signs.parameter_told listed)
  told _ own _ concerns := signs.told_after empty fresh last own concerns

end

end Builder

end CodeFacts

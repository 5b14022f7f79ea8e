import CodeFacts.Proofs.Query.Signatures

/-!
The overloads of a member. A store that a run filled holds in a member the signatures that calls of
the run declared in it, one for each overload, and all that is said of them can be read.
-/

namespace CodeFacts

/-- Whether the parameters of a declaration are so few that their positions can be read as numbers. -/
def Call.countable (call : Call) : Bool :=
  call.signing?.all fun signing =>
    decide ((Text.naturalText signing.names.length).length ≤ Text.digitLimit)

theorem Call.short_of_countable {call : Call} {signing : Signing}
    (countable : call.countable = true) (given : call.signing? = some signing) :
    (Text.naturalText signing.names.length).length ≤ Text.digitLimit := by
  rw [Call.countable, given, Option.all_some] at countable
  exact of_decide_eq_true countable

namespace Query

variable {σ : Type} [TripleStore σ] {store : σ} {triples : List Triple}

theorem mem_contained {container : Option String} {kind : EntityKind} {text : String} :
    text ∈ contained store container kind ↔
      text ∈ objects store container (.contains kind) ∧ hasKind store (some text) kind = true := by
  rw [contained, sorted, List.mem_mergeSort, List.mem_filter]

theorem naming_of_signature {text : String} {entry : Signature}
    (read : Query.signature store text = .ok entry) : naming text = .ok entry.toNaming := by
  simp only [Query.signature, Steps.bind_ok_iff, Steps.pure_ok_iff] at read
  obtain ⟨found, named, _, _, rfl⟩ := read
  exact named

theorem id_of_signature {text : String} {entry : Signature}
    (read : Query.signature store text = .ok entry) : entry.id = text := by
  have named := naming_of_signature read
  simp only [naming, Steps.bind_ok_iff, Steps.pure_ok_iff] at named
  obtain ⟨_, _, _, _, same⟩ := named
  rw [← same]

/-- Whether all signatures can be read: what is held has an identifier, and the positions of
parameters are numbers of few enough digits. -/
structure Legible (store : σ) : Prop where
  identified : ∀ container kind, ∀ text ∈ objects store (some container) (.contains kind),
    ∃ id : Identifier, id.text = text
  positioned : ∀ id, ∀ index ∈ objects store (some id) .parameterIndex, ∃ position : Nat,
    index = toString position ∧ (Text.naturalText position).length ≤ Text.digitLimit

namespace Legible

variable (legible : Legible store)
include legible

theorem parameter (id : Identifier) : ∃ entry, parameter store id.text = .ok entry := by
  cases told : value? store (some id.text) .parameterIndex with
  | none =>
      simp only [Query.parameter, naming_text, told]
      exact ⟨_, rfl⟩
  | some index =>
      obtain ⟨position, rfl, short⟩ := legible.positioned id.text index (mem_of_value? told)
      simp only [Query.parameter, naming_text, told, Option.getD_some,
        if_neg (Text.toString_ne_empty position), Text.readWhole_toString short]
      exact ⟨_, rfl⟩

theorem signature (id : Identifier) (told : hasKind store (some id.text) .signature = true) :
    ∃ entry, Query.signature store id.text = .ok entry := by
  obtain ⟨found, read⟩ : ∃ found,
      (contained store (some id.text) .parameter).mapM (Query.parameter store) = .ok found := by
    refine Steps.mapM_passes _ fun text listed => ?_
    obtain ⟨parameter, rfl⟩ := legible.identified id.text .parameter text (mem_contained.mp listed).1
    exact legible.parameter parameter
  simp only [Query.signature, naming_text, parameters, require, told, if_true, read]
  exact ⟨_, rfl⟩

/-- Of a member all signatures it holds are read, in the order of their identifiers. -/
theorem signatures (member : Identifier)
    (executable : ∃ kind ∈ [EntityKind.constructor, .method],
      hasKind store (some member.text) kind = true) :
    ∃ entries, Query.signatures store (some member.text) = .ok entries ∧
      entries.map (·.id) = contained store (some member.text) .signature ∧
      ∀ entry ∈ entries, Query.signature store entry.id = .ok entry := by
  have guard : (hasKind store (some member.text) .method ||
      hasKind store (some member.text) .constructor) = true := by
    obtain ⟨kind, listed, told⟩ := executable
    simp only [List.mem_cons, List.not_mem_nil, or_false] at listed
    rcases listed with rfl | rfl <;> simp [told]
  obtain ⟨entries, read⟩ : ∃ entries,
      (contained store (some member.text) .signature).mapM (Query.signature store) =
        .ok entries := by
    refine Steps.mapM_passes _ fun text listed => ?_
    obtain ⟨held, told⟩ := mem_contained.mp listed
    obtain ⟨id, rfl⟩ := legible.identified member.text .signature text held
    exact legible.signature id told
  refine ⟨entries, by rw [Query.signatures, if_pos guard, read], ?_, fun entry listed => ?_⟩
  · have same : List.Forall₂ Eq (contained store (some member.text) .signature)
        (entries.map (·.id)) := by
      rw [List.forall₂_map_right_iff]
      exact (Steps.mapM_ok_iff.mp read).imp fun _ _ read => (id_of_signature read).symm
    rw [List.forall₂_eq_eq_eq] at same
    exact same.symm
  · obtain ⟨text, _, read⟩ := Steps.mem_of_mapM_ok read listed
    rw [id_of_signature read]
    exact read

end Legible

end Query

namespace Builder

theorem Accepts.kept {builder : Builder PlainStore} {calls : List Call}
    {state : Builder PlainStore} {call : Call} (accepts : builder.Accepts calls state call)
    {triple : Triple} (told : triple ∈ (state.handle call).2.model.store.triples) :
    triple ∈ (Handler.after builder calls).model.store.triples := by
  obtain ⟨⟨earlier, later, rfl, rfl⟩, _⟩ := accepts
  rw [after_call]
  exact kept_after later told

/-- Whether a call among some declares an overload of a member. -/
def Overloads {σ : Type} [TripleStore σ] (builder : Builder σ) (calls : List Call)
    (member : Identifier) (name : String) : Prop :=
  ∃ state call signing, builder.Accepts calls state call ∧ state.member? call = some member ∧
    call.signing? = some signing ∧ Declaration.overloadName signing.overload = name

section

variable {σ : Type} [TripleStore σ] {state : Builder σ} {call : Call} {signature : Identifier}

omit [TripleStore σ] in
/-- The last fragment of a signature tells the overload. -/
theorem called_signature {signing : Signing} (signed : state.signature? call = some signature)
    (given : call.signing? = some signing) :
    (Query.called signature).name = Declaration.overloadName signing.overload := by
  obtain ⟨member, other, _, found, child⟩ := signing_of_signature signed
  obtain rfl := Option.some.inj (given.symm.trans found)
  exact Query.called_name child

theorem Declares.cons {rest : List Call} (declares : state.Declares (call :: rest) signature) :
    state.signature? call = some signature ∨ (state.handle call).2.Declares rest signature := by
  obtain ⟨_, other, ⟨⟨earlier, later, same, rfl⟩, accepted⟩, signed⟩ := declares
  cases earlier with
  | nil =>
      obtain ⟨rfl, rfl⟩ := List.cons.inj same
      exact .inl signed
  | cons first between =>
      obtain ⟨rfl, rfl⟩ := List.cons.inj same
      exact .inr ⟨_, other, ⟨⟨between, later, rfl, rfl⟩, accepted⟩, signed⟩

end

theorem Overloads.signs {builder : Builder PlainStore} {calls : List Call} {member : Identifier}
    {name : String} (overloads : builder.Overloads calls member name) :
    ∃ state call signing signature ids, builder.Accepts calls state call ∧
      state.Signs call signing member signature ids ∧
      Declaration.overloadName signing.overload = name := by
  obtain ⟨state, call, signing, accepts, declared, given, same⟩ := overloads
  obtain ⟨other, signature, ids, signs⟩ := signs_of_accepted accepts.accepted given
  obtain rfl := Option.some.inj (declared.symm.trans signs.declares)
  exact ⟨state, call, signing, signature, ids, accepts, signs, same⟩

section

variable {builder : Builder PlainStore} {calls : List Call}
  (empty : builder.model.store.triples = []) {σ : Type} [TripleStore σ] {store : σ}
  (lists : Query.Lists store (Handler.after builder calls).model.store.triples)
include empty lists

theorem legible_after (countable : ∀ call ∈ calls, call.countable = true) :
    Query.Legible store := by
  constructor
  · intro container kind text held
    obtain ⟨literal, told⟩ := lists.mem_objects.mp held
    obtain ⟨state, call, _, said⟩ := said_of_empty empty told
    obtain ⟨_, id, found, _, same⟩ := said (.contains kind) rfl
    exact ⟨id, (Triple.mk.inj same).2.2.1.symm⟩
  · intro id index placed
    obtain ⟨literal, told⟩ := lists.mem_objects.mp placed
    obtain ⟨state, call, accepts, said⟩ := said_of_empty empty told
    obtain ⟨_, _, _, _, signing, given, position, below, rfl⟩ := said .parameterIndex rfl
    have short := Call.short_of_countable (countable call accepts.mem) given
    exact ⟨position, rfl, (Text.length_naturalText_mono below.le).trans short⟩

/-- What is held in a member as a signature is of the name of an overload of it. -/
theorem contained_signature {member : Identifier} {text : String} :
    text ∈ Query.contained store (some member.text) .signature ↔
      ∃ name signature, builder.Overloads calls member name ∧
        member.child name EntityKind.signature.key = .ok signature ∧ signature.text = text := by
  constructor
  · intro listed
    obtain ⟨literal, told⟩ := lists.mem_objects.mp (Query.mem_contained.mp listed).1
    obtain ⟨state, call, accepts, said⟩ := said_of_empty empty told
    obtain ⟨container, id, kind, entity, same⟩ := said (.contains .signature) rfl
    obtain ⟨holder, predicate, rfl, _⟩ := Triple.mk.inj same
    obtain rfl := Identifier.text_injective holder
    obtain rfl := Predicate.contains.inj (Predicate.uri_injective predicate)
    obtain ⟨declared, signed⟩ := entity.of_signature
    obtain ⟨_, signing, found, given, child⟩ := signing_of_signature signed
    obtain rfl := Option.some.inj (declared.symm.trans found)
    exact ⟨_, id, ⟨state, call, signing, accepts, declared, given, rfl⟩, child, rfl⟩
  · rintro ⟨name, signature, overloads, child, rfl⟩
    obtain ⟨state, call, signing, other, ids, accepts, signs, rfl⟩ := overloads.signs
    obtain rfl := Except.ok.inj (child.symm.trans signs.child)
    refine Query.mem_contained.mpr ⟨lists.mem_objects.mpr ⟨false, ?_⟩,
      lists.hasKind_iff.mpr ⟨false, ?_⟩⟩
    · exact accepts.kept signs.held
    · exact accepts.kept signs.kind_told

theorem contained_nodup (member : Identifier) :
    (Query.contained store (some member.text) .signature).Nodup := by
  have distinct : (Query.objects store (some member.text) (.contains .signature)).Nodup := by
    refine lists.objects_nodup (Handler.after builder calls).model.store.distinct false ?_
    intro object literal told
    obtain ⟨state, call, _, said⟩ := said_of_empty empty told
    obtain ⟨container, id, kind, _, same⟩ := said (.contains .signature) rfl
    exact (Triple.mk.inj same).2.2.2
  exact (List.mergeSort_perm _ _).nodup_iff.mpr (distinct.filter _)

/-- Of a member in which a signature was declared, one signature is read for each overload. -/
theorem signatures_listed (countable : ∀ call ∈ calls, call.countable = true)
    {member : Identifier} {overload : String} (declared : builder.Overloads calls member overload) :
    ∃ entries, Query.signatures store (some member.text) = .ok entries ∧
      (∀ entry ∈ entries, ∃ signature,
        member.child entry.name EntityKind.signature.key = .ok signature ∧
          Query.signature store signature.text = .ok entry) ∧
      (entries.map (·.name)).Nodup ∧
      ∀ name, name ∈ entries.map (·.name) ↔ builder.Overloads calls member name := by
  have legible := legible_after empty lists countable
  have executable : ∃ kind ∈ [EntityKind.constructor, .method],
      Query.hasKind store (some member.text) kind = true := by
    obtain ⟨state, call, signing, signature, ids, accepts, signs, _⟩ := declared.signs
    obtain ⟨kind, listed, told⟩ := signs.member_told
    exact ⟨kind, listed, lists.hasKind_iff.mpr ⟨false, accepts.kept told⟩⟩
  obtain ⟨entries, read, ids, each⟩ := legible.signatures member executable
  have named (entry : Signature) (listed : entry ∈ entries) :
      builder.Overloads calls member entry.name ∧ ∃ signature,
        member.child entry.name EntityKind.signature.key = .ok signature ∧
          signature.text = entry.id := by
    have held : entry.id ∈ Query.contained store (some member.text) .signature :=
      ids ▸ List.mem_map_of_mem listed
    obtain ⟨name, signature, overloads, child, same⟩ := (contained_signature empty lists).mp held
    have called := Query.naming_of_signature (each entry listed)
    rw [← same, Query.naming_text] at called
    have name_same : entry.name = name := by
      rw [← Except.ok.inj called]
      exact Query.called_name child
    rw [name_same]
    exact ⟨overloads, signature, child, same⟩
  have distinct : (entries.map (·.id)).Nodup := ids ▸ contained_nodup empty lists member
  -- Names are apart as the identifiers are: each one makes the identifier of its signature.
  refine ⟨entries, read, fun entry listed => ?_, ?_,
    fun name => ⟨fun listed => ?_, fun overloads => ?_⟩⟩
  · obtain ⟨_, signature, child, same⟩ := named entry listed
    exact ⟨signature, child, same ▸ each entry listed⟩
  · refine distinct.of_map.map_on fun left first right second same => ?_
    obtain ⟨_, signature, child, left_id⟩ := named left first
    obtain ⟨_, other, made, right_id⟩ := named right second
    rw [same] at child
    obtain rfl := Except.ok.inj (child.symm.trans made)
    exact List.inj_on_of_nodup_map distinct first second (left_id.symm.trans right_id)
  · obtain ⟨entry, among, rfl⟩ := List.mem_map.mp listed
    exact (named entry among).1
  · obtain ⟨state, call, signing, signature, _, _, signs, rfl⟩ := overloads.signs
    have child := signs.child
    have held := (contained_signature empty lists).mpr ⟨_, signature, overloads, child, rfl⟩
    rw [← ids] at held
    obtain ⟨entry, among, same⟩ := List.mem_map.mp held
    obtain ⟨_, other, made, other_id⟩ := named entry among
    obtain rfl := Identifier.text_injective (other_id.trans same)
    refine List.mem_map.mpr ⟨entry, among, ?_⟩
    rw [← Query.called_name made, Query.called_name child]

end

end Builder

/-- Whether all references of a signature can be stored and read back. -/
def Signing.storable (signing : Signing) : Bool :=
  (signing.types ++ signing.result.toList ++ signing.exceptions).all TypeRef.storable

theorem Model.mapM_boundText {σ : Type} [TripleStore σ] (model : Model σ) {types : List TypeRef}
    (storable : ∀ type ∈ types, type.storable = true) :
    types.mapM model.boundText = .ok (types.map model.storedText) := by
  rw [Steps.mapM_ok_iff, List.forall₂_map_right_iff, List.forall₂_same]
  exact fun type listed => model.boundText_stored (storable type listed)

namespace Query

/-- Whether queries find a signature as it was declared where a model was known: the parameters by
their names, in order and with the texts of their types, the result as the bound reference is read,
and each exception once. -/
structure SignatureRead {σ τ : Type} [TripleStore σ] [TripleStore τ] (store : σ)
    (model : Model τ) (signing : Signing) (signature : Identifier) (entry : Signature) : Prop where
  read : Query.signature store signature.text = .ok entry
  parameters : Query.parameters store (some signature.text) = .ok entry.parameters
  names : entry.parameters.map (fun parameter => Value.text parameter.name) = signing.names
  positions : entry.parameters.map (·.index) =
    (List.range signing.names.length).map Int.ofNat
  types : signing.types.mapM model.boundText = .ok (entry.parameters.map (·.type))
  result : ∃ bound, signing.result.mapM model.bind = .ok bound ∧
    Query.returnType store (some signature.text) = .ok (bound.map TypeRef.settled)
  exceptions : ∃ texts, signing.exceptions.mapM model.boundText = .ok texts ∧
    entry.exceptions = texts.eraseDups

variable {σ τ : Type} [TripleStore σ] [TripleStore τ] {store : σ} {triples : List Triple}
  {model : Model τ} {signing : Signing} {signature : Identifier} {ids : List Identifier}

theorem returnType_recorded (lists : Lists store triples)
    (recorded : signing.Recorded model.storedText signature ids triples)
    (storable : ∀ type ∈ signing.result, type.storable = true) :
    ∃ bound, signing.result.mapM model.bind = .ok bound ∧
      returnType store (some signature.text) = .ok (bound.map TypeRef.settled) := by
  have signed : hasKind store (some signature.text) .signature = true :=
    lists.hasKind_iff.mpr ⟨false, recorded.kind⟩
  have told := result_recorded lists recorded
  simp only [returnType, require, signed, if_true, told]
  cases given : signing.result with
  | none => exact ⟨none, rfl, rfl⟩
  | some type =>
      obtain ⟨bound, made, _, read⟩ := model.bind_stored (storable type given)
      refine ⟨some bound, ?_, ?_⟩
      · rw [Option.mapM_some, made]
        rfl
      · rw [Option.map_some, Option.mapM_some, read]
        rfl

/-- A signature that was declared once, with names that differ and references that can be stored, is
read as it was declared. -/
theorem signature_read (lists : Lists store triples)
    (recorded : signing.Recorded model.storedText signature ids triples)
    (distinct : signing.names.Nodup) (storable : signing.storable = true)
    (short : (Text.naturalText signing.names.length).length ≤ Text.digitLimit) :
    ∃ entry, SignatureRead store model signing signature entry := by
  have apart := Declaration.nodup_of_names recorded.made distinct
  have all := Declaration.map_placed recorded.made recorded.even 0
  have count : ids.length = signing.types.length := by
    rw [← recorded.even, (Steps.mapM_ok_iff.mp recorded.made).length_eq]
  simp only [Signing.storable, List.all_append, Bool.and_eq_true, List.all_eq_true] at storable
  obtain ⟨⟨typed, resulting⟩, throwing⟩ := storable
  refine ⟨_, signature_recorded lists recorded apart short,
    parameters_recorded lists recorded apart short, ?_, ?_, ?_, ?_,
    _, model.mapM_boundText throwing, rfl⟩
  · rw [← Declaration.names_of_ids recorded.made]
    conv_rhs => rw [← all, List.map_map]
    rw [List.map_map]
    rfl
  · have positions : ((ids.zip signing.types).zipIdx).map Prod.snd =
        List.range signing.names.length := by
      rw [List.zipIdx_map_snd, List.length_zip, count, Nat.min_self, recorded.even,
        List.range_eq_range']
    rw [← positions, List.map_map, List.map_map]
    rfl
  · have types : (((ids.zip signing.types).zipIdx).map Prod.fst).map Prod.snd =
        signing.types := by
      rw [List.zipIdx_map_fst, List.map_snd_zip count.ge]
    rw [model.mapM_boundText typed]
    conv_lhs => rw [← types, List.map_map, List.map_map]
    rw [List.map_map]
    rfl
  · exact returnType_recorded lists recorded fun type given => resulting type (by simpa using given)

end Query

namespace Builder

theorem overloads_map {σ τ : Type} [TripleStore σ] [TripleStore τ] (view : StoreMap σ τ)
    {builder : Builder σ} {calls : List Call} {member : Identifier} {name : String} :
    (builder.map view).Overloads calls member name ↔ builder.Overloads calls member name := by
  constructor
  · rintro ⟨_, call, signing, accepts, rest⟩
    obtain ⟨state, rfl, origin⟩ := (accepts_map view).mp accepts
    exact ⟨state, call, signing, origin, rest⟩
  · rintro ⟨state, call, signing, accepts, rest⟩
    exact ⟨state.map view, call, signing, (accepts_map view).mpr ⟨state, rfl, accepts⟩, rest⟩

/-- After any calls over an empty store and whatever the rules, a signature that one of them declared
and no other is read as it was declared, if its parameters have names of their own and its references
can be stored. It is among the signatures of its member, of which there is one for each overload. -/
theorem signatures_read_back (ontology : Ontology) (symbols : SymbolTable) (date : String)
    (earlier later : List Call) (call : Call) (signing : Signing)
    (given : call.signing? = some signing) (distinct : signing.names.Nodup)
    (storable : signing.storable = true)
    (countable : ∀ other ∈ earlier ++ call :: later, other.countable = true) :
    let first := start ⟨ontology, symbols, MemoryStore.empty⟩ date
    let state := Handler.after first earlier
    let store := (Handler.after first (earlier ++ call :: later)).model.store
    (state.handle call).1.isAccepted = true →
    ∃ member signature, state.member? call = some member ∧
      state.signature? call = some signature ∧
      (¬ first.Declares earlier signature → ¬ (state.handle call).2.Declares later signature →
        ∃ entry entries, Query.SignatureRead store state.model signing signature entry ∧
          Query.signatures store (some member.text) = .ok entries ∧ entry ∈ entries ∧
          (entries.map (·.name)).Nodup ∧ ∀ name, name ∈ entries.map (·.name) ↔
            first.Overloads (earlier ++ call :: later) member name) := by
  intro first state store accepted
  have reached : Handler.after (first.map MemoryStore.view) earlier =
      state.map MemoryStore.view := after_map MemoryStore.view earlier first
  have lists : Query.Lists store (Handler.after (first.map MemoryStore.view)
      (earlier ++ call :: later)).model.store.triples := by
    rw [after_map]
    exact Query.lists_memory store
  have viewed : ((Handler.after (first.map MemoryStore.view) earlier).handle call).1.isAccepted =
      true := by
    rw [reached, reply_map]
    exact accepted
  obtain ⟨member, signature, ids, signs⟩ := signs_of_accepted viewed given
  have declared : state.member? call = some member := by
    have declared := signs.declares
    rw [reached] at declared
    exact declared
  have signed : state.signature? call = some signature := by
    have signed := signs.signs
    rw [reached] at signed
    exact signed
  refine ⟨member, signature, declared, signed, fun fresh last => ?_⟩
  have recorded := signs.recorded rfl (mt (declares_map MemoryStore.view).mp fresh) (by
    rw [reached, handle_map]
    exact mt (declares_map MemoryStore.view).mp last)
  have stored : (Handler.after (first.map MemoryStore.view) earlier).model.storedText =
      state.model.storedText := by
    funext type
    rw [reached]
    simp [Model.storedText]
  rw [stored] at recorded
  have among : call ∈ earlier ++ call :: later := List.mem_append_right _ List.mem_cons_self
  have short := Call.short_of_countable (countable call among) given
  obtain ⟨entry, read⟩ := Query.signature_read lists recorded distinct storable short
  have overloads : (first.map MemoryStore.view).Overloads (earlier ++ call :: later) member
      (Declaration.overloadName signing.overload) :=
    ⟨_, call, signing, ⟨⟨earlier, later, rfl, rfl⟩, viewed⟩, signs.declares, given, rfl⟩
  obtain ⟨entries, listed, each, names, exactly⟩ :=
    signatures_listed rfl lists countable overloads
  have held : entry ∈ entries := by
    obtain ⟨other, listed, named⟩ := List.mem_map.mp ((exactly _).mpr overloads)
    obtain ⟨same, child, found⟩ := each other listed
    rw [named] at child
    obtain rfl := Except.ok.inj (child.symm.trans signs.child)
    obtain rfl := Except.ok.inj (found.symm.trans read.read)
    exact listed
  refine ⟨entry, entries, read, listed, held, names, fun name => ?_⟩
  exact (exactly name).trans (overloads_map MemoryStore.view)

/-- Rules for classes and the methods in them. -/
def methodRules : Ontology :=
  .ofRelations
    ((EntityKind.classType :: [.method, .signature, .parameter]).map (fun kind =>
      ⟨kind.pattern, Predicate.subClassOf.uri, .resource kind.uri⟩) ++
    [Ontology.noteRule .classType .hasModifiers,
      Ontology.noteRule .method .hasModifiers,
      Ontology.linkRule .package (.contains .classType) .classType,
      Ontology.linkRule .classType (.contains .method) .method,
      Ontology.linkRule .method (.contains .signature) .signature,
      Ontology.linkRule .signature (.contains .parameter) .parameter,
      Ontology.noteRule .parameter .parameterType,
      Ontology.noteRule .parameter .parameterIndex,
      Ontology.noteRule .signature .returnType])

/-- The parameters of a method keep their order when another overload of it is declared. -/
theorem overloadedMethod_read :
    let first := start ⟨methodRules, .empty, MemoryStore.empty⟩ "2024-01-01"
    let earlier := [.startParsing (.text "lib") (.text "/lib"),
      .startClass .null (.text "B") [] none []]
    let signing : Signing := ⟨.int 0, .list [.text "y", .text "x"],
      [.array (.primitive "int") 1, .named .classType "B" none],
      some (.named .classType "B" none), []⟩
    let call := Call.method .null (.text "m") signing.parameters signing.types signing.result []
      signing.exceptions signing.overload
    let later := [.method .null (.text "m") (.list []) [] none [] [] (.int 1)]
    let state := Handler.after first earlier
    let store := (Handler.after first (earlier ++ call :: later)).model.store
    ∃ signature entry, state.signature? call = some signature ∧
      Query.SignatureRead store state.model signing signature entry ∧
      entry.parameters.map (·.index) = [0, 1] := by
  intro first earlier signing call later state store
  have distinct : signing.names.Nodup := by simp [signing, Signing.names, Value.items?]
  have storable : signing.storable = true := by decide +kernel
  have countable : ∀ other ∈ earlier ++ call :: later, other.countable = true := by decide +kernel
  have accepted : ((Handler.after (first.map MemoryStore.view) earlier).handle call).1.isAccepted =
      true := by decide +kernel
  rw [after_map, reply_map] at accepted
  obtain ⟨member, signature, _, signed, read⟩ := signatures_read_back methodRules .empty "2024-01-01"
    earlier later call signing rfl distinct storable countable accepted
  have fresh : ¬ first.Declares earlier signature := by
    rintro ⟨before, other, accepts, again⟩
    obtain ⟨_, _, _, given, _⟩ := signing_of_signature again
    have none : ∀ other ∈ earlier, other.signing? = none := by simp [earlier, Call.signing?]
    exact absurd (given.symm.trans (none other accepts.mem)) (Option.some_ne_none _)
  have last : ¬ (state.handle call).2.Declares later signature := by
    intro declares
    rcases declares.cons with again | ⟨_, _, accepts, _⟩
    · have names := (called_signature signed rfl).symm.trans (called_signature again rfl)
      exact absurd names (by decide +kernel)
    · exact absurd accepts.mem List.not_mem_nil
  obtain ⟨entry, _, found, _⟩ := read fresh last
  exact ⟨signature, entry, signed, found, found.positions⟩

end Builder

end CodeFacts

import CodeFacts.Proofs.Builder.Accept
import CodeFacts.Proofs.Builder.Forest
import CodeFacts.Proofs.Builder.Layers
import CodeFacts.Proofs.Builder.Replies

/-!
Entities without a name. What a builder looks at is the whole of a given name, while a fragment is
named by a part of it, which may be empty. Just where a part is, an entity is stored without a name.
-/

namespace CodeFacts

namespace Identifier

theorem named_push {outer : Identifier} {fragment : Fragment} :
    (outer.push fragment).Named ↔ outer.Named ∧ fragment.name ≠ "" := by
  simp [Named, push, or_imp, forall_and]

theorem named_child {outer id : Identifier} {name qualifier : String}
    (child : outer.child name qualifier = .ok id) : id.Named ↔ outer.Named ∧ name ≠ "" := by
  obtain ⟨fragment, rfl, rfl, _⟩ := push_of_child child
  exact named_push

end Identifier

/-- The kinds of entity that are declared by a name. -/
def EntityKind.byName : List EntityKind := .package :: EntityKind.types ++ [.attribute, .method]

/-- Whether all that triples give such a kind to is an identifier without an empty fragment. -/
def EntitiesNamed (triples : List Triple) : Prop :=
  ∀ kind ∈ EntityKind.byName, ∀ subject, kindTriple subject kind ∈ triples →
    ∃ id, Identifier.read subject = .ok id ∧ id.Named

theorem EntitiesNamed.of_text {triples : List Triple} (entities : EntitiesNamed triples)
    {kind : EntityKind} (listed : kind ∈ EntityKind.byName) {id : Identifier}
    (stored : kindTriple id.text kind ∈ triples) : id.Named := by
  obtain ⟨other, read, named⟩ := entities kind listed id.text stored
  rw [Identifier.read_text] at read
  exact Except.ok.inj read ▸ named

theorem EntitiesNamed.mono {before after : List Triple} (entities : EntitiesNamed after)
    (kept : ∀ triple ∈ before, triple ∈ after) : EntitiesNamed before :=
  fun kind listed subject stored => entities kind listed subject (kept _ stored)

/-- The segments that can come from the name given in a call: all of a package, the last of a type
or of a member. -/
def Call.nameParts : Call → List String
  | .startPackage (.text name) => Dotted.segments name
  | call =>
      match call.placedName? with
      | some (.text name) => [Dotted.simple name]
      | _ => []

namespace Builder

variable {σ : Type} [TripleStore σ]

/-- The names of the fragments that a call adds to the path or to the innermost scope. -/
def parts (builder : Builder σ) : Call → List String
  | .startPackage name =>
      match builder.packageName name with
      | .ok (_, segments) => segments
      | .error _ => []
  | call => call.nameParts

theorem named_pushAll {kind : EntityKind} {segments : List String} {path reached : Identifier}
    (pushed : pushAll kind path segments = (reached, none)) :
    reached.Named ↔ path.Named ∧ "" ∉ segments := by
  induction segments generalizing path with
  | nil =>
      cases pushed
      simp
  | cons segment rest ih =>
      unfold pushAll at pushed
      split at pushed
      · rename_i next child
        rw [ih pushed, Identifier.named_child child, List.mem_cons, not_or, and_assoc, eq_comm]
      · cases pushed

variable {builder : Builder σ} {call : Call} {kind : EntityKind}

theorem openScope_opened {notices : List Notice} {segments : List String} {name : String}
    {writes : Identifier → List Write} {reply : Reply} {next : Builder σ}
    (opened : builder.openScope notices kind segments name writes = (reply, next))
    (accepted : reply.isAccepted = true) :
    pushAll kind builder.path segments = (next.path, none) ∧
      next.scopes = ⟨kind, next.path, segments.length, name⟩ :: builder.scopes := by
  unfold openScope at opened
  split at opened
  · cases opened
    cases accepted
  · rename_i path pushed
    unfold write at opened
    split at opened
    · cases opened
      cases accepted
    · cases opened
      exact ⟨pushed, rfl⟩

theorem openType_opened {what : String} {name : Value}
    {writes : (container id : Identifier) → List Write} {reply : Reply} {next : Builder σ}
    (opened : builder.openType kind what name writes = (reply, next))
    (accepted : reply.isAccepted = true) :
    ∃ text, name = .text text ∧
      pushAll kind builder.path [Dotted.simple text] = (next.path, none) ∧
      ∃ number full, next.scopes = ⟨kind, next.path, number, full⟩ :: builder.scopes := by
  unfold openType at opened
  split at opened
  · cases opened
    cases accepted
  · split at opened
    · cases opened
      cases accepted
    · rename_i simple notices named
      obtain ⟨text, rfl, rfl⟩ := simpleName_ok named
      obtain ⟨pushed, scopes⟩ := openScope_opened opened accepted
      exact ⟨text, rfl, pushed, _, _, scopes⟩

/-- What an accepted call opens is called by its parts, put on the path. -/
theorem opened_of_accepted {name : Value} {reply : Reply} {next : Builder σ}
    (handled : builder.handle call = (reply, next)) (accepted : reply.isAccepted = true)
    (opening : call.opening? = some (kind, name)) :
    pushAll kind builder.path (builder.parts call) = (next.path, none) ∧
      ∃ number full, next.scopes = ⟨kind, next.path, number, full⟩ :: builder.scopes := by
  cases call with
  | startPackage name =>
      cases opening
      change builder.startPackage name = (reply, next) at handled
      unfold startPackage at handled
      split at handled
      · cases handled
        cases accepted
      · cases found : builder.packageName name with
        | error fault =>
            rw [found] at handled
            cases handled
            cases accepted
        | ok named =>
            rw [found] at handled
            obtain ⟨pushed, scopes⟩ := openScope_opened handled accepted
            rw [parts, found]
            exact ⟨pushed, _, _, scopes⟩
  | startClass | startInterface | startEnumeration =>
      cases opening
      obtain ⟨text, rfl, opened⟩ := openType_opened handled accepted
      exact opened
  | _ => cases opening

/-- Whether a call names nothing empty where it is made: no part of its name, and no fragment of the
path that it opens a container on. -/
structure Names (builder : Builder σ) (call : Call) : Prop where
  parts : "" ∉ builder.parts call
  path : (call.opening?).isSome = true → builder.path.Named

/-- A container is named just where the call that opens it names nothing empty. -/
theorem named_opened {name : Value} (accepted : (builder.handle call).1.isAccepted = true)
    (opening : call.opening? = some (kind, name)) :
    (builder.handle call).2.path.Named ↔ builder.Names call := by
  obtain ⟨pushed, _⟩ := opened_of_accepted Prod.mk.eta.symm accepted opening
  rw [named_pushAll pushed]
  constructor
  · rintro ⟨path, parts⟩
    exact ⟨parts, fun _ => path⟩
  · rintro ⟨parts, path⟩
    exact ⟨path (by rw [opening]; rfl), parts⟩

omit [TripleStore σ] in
theorem parts_of_declaring {name : String} (told : call.declaring? = some (kind, name)) :
    builder.parts call = if kind ∈ EntityKind.byName then [name] else [] := by
  unfold Call.declaring? at told
  split at told
  · cases told
    rfl
  · cases told
    rfl
  · cases told
    rfl
  · cases told

omit [TripleStore σ] in
theorem parts_of_other (opens : call.opening? = none) (declares : call.declares? = none) :
    builder.parts call = [] := by
  cases call <;> cases opens <;> first | rfl | cases declares

omit [TripleStore σ] in
theorem parts_subset (call : Call) : ∀ part ∈ builder.parts call, part ∈ call.nameParts := by
  cases call with
  | startPackage name =>
      intro part member
      rw [parts] at member
      cases found : builder.packageName name with
      | error fault =>
          rw [found] at member
          cases member
      | ok named =>
          rw [found] at member
          obtain ⟨_, given, rfl, within⟩ := packageName_ok found
          exact within part member
  | _ => exact fun _ member => member

theorem named_pathLeft {kind : EntityKind} {segments : List String} {path : Identifier}
    (named : path.Named) (filled : "" ∉ segments) : (pathLeft kind path segments).Named := by
  obtain ⟨more, fault, pushed, names, _⟩ := pushAll_eq kind segments path
  unfold pathLeft
  rw [pushed]
  cases fault with
  | none => exact named
  | some fault =>
      intro fragment member
      rcases List.mem_append.mp member with outer | last
      · exact named fragment outer
      · intro empty
        have listed : "" ∈ more.map (·.name) := List.mem_map.mpr ⟨fragment, last, empty⟩
        rw [names] at listed
        exact filled (List.takeWhile_subset _ listed)

theorem named_leftPath (named : builder.path.Named) (filled : "" ∉ call.nameParts) :
    (builder.leftPath call).Named := by
  cases call with
  | startPackage name =>
      simp only [leftPath]
      split
      · rename_i found
        obtain ⟨_, given, rfl, within⟩ := packageName_ok found
        exact named_pathLeft named fun empty => filled (within "" empty)
      · exact named
  | _ => exact named

/-! Over a run, from calls that name nothing empty to open scopes and back. -/

def ScopesNamed (builder : Builder σ) : Prop := ∀ scope ∈ builder.scopes, scope.identifier.Named

theorem ScopesNamed.handle (named : builder.ScopesNamed)
    (names : (builder.handle call).1.isAccepted = true → builder.Names call) :
    (builder.handle call).2.ScopesNamed := by
  have opened (kind : EntityKind) (name : Value) :
      (builder.handle call).1.isAccepted = true → call.opening? = some (kind, name) →
        ((builder.handle call).2.path.Named ↔ builder.Names call) := named_opened
  have outcome := outcome_handle builder call
  generalize builder.handle call = result at names opened outcome ⊢
  cases outcome with
  | refuses | ends | beginsUnit | endsUnit | declares | notes => exact named
  | begins => exact nofun
  | opens _ _ _ _ _ _ _ _ _ _ _ _ _ _ _ _ given =>
      obtain ⟨text, opening, _⟩ := given
      intro scope member
      rcases List.mem_cons.mp member with rfl | outer
      · exact (opened _ _ rfl opening).mpr (names rfl)
      · exact named scope outer
  | closes _ _ _ _ _ open_scope =>
      exact fun scope member => named scope (mem_scopes_of_outer open_scope member)

/-- Before each accepted call of a run, the open scopes are named if all of them name nothing
empty. -/
theorem ScopesNamed.reached {calls : List Call} {state : Builder σ} (named : builder.ScopesNamed)
    (names : ∀ state call, builder.Accepts calls state call → state.Names call)
    (accepts : builder.Accepts calls state call) : state.ScopesNamed := by
  obtain ⟨⟨earlier, later, rfl, rfl⟩, _⟩ := accepts
  clear * - named names
  induction earlier generalizing builder with
  | nil => exact named
  | cons first rest ih =>
      refine ih (named.handle fun accepted => names builder first (.first accepted)) ?_
      exact fun state call accepts => names state call accepts.later

section

variable {builder : Builder PlainStore} {call : Call} {kind : EntityKind}

/-- What an accepted call opens is stored under the path it leads to. -/
theorem stored_of_opening {name : Value} (accepted : (builder.handle call).1.isAccepted = true)
    (opening : call.opening? = some (kind, name)) :
    kindTriple (builder.handle call).2.path.text kind ∈
      (builder.handle call).2.model.store.triples := by
  obtain ⟨writes, _, _, _, told, _, _, written⟩ := opens_of_accepted accepted opening
  exact (Model.writeAll_grows written).stated _ _ _ (Call.tells_of_opens told _ _).1

/-- What an accepted call declares is stored under its name in the innermost scope. -/
theorem stored_of_declaring {writes : Declared}
    (accepted : (builder.handle call).1.isAccepted = true)
    (told : call.declares? = some (kind, writes)) :
    ∃ scope name id, builder.scopes.head? = some scope ∧ call.declaring? = some (kind, name) ∧
      scope.identifier.child name kind.key = .ok id ∧
      kindTriple id.text kind ∈ (builder.handle call).2.model.store.triples := by
  obtain ⟨scope, name, id, _, innermost, given, child, written⟩ :=
    declares_of_accepted accepted told
  refine ⟨scope, name, id, innermost, given, child, ?_⟩
  exact (Model.writeAll_grows written).stated _ _ _ (Call.tells_of_declares told _ _).1

/-- Where the entities that an accepted call leaves are named, it named nothing empty. -/
theorem names_of_stored (accepted : (builder.handle call).1.isAccepted = true)
    (entities : EntitiesNamed (builder.handle call).2.model.store.triples) :
    builder.Names call := by
  cases opening : call.opening? with
  | some opened =>
      obtain ⟨kind, name⟩ := opened
      have listed := List.mem_append_left [.attribute, .method] (Call.kind_of_opening opening)
      exact (named_opened accepted opening).mp
        (entities.of_text listed (stored_of_opening accepted opening))
  | none =>
      refine ⟨?_, fun opens => by rw [opening] at opens; cases opens⟩
      cases declares : call.declares? with
      | none =>
          rw [parts_of_other opening declares]
          exact List.not_mem_nil
      | some declared =>
          obtain ⟨kind, writes⟩ := declared
          obtain ⟨scope, name, id, _, told, child, stored⟩ :=
            stored_of_declaring accepted declares
          rw [parts_of_declaring told]
          by_cases listed : kind ∈ EntityKind.byName
          · have named := (Identifier.named_child child).mp (entities.of_text listed stored)
            rw [if_pos listed, List.mem_singleton]
            exact named.2.symm
          · rw [if_neg listed]
            exact List.not_mem_nil

/-- The entities of a run over an empty store are named just where every accepted call names nothing
empty. -/
theorem named_after (empty : builder.model.store.triples = []) (scopes : builder.ScopesNamed)
    (calls : List Call) :
    EntitiesNamed (Handler.after builder calls).model.store.triples ↔
      ∀ state call, builder.Accepts calls state call → state.Names call := by
  constructor
  · rintro entities _ call ⟨⟨earlier, later, rfl, rfl⟩, accepted⟩
    refine names_of_stored accepted (entities.mono fun triple stored => ?_)
    rw [after_call]
    exact kept_after later stored
  · intro names kind listed subject stored
    obtain ⟨state, call, accepts, said⟩ := said_of_empty empty stored
    obtain ⟨container, id, found, entity, same⟩ := said .subClassOf rfl
    obtain ⟨rfl, _, uri, _⟩ := Triple.mk.inj same
    obtain rfl := EntityKind.uri_injective uri
    refine ⟨id, id.read_text, ?_⟩
    cases entity with
    | opened told opened =>
        obtain ⟨_, _, _, same⟩ := opened_of_accepted Prod.mk.eta.symm accepts.accepted told
        rw [opened] at same
        rw [(List.cons.inj same).1]
        exact (named_opened accepts.accepted told).mpr (names state call accepts)
    | member innermost told child =>
        have filled := (names state call accepts).parts
        rw [parts_of_declaring told, if_pos listed, List.mem_singleton] at filled
        have around := scopes.reached names accepts _ (List.mem_of_head? innermost)
        exact (Identifier.named_child child).mpr ⟨around, Ne.symm filled⟩
    | signature => exact absurd listed (by decide)
    | parameter => exact absurd listed (by decide)

/-! Where no name given has an empty part, the path stays named, whatever is refused. -/

theorem named_path_handle (named : builder.path.Named) (filled : "" ∉ call.nameParts) :
    (builder.handle call).2.path.Named := by
  have unnamed : "" ∉ builder.parts call := fun empty => filled (parts_subset call "" empty)
  cases accepted : (builder.handle call).1.isAccepted with
  | false =>
      obtain ⟨fault, refused⟩ := Reply.isAccepted_eq_false_iff.mp accepted
      rw [(leaves_handle builder call fault refused).1]
      exact named_leftPath named filled
  | true =>
      cases opening : call.opening? with
      | some opened => exact (named_opened accepted opening).mpr ⟨unnamed, fun _ => named⟩
      | none =>
          have outcome := outcome_handle builder call
          generalize builder.handle call = result at accepted outcome ⊢
          cases outcome with
          | refuses => cases accepted
          | begins => exact nofun
          | ends | beginsUnit | endsUnit | declares | notes => exact named
          | opens _ _ _ _ _ _ _ _ _ _ _ _ _ _ _ _ given =>
              obtain ⟨_, opened, _⟩ := given
              cases opening.symm.trans opened
          | closes => exact fun fragment member => named fragment (List.mem_of_mem_take member)

theorem named_path_after (calls : List Call) {builder : Builder PlainStore}
    (named : builder.path.Named) (filled : ∀ call ∈ calls, "" ∉ call.nameParts) :
    (Handler.after builder calls).path.Named := by
  induction calls generalizing builder with
  | nil => exact named
  | cons call rest ih =>
      obtain ⟨first, later⟩ := List.forall_mem_cons.mp filled
      exact ih (named_path_handle named first) later

theorem names_of_filled {calls : List Call} {state : Builder PlainStore}
    (named : builder.path.Named) (filled : ∀ call ∈ calls, "" ∉ call.nameParts)
    (accepts : builder.Accepts calls state call) : state.Names call := by
  have listed := accepts.mem
  obtain ⟨⟨earlier, later, rfl, rfl⟩, _⟩ := accepts
  refine ⟨fun empty => filled call listed (parts_subset call "" empty), fun _ => ?_⟩
  exact named_path_after earlier named fun other member =>
    filled other (List.mem_append_left _ member)

end

theorem names_map {τ : Type} [TripleStore τ] (view : StoreMap σ τ) {state : Builder σ}
    {call : Call} : (state.map view).Names call ↔ state.Names call :=
  ⟨fun names => ⟨names.parts, names.path⟩, fun names => ⟨names.parts, names.path⟩⟩

theorem triples_after (ontology : Ontology) (symbols : SymbolTable) (date : String)
    (calls : List Call) :
    (Handler.after (start ⟨ontology, symbols, MemoryStore.empty⟩ date) calls).model.store.triples =
      (Handler.after (start ⟨ontology, symbols, PlainStore.empty⟩ date)
        calls).model.store.triples := by
  let first := start ⟨ontology, symbols, MemoryStore.empty⟩ date
  have viewed := after_map MemoryStore.view calls first
  exact congrArg (fun builder => builder.model.store.triples) viewed.symm

/-- After any calls over an empty store, whatever the rules: the entities that are declared by a
name are all named just if no accepted call named anything empty, by a part of its name or by the
path it opened a container on. They are where no name given has an empty part, accepted or not. -/
theorem entities_named (ontology : Ontology) (symbols : SymbolTable) (date : String)
    (calls : List Call) :
    let first := start ⟨ontology, symbols, MemoryStore.empty⟩ date
    let stored := (Handler.after first calls).model.store.triples
    (EntitiesNamed stored ↔ ∀ state call, first.Accepts calls state call → state.Names call) ∧
      ((∀ call ∈ calls, "" ∉ call.nameParts) → EntitiesNamed stored) := by
  intro first stored
  let viewed := first.map MemoryStore.view
  have same : stored = (Handler.after viewed calls).model.store.triples :=
    triples_after ontology symbols date calls
  have bare : Identifier.empty.Named := nofun
  rw [same, named_after (rfl : viewed.model.store.triples = []) nofun calls]
  refine ⟨⟨fun names state call accepts => ?_, fun names state call accepts => ?_⟩,
    fun filled state call accepts => names_of_filled bare filled accepts⟩
  · exact (names_map MemoryStore.view).mp
      (names _ call ((accepts_map MemoryStore.view).mpr ⟨state, rfl, accepts⟩))
  · obtain ⟨origin, rfl, found⟩ := (accepts_map MemoryStore.view).mp accepts
    exact (names_map MemoryStore.view).mpr (names origin call found)

theorem dottedClass_named :
    let calls := [.startParsing (.text "lib") (.text "/lib"),
      .startClass .null (.text "p.C") [] none []]
    let stored := (Handler.after (start ⟨classRules, .empty, MemoryStore.empty⟩ "2024-01-01")
      calls).model.store.triples
    (∀ call ∈ calls, "" ∉ call.nameParts) ∧ EntitiesNamed stored ∧
      kindTriple "http://www.rdfcoder.org/2007/1.0#jclass:C" .classType ∈ stored := by
  intro calls stored
  have filled : ∀ call ∈ calls, "" ∉ call.nameParts := by decide +kernel
  have named := (entities_named classRules .empty "2024-01-01" calls).2 filled
  have same : stored = _ := triples_after classRules .empty "2024-01-01" calls
  refine ⟨filled, named, ?_⟩
  rw [same]
  decide +kernel

end Builder

end CodeFacts

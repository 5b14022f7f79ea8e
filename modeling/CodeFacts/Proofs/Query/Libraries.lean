import CodeFacts.Proofs.Builder.Ending
import CodeFacts.Proofs.Distinct

/-!
Libraries as they are listed. A run that is ended adds its library to the list, under the name and
with the place that were given where it began. Nothing else adds to the list, and no run begins for
a library that is on it.
-/

namespace CodeFacts

open Declaration

/-- A library, as it is given where its run begins. -/
structure Library where
  name : String
  location : String
  deriving DecidableEq

namespace Library

/-- What the end of its run says of a library. -/
def triples (library : Library) (date : String) : List Triple :=
  libraryTriples library.name library.location date

/-- How a library is listed that was parsed at a date. -/
def entity (library : Library) (date : String) : Entity where
  id := libraryText library.name
  name := library.name
  qualifiedName := library.name
  details := .library (some library.location) (some date)

variable {library : Library} {date subject object : String} {literal : Bool}

theorem mem_contained :
    ⟨subject, Predicate.containsLibrary.uri, object, literal⟩ ∈ library.triples date ↔
      subject = assetRoot ∧ object = libraryText library.name ∧ literal = false := by
  simp [triples, libraryTriples, Predicate.uri_inj]

theorem mem_located :
    ⟨subject, Predicate.libraryLocation.uri, object, literal⟩ ∈ library.triples date ↔
      subject = libraryText library.name ∧ object = library.location ∧ literal = true := by
  simp [triples, libraryTriples, Predicate.uri_inj]

theorem mem_dated :
    ⟨subject, Predicate.libraryDate.uri, object, literal⟩ ∈ library.triples date ↔
      subject = libraryText library.name ∧ object = date ∧ literal = true := by
  simp [triples, libraryTriples, Predicate.uri_inj]

end Library

theorem libraryText_injective {left right : String} (same : libraryText left = libraryText right) :
    left = right :=
  (String.append_right_inj _).mp ((String.append_right_inj _).mp same)

/-- The predicates by which the end of a run says something of its library. -/
def libraryPredicates : List Predicate := [.containsLibrary, .libraryLocation, .libraryDate]

/-- Whether a triple says something of a library. -/
def Triple.OfLibrary (triple : Triple) : Prop :=
  ∃ predicate ∈ libraryPredicates, triple.predicate = predicate.uri

namespace Builder

variable {σ : Type} [TripleStore σ]

/-- The libraries of the runs that some calls end, each as it was given where its run began. Before
the calls, the run that is on is that of the library given last. -/
def ended (builder : Builder σ) (given : Option Library) : List Call → List (Option Library)
  | [] => []
  | call :: rest =>
      let (reply, next) := builder.handle call
      match reply.isAccepted, call with
      | true, .startParsing (.text name) (.text location) => next.ended (some ⟨name, location⟩) rest
      | true, .endParsing => given :: next.ended given rest
      | _, _ => next.ended given rest

theorem hasLibrary_iff {builder : Builder σ} {triples : List Triple}
    (lists : Query.Lists builder.model.store triples) {name : String} :
    builder.hasLibrary name = true ↔
      ∃ literal, ⟨assetRoot, Predicate.containsLibrary.uri, libraryText name, literal⟩ ∈ triples :=
  lists.found_iff

theorem newLibrary_new {builder : Builder σ} {library location : Value}
    {name place : String} (new : builder.newLibrary library location = .ok (name, place)) :
    builder.hasLibrary name = false := by
  simp only [newLibrary, Steps.bind_ok_iff] at new
  obtain ⟨named, _, located, _, new⟩ := new
  split at new
  · cases new
  · rename_i absent
    cases new
    exact Bool.eq_false_iff.mpr absent

/-- What a store says of libraries, and what a builder goes on with, once some libraries were
parsed. -/
structure Shelved (builder : Builder PlainStore) (given : Option Library) (parsed : List Library) :
    Prop where
  stored : ∀ triple : Triple, triple.OfLibrary → (triple ∈ builder.model.store.triples ↔
    ∃ library ∈ parsed, triple ∈ library.triples builder.date)
  distinct : (parsed.map (·.name)).Nodup
  running : builder.phase = .parsing → ∃ library, given = some library ∧
    builder.library = some library.name ∧ builder.location = some library.location ∧
      library.name ∉ parsed.map (·.name)

section

variable {builder : Builder PlainStore} {call : Call} {given : Option Library}
  {parsed : List Library}

/-- Only the end of a run says something of a library. -/
theorem stored_of_other (other : call ≠ .endParsing) {triple : Triple} (own : triple.OfLibrary) :
    triple ∈ (builder.handle call).2.model.store.triples ↔
      triple ∈ builder.model.store.triples := by
  obtain ⟨predicate, listed, same⟩ := own
  obtain ⟨new, behind, said⟩ := said_handle builder call
  rw [behind, List.mem_append, or_iff_left]
  intro added
  have told := (said triple added).2 predicate same
  cases predicate with
  | containsLibrary | libraryLocation | libraryDate => exact other told
  | _ => simp [libraryPredicates] at listed

theorem Shelved.refused (shelved : builder.Shelved given parsed)
    (refused : (builder.handle call).1.isAccepted = false) :
    (builder.handle call).2.Shelved given parsed := by
  obtain ⟨fault, outcome⟩ := Reply.isAccepted_eq_false_iff.mp refused
  rw [(leaves_handle builder call fault outcome).1]
  exact ⟨shelved.stored, shelved.distinct, shelved.running⟩

theorem Shelved.other (shelved : builder.Shelved given parsed) (no_end : call ≠ .endParsing)
    (no_start : ∀ name place, call ≠ .startParsing (.text name) (.text place)) :
    (builder.handle call).2.Shelved given parsed where
  stored triple own := by
    rw [stored_of_other no_end own, date_handle]
    exact shelved.stored triple own
  distinct := shelved.distinct
  running on := by
    rcases library_handle call on with ⟨before, kept, stayed⟩ | ⟨name, place, told, _⟩
    · rw [kept, stayed]
      exact shelved.running before
    · exact absurd told (no_start name place)

/-- A library is on the list just if it was parsed. -/
theorem Shelved.hasLibrary_iff (shelved : builder.Shelved given parsed) {name : String} :
    builder.hasLibrary name = true ↔ name ∈ parsed.map (·.name) := by
  rw [Builder.hasLibrary_iff (Query.lists_plain _), List.mem_map]
  have own (literal : Bool) : Triple.OfLibrary
      ⟨assetRoot, Predicate.containsLibrary.uri, libraryText name, literal⟩ :=
    ⟨.containsLibrary, List.mem_cons_self, rfl⟩
  constructor
  · rintro ⟨literal, told⟩
    obtain ⟨library, listed, said⟩ := (shelved.stored _ (own literal)).mp told
    obtain ⟨_, same, _⟩ := Library.mem_contained.mp said
    exact ⟨library, listed, (libraryText_injective same).symm⟩
  · rintro ⟨library, listed, rfl⟩
    exact ⟨false, (shelved.stored _ (own false)).mpr ⟨library, listed, List.mem_cons_self⟩⟩

theorem Shelved.begins {name place : String} (shelved : builder.Shelved given parsed)
    (accepted : (builder.handle (.startParsing (.text name) (.text place))).1.isAccepted = true) :
    (builder.handle (.startParsing (.text name) (.text place))).2.Shelved
      (some ⟨name, place⟩) parsed := by
  have outcome := outcome_handle builder (.startParsing (.text name) (.text place))
  generalize builder.handle (.startParsing (.text name) (.text place)) = result
    at outcome accepted ⊢
  cases outcome with
  | refuses => cases accepted
  | begins _ _ _ _ told _ new =>
      obtain ⟨rfl, rfl⟩ := Call.startParsing.inj told
      obtain ⟨same, here⟩ := newLibrary_ok new
      cases same
      cases here
      refine ⟨shelved.stored, shelved.distinct, fun _ => ⟨_, rfl, rfl, rfl, ?_⟩⟩
      rw [← shelved.hasLibrary_iff, newLibrary_new new]
      exact Bool.false_ne_true
  | _ => contradiction

theorem Shelved.ends (shelved : builder.Shelved given parsed)
    (accepted : (builder.handle .endParsing).1.isAccepted = true) :
    ∃ library, given = some library ∧
      (builder.handle .endParsing).2.Shelved given (parsed ++ [library]) := by
  have run : builder.phase = .parsing ∧ (builder.handle .endParsing).2.phase = .idle := by
    have outcome := outcome_handle builder .endParsing
    generalize builder.handle .endParsing = result at outcome accepted ⊢
    cases outcome with
    | ends _ _ _ running => exact ⟨running, rfl⟩
    | _ => contradiction
  obtain ⟨running, stopped⟩ := run
  obtain ⟨library, told, named, placed, fresh⟩ := shelved.running running
  have added := mem_endParsing named placed accepted
  refine ⟨library, told, fun triple own => ?_, ?_, fun on => by rw [stopped] at on; cases on⟩
  · rw [added, shelved.stored triple own, date_handle]
    simp [or_and_right, exists_or, Library.triples]
  · rw [List.map_append, List.map_singleton]
    exact Store.nodup_append_new shelved.distinct fresh

/-- After a run, the libraries parsed before and those it ended are the ones the store has. -/
theorem Shelved.after (shelved : builder.Shelved given parsed) (calls : List Call) :
    ∃ more last, builder.ended given calls = more.map some ∧
      (Handler.after builder calls).Shelved last (parsed ++ more) := by
  induction calls generalizing builder given parsed with
  | nil => exact ⟨[], given, rfl, by rwa [List.append_nil]⟩
  | cons call rest ih =>
      unfold ended
      dsimp only
      split
      · rename_i accepted
        exact ih (shelved.begins accepted)
      · rename_i accepted
        obtain ⟨library, rfl, ended⟩ := shelved.ends accepted
        obtain ⟨more, last, told, later⟩ := ih ended
        refine ⟨library :: more, last, by rw [told, List.map_cons], ?_⟩
        rwa [List.append_cons]
      · rename_i call _ _ no_start no_end
        cases accepted : (builder.handle call).1.isAccepted with
        | false => exact ih (shelved.refused accepted)
        | true =>
            refine ih (shelved.other (no_end accepted) fun name place told => ?_)
            exact no_start name place accepted told

end

theorem ended_map {τ : Type} [TripleStore τ] (view : StoreMap σ τ) (calls : List Call)
    (builder : Builder σ) (given : Option Library) :
    (builder.map view).ended given calls = builder.ended given calls := by
  induction calls generalizing builder given with
  | nil => rfl
  | cons call rest ih =>
      unfold ended
      rw [handle_map]
      simp only [ih]

theorem shelved_start (model : Model PlainStore) (date : String)
    (empty : model.store.triples = []) : (start model date).Shelved none [] where
  stored triple _ := by simp [start, empty]
  distinct := List.nodup_nil
  running := nofun

/-! No run begins for a library that is on the list. -/

variable {builder : Builder σ} {name : String}

/-- Whether a fault is one that a builder itself finds with what it is told. -/
def OfRefusal (fault : Fault) : Prop := ∃ cause, fault = .refused cause

theorem newLibrary_only (builder : Builder σ) (name place : String) :
    Steps.Only OfRefusal (builder.newLibrary (.text name) (.text place)) := by
  have named : Steps.Only OfRefusal (libraryName (.text name)) := by
    refine Steps.Only.bind (Steps.only_ok name) fun name => ?_
    split
    · exact Steps.only_error ⟨_, rfl⟩
    · split
      · exact Steps.only_error ⟨_, rfl⟩
      · exact Steps.only_ok _
  have placed : Steps.Only OfRefusal (libraryPlace (.text place)) := by
    refine Steps.Only.bind (Steps.only_ok place) fun place => ?_
    split
    · exact Steps.only_error ⟨_, rfl⟩
    · exact Steps.only_ok _
  refine named.bind fun name => placed.bind fun place => ?_
  split
  · exact Steps.only_error ⟨_, rfl⟩
  · exact Steps.only_ok _

theorem refused_of_hasLibrary (known : builder.hasLibrary name = true) (place : String) :
    ∃ cause, (builder.handle (.startParsing (.text name) (.text place))).1.outcome =
      .error (.refused cause) := by
  simp only [handle, startParsing]
  split
  · exact ⟨_, rfl⟩
  · split
    · rename_i fault refused
      obtain ⟨cause, rfl⟩ := builder.newLibrary_only name place fault refused
      exact ⟨cause, rfl⟩
    · rename_i new
      obtain ⟨same, _⟩ := newLibrary_ok new
      cases same
      cases known.symm.trans (newLibrary_new new)

end Builder

namespace Query

variable {σ : Type} [TripleStore σ] {store : σ} {builder : Builder PlainStore}
  {given : Option Library} {parsed : List Library}

theorem libraryName_text (name : String) : libraryName (libraryText name) = name := by
  have start : (libraryText name).toList = (resource assetPattern).toList ++ name.toList := by
    simp [libraryText, resource]
  have within : (resource assetPattern).toList.isPrefixOf (libraryText name).toList = true := by
    rw [start, List.isPrefixOf_iff_prefix]
    exact List.prefix_append _ _
  unfold libraryName
  dsimp only
  rw [if_pos within, start, List.drop_left, String.ofList_toList]

section

variable (shelved : builder.Shelved given parsed) (lists : Lists store builder.model.store.triples)
include shelved

theorem libraryTexts_nodup : (parsed.map fun library => libraryText library.name).Nodup := by
  have distinct := shelved.distinct.map fun _ _ => libraryText_injective
  rwa [List.map_map] at distinct

include lists

/-- What the store has for libraries is one text for each that was parsed. -/
theorem libraries_stored : (objects store (some assetRoot) .containsLibrary).Perm
    (parsed.map fun library => libraryText library.name) := by
  have stored (object : String) (literal : Bool) :=
    shelved.stored ⟨assetRoot, Predicate.containsLibrary.uri, object, literal⟩
      ⟨.containsLibrary, List.mem_cons_self, rfl⟩
  simp only [Library.mem_contained, true_and] at stored
  have once := lists.objects_nodup builder.model.store.distinct false fun object literal told => by
    obtain ⟨_, _, _, resource⟩ := (stored object literal).mp told
    exact resource
  rw [List.perm_ext_iff_of_nodup once (libraryTexts_nodup shelved)]
  intro text
  simp only [lists.mem_objects, stored, List.mem_map]
  constructor
  · rintro ⟨literal, library, listed, rfl, _⟩
    exact ⟨library, listed, rfl⟩
  · rintro ⟨library, listed, rfl⟩
    exact ⟨false, library, listed, rfl, rfl⟩

/-- What is said of a library is what was said of it where its run ended. -/
theorem value?_of_library {library : Library} (listed : library ∈ parsed) {predicate : Predicate}
    (own : predicate ∈ libraryPredicates) {detail : Library → String}
    (said : ∀ (library : Library) (subject object : String) (literal : Bool),
      ⟨subject, predicate.uri, object, literal⟩ ∈ library.triples builder.date ↔
        subject = libraryText library.name ∧ object = detail library ∧ literal = true) :
    value? store (some (libraryText library.name)) predicate = some (detail library) := by
  have stored (object : String) (literal : Bool) :=
    shelved.stored ⟨libraryText library.name, predicate.uri, object, literal⟩ ⟨predicate, own, rfl⟩
  refine value?_of_only ?_ fun other told => ?_
  · refine lists.mem_objects.mpr ⟨true, (stored _ _).mpr ⟨library, listed, ?_⟩⟩
    exact (said library _ _ _).mpr ⟨rfl, rfl, rfl⟩
  · obtain ⟨literal, told⟩ := lists.mem_objects.mp told
    obtain ⟨found, also_listed, told⟩ := (stored other literal).mp told
    obtain ⟨same, rfl, _⟩ := (said found _ _ _).mp told
    have equal := List.inj_on_of_nodup_map shelved.distinct listed also_listed
      (libraryText_injective same)
    rw [equal]

theorem libraries_perm : (libraries store).Perm (parsed.map (·.entity builder.date)) := by
  have told : (libraries store).Perm _ := ((List.mergeSort_perm _ _).trans
    (libraries_stored shelved lists)).map _
  refine told.trans (.of_eq ?_)
  rw [List.map_map]
  refine List.map_congr_left fun library listed => ?_
  have located : value? store (some (libraryText library.name)) .libraryLocation =
      some library.location :=
    value?_of_library shelved lists listed (by decide) fun _ _ _ _ => Library.mem_located
  have dated : value? store (some (libraryText library.name)) .libraryDate = some builder.date :=
    value?_of_library shelved lists listed (by decide) fun _ _ _ _ => Library.mem_dated
  simp only [Function.comp_apply, libraryName_text, located, dated]
  rfl

/-- Libraries are listed by their texts, each once. -/
theorem libraries_sorted : (libraries store).Pairwise fun left right => left.id < right.id := by
  have once := (libraries_stored shelved lists).nodup_iff.mpr (libraryTexts_nodup shelved)
  have strict := sortedOnce_strict (objects store (some assetRoot) .containsLibrary)
  rw [eraseDups_of_nodup once] at strict
  exact List.pairwise_map.mpr strict

end

end Query

namespace Builder

/-- After any calls over an empty store, whatever the rules: the libraries listed are those of the
runs that were ended, each once, with the name and the place that were given where its run began.
They come sorted by identifier, no two have one name, and no run begins under the name of one. -/
theorem libraries_as_parsed (ontology : Ontology) (symbols : SymbolTable) (date : String)
    (calls : List Call) :
    let first := start ⟨ontology, symbols, MemoryStore.empty⟩ date
    let last := Handler.after first calls
    let listed := Query.libraries last.model.store
    ∃ parsed : List Library, first.ended none calls = parsed.map some ∧
      listed.Perm (parsed.map (·.entity date)) ∧
      listed.Pairwise (fun left right => left.id < right.id) ∧
      (listed.map (·.name)).Nodup ∧
      ∀ entity ∈ listed, ∀ place, ∃ cause,
        (last.handle (.startParsing (.text entity.name) (.text place))).1.outcome =
          .error (.refused cause) := by
  intro first last listed
  let viewed := first.map MemoryStore.view
  have empty : viewed.Shelved none [] := shelved_start viewed.model date rfl
  obtain ⟨parsed, given, told, shelved⟩ := empty.after calls
  have same : Handler.after viewed calls = last.map MemoryStore.view :=
    after_map MemoryStore.view calls first
  have dated : (last.map MemoryStore.view).date = date := date_after calls first
  rw [List.nil_append, same] at shelved
  have lists : Query.Lists last.model.store
      (last.map MemoryStore.view).model.store.triples := Query.lists_memory last.model.store
  have perm := Query.libraries_perm shelved lists
  rw [dated] at perm
  have names : (listed.map (·.name)).Perm (parsed.map (·.name)) := by
    have mapped := perm.map (·.name)
    rwa [List.map_map] at mapped
  refine ⟨parsed, (ended_map MemoryStore.view calls first none).symm.trans told, perm,
    Query.libraries_sorted shelved lists, names.nodup_iff.mpr shelved.distinct, ?_⟩
  intro entity member place
  have known := shelved.hasLibrary_iff.mpr (names.mem_iff.mp (List.mem_map_of_mem member))
  have refused := refused_of_hasLibrary known place
  rwa [handle_map] at refused

/-- A library is parsed once: its second run does not begin, and a run that is not ended counts for
nothing. -/
example :
    let rules := Ontology.ofRelations Ontology.libraryRelations
    (start ⟨rules, .empty, PlainStore.empty⟩ "2024-01-01").ended none
      [.startParsing (.text "a") (.text "/a"), .endParsing,
        .startParsing (.text "a") (.text "/b"), .endParsing,
        .startParsing (.text "b") (.text "/b")] = [some ⟨"a", "/a"⟩] := by
  decide +kernel

end Builder

end CodeFacts

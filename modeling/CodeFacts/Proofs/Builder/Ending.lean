import CodeFacts.Proofs.Builder.Accept
import CodeFacts.Proofs.Builder.Said
import CodeFacts.Proofs.Builder.Steady
import CodeFacts.Proofs.Ontology.Gate

/-!
The end of a run. A library is stored under its name, which the rules of Java code read once more:
what stands before a colon behind a dot of the name is taken for the kind of what it names. A run
can be ended where that says nothing, or says that it is an asset.
-/

namespace CodeFacts

namespace Declaration

/-- What stands before the first colon of the last section of a name that has one, behind its first
dot. -/
def qualifierBehind? (library : String) : Option String :=
  ((Text.splitOn '.' library.toList).tail.reverse.findSome? (Text.cut ':')).map fun cut =>
    String.ofList cut.1

theorem shows_libraryText (library : String) :
    Shows (libraryText library) "asset" (qualifierBehind? library) := by
  have undotted : '.' ∉ "asset:".toList := by decide +kernel
  cases parts : Text.splitOn '.' library.toList with
  | nil => exact absurd parts (Text.splitOn_ne_nil _ _)
  | cons first rest =>
      refine ⟨"asset:".toList ++ library.toList, _, _, ?_,
        Text.splitOn_part_append undotted parts, ?_, ?_⟩
      · simp [libraryText, resource, assetPattern]
      · have unmarked : ':' ∉ "asset".toList := by decide +kernel
        have start : "asset:".toList ++ first = "asset".toList ++ ':' :: first := rfl
        rw [start, Text.cut_append_mark _ unmarked]
        rfl
      · rw [qualifierBehind?, parts, List.tail_cons]
        cases rest.reverse.findSome? (Text.cut ':') <;> simp

/-- What rules read in the text of a library is the last qualifier in its name, or that of assets if
there is none. -/
theorem qualifierPattern_libraryText (library : String) :
    qualifierPattern (libraryText library) =
      (qualifierBehind? library).getD "asset" ++ ":" :=
  (shows_libraryText library).pattern

/-- Whether a library is stored as an asset. -/
def NamesAsset (library : String) : Prop :=
  ∀ qualifier ∈ qualifierBehind? library, qualifier = "asset"

instance (library : String) : Decidable (NamesAsset library) :=
  inferInstanceAs (Decidable (∀ qualifier ∈ qualifierBehind? library, qualifier = "asset"))

theorem namesAsset_iff (library : String) :
    NamesAsset library ↔ qualifierPattern (libraryText library) = assetPattern := by
  have marked : assetPattern = "asset" ++ ":" := rfl
  rw [qualifierPattern_libraryText, marked, String.append_left_inj, NamesAsset]
  cases qualifierBehind? library with
  | none => simp
  | some qualifier => simp

end Declaration

namespace Ontology

open Declaration

/-- Only libraries hang from others. -/
theorem java_library_target {relation : Relation} (defined : relation ∈ java.relations)
    (same : relation.predicate = Predicate.containsLibrary.uri) :
    relation.target = .resource assetPattern := by
  have all : ∀ relation ∈ libraryRelations ++ structureRelations,
      relation.predicate = Predicate.containsLibrary.uri →
        relation.target = .resource assetPattern := by
    decide +kernel
  rw [java_relations] at defined
  exact all relation defined same

theorem java_allows_library {relation : Relation} {subject : String} {test : Relation → Bool}
    (rule : relation ∈ libraryRelations) (fits : qualifierPattern subject = assetPattern)
    (passes : test relation = true) : java.Allows subject relation.predicate test := by
  have starts : ∀ relation ∈ libraryRelations,
      qualifierPattern relation.subject = assetPattern := by
    decide +kernel
  refine ⟨relation, ?_, rfl, ?_, passes⟩
  · rw [java_relations]
    exact List.mem_append_left _ rule
  · rw [Relation.acceptsSubject, starts relation rule, fits]
    exact beq_self_eq_true _

variable {σ : Type} [TripleStore σ]

theorem java_allows_of_addResource {store next : σ} {subject predicate object : String}
    (added : java.addResource store (.text subject) (.text predicate) (.text object) = .ok next) :
    java.Allows subject predicate (·.acceptsResource object) := by
  simp only [addResource, Steps.bind_ok_iff] at added
  obtain ⟨relation, judged, _⟩ := added
  have checked : java.judge (.text subject) (.text predicate)
      (fun subject predicate => java.validateResource subject predicate object) = .ok relation :=
    mapError_ok judged
  have found := judge_text_ok checked
  exact java_filed.firstCandidate_iff.mp ⟨relation, found⟩

end Ontology

namespace Declaration

variable {σ : Type} [TripleStore σ]

theorem libraryWrites_fit {library : String} (asset : NamesAsset library) (location date : String) :
    ∀ first ∈ libraryWrites library location date, first.Fits := by
  have pattern := (namesAsset_iff library).mp asset
  have root : qualifierPattern assetRoot = assetPattern := by decide +kernel
  have self : qualifierPattern assetPattern = assetPattern := by decide +kernel
  have located : (⟨assetPattern, Predicate.libraryLocation.uri, .literal⟩ : Relation) ∈
      Ontology.libraryRelations := by simp [Ontology.libraryRelations]
  have dated : (⟨assetPattern, Predicate.libraryDate.uri, .literal⟩ : Relation) ∈
      Ontology.libraryRelations := by simp [Ontology.libraryRelations]
  intro first member
  simp only [libraryWrites, List.mem_cons, List.not_mem_nil, or_false] at member
  rcases member with rfl | rfl | rfl
  · refine ⟨resource_ne_empty _, resource_ne_empty _, ?_⟩
    refine Ontology.java_allows_library (List.mem_cons_self) root ?_
    simp [Relation.acceptsResource, pattern, self]
  · exact ⟨resource_ne_empty _, rfl, Ontology.java_allows_library located pattern rfl⟩
  · exact ⟨resource_ne_empty _, rfl, Ontology.java_allows_library dated pattern rfl⟩

theorem namesAsset_of_written {model next : Model σ} {library location date : String}
    {unknown : List String} (rules : model.ontology = .java)
    (written : model.writeAll (libraryWrites library location date) = (next, .ok unknown)) :
    NamesAsset library := by
  obtain ⟨last, drafted, _, _⟩ := Model.writeAll_drafted written
  unfold libraryWrites Draft.writeAll at drafted
  cases step : (Draft.start model).write
      (.resource assetRoot .containsLibrary (libraryText library)) with
  | error fault =>
      rw [step] at drafted
      cases drafted
  | ok draft =>
      simp only [Draft.write, Draft.addResource, Draft.start, rules, Steps.bind_ok_iff] at step
      obtain ⟨store, added, _⟩ := step
      obtain ⟨relation, defined, same, _, accepts⟩ := Ontology.java_allows_of_addResource added
      have self : qualifierPattern assetPattern = assetPattern := by decide +kernel
      simp only [Relation.acceptsResource, Ontology.java_library_target defined same, self,
        beq_iff_eq] at accepts
      exact (namesAsset_iff library).mpr accepts.symm

/-- What the end of a run adds to the store. -/
def libraryTriples (library location date : String) : List Triple :=
  [⟨assetRoot, Predicate.containsLibrary.uri, libraryText library, false⟩,
    ⟨libraryText library, Predicate.libraryLocation.uri, location, true⟩,
    ⟨libraryText library, Predicate.libraryDate.uri, date, true⟩]

theorem libraryWrites_noType (library location date : String) :
    ∀ first ∈ libraryWrites library location date, first.NoType := by
  intro first member stored triple made kind
  simp only [libraryWrites, List.mem_cons, List.not_mem_nil, or_false] at member
  rcases member with rfl | rfl | rfl
  all_goals
    obtain rfl := List.mem_singleton.mp made
    dsimp only at kind
    cases Predicate.uri_injective kind

theorem triples_libraryWrites (stored : TypeRef → String) (library location date : String) :
    (libraryWrites library location date).flatMap (·.triples stored) =
      libraryTriples library location date := rfl

end Declaration

namespace Builder

variable {σ : Type} [TripleStore σ] {builder : Builder σ}

omit [TripleStore σ] in
theorem text_of_nameText {value : Value} {name : String} (given : nameText value = .ok name)
    (some_mark : Text.isBlankText name = false) : value = .text name := by
  cases value with
  | text => exact congrArg Value.text (Except.ok.inj given)
  | _ =>
      simp only [nameText] at given
      split at given
      · rw [← Except.ok.inj given] at some_mark
        cases some_mark
      · cases given

theorem libraryName_ok {library : Value} {name : String} (named : libraryName library = .ok name) :
    library = .text name := by
  simp only [libraryName, Steps.bind_ok_iff] at named
  obtain ⟨given, read, named⟩ := named
  split at named
  · cases named
  · rename_i some_mark
    split at named
    · cases named
    · cases named
      exact text_of_nameText read (Bool.eq_false_iff.mpr some_mark)

theorem libraryPlace_ok {location : Value} {place : String}
    (located : libraryPlace location = .ok place) : location = .text place := by
  simp only [libraryPlace, Steps.bind_ok_iff] at located
  obtain ⟨given, read, located⟩ := located
  split at located
  · cases located
  · rename_i some_mark
    cases located
    exact text_of_nameText read (Bool.eq_false_iff.mpr some_mark)

/-- A library and its location are given as texts. -/
theorem newLibrary_ok {library location : Value} {name place : String}
    (new : builder.newLibrary library location = .ok (name, place)) :
    library = .text name ∧ location = .text place := by
  simp only [newLibrary, Steps.bind_ok_iff] at new
  obtain ⟨named, found, located, placed, new⟩ := new
  split at new
  · cases new
  · cases new
    exact ⟨libraryName_ok found, libraryPlace_ok placed⟩

/-- What a call that leaves a run on does to the library of the run. -/
theorem library_handle (call : Call) (running : (builder.handle call).2.phase = .parsing) :
    (builder.phase = .parsing ∧ (builder.handle call).2.library = builder.library ∧
        (builder.handle call).2.location = builder.location) ∨
      ∃ name place, call = .startParsing (.text name) (.text place) ∧
        (builder.handle call).1.isAccepted = true ∧
        (builder.handle call).2.library = some name ∧
        (builder.handle call).2.location = some place := by
  have outcome := outcome_handle builder call
  generalize builder.handle call = result at outcome running
  cases outcome with
  | begins library location name place told _ new =>
      obtain ⟨rfl, rfl⟩ := newLibrary_ok new
      exact .inr ⟨name, place, told, rfl, rfl, rfl⟩
  | ends => cases running
  | _ => exact .inl ⟨running, rfl, rfl⟩

/-- Where a run is on, it is that of a library and a location which were accepted. -/
theorem library_after (calls : List Call) (builder : Builder σ)
    (running : (Handler.after builder calls).phase = .parsing) :
    (builder.phase = .parsing ∧ (Handler.after builder calls).library = builder.library ∧
        (Handler.after builder calls).location = builder.location) ∨
      ∃ state name place, builder.Accepts calls state (.startParsing (.text name) (.text place)) ∧
        (Handler.after builder calls).library = some name ∧
        (Handler.after builder calls).location = some place := by
  induction calls generalizing builder with
  | nil => exact .inl ⟨running, rfl, rfl⟩
  | cons call rest ih =>
      rcases ih (builder.handle call).2 running with
        ⟨parsing, library, location⟩ | ⟨state, name, place, accepts, told⟩
      · rcases library_handle call parsing with
          ⟨before, kept, stayed⟩ | ⟨name, place, rfl, accepted, named, placed⟩
        · exact .inl ⟨before, library.trans kept, location.trans stayed⟩
        · exact .inr ⟨builder, name, place, .first accepted, library.trans named,
            location.trans placed⟩
      · exact .inr ⟨state, name, place, accepts.later, told⟩

/-- A run whose library is stored as no asset is not ended by any call. -/
theorem stuck_after (calls : List Call) {builder : Builder σ} {library : String}
    (rules : builder.model.ontology = .java) (running : builder.phase = .parsing)
    (named : builder.library = some library) (other : ¬Declaration.NamesAsset library) :
    (Handler.after builder calls).phase = .parsing := by
  induction calls generalizing builder with
  | nil => exact running
  | cons call rest ih =>
      have kept : (builder.handle call).2.phase = .parsing ∧
          (builder.handle call).2.library = builder.library := by
        have outcome := outcome_handle builder call
        generalize builder.handle call = result at outcome
        cases outcome with
        | begins _ _ _ _ _ idle =>
            rw [running] at idle
            cases idle
        | ends model unknown _ _ _ _ written =>
            rw [named] at written
            exact absurd (Declaration.namesAsset_of_written rules written) other
        | _ => exact ⟨running, rfl⟩
      exact ih ((handle_ontology builder call).trans rules) kept.1 (kept.2.trans named)

/-- The end of a run with nothing open is accepted where the library is stored as an asset. -/
theorem endParsing_accepted_iff (rules : builder.model.ontology = .java) {library : String}
    (running : builder.phase = .parsing) (no_unit : builder.unit = none)
    (no_scope : builder.scopes = []) (named : builder.library = some library) :
    (builder.handle .endParsing).1.isAccepted = true ↔ Declaration.NamesAsset library := by
  constructor
  · intro accepted
    have outcome := outcome_handle builder .endParsing
    generalize builder.handle .endParsing = result at outcome accepted
    cases outcome with
    | ends model unknown _ _ _ _ written =>
        rw [named] at written
        exact Declaration.namesAsset_of_written rules written
    | _ => contradiction
  · intro asset
    simp only [handle, endParsing, running, no_unit, no_scope, named, Option.getD_some]
    exact write_accepted rules (Declaration.libraryWrites_fit asset _ _)

/-- The end of a run adds its library to the store, and nothing else. -/
theorem mem_endParsing {builder : Builder PlainStore} {library location : String}
    (named : builder.library = some library) (placed : builder.location = some location)
    (accepted : (builder.handle .endParsing).1.isAccepted = true) (triple : Triple) :
    triple ∈ (builder.handle .endParsing).2.model.store.triples ↔
      triple ∈ builder.model.store.triples ∨
        triple ∈ Declaration.libraryTriples library location builder.date := by
  have outcome := outcome_handle builder .endParsing
  generalize builder.handle .endParsing = result at outcome accepted ⊢
  cases outcome with
  | ends model unknown _ _ _ _ written =>
      rw [named, placed] at written
      show triple ∈ model.store.triples ↔ _
      rw [Model.writeAll_steady (Declaration.libraryWrites_noType _ _ _) written,
        Declaration.triples_libraryWrites]
      exact PlainStore.mem_insertAll _ _ triple
  | _ => contradiction

theorem endParsing_stores {builder : Builder PlainStore} {library location : String}
    (named : builder.library = some library) (placed : builder.location = some location)
    (accepted : (builder.handle .endParsing).1.isAccepted = true) :
    (builder.handle .endParsing).2.phase = .idle ∧
      ∀ triple ∈ Declaration.libraryTriples library location builder.date,
        triple ∈ (builder.handle .endParsing).2.model.store.triples := by
  have added := mem_endParsing named placed accepted
  have outcome := outcome_handle builder .endParsing
  generalize builder.handle .endParsing = result at outcome accepted added ⊢
  cases outcome with
  | ends => exact ⟨rfl, fun triple member => (added triple).mpr (.inr member)⟩
  | _ => contradiction

/-- A run with nothing open can be ended where its library is stored as an asset. Its end leaves the
builder idle and the library in the store; where it is stored as something else, no call ends it. -/
theorem endable_iff_asset (symbols : SymbolTable) (store : MemoryStore) (date : String)
    (calls : List Call) :
    let first := start ⟨.java, symbols, store⟩ date
    let builder := Handler.after first calls
    let reply := (builder.handle .endParsing).1
    let ended := (builder.handle .endParsing).2
    builder.phase = .parsing → builder.unit = none → builder.scopes = [] →
      ∃ state library location,
        first.Accepts calls state (.startParsing (.text library) (.text location)) ∧
        builder.library = some library ∧ builder.location = some location ∧
        (reply.isAccepted = true ↔ Declaration.NamesAsset library) ∧
        (reply.isAccepted = true → ended.phase = .idle ∧
          ∀ triple ∈ Declaration.libraryTriples library location date,
            triple ∈ ended.model.store.triples) ∧
        (¬Declaration.NamesAsset library → ∀ later,
          (Handler.after builder later).phase = .parsing) := by
  intro first builder reply ended running no_unit no_scope
  have rules : builder.model.ontology = .java :=
    ((guards_start rfl symbols store date).after calls).rules
  have dated : builder.date = date := date_after calls first
  rcases library_after calls first running with
    ⟨before, _⟩ | ⟨state, library, location, accepts, named, placed⟩
  · cases before
  · refine ⟨state, library, location, accepts, named, placed,
      endParsing_accepted_iff rules running no_unit no_scope named, fun accepted => ?_,
      fun other later => stuck_after later rules running named other⟩
    have plain : ((builder.map MemoryStore.view).handle .endParsing).1.isAccepted = true := by
      rw [handle_map]
      exact accepted
    have named : (builder.map MemoryStore.view).library = some library := named
    have stored := endParsing_stores named placed plain
    rw [handle_map, show (builder.map MemoryStore.view).date = date from dated] at stored
    exact stored

theorem plainLibrary_endable :
    let first := start ⟨.java, .empty, MemoryStore.empty⟩ "2024-01-01"
    let builder := Handler.after first [.startParsing (.text "lib-1.2") (.text "/lib")]
    (builder.phase = .parsing ∧ builder.unit = none ∧ builder.scopes = []) ∧
      (builder.handle .endParsing).1.isAccepted = true ∧
      (builder.handle .endParsing).2.phase = .idle := by
  intro first builder
  have begun : builder.phase = .parsing ∧ builder.unit = none ∧ builder.scopes = [] ∧
      builder.library = some "lib-1.2" := by
    decide +kernel
  obtain ⟨running, no_unit, no_scope, named⟩ := begun
  obtain ⟨_, library, _, _, same, _, accepted, ended, _⟩ :=
    endable_iff_asset .empty MemoryStore.empty "2024-01-01"
      [.startParsing (.text "lib-1.2") (.text "/lib")] running no_unit no_scope
  obtain rfl : library = "lib-1.2" := Option.some.inj (same.symm.trans named)
  have asset := accepted.mpr (by decide +kernel)
  exact ⟨⟨running, no_unit, no_scope⟩, asset, (ended asset).1⟩

/-- A library named by its group and its own name is not stored as an asset: its run is accepted and
cannot be ended. -/
theorem groupedLibrary_unendable :
    let first := start ⟨.java, .empty, MemoryStore.empty⟩ "2024-01-01"
    let builder :=
      Handler.after first [.startParsing (.text "org.slf4j:slf4j-api") (.text "/tmp/lib")]
    builder.phase = .parsing ∧ builder.unit = none ∧ builder.scopes = [] ∧
      (builder.handle .endParsing).1.isAccepted = false ∧
      ∀ later, (Handler.after builder later).phase = .parsing := by
  intro first builder
  have begun : builder.phase = .parsing ∧ builder.unit = none ∧ builder.scopes = [] ∧
      builder.library = some "org.slf4j:slf4j-api" := by
    decide +kernel
  obtain ⟨running, no_unit, no_scope, named⟩ := begun
  have rules : builder.model.ontology = .java :=
    ((guards_start rfl .empty MemoryStore.empty "2024-01-01").after _).rules
  have other : ¬Declaration.NamesAsset "org.slf4j:slf4j-api" := by decide +kernel
  refine ⟨running, no_unit, no_scope, ?_, fun later => stuck_after later rules running named other⟩
  rw [← Bool.not_eq_true, endParsing_accepted_iff rules running no_unit no_scope named]
  exact other

end Builder

end CodeFacts

import CodeFacts.Proofs.Builder.Accept
import CodeFacts.Proofs.Source.Trace
import CodeFacts.Source.Telling

/-!
References under other types of a unit. Where the types of a unit are known by other names, a
written name may stand for something else; but it never comes to stand for a name with marks when it
did not before, nor for another kind of thing.
-/

namespace CodeFacts

namespace Dotted

variable {outer name : String}

theorem unmarked_append {first second : String} :
    Unmarked (first ++ "." ++ second) ↔ Unmarked first ∧ Unmarked second := by
  unfold Unmarked
  simp only [String.toList_append, List.mem_append, not_or]
  have dot : ':' ∉ ".".toList ∧ '#' ∉ ".".toList := by decide
  tauto

theorem Unmarked.of_within (unmarked : Unmarked (within outer name)) : Unmarked name := by
  unfold within at unmarked
  split at unmarked
  · exact unmarked
  · exact (unmarked_append.mp unmarked).2

theorem Unmarked.within (unmarked : Unmarked name) (around : Unmarked outer) :
    Unmarked (within outer name) := by
  unfold Dotted.within
  split
  · exact unmarked
  · exact unmarked_append.mpr ⟨around, unmarked⟩

theorem Unmarked.simple (unmarked : Unmarked name) : Unmarked (simple name) :=
  unmarked.segment (simple_mem_segments name)

end Dotted

namespace Source

namespace Resolver

/-- Whether each name is filed under its last segment. -/
def Filed (entries : List (String × String)) : Prop :=
  ∀ entry ∈ entries, entry.1 = Dotted.simple entry.2

theorem mem_of_get? {entries : List (String × String)} {name value : String}
    (found : Entries.get? entries name = some value) : (name, value) ∈ entries := by
  obtain ⟨entry, listed, rfl⟩ := Option.map_eq_some_iff.mp found
  have named := List.find?_some listed
  have same : entry.1 = name := beq_iff_eq.mp named
  exact same ▸ List.mem_of_find?_eq_some listed

/-- Whether two resolvers know the same but for the types of the unit, and what the second one knows
itself has no marks but dots. -/
structure Renamed (one other : Resolver) : Prop where
  package : other.package = one.package
  symbols : other.symbols = one.symbols
  singles : other.singleImports = one.singleImports
  demands : other.onDemandImports = one.onDemandImports
  scopes : other.scopes = one.scopes
  filed_singles : Filed one.singleImports
  filed_types : Filed one.localTypes
  clean_package : Dotted.Unmarked other.package
  clean_symbols : ∀ name, other.symbols.knows name = true → Dotted.Unmarked name
  clean_types : ∀ entry ∈ other.localTypes, Dotted.Unmarked entry.2

variable {one other : Resolver}

theorem Renamed.enter (renamed : Renamed one other) (names : List String) :
    Renamed (one.enter names) (other.enter names) :=
  { renamed with scopes := congrArg (names :: ·) renamed.scopes }

theorem Renamed.name_unmarked (renamed : Renamed one other) {name value : String}
    (known : one.known? name = some value) (unmarked : Dotted.Unmarked value) :
    Dotted.Unmarked name := by
  unfold known? at known
  split at known
  · rename_i imported _ found
    cases known
    have filed : name = Dotted.simple value := renamed.filed_singles _ (mem_of_get? found)
    exact filed ▸ unmarked.simple
  · rename_i declared _ found
    cases known
    have filed : name = Dotted.simple value := renamed.filed_types _ (mem_of_get? found)
    exact filed ▸ unmarked.simple
  · dsimp only at known
    split at known
    · cases known
      exact unmarked.of_within
    split at known
    · cases known
      exact unmarked.of_within
    · obtain ⟨package, _, rfl⟩ := List.mem_map.mp (List.mem_of_find?_eq_some known)
      exact unmarked.of_within

/-- What a name is known as has no marks if the name has none, nor what the other resolver knows it
as. -/
theorem Renamed.known_unmarked (renamed : Renamed one other) {name value : String}
    (before : ∀ value, one.known? name = some value → Dotted.Unmarked value)
    (unmarked : Dotted.Unmarked name) (known : other.known? name = some value) :
    Dotted.Unmarked value := by
  unfold known? at known
  split at known
  · rename_i imported _ found
    cases known
    apply before
    unfold known?
    rw [← renamed.singles, found]
  · rename_i declared _ found
    cases known
    exact renamed.clean_types _ (mem_of_get? found)
  · dsimp only at known
    split at known
    · cases known
      exact unmarked.within renamed.clean_package
    split at known
    · cases known
      exact unmarked.within (by decide +kernel)
    · exact renamed.clean_symbols _ (List.find?_some known)

/-- A name has no marks where what it is known as has none, or it has none itself if it is known as
nothing. -/
theorem Renamed.own_unmarked (renamed : Renamed one other) {name : String}
    (unmarked : Dotted.Unmarked ((one.known? name).getD name)) :
    Dotted.Unmarked name ∧ ∀ value, one.known? name = some value → Dotted.Unmarked value := by
  cases known : one.known? name with
  | none =>
      rw [known] at unmarked
      exact ⟨unmarked, nofun⟩
  | some value =>
      rw [known] at unmarked
      have value_unmarked : Dotted.Unmarked value := unmarked
      exact ⟨renamed.name_unmarked known value_unmarked, fun _ same =>
        Option.some.inj same ▸ value_unmarked⟩

theorem Renamed.qualify_unmarked (renamed : Renamed one other) {name : String}
    (unmarked : Dotted.Unmarked (one.qualify name)) : Dotted.Unmarked (other.qualify name) := by
  have variable_same : other.isVariable name = one.isVariable name := by
    unfold isVariable
    rw [renamed.scopes]
  unfold qualify at *
  rw [variable_same]
  split
  · decide +kernel
  rename_i no_variable
  rw [if_neg no_variable] at unmarked
  generalize parts : Text.cut '.' name.toList = cut at unmarked
  -- A name without a dot is looked up whole, any other one by what stands before its first dot.
  cases cut with
  | none =>
      have called : Dotted.Unmarked ((one.known? name).getD name) := by
        cases known : one.known? name with
        | none =>
            rw [known] at unmarked
            exact unmarked.of_within
        | some value =>
            rw [known] at unmarked
            exact unmarked
      obtain ⟨name_unmarked, before⟩ := renamed.own_unmarked called
      dsimp only
      cases known : other.known? name with
      | none => exact name_unmarked.within renamed.clean_package
      | some value => exact renamed.known_unmarked before name_unmarked known
  | some pair =>
      obtain ⟨first, rest⟩ := pair
      have whole : name = String.ofList first ++ "." ++ String.ofList rest := by
        apply String.toList_injective
        rw [(Text.eq_of_cut parts).1]
        simp
      have called : Dotted.Unmarked ((one.known? (String.ofList first)).getD (String.ofList first)) ∧
          Dotted.Unmarked (String.ofList rest) := by
        dsimp only at unmarked
        cases known : one.known? (String.ofList first) with
        | none =>
            rw [known, whole] at unmarked
            exact Dotted.unmarked_append.mp unmarked
        | some value =>
            rw [known] at unmarked
            exact Dotted.unmarked_append.mp unmarked
      obtain ⟨called, rest_unmarked⟩ := called
      obtain ⟨first_unmarked, before⟩ := renamed.own_unmarked called
      dsimp only
      cases known : other.known? (String.ofList first) with
      | none => exact whole ▸ Dotted.unmarked_append.mpr ⟨first_unmarked, rest_unmarked⟩
      | some value =>
          have value_unmarked := renamed.known_unmarked before first_unmarked known
          exact Dotted.unmarked_append.mpr ⟨value_unmarked, rest_unmarked⟩

end Resolver

namespace Resolver

/-! ### Resolvers of units -/

theorem mem_of_mem_put {entries : List (String × String)} {name value : String}
    {entry : String × String} (listed : entry ∈ Entries.put entries name value) :
    entry ∈ entries ∨ entry = (name, value) := by
  unfold Entries.put at listed
  split at listed
  · obtain ⟨before, member, rfl⟩ := List.mem_map.mp listed
    split
    · exact .inr rfl
    · exact .inl member
  · exact (List.mem_append.mp listed).imp_right List.mem_singleton.mp

/-- Types of the unit added to a resolver change nothing else. -/
theorem declareAll (names : List String) (resolver : Resolver) :
    ∃ localTypes, names.foldl declare resolver = { resolver with localTypes } ∧
      ∀ entry ∈ localTypes, entry ∈ resolver.localTypes ∨
        entry.2 ∈ names ∧ entry.1 = Dotted.simple entry.2 := by
  induction names generalizing resolver with
  | nil => exact ⟨resolver.localTypes, rfl, fun _ listed => .inl listed⟩
  | cons name rest ih =>
      obtain ⟨localTypes, same, entries⟩ := ih (resolver.declare name)
      refine ⟨localTypes, same, fun entry listed => ?_⟩
      rcases entries entry listed with before | ⟨later, filed⟩
      · change entry ∈ Entries.putNew _ _ _ at before
        unfold Entries.putNew at before
        split at before
        · exact .inl before
        · rcases List.mem_append.mp before with known | new
          · exact .inl known
          · rw [List.mem_singleton.mp new]
            exact .inr ⟨List.mem_cons_self, rfl⟩
      · exact .inr ⟨List.mem_cons_of_mem name later, filed⟩

/-- Imports added to a resolver change nothing else, and those of one type are filed under their
last segments. -/
theorem importAll (imports : List Import) (resolver : Resolver) :
    ∃ singleImports onDemandImports,
      imports.foldl (fun resolver (item : Import) =>
          if item.onDemand then resolver.importPackage item.name
          else resolver.importType item.name) resolver =
        { resolver with singleImports, onDemandImports } ∧
      ∀ entry ∈ singleImports, entry ∈ resolver.singleImports ∨
        ∃ item ∈ imports, item.onDemand = false ∧ entry = (Dotted.simple item.name, item.name) := by
  induction imports generalizing resolver with
  | nil => exact ⟨_, _, rfl, fun _ listed => .inl listed⟩
  | cons item rest ih =>
      have later {entry : String × String} : (∃ other ∈ rest, other.onDemand = false ∧
          entry = (Dotted.simple other.name, other.name)) →
          ∃ other ∈ item :: rest, other.onDemand = false ∧
            entry = (Dotted.simple other.name, other.name) :=
        fun ⟨other, listed, filed⟩ => ⟨other, List.mem_cons_of_mem item listed, filed⟩
      rw [List.foldl_cons]
      cases demand : item.onDemand with
      | true =>
          rw [if_pos rfl]
          unfold importPackage
          split
          · obtain ⟨singles, demands, same, entries⟩ := ih resolver
            exact ⟨singles, demands, same,
              fun entry listed => (entries entry listed).imp_right later⟩
          · obtain ⟨singles, demands, same, entries⟩ := ih { resolver with
              onDemandImports := resolver.onDemandImports ++ [item.name] }
            exact ⟨singles, demands, same,
              fun entry listed => (entries entry listed).imp_right later⟩
      | false =>
          rw [if_neg Bool.false_ne_true]
          obtain ⟨singles, demands, same, entries⟩ := ih (resolver.importType item.name)
          refine ⟨singles, demands, same, fun entry listed => ?_⟩
          rcases entries entry listed with before | filed
          · refine (mem_of_mem_put before).imp_right fun new => ?_
            exact ⟨item, List.mem_cons_self, demand, new⟩
          · exact .inr (later filed)

end Resolver

/-- The resolvers of two units that differ in the names of their types. -/
theorem renamed_resolver {one other : Outline} (package : other.package = one.package)
    (imports : other.imports = one.imports) {symbols : SymbolTable}
    (clean_package : Dotted.Unmarked one.package)
    (clean_symbols : ∀ name, symbols.knows name = true → Dotted.Unmarked name)
    (clean_types : ∀ name ∈ allTypeNames other.package other.types, Dotted.Unmarked name) :
    Resolver.Renamed (one.resolver symbols) (other.resolver symbols) := by
  unfold Outline.resolver
  rw [package, imports]
  obtain ⟨singles, demands, imported, items⟩ :=
    Resolver.importAll one.imports (Resolver.start one.package symbols)
  dsimp only
  rw [imported]
  obtain ⟨_, first, entries⟩ := Resolver.declareAll (allTypeNames one.package one.types)
    { Resolver.start one.package symbols with
      singleImports := singles, onDemandImports := demands }
  obtain ⟨_, second, others⟩ := Resolver.declareAll (allTypeNames one.package other.types)
    { Resolver.start one.package symbols with
      singleImports := singles, onDemandImports := demands }
  rw [first, second]
  refine ⟨rfl, rfl, rfl, rfl, rfl, ?_, ?_, clean_package, clean_symbols, ?_⟩
  · intro entry listed
    rcases items entry listed with before | ⟨item, _, _, rfl⟩
    · cases before
    · rfl
  · intro entry listed
    rcases entries entry listed with before | ⟨_, under⟩
    · cases before
    · exact under
  · intro entry listed
    rcases others entry listed with before | ⟨named, _⟩
    · cases before
    · exact clean_types _ (package ▸ named)

/-! ### References -/

/-- Whether a reference has no marks if another one has none, and is one to the same kind of
thing. -/
def Rebound (one other : TypeRef) : Prop :=
  (one.isPlain = true → other.isPlain = true) ∧ ∀ kind, other.refersTo kind = one.refersTo kind

theorem Rebound.names {one other : TypeRef} (rebound : Rebound one other) {kind : EntityKind}
    (named : one.names kind = true) : other.names kind = true := by
  obtain ⟨plain, refers⟩ := Bool.and_eq_true_iff.mp named
  exact Bool.and_eq_true_iff.mpr ⟨rebound.1 plain, (rebound.2 kind).trans refers⟩

theorem all_of_rebound {test : TypeRef → Bool}
    (keeps : ∀ one other, Rebound one other → test one = true → test other = true)
    {types others : List TypeRef} (each : List.Forall₂ Rebound types others)
    (all : types.all test = true) : others.all test = true := by
  induction each with
  | nil => rfl
  | cons here _ ih =>
      rw [List.all_cons, Bool.and_eq_true] at all ⊢
      exact ⟨keeps _ _ here all.1, ih all.2⟩

namespace Resolver

variable {one other : Resolver}

theorem Renamed.element (renamed : Renamed one other) (name : String) (kind : NamedKind) :
    Rebound (one.element name kind) (other.element name kind) := by
  unfold Resolver.element
  cases TypeRef.ofKeyword? name with
  | some primitive => exact ⟨id, fun _ => rfl⟩
  | none =>
      refine ⟨fun plain => ?_, fun _ => rfl⟩
      have unmarked : Dotted.Unmarked (one.qualify name) := of_decide_eq_true plain
      exact decide_eq_true (renamed.qualify_unmarked unmarked)

theorem Renamed.resolve (renamed : Renamed one other) (name : String) (kind : NamedKind)
    (dimensions : Int) :
    Rebound (one.resolve name kind dimensions) (other.resolve name kind dimensions) := by
  have element := renamed.element name kind
  unfold Resolver.resolve
  split
  · exact element
  · exact ⟨element.1, fun _ => rfl⟩

theorem Renamed.reference (renamed : Renamed one other) {kind : NamedKind} {written : Written}
    {type : TypeRef} (given : one.reference kind written = .ok type) :
    ∃ rebound, other.reference kind written = .ok rebound ∧ Rebound type rebound := by
  obtain ⟨read, found, rfl⟩ := Steps.map_ok_iff.mp given
  subst found
  exact ⟨_, rfl, renamed.resolve _ _ _⟩

/-- References that are read one after the other. -/
theorem mapM_rebound {α : Type} {items : List α} {read reread : α → Except Fault TypeRef}
    (each : ∀ item type, read item = .ok type →
      ∃ rebound, reread item = .ok rebound ∧ Rebound type rebound)
    {types : List TypeRef} (given : items.mapM read = .ok types) :
    ∃ others, items.mapM reread = .ok others ∧ List.Forall₂ Rebound types others := by
  induction items generalizing types with
  | nil =>
      cases given
      exact ⟨[], rfl, .nil⟩
  | cons item rest ih =>
      simp only [List.mapM_cons, Steps.bind_ok_iff, Steps.pure_ok_iff] at given
      obtain ⟨type, here, later, found, rfl⟩ := given
      obtain ⟨rebound, again, same⟩ := each item type here
      obtain ⟨others, further, all⟩ := ih found
      refine ⟨rebound :: others, ?_, .cons same all⟩
      rw [List.mapM_cons, again, further]
      rfl

theorem Renamed.clause (renamed : Renamed one other) {kind : NamedKind} {written : List Written}
    {types : List TypeRef} (given : one.clause kind written = .ok types) :
    ∃ others, other.clause kind written = .ok others ∧ List.Forall₂ Rebound types others := by
  refine mapM_rebound (fun item type found => ?_) given
  obtain ⟨read, rfl, rfl⟩ := Steps.map_ok_iff.mp found
  exact ⟨_, rfl, renamed.resolve _ _ _⟩

theorem Renamed.parameterTypes (renamed : Renamed one other)
    {declaration : ExecutableDeclaration} {types : List TypeRef}
    (given : parameterTypes one declaration = .ok types) :
    ∃ others, parameterTypes other declaration = .ok others ∧
      List.Forall₂ Rebound types others :=
  mapM_rebound (fun _ _ found => renamed.reference found) given

end Resolver

end Source

end CodeFacts

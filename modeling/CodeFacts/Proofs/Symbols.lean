import CodeFacts.Proofs.Index
import CodeFacts.Proofs.Names
import CodeFacts.Proofs.Steps
import CodeFacts.Store.Memory
import CodeFacts.Symbols
import Mathlib.Logic.Function.Basic

/-!
Symbol tables along any calls. Whatever is added, merged, loaded or cleared, in full or up to the
name that is refused, the simple names by package are those of the known names.
-/

namespace CodeFacts

/-- A name cut at its last dot. A name without a dot has the empty package. -/
def Dotted.CutsInto (name package simple : String) : Prop :=
  '.' ∉ simple.toList ∧ (name = package ++ "." ++ simple ∨ package = "" ∧ name = simple)

theorem Dotted.cutsInto_iff {name package simple : String} :
    CutsInto name package simple ↔ outer name = package ∧ Dotted.simple name = simple := by
  constructor
  · rintro ⟨undotted, rfl | ⟨rfl, rfl⟩⟩
    · have whole : (package ++ "." ++ simple).toList = package.toList ++ '.' :: simple.toList := by
        simp
      rw [outer, Dotted.simple, whole, Text.cutLast_append_mark _ undotted]
      exact ⟨String.ofList_toList, String.ofList_toList⟩
    · rw [outer, Dotted.simple, Text.cutLast_eq_none_iff.mpr undotted]
      exact ⟨rfl, rfl⟩
  · rintro ⟨rfl, rfl⟩
    unfold outer Dotted.simple CutsInto
    cases found : Text.cutLast '.' name.toList with
    | none => exact ⟨Text.cutLast_eq_none_iff.mp found, .inr ⟨rfl, rfl⟩⟩
    | some parts =>
        obtain ⟨whole, undotted⟩ := Text.eq_of_cutLast found
        refine ⟨by simpa using undotted, .inl ?_⟩
        apply String.toList_injective
        simp [whole]

namespace SymbolTable

variable {table next other : SymbolTable} {name : String} {origin : Origin}

theorem knowsFrom_register {asked : String} {place : Origin} :
    (table.register name origin).knowsFrom asked place = true ↔
      table.knowsFrom asked place = true ∨ asked = name ∧ place = origin := by
  simp only [knowsFrom, register, decide_eq_true_eq, Index.mem_find_fileNew]

theorem packageHas_register {package simple : String} :
    (table.register name origin).packageHas package simple = true ↔
      table.packageHas package simple = true ∨ Dotted.CutsInto name package simple := by
  simp only [packageHas, register, decide_eq_true_eq, Index.mem_find_fileNew, Dotted.cutsInto_iff]
  simp only [eq_comm]

theorem knows_iff : table.knows name = true ↔ ∃ origin, table.knowsFrom name origin = true := by
  simp only [knows, knowsFrom, bne_iff_ne, decide_eq_true_eq]
  exact ⟨List.exists_mem_of_ne_nil _, fun ⟨_, held⟩ => List.ne_nil_of_mem held⟩

/-! Tables with more names. -/

def registerAll (table : SymbolTable) (entries : List (String × Origin)) : SymbolTable :=
  entries.foldl (fun table entry => table.register entry.1 entry.2) table

theorem registerAll_cons (entry : String × Origin) (rest : List (String × Origin)) :
    table.registerAll (entry :: rest) = (table.register entry.1 entry.2).registerAll rest :=
  rfl

theorem knowsFrom_registerAll {entries : List (String × Origin)} :
    (table.registerAll entries).knowsFrom name origin = true ↔
      table.knowsFrom name origin = true ∨ (name, origin) ∈ entries := by
  induction entries generalizing table with
  | nil => simp [registerAll]
  | cons entry rest ih =>
      rw [registerAll_cons, ih, knowsFrom_register, List.mem_cons, or_assoc, Prod.ext_iff]

/-- The second table has come from the first by adding names, none of them blank. -/
def Grown (table next : SymbolTable) : Prop :=
  ∃ entries : List (String × Origin),
    (∀ entry ∈ entries, Text.isBlankText entry.1 = false) ∧ next = table.registerAll entries

theorem Grown.refl (table : SymbolTable) : table.Grown table :=
  ⟨[], by simp, rfl⟩

theorem Grown.trans {last : SymbolTable} (first : table.Grown next) (second : next.Grown last) :
    table.Grown last := by
  obtain ⟨entries, solid, rfl⟩ := first
  obtain ⟨more, more_solid, rfl⟩ := second
  refine ⟨entries ++ more, ?_, (List.foldl_append ..).symm⟩
  intro entry member
  rcases List.mem_append.mp member with here | there
  · exact solid entry here
  · exact more_solid entry there

theorem add_ok_iff :
    table.add name origin = .ok next ↔
      Text.isBlankText name = false ∧ next = table.register name origin := by
  unfold add
  cases Text.isBlankText name <;> simp [eq_comm]

theorem Grown.of_add (added : table.add name origin = .ok next) : table.Grown next := by
  obtain ⟨solid, rfl⟩ := add_ok_iff.mp added
  exact ⟨[(name, origin)], by simpa using solid, rfl⟩

theorem addAll_grown (table : SymbolTable) (origin : Origin) (names : List (Except Fault String)) :
    table.Grown (table.addAll origin names).1 := by
  induction names generalizing table with
  | nil => exact Grown.refl table
  | cons name rest ih =>
      unfold addAll
      cases added : name.bind (table.add · origin) with
      | error fault => exact Grown.refl table
      | ok next =>
          obtain ⟨text, _, accepted⟩ := Steps.bind_ok_iff.mp added
          exact (Grown.of_add accepted).trans (ih next)

theorem addPaths_grown (table : SymbolTable) (extension : String) (origin : Origin)
    (paths : List String) : table.Grown (table.addPaths extension origin paths).1 :=
  addAll_grown table origin _

theorem preloadSource_grown (table : SymbolTable) (source : SymbolSource) :
    table.Grown (table.preloadSource source).1 := by
  unfold preloadSource
  split
  · exact addPaths_grown ..
  · exact Grown.refl table

theorem preloadCompiled_grown (table : SymbolTable) (source : SymbolSource) :
    table.Grown (table.preloadCompiled source).1 := by
  unfold preloadCompiled
  split
  · exact addPaths_grown ..
  · exact Grown.refl table

theorem preloadArchive_grown (table : SymbolTable) (source : SymbolSource) :
    table.Grown (table.preloadArchive source).1 := by
  unfold preloadArchive
  split
  · exact addPaths_grown ..
  · split
    · exact addPaths_grown ..
    · exact Grown.refl table
  · exact Grown.refl table

theorem preload_grown (table : SymbolTable) (source : SymbolSource) :
    table.Grown (table.preload source).1 := by
  unfold preload
  split
  · rename_i path files
    have first := preloadSource_grown table (.tree path files)
    split
    · rename_i next sources loaded
      rw [loaded] at first
      exact first.trans (preloadCompiled_grown next (.tree path files))
    · exact first
  · split
    · exact preloadArchive_grown table source
    · exact Grown.refl table

theorem preloadModel_grown {σ : Type} [TripleStore σ] (table : SymbolTable) (store : σ) :
    table.Grown (table.preloadModel store).1 :=
  addAll_grown table .model _

/-! The names of a table and those of its packages. -/

/-- The index by package holds what the names, none of which is blank, are cut into. -/
structure Sound (table : SymbolTable) : Prop where
  origins_filled : table.origins.Filled
  members_filled : table.members.Filled
  solid : ∀ name, table.knows name = true → Text.isBlankText name = false
  filed : ∀ package simple, table.packageHas package simple = true ↔
    ∃ name, table.knows name = true ∧ Dotted.CutsInto name package simple

theorem sound_empty : empty.Sound where
  origins_filled := Index.filled_empty
  members_filled := Index.filled_empty
  solid := by simp [knows, empty]
  filed := by simp [knows, packageHas, empty]

theorem knows_register {asked : String} :
    (table.register name origin).knows asked = true ↔ table.knows asked = true ∨ asked = name := by
  simp only [knows_iff, knowsFrom_register, exists_or, exists_and_left, exists_eq, and_true]

theorem Sound.register (sound : table.Sound) (solid : Text.isBlankText name = false)
    (origin : Origin) : (table.register name origin).Sound where
  origins_filled := sound.origins_filled.fileNew name origin
  members_filled := sound.members_filled.fileNew _ _
  solid := by
    intro asked known
    rcases knows_register.mp known with old | rfl
    · exact sound.solid asked old
    · exact solid
  filed := by
    intro package simple
    simp only [packageHas_register, sound.filed, knows_register, or_and_right, exists_or,
      exists_eq_left]

theorem Sound.grown (sound : table.Sound) (grown : table.Grown next) : next.Sound := by
  obtain ⟨entries, solid, rfl⟩ := grown
  induction entries generalizing table with
  | nil => exact sound
  | cons entry rest ih =>
      have here := sound.register (solid entry List.mem_cons_self) entry.2
      exact ih here fun other member => solid other (List.mem_cons_of_mem entry member)

/-- What a table tells of its names and its packages, in terms of which names it knows and from
where. -/
structure Indexed (table : SymbolTable) : Prop where
  names_strict : table.names.Pairwise (· < ·)
  mem_names : ∀ name, name ∈ table.names ↔ table.knows name = true
  some_origin : ∀ name, table.knows name = true ↔ ∃ origin, table.knowsFrom name origin = true
  size : table.size = table.names.length
  namesFrom_strict : ∀ origin, (table.namesFrom origin).Pairwise (· < ·)
  mem_namesFrom : ∀ origin name,
    name ∈ table.namesFrom origin ↔ table.knowsFrom name origin = true
  packages_strict : table.packages.Pairwise (· < ·)
  mem_packages : ∀ package, package ∈ table.packages ↔
    ∃ name simple, table.knows name = true ∧ Dotted.CutsInto name package simple
  packageHas_iff : ∀ package simple, table.packageHas package simple = true ↔
    ∃ name, table.knows name = true ∧ Dotted.CutsInto name package simple

theorem Sound.mem_names (sound : table.Sound) (name : String) :
    name ∈ table.names ↔ table.knows name = true := by
  rw [names, sound.origins_filled.mem_keys, knows_iff]
  simp only [knowsFrom, decide_eq_true_eq]

theorem Sound.indexed (sound : table.Sound) : table.Indexed where
  names_strict := table.origins.keys_strict
  mem_names := sound.mem_names
  some_origin := fun _ => knows_iff
  size := table.origins.size_eq
  namesFrom_strict := fun _ => table.origins.keys_strict.filter _
  mem_namesFrom := by
    intro origin name
    rw [namesFrom, List.mem_filter, sound.mem_names, knows_iff]
    exact and_iff_right_of_imp fun held => ⟨origin, held⟩
  packages_strict := table.members.keys_strict
  mem_packages := by
    intro package
    have held := sound.filed package
    simp only [packageHas, decide_eq_true_eq] at held
    simp only [packages, sound.members_filled.mem_keys, held]
    exact exists_comm
  packageHas_iff := sound.filed

/-! Merging tables. -/

def entries (table : SymbolTable) : List (String × Origin) :=
  table.names.flatMap fun name => (table.origins.find name).map fun origin => (name, origin)

theorem mem_entries : (name, origin) ∈ table.entries ↔ table.knowsFrom name origin = true := by
  simp only [entries, List.mem_flatMap, List.mem_map, Prod.mk.injEq, knowsFrom, decide_eq_true_eq]
  constructor
  · rintro ⟨_, _, _, held, rfl, rfl⟩
    exact held
  · intro held
    exact ⟨name, Index.mem_keys_of_mem_find held, origin, held, rfl, rfl⟩

theorem merge_eq (table other : SymbolTable) :
    table.merge other = table.registerAll other.entries := by
  simp only [merge, registerAll, entries, List.foldl_flatMap, List.foldl_map]

theorem knowsFrom_merge :
    (table.merge other).knowsFrom name origin = true ↔
      table.knowsFrom name origin = true ∨ other.knowsFrom name origin = true := by
  rw [merge_eq, knowsFrom_registerAll, mem_entries]

theorem Sound.entry_solid (sound : table.Sound) {entry : String × Origin}
    (member : entry ∈ table.entries) : Text.isBlankText entry.1 = false :=
  sound.solid entry.1 (knows_iff.mpr ⟨entry.2, mem_entries.mp member⟩)

theorem Sound.merge_grown (sound : other.Sound) (table : SymbolTable) :
    table.Grown (table.merge other) :=
  ⟨other.entries, fun _ => sound.entry_solid, merge_eq table other⟩

/-- The names of another table added one by one, each of them checked. -/
def mergeChecked (table other : SymbolTable) : Except Fault SymbolTable :=
  other.entries.foldlM (fun table entry => table.add entry.1 entry.2) table

theorem Sound.mergeChecked_eq (sound : other.Sound) (table : SymbolTable) :
    table.mergeChecked other = .ok (table.merge other) := by
  have each : ∀ entry ∈ other.entries, Text.isBlankText entry.1 = false :=
    fun _ => sound.entry_solid
  rw [merge_eq, mergeChecked]
  generalize other.entries = entries at each
  induction entries generalizing table with
  | nil => rfl
  | cons entry rest ih =>
      have added : table.add entry.1 entry.2 = .ok (table.register entry.1 entry.2) :=
        add_ok_iff.mpr ⟨each entry List.mem_cons_self, rfl⟩
      rw [List.foldlM_cons, added]
      exact ih _ fun other member => each other (List.mem_cons_of_mem entry member)

theorem Sound.register_of_knowsFrom (sound : table.Sound)
    (known : table.knowsFrom name origin = true) : table.register name origin = table := by
  -- The name stands in both indexes, which do not file it anew.
  have filed : Dotted.simple name ∈ table.members.find (Dotted.outer name) := by
    have held := (sound.filed (Dotted.outer name) (Dotted.simple name)).mpr
      ⟨name, knows_iff.mpr ⟨origin, known⟩, Dotted.cutsInto_iff.mpr ⟨rfl, rfl⟩⟩
    simpa only [packageHas, decide_eq_true_eq] using held
  rw [knowsFrom, decide_eq_true_eq] at known
  rw [SymbolTable.register, Index.fileNew_of_mem known, Index.fileNew_of_mem filed]

theorem Sound.registerAll_of_knows (sound : table.Sound) {entries : List (String × Origin)}
    (known : ∀ entry ∈ entries, table.knowsFrom entry.1 entry.2 = true) :
    table.registerAll entries = table := by
  induction entries with
  | nil => rfl
  | cons entry rest ih =>
      rw [registerAll_cons, sound.register_of_knowsFrom (known entry List.mem_cons_self)]
      exact ih fun other member => known other (List.mem_cons_of_mem entry member)

theorem Sound.merge_of_knows (sound : table.Sound)
    (known : ∀ name origin, other.knowsFrom name origin = true →
      table.knowsFrom name origin = true) :
    table.merge other = table := by
  rw [merge_eq]
  apply sound.registerAll_of_knows
  intro entry member
  exact known entry.1 entry.2 (mem_entries.mp member)

/-- Tables that answer every question alike. -/
structure Alike (left right : SymbolTable) : Prop where
  knowsFrom : left.knowsFrom = right.knowsFrom
  knows : left.knows = right.knows
  names : left.names = right.names
  namesFrom : left.namesFrom = right.namesFrom
  size : left.size = right.size
  packages : left.packages = right.packages
  packageHas : left.packageHas = right.packageHas

theorem Indexed.alike {left right : SymbolTable} (first : left.Indexed) (second : right.Indexed)
    (same : left.knowsFrom = right.knowsFrom) : left.Alike right := by
  have knows : left.knows = right.knows := by
    funext name
    rw [Bool.eq_iff_iff, first.some_origin, second.some_origin, same]
  have names : left.names = right.names := by
    refine eq_of_strict first.names_strict second.names_strict fun name => ?_
    rw [first.mem_names, second.mem_names, knows]
  refine ⟨same, knows, names, ?_, ?_, ?_, ?_⟩
  · funext origin
    refine eq_of_strict (first.namesFrom_strict origin) (second.namesFrom_strict origin) ?_
    intro name
    rw [first.mem_namesFrom, second.mem_namesFrom, same]
  · rw [first.size, second.size, names]
  · refine eq_of_strict first.packages_strict second.packages_strict fun package => ?_
    rw [first.mem_packages, second.mem_packages, knows]
  · funext package simple
    rw [Bool.eq_iff_iff, first.packageHas_iff, second.packageHas_iff, knows]

/-! Several tables along calls. -/

/-- A call to one of several tables. -/
inductive Change (ι σ : Type) where
  | add (name : String) (origin : Origin)
  | merge (other : ι)
  | preloadSource (source : SymbolSource)
  | preloadCompiled (source : SymbolSource)
  | preloadArchive (source : SymbolSource)
  | preload (source : SymbolSource)
  | preloadModel (store : σ)
  | clear

variable {ι σ : Type} [TripleStore σ]

/-- A table after a call. One that is refused leaves what was added before the refusal. -/
def Change.applied (tables : ι → SymbolTable) (table : SymbolTable) : Change ι σ → SymbolTable
  | .add name origin => (table.add name origin).toOption.getD table
  | .merge other => table.merge (tables other)
  | .preloadSource source => (table.preloadSource source).1
  | .preloadCompiled source => (table.preloadCompiled source).1
  | .preloadArchive source => (table.preloadArchive source).1
  | .preload source => (table.preload source).1
  | .preloadModel store => (table.preloadModel store).1
  | .clear => .empty

theorem Sound.applied {tables : ι → SymbolTable} (each : ∀ index, (tables index).Sound)
    (sound : table.Sound) (change : Change ι σ) : (change.applied tables table).Sound := by
  cases change with
  | add name origin =>
      rw [Change.applied]
      cases added : table.add name origin with
      | error fault => exact sound
      | ok next => exact sound.grown (Grown.of_add added)
  | merge other => exact sound.grown ((each other).merge_grown table)
  | preloadSource source => exact sound.grown (preloadSource_grown table source)
  | preloadCompiled source => exact sound.grown (preloadCompiled_grown table source)
  | preloadArchive source => exact sound.grown (preloadArchive_grown table source)
  | preload source => exact sound.grown (preload_grown table source)
  | preloadModel store => exact sound.grown (preloadModel_grown table store)
  | clear => exact sound_empty

variable [DecidableEq ι]

def call (tables : ι → SymbolTable) (index : ι) (change : Change ι σ) : ι → SymbolTable :=
  Function.update tables index (change.applied tables (tables index))

def callAll (tables : ι → SymbolTable) (calls : List (ι × Change ι σ)) : ι → SymbolTable :=
  calls.foldl (fun tables entry => call tables entry.1 entry.2) tables

theorem call_sound {tables : ι → SymbolTable} (each : ∀ index, (tables index).Sound) (index : ι)
    (change : Change ι σ) (asked : ι) : (call tables index change asked).Sound := by
  by_cases here : asked = index
  · subst here
    rw [call, Function.update_self]
    exact (each asked).applied each change
  · rw [call, Function.update_of_ne here]
    exact each asked

theorem callAll_sound {tables : ι → SymbolTable} (each : ∀ index, (tables index).Sound)
    (calls : List (ι × Change ι σ)) (index : ι) : (callAll tables calls index).Sound := by
  induction calls generalizing tables with
  | nil => exact each index
  | cons entry rest ih => exact ih (call_sound each entry.1 entry.2)

def merges (index : ι) (others : List ι) : List (ι × Change ι σ) :=
  others.map fun other => (index, .merge other)

variable {tables : ι → SymbolTable} {index : ι}

theorem callAll_merges_of_ne {asked : ι} (apart : asked ≠ index) (others : List ι) :
    callAll tables (merges index others : List (ι × Change ι σ)) asked = tables asked := by
  induction others generalizing tables with
  | nil => rfl
  | cons other rest ih => exact ih.trans (Function.update_of_ne apart ..)

/-- A table into which others are merged knows what it and they knew, even if it is one of them. -/
theorem knowsFrom_merges {others : List ι} :
    (callAll tables (merges index others : List (ι × Change ι σ)) index).knowsFrom name origin =
        true ↔
      ∃ other ∈ index :: others, (tables other).knowsFrom name origin = true := by
  induction others generalizing tables with
  | nil => simp [callAll, merges]
  | cons other rest ih =>
      have step : callAll tables (merges index (other :: rest) : List (ι × Change ι σ)) =
          callAll (call tables index (.merge other : Change ι σ)) (merges index rest) := rfl
      -- The table itself may be among the others, so every table is followed through one merge.
      have merged (asked : ι) :
          (call tables index (.merge other : Change ι σ) asked).knowsFrom name origin = true ↔
            (tables asked).knowsFrom name origin = true ∨
              asked = index ∧ (tables other).knowsFrom name origin = true := by
        by_cases here : asked = index
        · subst here
          simp only [call, Change.applied, Function.update_self, knowsFrom_merge, true_and]
        · simp [call, here]
      rw [step, ih]
      simp only [merged]
      constructor
      · rintro ⟨asked, member, held | ⟨_, held⟩⟩
        · rcases List.mem_cons.mp member with rfl | later
          · exact ⟨asked, List.mem_cons_self, held⟩
          · exact ⟨asked, List.mem_cons_of_mem index (List.mem_cons_of_mem other later), held⟩
        · exact ⟨other, List.mem_cons_of_mem index List.mem_cons_self, held⟩
      · rintro ⟨asked, member, held⟩
        rcases List.mem_cons.mp member with rfl | member
        · exact ⟨asked, List.mem_cons_self, .inl held⟩
        · rcases List.mem_cons.mp member with rfl | later
          · exact ⟨index, List.mem_cons_self, .inr ⟨rfl, held⟩⟩
          · exact ⟨asked, List.mem_cons_of_mem index later, .inl held⟩

/-- After any calls, accepted or refused, every table tells what follows from the names it knows;
merging adds what the other table knows, twice as much as once, and the order in which tables are
merged into one cannot be told from any of them. -/
theorem index_follows_names (calls : List (ι × Change ι σ)) :
    let tables := callAll (fun _ => empty) calls
    (∀ index, (tables index).Indexed) ∧
    (∀ index name origin, Text.isBlankText name = false →
      ∃ next, (tables index).add name origin = .ok next ∧
        ∀ asked place, next.knowsFrom asked place = true ↔
          (tables index).knowsFrom asked place = true ∨ asked = name ∧ place = origin) ∧
    (∀ index other,
      (tables index).mergeChecked (tables other) = .ok ((tables index).merge (tables other))) ∧
    (∀ index other name origin,
      ((tables index).merge (tables other)).knowsFrom name origin = true ↔
        (tables index).knowsFrom name origin = true ∨
          (tables other).knowsFrom name origin = true) ∧
    (∀ index other, ((tables index).merge (tables other)).merge (tables other) =
      (tables index).merge (tables other)) ∧
    (∀ index, (tables index).merge (tables index) = tables index) ∧
    ∀ index (first second : List ι), first.Perm second → ∀ asked,
      (callAll (fun _ => empty) (calls ++ merges index first) asked).Alike
        (callAll (fun _ => empty) (calls ++ merges index second) asked) := by
  intro tables
  have sound : ∀ index, (tables index).Sound := callAll_sound (fun _ => sound_empty) calls
  refine ⟨fun index => (sound index).indexed, ?_,
    fun _ other => (sound other).mergeChecked_eq _, fun _ _ _ _ => knowsFrom_merge, ?_, ?_, ?_⟩
  · intro index name origin solid
    exact ⟨_, add_ok_iff.mpr ⟨solid, rfl⟩, fun _ _ => knowsFrom_register⟩
  · intro index other
    have merged := (sound index).grown ((sound other).merge_grown (tables index))
    exact merged.merge_of_knows fun _ _ known => knowsFrom_merge.mpr (.inr known)
  · intro index
    exact (sound index).merge_of_knows fun _ _ known => known
  · intro index first second perm asked
    have joined (more : List (ι × Change ι σ)) :
        callAll (fun _ => empty) (calls ++ more) = callAll tables more := List.foldl_append ..
    rw [joined, joined]
    refine (callAll_sound sound _ asked).indexed.alike (callAll_sound sound _ asked).indexed ?_
    by_cases here : asked = index
    · subst here
      funext name origin
      rw [Bool.eq_iff_iff, knowsFrom_merges, knowsFrom_merges]
      simp only [(perm.cons asked).mem_iff]
    · rw [callAll_merges_of_ne here, callAll_merges_of_ne here]

theorem merged_either_way :
    (callAll (fun _ => empty)
      ([(1, .add "a.B" .source), (2, .add "C" .model)] ++ merges 0 [1, 2] :
        List (Fin 3 × Change (Fin 3) MemoryStore)) 0).Alike
      (callAll (fun _ => empty)
        ([(1, .add "a.B" .source), (2, .add "C" .model)] ++ merges 0 [2, 1] :
          List (Fin 3 × Change (Fin 3) MemoryStore)) 0) ∧
    ∃ next, empty.add "a.B" .source = .ok next ∧ next.knowsFrom "a.B" .source = true := by
  have run := index_follows_names
    ([(1, .add "a.B" .source), (2, .add "C" .model)] : List (Fin 3 × Change (Fin 3) MemoryStore))
  refine ⟨run.2.2.2.2.2.2 0 [1, 2] [2, 1] (by decide) 0, ?_⟩
  have fresh := index_follows_names ([] : List (Fin 3 × Change (Fin 3) MemoryStore))
  obtain ⟨next, added, knows⟩ := fresh.2.1 0 "a.B" .source (by decide)
  exact ⟨next, added, (knows "a.B" .source).mpr (.inr ⟨rfl, rfl⟩)⟩

end SymbolTable

end CodeFacts

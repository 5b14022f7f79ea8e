import CodeFacts.Proofs.Distinct
import CodeFacts.Proofs.Symbols

/-!
Names loaded from trees of files and from archives. Every path with the extension gives one name,
loading again gives none, and the order in which paths are visited cannot be told afterwards. Only a
path that has nothing but blanks before its extension stops the loading where it stands.
-/

namespace CodeFacts

namespace Paths

/-- Whether a path is one of a file below a directory: names with a slash between each two of them,
every one of which leads on. -/
def Relative (path : String) : Prop :=
  ∀ name ∈ (Text.splitOn '/' path.toList).map String.ofList, name ≠ "" ∧ name ≠ "." ∧ name ≠ ".."

instance (path : String) : Decidable (Relative path) :=
  inferInstanceAs (Decidable (∀ name ∈ (Text.splitOn '/' path.toList).map String.ofList,
    name ≠ "" ∧ name ≠ "." ∧ name ≠ ".."))

variable {path : String}

theorem Relative.segments_eq (relative : Relative path) :
    segments path = (Text.splitOn '/' path.toList).map String.ofList := by
  rw [segments, List.filter_eq_self]
  intro name member
  simpa using (relative name member).1

theorem Relative.join_segments (relative : Relative path) : join (segments path) = path := by
  rw [relative.segments_eq]
  simp [join, Function.comp_def]

theorem foldl_step (names : List String) {segments : List String}
    (forward : ∀ segment ∈ segments, segment ≠ "." ∧ segment ≠ "..") :
    segments.foldl step names = names ++ segments := by
  induction segments generalizing names with
  | nil => simp
  | cons segment rest ih =>
      obtain ⟨stays, back⟩ := forward segment List.mem_cons_self
      have next : step names segment = names ++ [segment] := by simp [step, stays, back]
      rw [List.foldl_cons, next, ih]
      · simp
      · intro other member
        exact forward other (List.mem_cons_of_mem segment member)

theorem Relative.lead (relative : Relative path) (names : List String) :
    (segments path).foldl step names = names ++ segments path := by
  apply foldl_step
  intro segment member
  rw [relative.segments_eq] at member
  exact (relative segment member).2

end Paths

namespace SymbolTable

/-- The files of a tree are walked each once, whatever the order they are given in. -/
theorem walked_perm (root : String) {files : List String}
    (relative : ∀ file ∈ files, Paths.Relative file) (distinct : files.Nodup) :
    (walked root files).Perm files := by
  have led : files.map (fun file => (Paths.segments file).foldl Paths.step (Paths.names root)) =
      files.map fun file => Paths.names root ++ Paths.segments file := by
    apply List.map_congr_left
    intro file member
    exact (relative file member).lead _
  have inside : ((files.map fun file => Paths.names root ++ Paths.segments file).filter
      (Paths.names root).isPrefixOf).map (·.drop (Paths.names root).length) =
        files.map Paths.segments := by
    rw [List.filter_eq_self.mpr]
    · simp [Function.comp_def]
    · intro names member
      obtain ⟨file, _, rfl⟩ := List.mem_map.mp member
      exact List.isPrefixOf_iff_prefix.mpr (List.prefix_append _ _)
  have back : (files.map Paths.segments).map Paths.join = files := by
    rw [List.map_map]
    refine (List.map_congr_left ?_).trans (List.map_id files)
    intro file member
    exact (relative file member).join_segments
  have once : (files.map Paths.segments).Nodup := by
    apply List.Nodup.of_map Paths.join
    rwa [back]
  have visited : walked root files = (Paths.walk id (files.map Paths.segments)).map Paths.join := by
    simp only [walked, led]
    rw [inside, eraseDups_of_nodup once]
  rw [visited]
  refine ((List.mergeSort_perm _ _).map Paths.join).trans (List.Perm.of_eq ?_)
  exact back

/-! ### The names that paths stand for -/

/-- A text with dots for slashes and for dollar signs. -/
def dotted (text : String) : String :=
  String.ofList (text.toList.map fun c => if c = '/' ∨ c = '$' then '.' else c)

/-- A path with an extension stands for the dotted name of what is before it. -/
def StandsFor (extension path name : String) : Prop :=
  ∃ stem, path = stem ++ extension ∧ name = dotted stem

/-- Whether a path has nothing but blanks before an extension. -/
def Nameless (extension path : String) : Prop :=
  ∃ stem, path = stem ++ extension ∧ Text.isBlankText stem = true

section

variable {extension path name : String}

theorem hasExtension_iff :
    hasExtension path extension = true ↔ ∃ stem, path = stem ++ extension := by
  rw [hasExtension, List.isSuffixOf_iff_suffix]
  constructor
  · rintro ⟨stem, whole⟩
    refine ⟨String.ofList stem, ?_⟩
    apply String.toList_injective
    simp [whole]
  · rintro ⟨stem, rfl⟩
    exact ⟨stem.toList, by simp⟩

theorem pathName_append (stem : String) (given : extension ≠ "") :
    pathName (stem ++ extension) extension = dotted stem := by
  have kept : (stem ++ extension).toList.take ((stem ++ extension).length - extension.length) =
      stem.toList := by
    simp [← String.length_toList]
  simp only [pathName, if_neg given, kept, dotted]

theorem standsFor_iff (given : extension ≠ "") :
    StandsFor extension path name ↔
      hasExtension path extension = true ∧ pathName path extension = name := by
  rw [hasExtension_iff]
  constructor
  · rintro ⟨stem, rfl, rfl⟩
    exact ⟨⟨stem, rfl⟩, pathName_append stem given⟩
  · rintro ⟨⟨stem, rfl⟩, rfl⟩
    exact ⟨stem, rfl, pathName_append stem given⟩

theorem isBlankText_dotted (stem : String) :
    Text.isBlankText (dotted stem) = Text.isBlankText stem := by
  have each (c : Char) : Text.isBlank (if c = '/' ∨ c = '$' then '.' else c) = Text.isBlank c := by
    by_cases slash : c = '/'
    · subst slash; decide
    · by_cases dollar : c = '$'
      · subst dollar; decide
      · simp [slash, dollar]
  simp [Text.isBlankText, dotted, Function.comp_def, each]

theorem nameless_iff (given : extension ≠ "") :
    Nameless extension path ↔ hasExtension path extension = true ∧
      Text.isBlankText (pathName path extension) = true := by
  rw [hasExtension_iff]
  constructor
  · rintro ⟨stem, rfl, blank⟩
    exact ⟨⟨stem, rfl⟩, by rwa [pathName_append stem given, isBlankText_dotted]⟩
  · rintro ⟨⟨stem, rfl⟩, blank⟩
    rw [pathName_append stem given, isBlankText_dotted] at blank
    exact ⟨stem, rfl, blank⟩

/-! ### Paths added one by one -/

/-- The entries that paths give, in their order. -/
def pathEntries (extension : String) (origin : Origin) (paths : List String) :
    List (String × Origin) :=
  (paths.filter (hasExtension · extension)).map fun path => (pathName path extension, origin)

variable {origin place : Origin} {paths before after : List String} {table : SymbolTable}

theorem mem_pathEntries (given : extension ≠ "") :
    (name, place) ∈ pathEntries extension origin paths ↔
      place = origin ∧ ∃ path ∈ paths, StandsFor extension path name := by
  simp only [pathEntries, List.mem_map, List.mem_filter, Prod.mk.injEq, standsFor_iff given]
  constructor
  · rintro ⟨path, ⟨member, has⟩, named, rfl⟩
    exact ⟨rfl, path, member, has, named⟩
  · rintro ⟨rfl, path, member, has, named⟩
    exact ⟨path, ⟨member, has⟩, named, rfl⟩

theorem addPaths_cons_other (other : hasExtension path extension = false) (rest : List String) :
    table.addPaths extension origin (path :: rest) = table.addPaths extension origin rest := by
  simp [addPaths, other]

theorem addPaths_cons_named (has : hasExtension path extension = true)
    (solid : Text.isBlankText (pathName path extension) = false) (rest : List String) :
    table.addPaths extension origin (path :: rest) =
      let later := (table.register (pathName path extension) origin).addPaths extension origin rest
      (later.1, later.2.map (· + 1)) := by
  simp [addPaths, has, addAll, Except.bind, add, solid]

theorem addPaths_cons_nameless (has : hasExtension path extension = true)
    (blank : Text.isBlankText (pathName path extension) = true) (rest : List String) :
    table.addPaths extension origin (path :: rest) = (table, .error (.value .blankSymbol)) := by
  simp [addPaths, has, addAll, Except.bind, add, blank]

/-- Paths that are not nameless are all added before what follows them. -/
theorem addPaths_append (given : extension ≠ "") (after : List String)
    (named : ∀ path ∈ before, ¬ Nameless extension path) :
    table.addPaths extension origin (before ++ after) =
      let later := (table.registerAll (pathEntries extension origin before)).addPaths
        extension origin after
      (later.1, later.2.map (· + before.countP (hasExtension · extension))) := by
  induction before generalizing table with
  | nil =>
      cases rest : table.addPaths extension origin after with
      | mk next outcome => cases outcome <;> simp [pathEntries, registerAll, rest, Except.map]
  | cons path before ih =>
      have later := fun other member => named other (List.mem_cons_of_mem path member)
      by_cases has : hasExtension path extension = true
      · have solid : Text.isBlankText (pathName path extension) = false := by
          by_contra blank
          rw [Bool.not_eq_false] at blank
          exact named path List.mem_cons_self ((nameless_iff given).mpr ⟨has, blank⟩)
        have entries : pathEntries extension origin (path :: before) =
            (pathName path extension, origin) :: pathEntries extension origin before := by
          simp [pathEntries, has]
        rw [List.cons_append, addPaths_cons_named has solid, ih later, entries, registerAll_cons]
        dsimp only
        cases (((table.register (pathName path extension) origin).registerAll
          (pathEntries extension origin before)).addPaths extension origin after).2 with
        | error fault => simp [Except.map]
        | ok count => simp [Except.map, has, Nat.add_assoc]
      · rw [Bool.not_eq_true] at has
        have entries : pathEntries extension origin (path :: before) =
            pathEntries extension origin before := by
          simp [pathEntries, has]
        rw [List.cons_append, addPaths_cons_other has, ih later, entries]
        simp [has]

theorem addPaths_named (given : extension ≠ "")
    (named : ∀ path ∈ paths, ¬ Nameless extension path) :
    table.addPaths extension origin paths =
      (table.registerAll (pathEntries extension origin paths),
        .ok (paths.countP (hasExtension · extension))) := by
  rw [← List.append_nil paths, addPaths_append given [] named]
  simp [addPaths, addAll, Except.map]

theorem addPaths_stopped (given : extension ≠ "") (after : List String)
    (named : ∀ path ∈ before, ¬ Nameless extension path) (nameless : Nameless extension path) :
    table.addPaths extension origin (before ++ path :: after) =
      (table.registerAll (pathEntries extension origin before), .error (.value .blankSymbol)) := by
  obtain ⟨has, blank⟩ := (nameless_iff given).mp nameless
  rw [addPaths_append given _ named, addPaths_cons_nameless has blank]
  rfl

theorem named_or_stopped (extension : String) (paths : List String) :
    (∀ path ∈ paths, ¬ Nameless extension path) ∨
      ∃ before path after, paths = before ++ path :: after ∧
        (∀ path ∈ before, ¬ Nameless extension path) ∧ Nameless extension path := by
  classical
  cases found : paths.find? fun path => decide (Nameless extension path) with
  | none =>
      left
      simpa using found
  | some path =>
      right
      obtain ⟨nameless, before, after, whole, named⟩ := List.find?_eq_some_iff_append.mp found
      exact ⟨before, path, after, whole, by simpa using named, by simpa using nameless⟩

theorem pathEntries_solid (given : extension ≠ "")
    (named : ∀ path ∈ paths, ¬ Nameless extension path) :
    ∀ entry ∈ pathEntries extension origin paths, Text.isBlankText entry.1 = false := by
  intro entry member
  simp only [pathEntries, List.mem_map, List.mem_filter] at member
  obtain ⟨path, ⟨listed, has⟩, rfl⟩ := member
  by_contra blank
  rw [Bool.not_eq_false] at blank
  exact named path listed ((nameless_iff given).mpr ⟨has, blank⟩)

theorem Sound.pathEntries (sound : table.Sound) (given : extension ≠ "") (origin : Origin)
    (named : ∀ path ∈ paths, ¬ Nameless extension path) :
    (table.registerAll (pathEntries extension origin paths)).Sound :=
  sound.grown ⟨_, pathEntries_solid given named, rfl⟩

/-- The order in which paths are added cannot be told from the table they lead to. -/
theorem Sound.alike_of_perm (sound : table.Sound) (given : extension ≠ "") (origin : Origin)
    (named : ∀ path ∈ paths, ¬ Nameless extension path) {visited : List String}
    (perm : visited.Perm paths) :
    (table.registerAll (SymbolTable.pathEntries extension origin visited)).Alike
      (table.registerAll (SymbolTable.pathEntries extension origin paths)) := by
  have also : ∀ path ∈ visited, ¬ Nameless extension path := by
    intro path member
    exact named path (perm.mem_iff.mp member)
  apply (sound.pathEntries given origin also).indexed.alike
    (sound.pathEntries given origin named).indexed
  funext name place
  rw [Bool.eq_iff_iff, knowsFrom_registerAll, knowsFrom_registerAll, mem_pathEntries given,
    mem_pathEntries given]
  simp only [perm.mem_iff]

end

/-! ### Ways to load names -/

/-- Names are loaded from the source files of a tree, from its compiled files or from those of an
archive. -/
inductive Preload where
  | source
  | compiled
  | archive

namespace Preload

def extension : Preload → String
  | .source => sourceExtension
  | .compiled => compiledExtension
  | .archive => compiledExtension

def origin : Preload → Origin
  | .source => .source
  | .compiled => .compiled
  | .archive => .archive

def load (way : Preload) (table : SymbolTable) (source : SymbolSource) :
    SymbolTable × Except Fault Nat :=
  match way with
  | .source => table.preloadSource source
  | .compiled => table.preloadCompiled source
  | .archive => table.preloadArchive source

/-- What a source that is there has to offer: the files of a tree, each of them once, or the names
of the entries of an archive that can be read. -/
inductive Offers : Preload → SymbolSource → List String → Prop
  | source (root : String) {files : List String} :
      (∀ file ∈ files, Paths.Relative file) → files.Nodup → Offers .source (.tree root files) files
  | compiled (root : String) {files : List String} :
      (∀ file ∈ files, Paths.Relative file) → files.Nodup →
        Offers .compiled (.tree root files) files
  | archive (place : String) (entries : List String) :
      Offers .archive (.archive place entries) (entries.map entryName)
  | file (place : String) {bytes : List UInt8} {entries : List String} :
      Archive.entries bytes = .ok entries →
        Offers .archive (.file place bytes) (entries.map entryName)

variable {way : Preload} {source : SymbolSource} {files : List String}

theorem extension_ne_empty (way : Preload) : way.extension ≠ "" := by
  cases way <;> decide

theorem Offers.load_eq (offers : way.Offers source files) :
    ∃ visited : List String, visited.Perm files ∧
      ∀ table, way.load table source = table.addPaths way.extension way.origin visited := by
  cases offers with
  | source root relative distinct =>
      exact ⟨walked root files, walked_perm root relative distinct, fun table => rfl⟩
  | compiled root relative distinct =>
      exact ⟨walked root files, walked_perm root relative distinct, fun table => rfl⟩
  | archive place entries => exact ⟨_, .refl _, fun table => rfl⟩
  | file place readable =>
      refine ⟨_, .refl _, fun table => ?_⟩
      simp only [load, preloadArchive, readable]
      rfl

theorem not_endsOpen (way : Preload) {file : String}
    (has : hasExtension file way.extension = true) : Paths.endsOpen file = false := by
  obtain ⟨stem, rfl⟩ := hasExtension_iff.mp has
  have last : way.extension.toList.getLast? ≠ none ∧
      way.extension.toList.getLast? ≠ some '/' := by
    cases way <;> decide
  simp only [Paths.endsOpen, String.toList_append, List.getLast?_append, beq_eq_false_iff_ne]
  cases ending : way.extension.toList.getLast? with
  | none => exact absurd ending last.1
  | some c => simpa [ending] using last.2

/-- What a table is after some paths have been loaded into it: their names are added to those of
the origin, and nothing else changes. -/
structure Adds (way : Preload) (paths : List String) (table next : SymbolTable) : Prop where
  names : ∀ name, name ∈ next.namesFrom way.origin ↔
    name ∈ table.namesFrom way.origin ∨ ∃ path ∈ paths, StandsFor way.extension path name
  others : ∀ origin, origin ≠ way.origin → next.namesFrom origin = table.namesFrom origin

variable {table : SymbolTable} {paths : List String}

theorem adds_pathEntries (sound : table.Sound)
    (named : ∀ path ∈ paths, ¬ Nameless way.extension path) :
    way.Adds paths table (table.registerAll (pathEntries way.extension way.origin paths)) := by
  have given := way.extension_ne_empty
  have next := (sound.pathEntries given way.origin named).indexed
  constructor
  · intro name
    rw [next.mem_namesFrom, sound.indexed.mem_namesFrom, knowsFrom_registerAll,
      mem_pathEntries given]
    simp
  · intro origin apart
    apply eq_of_strict (next.namesFrom_strict origin) (sound.indexed.namesFrom_strict origin)
    intro name
    rw [next.mem_namesFrom, sound.indexed.mem_namesFrom, knowsFrom_registerAll,
      mem_pathEntries given]
    simp [apart]

theorem Adds.of_perm {next : SymbolTable} (adds : way.Adds paths table next)
    (perm : paths.Perm files) : way.Adds files table next := by
  refine ⟨fun name => ?_, adds.others⟩
  rw [adds.names]
  simp only [perm.mem_iff]

theorem countP_of_perm (way : Preload) (perm : paths.Perm files) :
    paths.countP (hasExtension · way.extension) =
      files.countP fun file => hasExtension file way.extension && !Paths.endsOpen file := by
  rw [perm.countP_eq]
  apply List.countP_congr
  intro file _
  by_cases has : hasExtension file way.extension = true
  · simp [has, way.not_endsOpen has]
  · simp [has]

theorem addPaths_again (sound : table.Sound)
    (named : ∀ path ∈ paths, ¬ Nameless way.extension path) :
    let next := table.registerAll (pathEntries way.extension way.origin paths)
    next.addPaths way.extension way.origin paths =
      (next, .ok (paths.countP (hasExtension · way.extension))) := by
  intro next
  have given := way.extension_ne_empty
  have unchanged : next.registerAll (pathEntries way.extension way.origin paths) = next := by
    apply (sound.pathEntries given way.origin named).registerAll_of_knows
    intro entry member
    exact knowsFrom_registerAll.mpr (.inr member)
  rw [addPaths_named given named, unchanged]

variable {ι σ : Type} [TripleStore σ] [DecidableEq ι]

/-- Loading what a source offers passes just if no file is nameless. Then it counts the files with
the extension, adds their names, changes nothing when it is done again, and leaves the same table
in whatever order the files are visited. Otherwise it is stopped at a nameless file, and the names
of the files before it stay. -/
theorem loaded_unless_nameless (calls : List (ι × Change ι σ)) (index : ι)
    (offers : way.Offers source files) :
    let table := callAll (fun _ => empty) calls index
    ((∃ next count, way.load table source = (next, .ok count)) ↔
      ∀ file ∈ files, ¬ Nameless way.extension file) ∧
    (∀ next count, way.load table source = (next, .ok count) →
      count = files.countP (fun file =>
        hasExtension file way.extension && !Paths.endsOpen file) ∧
      way.Adds files table next ∧
      way.load next source = (next, .ok count) ∧
      ∀ visited : List String, visited.Perm files → ∃ other,
        table.addPaths way.extension way.origin visited = (other, .ok count) ∧
          other.Alike next) ∧
    ∀ next fault, way.load table source = (next, .error fault) →
      fault = .value .blankSymbol ∧ ∃ before file after,
        (before ++ file :: after).Perm files ∧ Nameless way.extension file ∧
          way.Adds before table next := by
  intro table
  have sound : table.Sound := callAll_sound (fun _ => sound_empty) calls index
  have given := way.extension_ne_empty
  obtain ⟨visited, perm, load⟩ := offers.load_eq
  rcases named_or_stopped way.extension visited with named | ⟨before, file, after, rfl, named, stop⟩
  · have each : ∀ file ∈ files, ¬ Nameless way.extension file := by
      intro file member
      exact named file (perm.mem_iff.mpr member)
    have passed := (load table).trans (addPaths_named given named)
    refine ⟨⟨fun _ => each, fun _ => ⟨_, _, passed⟩⟩, ?_, ?_⟩
    · intro next count loaded
      rw [passed] at loaded
      cases loaded
      refine ⟨countP_of_perm way perm, (adds_pathEntries sound named).of_perm perm, ?_, ?_⟩
      · rw [load, addPaths_again sound named]
      · intro order again
        have same : order.Perm visited := again.trans perm.symm
        have also : ∀ path ∈ order, ¬ Nameless way.extension path := by
          intro path member
          exact named path (same.mem_iff.mp member)
        refine ⟨_, ?_, sound.alike_of_perm given way.origin named same⟩
        rw [addPaths_named given also, same.countP_eq]
    · intro next fault loaded
      rw [passed] at loaded
      cases loaded
  · have stopped := (load table).trans (addPaths_stopped given after named stop)
    refine ⟨⟨?_, ?_⟩, ?_, ?_⟩
    · rintro ⟨next, count, loaded⟩
      rw [stopped] at loaded
      cases loaded
    · intro each
      exact absurd stop (each file (perm.mem_iff.mp (by simp)))
    · intro next count loaded
      rw [stopped] at loaded
      cases loaded
    · intro next fault loaded
      rw [stopped] at loaded
      cases loaded
      exact ⟨rfl, before, file, after, perm, stop, adds_pathEntries sound named⟩

theorem sourceTree_loaded :
    let files := ["a/b/C.java", "a/D$E.java", "a/notes.txt"]
    Preload.source.Offers (.tree "/src" files) files ∧
      (∀ file ∈ files, ¬ Nameless sourceExtension file) ∧
      ∃ next, Preload.source.load empty (.tree "/src" files) = (next, .ok 2) ∧
        "a.D.E" ∈ next.namesFrom .source ∧
        Preload.source.load next (.tree "/src" files) = (next, .ok 2) := by
  intro files
  have offers : Preload.source.Offers (.tree "/src" files) files :=
    .source "/src" (by decide +kernel) (by decide +kernel)
  have named : ∀ file ∈ files, ¬ Nameless sourceExtension file := by
    simp only [nameless_iff (show sourceExtension ≠ "" by decide)]
    decide +kernel
  have loaded := loaded_unless_nameless ([] : List (Unit × Change Unit MemoryStore)) () offers
  obtain ⟨next, count, passed⟩ := loaded.1.mpr named
  obtain ⟨counted, adds, again, _⟩ := loaded.2.1 next count passed
  have two : count = 2 := counted.trans (by decide +kernel)
  subst two
  refine ⟨offers, named, next, passed, (adds.names "a.D.E").mpr (.inr ?_), again⟩
  exact ⟨"a/D$E.java", by decide, "a/D$E", rfl, rfl⟩

/-- An entry that is nothing but the extension stops the loading of an archive half way. -/
theorem namelessEntry_stops :
    let entries := ["a/B.class", ".class", "c/D.class"]
    Preload.archive.Offers (.archive "lib.jar" entries) entries ∧
      ∃ next, Preload.archive.load empty (.archive "lib.jar" entries) =
          (next, .error (.value .blankSymbol)) ∧
        next.namesFrom .archive = ["a.B"] := by
  intro entries
  exact ⟨.archive "lib.jar" entries, _, rfl, by decide +kernel⟩

end Preload

end SymbolTable

end CodeFacts

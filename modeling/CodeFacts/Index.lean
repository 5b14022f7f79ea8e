import Std.Data.TreeMap

/-!
Lists of items filed under text keys. A key without items is not kept, the keys come sorted, and
the items of a key stay in the order they were filed.
-/

namespace CodeFacts

structure Index (α : Type) where
  entries : Std.TreeMap String (List α)

namespace Index

variable {α : Type}

def empty : Index α := ⟨∅⟩

def find (index : Index α) (key : String) : List α :=
  index.entries.getD key []

def file (index : Index α) (key : String) (item : α) : Index α :=
  ⟨index.entries.insert key (index.find key ++ [item])⟩

/-- One more item under a key unless it is there. -/
def fileNew [DecidableEq α] (index : Index α) (key : String) (item : α) : Index α :=
  if item ∈ index.find key then index else index.file key item

/-- An item taken from under a key; a key left without items goes with it. -/
def drop [DecidableEq α] (index : Index α) (key : String) (item : α) : Index α :=
  match (index.find key).erase item with
  | [] => ⟨index.entries.erase key⟩
  | rest => ⟨index.entries.insert key rest⟩

def keys (index : Index α) : List String :=
  index.entries.keys

def size (index : Index α) : Nat :=
  index.entries.size

@[simp] theorem find_empty (key : String) : (empty : Index α).find key = [] := by
  simp [find, empty]

theorem find_file (index : Index α) (key other : String) (item : α) :
    (index.file key item).find other =
      if key = other then index.find other ++ [item] else index.find other := by
  unfold file find
  rw [Std.TreeMap.getD_insert]
  by_cases same : key = other
  · subst same; simp
  · simp [same]

theorem find_fileNew [DecidableEq α] (index : Index α) (key other : String) (item : α)
    (absent : item ∉ index.find key) :
    (index.fileNew key item).find other =
      if key = other then index.find other ++ [item] else index.find other := by
  unfold fileNew
  rw [if_neg absent]
  exact find_file index key other item

theorem find_drop [DecidableEq α] (index : Index α) (key other : String) (item : α) :
    (index.drop key item).find other =
      if key = other then (index.find other).erase item else index.find other := by
  unfold drop
  split
  case h_1 gone =>
    unfold find
    rw [Std.TreeMap.getD_erase]
    by_cases same : key = other
    · subst same; simpa [find] using gone.symm
    · simp [same]
  case h_2 left =>
    unfold find
    rw [Std.TreeMap.getD_insert]
    by_cases same : key = other
    · subst same; simp
    · simp [same]

/-- Under every key stand the items that have it, in any order and each as often as it comes. -/
def Files (index : Index α) (key : α → String) (items : List α) : Prop :=
  ∀ name, (index.find name).Perm (items.filter fun item => key item == name)

theorem files_empty (key : α → String) : (empty : Index α).Files key [] := by
  intro name
  simp

theorem Files.mem_find {index : Index α} {key : α → String} {items : List α}
    (files : index.Files key items) (name : String) (item : α) :
    item ∈ index.find name ↔ item ∈ items ∧ key item = name := by
  rw [(files name).mem_iff, List.mem_filter, beq_iff_eq]

theorem Files.file {index : Index α} {key : α → String} {items : List α}
    (files : index.Files key items) (item : α) :
    (index.file (key item) item).Files key (items ++ [item]) := by
  intro name
  rw [find_file, List.filter_append]
  by_cases same : key item = name
  · simpa [same] using (files name).append_right [item]
  · simpa [same] using files name

theorem Files.fileNew [DecidableEq α] {index : Index α} {key : α → String} {items : List α}
    (files : index.Files key items) {item : α} (absent : item ∉ items) :
    (index.fileNew (key item) item).Files key (items ++ [item]) := by
  intro name
  have unfiled : item ∉ index.find (key item) :=
    fun filed => absent ((files.mem_find _ item).mp filed).1
  rw [find_fileNew index _ name item unfiled, List.filter_append]
  by_cases same : key item = name
  · simpa [same] using (files name).append_right [item]
  · simpa [same] using files name

theorem Files.drop [DecidableEq α] {index : Index α} {key : α → String} {items : List α}
    (files : index.Files key items) (distinct : items.Nodup) (item : α) :
    (index.drop (key item) item).Files key (items.filter (· ≠ item)) := by
  intro name
  rw [find_drop, List.filter_filter]
  by_cases same : key item = name
  · rw [if_pos same]
    refine ((files name).erase item).trans (List.Perm.of_eq ?_)
    rw [List.Nodup.erase_eq_filter (List.Pairwise.filter _ distinct), List.filter_filter]
    apply List.filter_congr
    intro other _
    by_cases taken : other = item <;> simp [taken]
  · rw [if_neg same]
    refine (files name).trans (List.Perm.of_eq ?_)
    apply List.filter_congr
    intro other _
    by_cases named : key other = name
    · have different : other ≠ item := fun eq => same (eq ▸ named)
      simp [named, different]
    · simp [named]

end Index

end CodeFacts

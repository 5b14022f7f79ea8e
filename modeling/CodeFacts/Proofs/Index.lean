import CodeFacts.Index
import Mathlib.Data.List.Nodup
import Mathlib.Data.List.Sort
import Mathlib.Data.String.Basic

/-!
Indexes that only grow. Their keys come in strict order, and they are those under which something
stands.
-/

namespace CodeFacts

/-- Lists in strict order that have the same members are the same. -/
theorem eq_of_strict {left right : List String} (left_strict : left.Pairwise (· < ·))
    (right_strict : right.Pairwise (· < ·)) (same : ∀ text, text ∈ left ↔ text ∈ right) :
    left = right := by
  have once {texts : List String} (strict : texts.Pairwise (· < ·)) : texts.Nodup :=
    strict.imp fun before => ne_of_lt before
  have perm := (List.perm_ext_iff_of_nodup (once left_strict) (once right_strict)).mpr same
  exact perm.eq_of_pairwise (fun _ _ _ _ before after => absurd after (lt_asymm before))
    left_strict right_strict

namespace Index

variable {α : Type}

theorem keys_strict (index : Index α) : index.keys.Pairwise (· < ·) := by
  have ordered : index.keys.Pairwise fun left right => compare left right = .lt :=
    Std.TreeMap.ordered_keys
  exact ordered.imp fun before => compareOfLessAndEq_eq_lt.mp before

theorem size_eq (index : Index α) : index.size = index.keys.length :=
  Std.TreeMap.length_keys.symm

theorem mem_keys_of_mem_find {index : Index α} {key : String} {item : α}
    (filed : item ∈ index.find key) : key ∈ index.keys := by
  by_contra absent
  have missing : key ∉ index.entries := mt Std.TreeMap.mem_keys.mpr absent
  rw [find, Std.TreeMap.getD_eq_fallback missing] at filed
  cases filed

theorem mem_keys_file {index : Index α} {key other : String} {item : α} :
    other ∈ (index.file key item).keys ↔ other = key ∨ other ∈ index.keys := by
  rw [keys, keys, Std.TreeMap.mem_keys, Std.TreeMap.mem_keys, file, Std.TreeMap.mem_insert,
    Std.LawfulEqCmp.compare_eq_iff_eq, eq_comm]

/-- Whether something stands under every key. -/
def Filled (index : Index α) : Prop := ∀ key ∈ index.keys, index.find key ≠ []

theorem filled_empty : (empty : Index α).Filled := by
  intro key member
  rw [keys, Std.TreeMap.mem_keys] at member
  exact absurd member Std.TreeMap.not_mem_emptyc

theorem Filled.mem_keys {index : Index α} (filled : index.Filled) {key : String} :
    key ∈ index.keys ↔ ∃ item, item ∈ index.find key := by
  constructor
  · intro member
    exact List.exists_mem_of_ne_nil _ (filled key member)
  · rintro ⟨item, filed⟩
    exact mem_keys_of_mem_find filed

variable [DecidableEq α]

theorem mem_find_fileNew {index : Index α} {key other : String} {item found : α} :
    found ∈ (index.fileNew key item).find other ↔
      found ∈ index.find other ∨ other = key ∧ found = item := by
  by_cases filed : item ∈ index.find key
  · rw [fileNew, if_pos filed]
    refine (or_iff_left_of_imp ?_).symm
    rintro ⟨rfl, rfl⟩
    exact filed
  · rw [find_fileNew index key other item filed]
    by_cases same : key = other
    · subst same
      simp
    · simp [same, Ne.symm same]

theorem fileNew_of_mem {index : Index α} {key : String} {item : α}
    (filed : item ∈ index.find key) : index.fileNew key item = index :=
  if_pos filed

theorem Filled.fileNew {index : Index α} (filled : index.Filled) (key : String) (item : α) :
    (index.fileNew key item).Filled := by
  intro other member
  by_cases filed : item ∈ index.find key
  · rw [fileNew_of_mem filed] at member ⊢
    exact filled other member
  · rw [Index.fileNew, if_neg filed, mem_keys_file] at member
    rw [find_fileNew index key other item filed]
    rcases member with rfl | member
    · simp
    · have some_item := filled other member
      split <;> simp [some_item]

end Index

end CodeFacts

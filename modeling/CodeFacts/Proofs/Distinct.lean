import Mathlib.Data.List.Induction
import Mathlib.Data.List.Nodup
import Mathlib.Data.List.Sort
import Mathlib.Data.String.Basic

/-!
Lists with each of their items kept once, where it comes first.
-/

namespace CodeFacts

variable {α : Type} [BEq α] [LawfulBEq α]

theorem eraseDups_concat (items : List α) (last : α) :
    (items ++ [last]).eraseDups =
      if last ∈ items then items.eraseDups else items.eraseDups ++ [last] := by
  rw [List.eraseDups_append]
  by_cases member : last ∈ items
  · simp [member, List.removeAll]
  · simp [member, List.removeAll, List.eraseDups_cons]

theorem nodup_eraseDups (items : List α) : items.eraseDups.Nodup := by
  induction items using List.reverseRecOn with
  | nil => exact List.nodup_nil
  | append_singleton front last ih =>
      rw [eraseDups_concat]
      by_cases member : last ∈ front
      · rwa [if_pos member]
      · rw [if_neg member]
        have fresh : last ∉ front.eraseDups := mt List.mem_eraseDups.mp member
        exact List.nodup_append.mpr ⟨ih, List.nodup_singleton last, by
          rintro item kept other only rfl
          exact fresh (List.mem_singleton.mp only ▸ kept)⟩

theorem eraseDups_of_nodup {items : List α} (distinct : items.Nodup) :
    items.eraseDups = items := by
  induction items using List.reverseRecOn with
  | nil => rfl
  | append_singleton front last ih =>
      obtain ⟨front_distinct, _, apart⟩ := List.nodup_append.mp distinct
      have fresh : last ∉ front := fun member => apart last member last (List.mem_singleton_self _) rfl
      rw [eraseDups_concat, if_neg fresh, ih front_distinct]

theorem eraseDups_map {β : Type} [BEq β] [LawfulBEq β] {next : α → β}
    (apart : Function.Injective next) (items : List α) :
    (items.map next).eraseDups = items.eraseDups.map next := by
  induction items using List.reverseRecOn with
  | nil => rfl
  | append_singleton front last ih =>
      rw [List.map_append, List.map_singleton, eraseDups_concat, eraseDups_concat, ih]
      simp only [List.mem_map_of_injective apart]
      split
      · rfl
      · rw [List.map_append, List.map_singleton]

/-- What comes first may as well be without repeats. -/
theorem eraseDups_eraseDups_append (items more : List α) :
    (items.eraseDups ++ more).eraseDups = (items ++ more).eraseDups := by
  induction more using List.reverseRecOn with
  | nil => rw [List.append_nil, List.append_nil, eraseDups_of_nodup (nodup_eraseDups items)]
  | append_singleton front last ih =>
      rw [← List.append_assoc, ← List.append_assoc, eraseDups_concat, eraseDups_concat, ih]
      simp only [List.mem_append, List.mem_eraseDups]

/-- Texts sorted and kept once are strictly ordered. -/
theorem sortedOnce_strict (texts : List String) :
    (texts.eraseDups.mergeSort fun left right => decide (left ≤ right)).Pairwise (· < ·) := by
  have ordered := List.pairwise_mergeSort' (· ≤ ·) texts.eraseDups
  have once := (List.mergeSort_perm texts.eraseDups fun left right => decide (left ≤ right)).symm.nodup
    (nodup_eraseDups texts)
  exact (ordered.and once).imp fun both => lt_of_le_of_ne both.1 both.2

end CodeFacts

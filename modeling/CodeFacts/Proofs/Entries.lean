import CodeFacts.Entries
import CodeFacts.Proofs.Distinct

/-!
Looking up values under names. A name put again has the value put last, and a grouped name has
every value it came with.
-/

namespace CodeFacts.Entries

variable {α : Type}

theorem get?_isSome_iff {entries : List (String × α)} {name : String} :
    (get? entries name).isSome = true ↔ name ∈ entries.map (·.1) := by
  simp only [get?, Option.isSome_map, List.find?_isSome, beq_iff_eq, List.mem_map]

theorem any_iff {entries : List (String × α)} {name : String} :
    entries.any (·.1 == name) = true ↔ name ∈ entries.map (·.1) := by
  simp only [List.any_eq_true, beq_iff_eq, List.mem_map]

theorem get?_eq_some_iff {entries : List (String × α)} (once : (entries.map (·.1)).Nodup)
    {name : String} {value : α} : get? entries name = some value ↔ (name, value) ∈ entries := by
  induction entries with
  | nil => simp [get?]
  | cons entry rest ih =>
      rw [List.map_cons, List.nodup_cons] at once
      by_cases same : entry.1 = name
      · have absent : (name, value) ∉ rest := by
          intro member
          exact once.1 (same ▸ List.mem_map_of_mem member)
        subst same
        simp only [get?, List.find?_cons_of_pos, BEq.rfl, Option.map_some, Option.some.injEq,
          List.mem_cons, absent, or_false, Prod.ext_iff, true_and]
        exact eq_comm
      · have other : (name, value) ≠ entry := by
          rintro rfl
          exact same rfl
        rw [List.mem_cons, or_iff_right other, ← ih once.2]
        simp [get?, same]

theorem keys_put (entries : List (String × α)) (name : String) (value : α) :
    (put entries name value).map (·.1) =
      if name ∈ entries.map (·.1) then entries.map (·.1) else entries.map (·.1) ++ [name] := by
  by_cases present : name ∈ entries.map (·.1)
  · rw [put, if_pos (any_iff.mpr present), if_pos present, List.map_map]
    apply List.map_congr_left
    intro entry _
    by_cases same : entry.1 = name <;> simp [same]
  · rw [put, if_neg (mt any_iff.mp present), if_neg present, List.map_append]
    rfl

theorem get?_replaced (entries : List (String × α)) (name other : String) (value : α) :
    get? (entries.map fun entry => if entry.1 == name then (name, value) else entry) other =
      if name = other then (get? entries other).map fun _ => value else get? entries other := by
  induction entries with
  | nil => simp [get?]
  | cons entry rest ih =>
      by_cases put : entry.1 = name <;> by_cases sought : name = other
      · simp [get?, put, sought]
      · simpa [get?, put, sought] using ih
      · have passed : entry.1 ≠ other := sought ▸ put
        simpa [get?, put, sought, passed] using ih
      · by_cases found : entry.1 = other
        · simp [get?, found, sought, Ne.symm sought]
        · simpa [get?, put, found, sought] using ih

theorem get?_put (entries : List (String × α)) (name other : String) (value : α) :
    get? (put entries name value) other =
      if name = other then some value else get? entries other := by
  by_cases present : entries.any (·.1 == name) = true
  · rw [put, if_pos present, get?_replaced]
    by_cases sought : name = other
    · have found : (get? entries name).isSome = true := by
        rw [get?_isSome_iff, ← any_iff]
        exact present
      obtain ⟨old, held⟩ := Option.isSome_iff_exists.mp found
      subst sought
      simp [held]
    · rw [if_neg sought, if_neg sought]
  · rw [put, if_neg present, get?_append]
    by_cases sought : name = other
    · have absent : get? entries name = none := by
        rw [any_iff, ← get?_isSome_iff] at present
        simpa using present
      subst sought
      rw [absent]
      simp [get?]
    · simp [get?, sought]

theorem ofList_concat (entries : List (String × α)) (last : String × α) :
    ofList (entries ++ [last]) = put (ofList entries) last.1 last.2 := by
  simp [ofList]

theorem once_ofList (entries : List (String × α)) : ((ofList entries).map (·.1)).Nodup := by
  induction entries using List.reverseRecOn with
  | nil => exact List.nodup_nil
  | append_singleton front last ih =>
      rw [ofList_concat, keys_put]
      by_cases present : last.1 ∈ (ofList front).map (·.1)
      · rwa [if_pos present]
      · rw [if_neg present, ← List.concat_eq_append]
        exact ih.concat present

theorem get?_ofList (entries : List (String × α)) (name : String) :
    get? (ofList entries) name =
      (entries.filter (·.1 == name)).getLast?.map (·.2) := by
  induction entries using List.reverseRecOn with
  | nil => rfl
  | append_singleton front last ih =>
      rw [ofList_concat, get?_put, ih, List.filter_append]
      by_cases same : last.1 = name <;> simp [same]

theorem keys_grouped (entries : List (String × α)) :
    (grouped entries).map (·.1) = (entries.map (·.1)).eraseDups := by
  rw [grouped, List.map_map]
  exact List.map_id _

theorem once_grouped (entries : List (String × α)) : ((grouped entries).map (·.1)).Nodup := by
  rw [keys_grouped]
  exact nodup_eraseDups _

theorem get?_grouped (entries : List (String × α)) (name : String) :
    (get? (grouped entries) name).getD [] = (entries.filter (·.1 == name)).map (·.2) := by
  cases found : get? (grouped entries) name with
  | some values =>
      have member := (get?_eq_some_iff (once_grouped entries)).mp found
      obtain ⟨key, _, same⟩ := List.mem_map.mp member
      obtain ⟨rfl, rfl⟩ := Prod.mk.inj same
      rfl
  | none =>
      have absent : name ∉ (grouped entries).map (·.1) := by
        rw [← get?_isSome_iff, found]
        simp
      rw [keys_grouped, List.mem_eraseDups] at absent
      have nothing : entries.filter (·.1 == name) = [] := by
        rw [List.filter_eq_nil_iff]
        intro entry member same
        exact absent (beq_iff_eq.mp same ▸ List.mem_map_of_mem member)
      rw [nothing]
      rfl

end CodeFacts.Entries

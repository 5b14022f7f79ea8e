import CodeFacts.Proofs.Identifier

/-!
Names whose only marks are dots. Their segments can be names of fragments.
-/

namespace CodeFacts

theorem Text.mem_of_mem_joinWith {mark c : Char} {parts : List (List Char)}
    (inside : c ∈ joinWith mark parts) : c = mark ∨ ∃ part ∈ parts, c ∈ part := by
  induction parts with
  | nil => cases inside
  | cons part rest ih =>
      cases rest with
      | nil => exact .inr ⟨part, List.mem_cons_self, inside⟩
      | cons next more =>
          rw [joinWith] at inside
          rcases List.mem_append.mp inside with here | behind
          · exact .inr ⟨part, List.mem_cons_self, here⟩
          · rcases List.mem_cons.mp behind with same | later
            · exact .inl same
            · rcases ih later with same | ⟨other, member, held⟩
              · exact .inl same
              · exact .inr ⟨other, List.mem_cons_of_mem part member, held⟩

theorem Text.cutLast_append_mark {mark : Char} (before : List Char) {after : List Char}
    (absent : mark ∉ after) : cutLast mark (before ++ mark :: after) = some (before, after) := by
  induction before with
  | nil =>
      rw [List.nil_append, cutLast, cutLast_eq_none_iff.mpr absent]
      simp
  | cons c rest ih => rw [List.cons_append, cutLast, ih]

namespace Dotted

/-- Whether a name holds no mark of an identifier but dots. -/
def Unmarked (name : String) : Prop := ':' ∉ name.toList ∧ '#' ∉ name.toList

instance (name : String) : Decidable (Unmarked name) :=
  inferInstanceAs (Decidable (':' ∉ name.toList ∧ '#' ∉ name.toList))

variable {name : String}

theorem Unmarked.part {part : String} (unmarked : Unmarked name)
    (within : ∀ c ∈ part.toList, c ∈ name.toList) : Unmarked part :=
  ⟨fun colon => unmarked.1 (within ':' colon), fun hash => unmarked.2 (within '#' hash)⟩

theorem Unmarked.plain (unmarked : Unmarked name) (undotted : '.' ∉ name.toList) :
    reservedMark? name = none :=
  (reservedMark?_eq_none_iff name).mpr ⟨undotted, unmarked.1, unmarked.2⟩

theorem Unmarked.segment {segment : String} (unmarked : Unmarked name)
    (member : segment ∈ segments name) : Unmarked segment :=
  unmarked.part fun _ inside => mem_of_mem_segments member inside

theorem Unmarked.segment_plain {segment : String} (unmarked : Unmarked name)
    (member : segment ∈ segments name) : reservedMark? segment = none :=
  (unmarked.segment member).plain (segment_undotted member)

theorem Unmarked.outer (unmarked : Unmarked name) : Unmarked (outer name) := by
  refine unmarked.part fun c inside => ?_
  unfold Dotted.outer at inside
  cases found : Text.cutLast '.' name.toList with
  | none =>
      rw [found] at inside
      cases inside
  | some parts =>
      rw [found] at inside
      rw [(Text.eq_of_cutLast found).1]
      exact List.mem_append_left _ (by simpa using inside)

theorem Unmarked.simple_plain (unmarked : Unmarked name) : reservedMark? (simple name) = none := by
  unfold simple
  cases found : Text.cutLast '.' name.toList with
  | none => exact unmarked.plain (Text.cutLast_eq_none_iff.mp found)
  | some parts =>
      obtain ⟨whole, undotted⟩ := Text.eq_of_cutLast found
      have last : Unmarked (String.ofList parts.2) := by
        refine unmarked.part fun c inside => ?_
        rw [String.toList_ofList] at inside
        rw [whole]
        exact List.mem_append_right _ (List.mem_cons_of_mem _ inside)
      exact last.plain (by rwa [String.toList_ofList])

theorem unmarked_join {segments : List String} (each : ∀ segment ∈ segments, Unmarked segment) :
    Unmarked (join segments) := by
  have absent (mark : Char) (other : mark ≠ '.')
      (missing : ∀ segment ∈ segments, mark ∉ segment.toList) :
      mark ∉ (join segments).toList := by
    intro inside
    rw [join, String.toList_ofList] at inside
    rcases Text.mem_of_mem_joinWith inside with same | ⟨part, member, held⟩
    · exact other same
    · obtain ⟨segment, listed, rfl⟩ := List.mem_map.mp member
      exact missing segment listed held
  exact ⟨absent ':' (by decide) fun segment member => (each segment member).1,
    absent '#' (by decide) fun segment member => (each segment member).2⟩

/-! What a name is made of. -/

theorem segments_within (outer name : String) :
    segments (outer ++ "." ++ name) = segments outer ++ segments name := by
  have whole : (outer ++ "." ++ name).toList = outer.toList ++ '.' :: name.toList := by simp
  rw [segments, whole, Text.splitOn_append, List.map_append]
  rfl

theorem simple_mem_segments (name : String) : simple name ∈ segments name := by
  unfold simple segments
  cases found : Text.cutLast '.' name.toList with
  | none =>
      rw [Text.splitOn_eq_singleton (Text.cutLast_eq_none_iff.mp found)]
      simp
  | some parts =>
      obtain ⟨whole, undotted⟩ := Text.eq_of_cutLast found
      rw [whole, Text.splitOn_append, Text.splitOn_eq_singleton undotted]
      simp

/-- Whether a name is made of filled segments without marks. -/
def Proper (name : String) : Prop := "" ∉ segments name ∧ Unmarked name

instance (name : String) : Decidable (Proper name) :=
  inferInstanceAs (Decidable ("" ∉ segments name ∧ Unmarked name))

theorem Proper.filled {segment : String} (proper : Proper name)
    (member : segment ∈ segments name) : segment ≠ "" :=
  fun empty => proper.1 (empty ▸ member)

theorem Proper.ne_empty (proper : Proper name) : name ≠ "" := by
  rintro rfl
  exact proper.1 (by decide)

/-! Names in their owner. -/

variable {owner : String}

theorem cutLast_within (filled : owner ≠ "") (undotted : '.' ∉ name.toList) :
    Text.cutLast '.' (within owner name).toList = some (owner.toList, name.toList) := by
  have text : (within owner name).toList = owner.toList ++ '.' :: name.toList := by
    rw [within, if_neg filled]
    simp
  rw [text, Text.cutLast_append_mark _ undotted]

theorem simple_within (undotted : '.' ∉ name.toList) : simple (within owner name) = name := by
  by_cases empty : owner = ""
  · rw [within, if_pos empty, simple, Text.cutLast_eq_none_iff.mpr undotted]
  · rw [simple, cutLast_within empty undotted]
    exact String.ofList_toList

theorem outer_within (undotted : '.' ∉ name.toList) : outer (within owner name) = owner := by
  by_cases empty : owner = ""
  · rw [within, if_pos empty, outer, Text.cutLast_eq_none_iff.mpr undotted, empty]
  · rw [outer, cutLast_within empty undotted]
    exact String.ofList_toList

end Dotted

end CodeFacts

import CodeFacts.Text.Split

/-!
Dotted names: segments with dots between them. The last segment is the simple name and what stands
before it the outer name; a name without a dot has the empty outer name.
-/

namespace CodeFacts.Dotted

/-- What stands before the last dot of a name. -/
def outer (name : String) : String :=
  match Text.cutLast '.' name.toList with
  | some (before, _) => String.ofList before
  | none => ""

/-- What stands after the last dot of a name. -/
def simple (name : String) : String :=
  match Text.cutLast '.' name.toList with
  | some (_, after) => String.ofList after
  | none => name

def segments (name : String) : List String :=
  (Text.splitOn '.' name.toList).map String.ofList

def join (segments : List String) : String :=
  String.ofList (Text.joinWith '.' (segments.map String.toList))

/-- A name inside an outer one; the empty outer name adds nothing. -/
def within (outer name : String) : String :=
  if outer = "" then name else outer ++ "." ++ name

/-- What a name has after an outer one and the dot, if it is a name inside it. -/
def inside? (outer name : String) : Option String :=
  let start := (outer ++ ".").toList
  if start.isPrefixOf name.toList then some (String.ofList (name.toList.drop start.length))
  else none

theorem segments_ne_nil (name : String) : segments name ≠ [] := by
  simp [segments, Text.splitOn_ne_nil]

theorem segment_undotted {name segment : String} (member : segment ∈ segments name) :
    '.' ∉ segment.toList := by
  obtain ⟨part, held, rfl⟩ := List.mem_map.mp member
  rw [String.toList_ofList]
  exact Text.not_mem_of_mem_splitOn held

theorem mem_of_mem_segments {name segment : String} {c : Char} (member : segment ∈ segments name)
    (inside : c ∈ segment.toList) : c ∈ name.toList := by
  obtain ⟨part, held, rfl⟩ := List.mem_map.mp member
  rw [String.toList_ofList] at inside
  exact Text.mem_of_mem_splitOn held inside

theorem segments_eq_of_filled {name : String} (filled : "" ∉ segments name) :
    segments name = (if outer name = "" then [] else segments (outer name)) ++ [simple name] := by
  unfold outer simple
  cases found : Text.cutLast '.' name.toList with
  | none =>
      have undotted := Text.splitOn_eq_singleton (Text.cutLast_eq_none_iff.mp found)
      simp [segments, undotted]
  | some parts =>
      obtain ⟨before, after⟩ := parts
      obtain ⟨whole, absent⟩ := Text.eq_of_cutLast found
      have split : segments name = segments (String.ofList before) ++ [String.ofList after] := by
        simp [segments, whole, Text.splitOn_append, Text.splitOn_eq_singleton absent]
      have outer_filled : String.ofList before ≠ "" := by
        intro empty
        apply filled
        rw [split, empty]
        simp [segments, Text.splitOn]
      dsimp only
      rw [if_neg outer_filled, split]

theorem join_append {first second : List String} (some_first : first ≠ [])
    (some_second : second ≠ []) : join (first ++ second) = join first ++ "." ++ join second := by
  unfold join
  rw [List.map_append,
    Text.joinWith_append (by simpa using some_first) (by simpa using some_second)]
  apply String.toList_injective
  simp

theorem eq_of_inside? {outer name rest : String} (found : inside? outer name = some rest) :
    name = outer ++ "." ++ rest := by
  simp only [inside?] at found
  split at found
  case isTrue starts =>
    obtain ⟨after, same⟩ := List.isPrefixOf_iff_prefix.mp starts
    rw [← Option.some.inj found, ← same, List.drop_left]
    apply String.toList_injective
    rw [← same]
    simp
  case isFalse => cases found

@[simp] theorem join_segments (name : String) : join (segments name) = name := by
  simp [join, segments, Function.comp_def]

end CodeFacts.Dotted

import CodeFacts.Identifier

/-!
The text of an identifier is read back as the identifier. Where a qualifier is left out, the reader
carries the one the writer left it out for.
-/

namespace CodeFacts

theorem reservedMark?_eq_none_iff (text : String) :
    reservedMark? text = none ↔ '.' ∉ text.toList ∧ ':' ∉ text.toList ∧ '#' ∉ text.toList := by
  simp [reservedMark?, reservedMarks]

theorem EntityKind.key_unmarked (kind : EntityKind) : reservedMark? kind.key = none := by
  cases kind <;> decide +kernel

theorem EntityKind.key_ne_empty (kind : EntityKind) : kind.key ≠ "" := by
  cases kind <;> decide +kernel

theorem EntityKind.key_plain (kind : EntityKind) :
    reservedMark? kind.key = none ∧ kind.key ≠ "" :=
  ⟨kind.key_unmarked, kind.key_ne_empty⟩

theorem Fragment.make_self (fragment : Fragment) :
    Fragment.make fragment.name fragment.qualifier = .ok fragment := by
  rw [make, dif_pos ⟨fragment.name_plain, fragment.qualifier_plain, fragment.qualifier_ne_empty⟩]

theorem Fragment.cut_text (fragment : Fragment) :
    Text.cut ':' (fragment.qualifier.toList ++ ':' :: fragment.name.toList) =
      some (fragment.qualifier.toList, fragment.name.toList) :=
  Text.cut_append_mark _ ((reservedMark?_eq_none_iff _).mp fragment.qualifier_plain).2.1

theorem Space.toList_eq (space : Space) :
    ∃ start, space.text.toList = start ++ ['#'] ∧ '#' ∉ start := by
  have closed := space.closed
  unfold isSpace at closed
  split at closed
  · rename_i start found
    exact ⟨start, Text.eq_of_cut found⟩
  · cases closed

namespace Identifier

theorem readSections_sectionTexts (whole : String) (current : Option String)
    (fragments : List Fragment) :
    readSections whole current (sectionTexts current fragments) = .ok fragments := by
  induction fragments generalizing current with
  | nil => rfl
  | cons fragment rest ih =>
      have name := (reservedMark?_eq_none_iff _).mp fragment.name_plain
      have made := fragment.make_self
      unfold sectionTexts
      by_cases left_out : current = some fragment.qualifier
      · have uncut := Text.cut_eq_none_iff.mpr name.2.1
        simp only [left_out, if_true, readSections, uncut, String.ofList_toList, made]
        exact congrArg (Except.map (fragment :: ·)) (ih (some fragment.qualifier))
      · have found := fragment.cut_text
        simp only [left_out, if_false, readSections, found, String.ofList_toList, made]
        exact congrArg (Except.map (fragment :: ·)) (ih (some fragment.qualifier))

theorem sectionTexts_undotted (current : Option String) (fragments : List Fragment) :
    ∀ part ∈ sectionTexts current fragments, '.' ∉ part := by
  induction fragments generalizing current with
  | nil => simp [sectionTexts]
  | cons fragment rest ih =>
      have name := (reservedMark?_eq_none_iff _).mp fragment.name_plain
      have qualifier := (reservedMark?_eq_none_iff _).mp fragment.qualifier_plain
      intro part member
      unfold sectionTexts at member
      rcases List.mem_cons.mp member with rfl | later
      · split
        · exact name.1
        · simp [name.1, qualifier.1]
      · exact ih _ part later

/-- The text after the space of an identifier. -/
def path (id : Identifier) : List Char := Text.joinWith '.' (sectionTexts none id.fragments)

theorem toList_text (id : Identifier) : id.text.toList = id.space.text.toList ++ id.path := by
  simp [text, path]

/-- A path with fragments begins with the qualifier of the first and a colon. -/
theorem path_cons (space : Space) (first : Fragment) (rest : List Fragment) :
    ∃ more, path ⟨space, first :: rest⟩ = first.qualifier.toList ++ ':' :: more := by
  unfold path sectionTexts
  cases sections : sectionTexts (some first.qualifier) rest with
  | nil => exact ⟨first.name.toList, by simp [Text.joinWith]⟩
  | cons next parts =>
      exact ⟨first.name.toList ++ '.' :: Text.joinWith '.' (next :: parts),
        by simp [Text.joinWith]⟩

theorem readLocal_path (whole : String) (id : Identifier) :
    readLocal whole id.space id.path = .ok id := by
  obtain ⟨space, fragments⟩ := id
  cases fragments with
  | nil => rfl
  | cons first rest =>
      obtain ⟨more, begins⟩ := path_cons space first rest
      have filled : path ⟨space, first :: rest⟩ ≠ [] := by
        rw [begins]
        simp
      have parts : Text.splitOn '.' (path ⟨space, first :: rest⟩) =
          sectionTexts none (first :: rest) :=
        Text.splitOn_joinWith (by simp [sectionTexts]) (sectionTexts_undotted none _)
      rw [readLocal, if_neg filled, parts, readSections_sectionTexts]
      rfl

theorem read_text (id : Identifier) : read id.text = .ok id := by
  obtain ⟨start, ends, absent⟩ := id.space.toList_eq
  have whole : id.text.toList = start ++ '#' :: id.path := by
    rw [toList_text, ends, List.append_assoc]
    rfl
  have found : Text.cut '#' id.text.toList = some (start, id.path) := by
    rw [whole]
    exact Text.cut_append_mark id.path absent
  have same (absent : '#' ∉ start) : Space.before start absent = id.space := by
    rw [Space.before, Space.mk.injEq, ← ends, String.ofList_toList]
  unfold read
  split
  · rename_i before after cut
    rw [found] at cut
    obtain ⟨rfl, rfl⟩ := Prod.mk.inj (Option.some.inj cut)
    rw [same]
    exact readLocal_path id.text id
  · rename_i cut
    rw [found] at cut
    cases cut

theorem text_injective {left right : Identifier} (same : left.text = right.text) :
    left = right := by
  have read := read_text left
  rw [same, read_text right] at read
  exact (Except.ok.inj read).symm

/-- Every identifier is read back from its text, whatever its space and however empty the names of
its fragments, so two have one text just if they have the same space and the same fragments. -/
theorem text_round_trip :
    (∀ id : Identifier, read id.text = .ok id) ∧
      ∀ left right : Identifier, left.text = right.text ↔
        left.space.text = right.space.text ∧ left.fragments = right.fragments := by
  refine ⟨read_text, fun left right => ⟨?_, ?_⟩⟩
  · intro same
    rw [text_injective same]
    exact ⟨rfl, rfl⟩
  · obtain ⟨⟨space, closed⟩, fragments⟩ := left
    rintro ⟨rfl, rfl⟩
    rfl

/-! What a child adds at the end. -/

theorem strongestQualifier_push (id : Identifier) (fragment : Fragment) :
    (id.push fragment).strongestQualifier = .ok fragment.qualifier := by
  simp [strongestQualifier, push]

theorem push_injective {outer other : Identifier} {fragment last : Fragment}
    (same : outer.push fragment = other.push last) : outer = other ∧ fragment = last := by
  cases outer
  cases other
  simpa [push, and_assoc] using same

theorem push_of_child {outer id : Identifier} {name qualifier : String}
    (child : outer.child name qualifier = .ok id) :
    ∃ fragment, id = outer.push fragment ∧ fragment.name = name ∧
      fragment.qualifier = qualifier := by
  unfold Identifier.child Fragment.make at child
  split at child
  · exact ⟨_, (Except.ok.inj child).symm, rfl, rfl⟩
  · cases child

theorem strongest_of_child {outer id : Identifier} {name qualifier : String}
    (child : outer.child name qualifier = .ok id) : id.strongestQualifier = .ok qualifier := by
  obtain ⟨fragment, rfl, _, rfl⟩ := push_of_child child
  exact strongestQualifier_push outer fragment

theorem child_of_values {outer id : Identifier} {name : Value} {qualifier : String}
    (child : outer.childOfValues name (.text qualifier) = .ok id) :
    ∃ given, outer.child given qualifier = .ok id := by
  cases name with
  | text given => exact ⟨given, child⟩
  | _ => cases child

theorem size_of_child {outer id : Identifier} {name qualifier : String}
    (child : outer.child name qualifier = .ok id) : 0 < id.size := by
  obtain ⟨fragment, rfl, _⟩ := push_of_child child
  rw [size_push]
  exact Nat.succ_pos _

theorem child_plain (outer : Identifier) {name : String} (kind : EntityKind)
    (plain : reservedMark? name = none) :
    ∃ id, outer.child name kind.key = .ok id ∧ id.strongestQualifier = .ok kind.key := by
  have valid := And.intro plain kind.key_plain
  refine ⟨outer.push ⟨name, kind.key, valid.1, valid.2.1, valid.2.2⟩, ?_, ?_⟩
  · rw [child, Fragment.make, dif_pos valid]
    rfl
  · exact strongestQualifier_push outer _

end Identifier

end CodeFacts

/-!
Cutting a text at a mark and joining the parts again. Joining what was split gives the text back,
and splitting what was joined gives the parts back when none of them holds the mark.
-/

namespace CodeFacts.Text

/-- The parts of a text between the occurrences of a mark; there is always at least one. -/
def splitOn (mark : Char) : List Char → List (List Char)
  | [] => [[]]
  | c :: rest =>
      if c = mark then [] :: splitOn mark rest
      else
        match splitOn mark rest with
        | part :: parts => (c :: part) :: parts
        | [] => [[c]]

/-- Parts written one after the other with a mark between them. -/
def joinWith (mark : Char) : List (List Char) → List Char
  | [] => []
  | [part] => part
  | part :: next :: parts => part ++ mark :: joinWith mark (next :: parts)

/-- What stands before and after the first occurrence of a mark. -/
def cut (mark : Char) : List Char → Option (List Char × List Char)
  | [] => none
  | c :: rest =>
      if c = mark then some ([], rest)
      else (cut mark rest).map fun (before, after) => (c :: before, after)

/-- What stands before and after the last occurrence of a mark. -/
def cutLast (mark : Char) : List Char → Option (List Char × List Char)
  | [] => none
  | c :: rest =>
      match cutLast mark rest with
      | some (before, after) => some (c :: before, after)
      | none => if c = mark then some ([], rest) else none

theorem splitOn_ne_nil (mark : Char) (text : List Char) : splitOn mark text ≠ [] := by
  cases text with
  | nil => simp [splitOn]
  | cons c rest =>
      unfold splitOn
      split
      · simp
      · split <;> simp

@[simp] theorem joinWith_splitOn (mark : Char) (text : List Char) :
    joinWith mark (splitOn mark text) = text := by
  induction text with
  | nil => rfl
  | cons c rest ih =>
      unfold splitOn
      split
      case isTrue same =>
        cases parts : splitOn mark rest with
        | nil => exact absurd parts (splitOn_ne_nil mark rest)
        | cons part more =>
            rw [parts] at ih
            rw [joinWith, ih, same, List.nil_append]
      case isFalse =>
        cases parts : splitOn mark rest with
        | nil => exact absurd parts (splitOn_ne_nil mark rest)
        | cons part more => cases more <;> simp_all [joinWith]

theorem joinWith_append {mark : Char} {first second : List (List Char)} (some_first : first ≠ [])
    (some_second : second ≠ []) :
    joinWith mark (first ++ second) = joinWith mark first ++ mark :: joinWith mark second := by
  induction first with
  | nil => exact absurd rfl some_first
  | cons part parts ih =>
      cases parts with
      | nil =>
          cases second with
          | nil => exact absurd rfl some_second
          | cons next rest => rfl
      | cons next rest =>
          have later := ih (List.cons_ne_nil next rest)
          rw [List.cons_append] at later
          rw [List.cons_append, List.cons_append, joinWith, joinWith, later, List.append_assoc,
            List.cons_append]

theorem splitOn_eq_singleton {mark : Char} {text : List Char} (absent : mark ∉ text) :
    splitOn mark text = [text] := by
  induction text with
  | nil => rfl
  | cons c rest ih =>
      have other : c ≠ mark := fun same => absent (by simp [same])
      simp [splitOn, other, ih fun member => absent (List.mem_cons_of_mem c member)]

theorem splitOn_append_mark {mark : Char} {part : List Char} (rest : List Char)
    (absent : mark ∉ part) :
    splitOn mark (part ++ mark :: rest) = part :: splitOn mark rest := by
  induction part with
  | nil => simp [splitOn]
  | cons c part ih =>
      have other : c ≠ mark := fun same => absent (by simp [same])
      simp [splitOn, other, ih fun member => absent (List.mem_cons_of_mem c member)]

theorem splitOn_part_append {mark : Char} {part text first : List Char}
    {rest : List (List Char)} (absent : mark ∉ part) (parts : splitOn mark text = first :: rest) :
    splitOn mark (part ++ text) = (part ++ first) :: rest := by
  induction part with
  | nil => exact parts
  | cons c part ih =>
      have other : c ≠ mark := fun same => absent (by simp [same])
      simp [splitOn, other, ih fun member => absent (List.mem_cons_of_mem c member)]

theorem splitOn_append (mark : Char) (before after : List Char) :
    splitOn mark (before ++ mark :: after) = splitOn mark before ++ splitOn mark after := by
  induction before with
  | nil => simp [splitOn]
  | cons c rest ih =>
      simp only [List.cons_append, splitOn, ih]
      split
      case isTrue => rfl
      case isFalse =>
        cases parts : splitOn mark rest with
        | nil => exact absurd parts (splitOn_ne_nil mark rest)
        | cons part more => rfl

theorem not_mem_of_mem_splitOn {mark : Char} {text part : List Char}
    (member : part ∈ splitOn mark text) : mark ∉ part := by
  induction text generalizing part with
  | nil => simp_all [splitOn]
  | cons c rest ih =>
      unfold splitOn at member
      split at member
      case isTrue =>
        rcases List.mem_cons.mp member with rfl | later
        · exact List.not_mem_nil
        · exact ih later
      case isFalse other =>
        cases parts : splitOn mark rest with
        | nil => exact absurd parts (splitOn_ne_nil mark rest)
        | cons first more =>
            rw [parts] at member ih
            rcases List.mem_cons.mp member with rfl | later
            · have absent := ih List.mem_cons_self
              simp [absent, Ne.symm other]
            · exact ih (List.mem_cons_of_mem first later)

theorem mem_of_mem_splitOn {mark c : Char} {text part : List Char}
    (member : part ∈ splitOn mark text) (inside : c ∈ part) : c ∈ text := by
  induction text generalizing part with
  | nil => simp_all [splitOn]
  | cons first rest ih =>
      unfold splitOn at member
      split at member
      case isTrue =>
        rcases List.mem_cons.mp member with rfl | later
        · cases inside
        · exact List.mem_cons_of_mem first (ih later inside)
      case isFalse =>
        cases parts : splitOn mark rest with
        | nil => exact absurd parts (splitOn_ne_nil mark rest)
        | cons next more =>
            rw [parts] at member ih
            rcases List.mem_cons.mp member with rfl | later
            · rcases List.mem_cons.mp inside with rfl | behind
              · exact List.mem_cons_self
              · exact List.mem_cons_of_mem first (ih List.mem_cons_self behind)
            · exact List.mem_cons_of_mem first (ih (List.mem_cons_of_mem next later) inside)

theorem splitOn_joinWith {mark : Char} {parts : List (List Char)} (some_part : parts ≠ [])
    (absent : ∀ part ∈ parts, mark ∉ part) :
    splitOn mark (joinWith mark parts) = parts := by
  induction parts with
  | nil => exact absurd rfl some_part
  | cons part parts ih =>
      cases parts with
      | nil => exact splitOn_eq_singleton (absent part (by simp))
      | cons next parts =>
          rw [joinWith, splitOn_append_mark _ (absent part (by simp)),
            ih (by simp) fun p member => absent p (List.mem_cons_of_mem part member)]

theorem cut_eq_none_iff {mark : Char} {text : List Char} : cut mark text = none ↔ mark ∉ text := by
  induction text with
  | nil => simp [cut]
  | cons c rest ih =>
      unfold cut
      split
      case isTrue same => simp [same]
      case isFalse other => simp [ih, Ne.symm other]

theorem eq_of_cut {mark : Char} {text before after : List Char}
    (found : cut mark text = some (before, after)) :
    text = before ++ mark :: after ∧ mark ∉ before := by
  induction text generalizing before with
  | nil => simp [cut] at found
  | cons c rest ih =>
      unfold cut at found
      split at found
      case isTrue same => simp_all
      case isFalse other =>
        obtain ⟨⟨b, a⟩, inner, eq⟩ := Option.map_eq_some_iff.1 found
        obtain ⟨rfl, rfl⟩ := Prod.mk.inj eq
        obtain ⟨text_eq, absent⟩ := ih inner
        exact ⟨by simp [text_eq], by simp [absent, Ne.symm other]⟩

theorem cut_append_mark {mark : Char} {before : List Char} (after : List Char)
    (absent : mark ∉ before) : cut mark (before ++ mark :: after) = some (before, after) := by
  induction before with
  | nil => simp [cut]
  | cons c before ih =>
      have other : c ≠ mark := fun same => absent (by simp [same])
      simp [cut, other, ih fun member => absent (List.mem_cons_of_mem c member)]

theorem cutLast_eq_none_iff {mark : Char} {text : List Char} :
    cutLast mark text = none ↔ mark ∉ text := by
  induction text with
  | nil => simp [cutLast]
  | cons c rest ih =>
      unfold cutLast
      split
      case h_1 found => simp_all
      case h_2 missing =>
        have absent := ih.1 missing
        by_cases same : c = mark
        · simp [same]
        · simp [same, absent, Ne.symm same]

theorem eq_of_cutLast {mark : Char} {text before after : List Char}
    (found : cutLast mark text = some (before, after)) :
    text = before ++ mark :: after ∧ mark ∉ after := by
  induction text generalizing before with
  | nil => simp [cutLast] at found
  | cons c rest ih =>
      unfold cutLast at found
      split at found
      case h_1 b a inner =>
        obtain ⟨rfl, rfl⟩ := Prod.mk.inj (Option.some.inj found)
        obtain ⟨text_eq, absent⟩ := ih inner
        exact ⟨by simp [text_eq], absent⟩
      case h_2 missing =>
        split at found
        · obtain ⟨rfl, rfl⟩ := Prod.mk.inj (Option.some.inj found)
          simp_all [cutLast_eq_none_iff]
        · exact absurd found (by simp)

end CodeFacts.Text

import CodeFacts.DocComment
import CodeFacts.Proofs.Entries
import CodeFacts.Proofs.Text.Blank

/-!
Documented parameters. A parameter is called by what its value has before the first space, which is
the first word of the value unless another blank ends that word.
-/

namespace CodeFacts.DocEntry

open Text

/-- A stripped value up to the first character that ends a name, and the rest. -/
def cutAt (ends : Char → Bool) (value : String) : String × String :=
  (String.ofList ((strip value.toList).takeWhile fun c => !ends c),
    String.ofList (strip ((strip value.toList).dropWhile fun c => !ends c)))

/-- What is found under the names of values: each name of a value that is not blank, once, with the
description of the last value that has it. -/
structure Documents (split : String → String × String) (values : List String)
    (found : List (String × String)) : Prop where
  once : (found.map (·.1)).Nodup
  names : ∀ name, name ∈ found.map (·.1) ↔
    ∃ value ∈ values, isBlankText value = false ∧ (split value).1 = name
  last : ∀ name description, (name, description) ∈ found →
    ∃ value, (values.filter fun value => (split value).1 == name && !isBlankText value).getLast? =
      some value ∧ (split value).2 = description

/-- The first word of a value is ended by a space, if it does not end the value. -/
def Spaced (value : String) : Prop :=
  ∀ c ∈ ((strip value.toList).dropWhile fun c => !isBlank c).head?, c = ' '

theorem strip_eq_nil_iff (value : String) :
    strip value.toList = [] ↔ isBlankText value = true := by
  have back : strip value.toList = [] ↔ dropBlanks value.toList = [] := by
    constructor
    · intro empty
      have ends : (dropBlanks value.toList).rdropWhile isBlank = [] := empty
      rw [List.rdropWhile_eq_nil_iff] at ends
      cases left : dropBlanks value.toList with
      | nil => rfl
      | cons c rest =>
          have dark := dropBlanks_start value.toList c (by rw [left]; rfl)
          rw [left] at ends
          rw [ends c List.mem_cons_self] at dark
          cases dark
    · intro empty
      rw [strip, empty]
      rfl
  rw [back, dropBlanks, List.dropWhile_eq_nil_iff, isBlankText, List.all_eq_true]

theorem name_eq_empty_iff {ends : Char → Bool} (blank : ∀ c, ends c = true → isBlank c = true)
    (value : String) : (cutAt ends value).1 = "" ↔ isBlankText value = true := by
  rw [← strip_eq_nil_iff]
  have start := (trimmed_strip value.toList).start
  cases left : strip value.toList with
  | nil => simp [cutAt, left]
  | cons c rest =>
      rw [left] at start
      have goes : ends c = false := by
        by_contra stops
        have dark := start c rfl
        rw [blank c (by simpa using stops)] at dark
        cases dark
      simp [cutAt, left, goes]

theorem parameter_eq (value : String) : parameter value = cutAt (· == ' ') value := by
  unfold parameter cutAt
  cases found : cut ' ' (strip value.toList) with
  | none =>
      have absent := cut_eq_none_iff.mp found
      have goes : ∀ c ∈ strip value.toList, (!c == ' ') = true := by
        intro c member
        have other : c ≠ ' ' := fun same => absent (same ▸ member)
        simp [other]
      rw [List.takeWhile_eq_self_iff.mpr goes, List.dropWhile_eq_nil_iff.mpr goes]
      rfl
  | some parts =>
      obtain ⟨name, rest⟩ := parts
      obtain ⟨whole, absent⟩ := eq_of_cut found
      have goes : ∀ c ∈ name, (!c == ' ') = true := by
        intro c member
        have other : c ≠ ' ' := fun same => absent (same ▸ member)
        simp [other]
      rw [whole, List.takeWhile_append_of_pos goes, List.dropWhile_append_of_pos goes]
      simp [strip_cons_blank (show isBlank ' ' = true by decide)]

theorem documents_ofList {split : String → String × String}
    (unnamed : ∀ value, (split value).1 = "" ↔ isBlankText value = true) (values : List String) :
    Documents split values (Entries.ofList ((values.map split).filter (·.1 != ""))) := by
  have kept : (values.map split).filter (·.1 != "") =
      (values.filter fun value => !isBlankText value).map split := by
    rw [List.filter_map]
    congr 1
    apply List.filter_congr
    intro value _
    have same := unnamed value
    by_cases blank : isBlankText value = true
    · simp [blank, same.mpr blank]
    · simp [blank, mt same.mp blank]
  have sought (name : String) :
      Entries.get? (Entries.ofList ((values.map split).filter (·.1 != ""))) name =
        (values.filter fun value => (split value).1 == name && !isBlankText value).getLast?.map
          fun value => (split value).2 := by
    rw [Entries.get?_ofList, kept, List.filter_map, List.filter_filter, List.getLast?_map,
      Option.map_map]
    rfl
  have once := Entries.once_ofList ((values.map split).filter (·.1 != ""))
  refine ⟨once, ?_, ?_⟩
  · intro name
    rw [← Entries.get?_isSome_iff, sought, Option.isSome_map]
    simp [and_comm]
  · intro name description member
    rw [← Entries.get?_eq_some_iff once, sought] at member
    exact Option.map_eq_some_iff.mp member

/-! A name up to a space is the first word or goes on behind it. -/

theorem first_word (text : List Char) :
    ∃ word rest, text = word ++ rest ∧
      text.takeWhile (fun c => !isBlank c) = word ∧ text.dropWhile (fun c => !isBlank c) = rest ∧
      (∀ c ∈ word, isBlank c = false) ∧ ∀ c ∈ rest.head?, isBlank c = true := by
  refine ⟨_, _, List.takeWhile_append_dropWhile.symm, rfl, rfl, ?_, ?_⟩
  · intro c member
    simpa using List.mem_takeWhile_imp member
  · intro c first
    have ends := List.head?_dropWhile_not (fun c => !isBlank c) text
    rw [Option.mem_def] at first
    simpa [first] using ends

theorem unspaced_of_dark {word : List Char} (dark : ∀ c ∈ word, isBlank c = false) :
    ∀ c ∈ word, (!c == ' ') = true := by
  intro c member
  have other : c ≠ ' ' := by
    rintro rfl
    cases dark ' ' member
  simp [other]

theorem cutAt_of_spaced {value : String} (spaced : Spaced value) :
    cutAt (· == ' ') value = cutAt isBlank value := by
  obtain ⟨word, rest, whole, taken, left, dark, _⟩ := first_word (strip value.toList)
  have goes := unspaced_of_dark dark
  rw [Spaced, left] at spaced
  rw [cutAt, cutAt, taken, left, whole, List.takeWhile_append_of_pos goes,
    List.dropWhile_append_of_pos goes]
  cases rest with
  | nil => simp
  | cons c more =>
      obtain rfl : c = ' ' := spaced c rfl
      simp

theorem blank_of_unspaced {value : String} (unspaced : ¬Spaced value) :
    ∃ c ∈ (cutAt (· == ' ') value).1.toList, isBlank c = true := by
  obtain ⟨word, rest, whole, _, left, dark, blank⟩ := first_word (strip value.toList)
  have goes := unspaced_of_dark dark
  rw [Spaced, left] at unspaced
  cases rest with
  | nil => exact absurd (by simp) unspaced
  | cons c more =>
      have other : c ≠ ' ' := fun same => unspaced (by simp [same])
      refine ⟨c, ?_, blank c rfl⟩
      rw [cutAt, String.toList_ofList, whole, List.takeWhile_append_of_pos goes]
      simp [other]

theorem dark_of_word (value : String) :
    ∀ c ∈ (cutAt isBlank value).1.toList, isBlank c = false := by
  obtain ⟨word, rest, _, taken, _, dark, _⟩ := first_word (strip value.toList)
  rw [cutAt, String.toList_ofList, taken]
  exact dark

/-- The parameters are documented under what their values have before the first space. That is the
first word of each value just where a space ends every first word. -/
theorem parameters_by_word_iff (entry : DocEntry) :
    Documents (cutAt (· == ' ')) (entry.tag parameterTag) entry.parameters ∧
    (Documents (cutAt isBlank) (entry.tag parameterTag) entry.parameters ↔
      ∀ value ∈ entry.tag parameterTag, Spaced value) := by
  have space : ∀ c, (c == ' ') = true → isBlank c = true := by
    intro c same
    rw [beq_iff_eq.mp same]
    decide
  have parts : (entry.tag parameterTag).map parameter =
      (entry.tag parameterTag).map (cutAt (· == ' ')) :=
    List.map_congr_left fun value _ => parameter_eq value
  have spaces : Documents (cutAt (· == ' ')) (entry.tag parameterTag) entry.parameters := by
    rw [parameters, parts]
    exact documents_ofList (name_eq_empty_iff space) _
  refine ⟨spaces, ?_, ?_⟩
  · intro words value member
    by_contra unspaced
    -- A name with a blank in it is no word, so that the values have no word that is this name.
    obtain ⟨c, inside, blank⟩ := blank_of_unspaced unspaced
    have dark : isBlankText value = false := by
      by_contra empty
      have none := (name_eq_empty_iff space value).mpr (by simpa using empty)
      rw [none] at inside
      cases inside
    have named := (spaces.names _).mpr ⟨value, member, dark, rfl⟩
    obtain ⟨other, _, _, same⟩ := (words.names _).mp named
    have black := dark_of_word other c (same ▸ inside)
    rw [blank] at black
    cases black
  · intro spaced
    have same : (entry.tag parameterTag).map (cutAt (· == ' ')) =
        (entry.tag parameterTag).map (cutAt isBlank) :=
      List.map_congr_left fun value member => cutAt_of_spaced (spaced value member)
    rw [parameters, parts, same]
    exact documents_ofList (name_eq_empty_iff fun _ => id) _

theorem tabbedParameter_misnamed :
    ∃ entry, DocComment.read? "/** @param\tx\tthe x */" 0 0 = some entry ∧
      entry.parameters = [("x\tthe", "x")] ∧
      ¬Documents (cutAt isBlank) (entry.tag parameterTag) entry.parameters := by
  refine ⟨⟨"", "", [("@param", ["x\tthe x"])], 0, 0⟩, by decide +kernel, by decide +kernel, ?_⟩
  intro words
  have named : "x" ∈ [("x\tthe", "x")].map Prod.fst :=
    (words.names "x").mpr ⟨"x\tthe x", by decide +kernel, by decide +kernel, by decide +kernel⟩
  revert named
  decide

end CodeFacts.DocEntry

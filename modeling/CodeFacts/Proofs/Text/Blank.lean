import CodeFacts.Text.Blank
import CodeFacts.Text.Split
import Mathlib.Data.List.DropRight

/-!
Texts without their blanks. Stripping a text takes nothing else away, and neither does writing
several lines as one.
-/

namespace CodeFacts.Text

def solid (text : List Char) : List Char := text.filter fun c => !isBlank c

@[simp] theorem solid_append (first second : List Char) :
    solid (first ++ second) = solid first ++ solid second :=
  List.filter_append first second

theorem solid_cons_blank {c : Char} (blank : isBlank c = true) (rest : List Char) :
    solid (c :: rest) = solid rest := by
  simp [solid, blank]

@[simp] theorem solid_space (rest : List Char) : solid (' ' :: rest) = solid rest :=
  solid_cons_blank (by decide) rest

@[simp] theorem solid_dropBlanks (text : List Char) : solid (dropBlanks text) = solid text := by
  induction text with
  | nil => rfl
  | cons c rest ih =>
      by_cases blank : isBlank c = true
      · rw [solid_cons_blank blank, ← ih]
        simp [dropBlanks, blank]
      · simp [dropBlanks, blank]

@[simp] theorem solid_reverse (text : List Char) : solid text.reverse = (solid text).reverse :=
  List.filter_reverse

@[simp] theorem solid_strip (text : List Char) : solid (strip text) = solid text := by
  have back : solid (dropBlanks (dropBlanks text).reverse) = (solid text).reverse := by simp
  rw [strip, solid_reverse]
  exact List.reverse_eq_iff.mpr back

theorem strip_cons_blank {c : Char} (blank : isBlank c = true) (rest : List Char) :
    strip (c :: rest) = strip rest := by
  simp [strip, dropBlanks, blank]

/-- Lines written as one: those that hold something, with a space between them. -/
def oneLine (lines : List (List Char)) : List Char :=
  joinWith ' ' (lines.filter fun line => line ≠ [])

theorem solid_joinWith (lines : List (List Char)) :
    solid (joinWith ' ' lines) = solid lines.flatten := by
  induction lines with
  | nil => rfl
  | cons line rest ih =>
      cases rest with
      | nil => simp [joinWith]
      | cons next more =>
          rw [joinWith, solid_append, solid_space, ih]
          simp

@[simp] theorem solid_oneLine (lines : List (List Char)) :
    solid (oneLine lines) = solid lines.flatten := by
  rw [oneLine, solid_joinWith]
  congr 1
  induction lines with
  | nil => rfl
  | cons line rest ih =>
      by_cases empty : line = []
      · simpa [empty] using ih
      · simpa [empty] using ih

theorem oneLine_cons_empty (lines : List (List Char)) : oneLine ([] :: lines) = oneLine lines := by
  simp [oneLine]

theorem oneLine_cons_cons {first second : List Char} (some_first : first ≠ [])
    (some_second : second ≠ []) (lines : List (List Char)) :
    oneLine (first :: second :: lines) = oneLine ((first ++ ' ' :: second) :: lines) := by
  have joined : first ++ ' ' :: second ≠ [] := by simp
  simp only [oneLine, List.filter_cons, ne_eq, some_first, some_second, joined, not_false_eq_true,
    decide_true, if_true, joinWith]
  cases lines.filter fun line => decide ¬line = [] with
  | nil => simp [joinWith]
  | cons third rest => simp [joinWith]

/-! A text is trimmed if it neither starts nor ends with a blank. -/

structure Trimmed (text : List Char) : Prop where
  start : ∀ c ∈ text.head?, isBlank c = false
  stop : ∀ c ∈ text.getLast?, isBlank c = false

theorem dropBlanks_start (text : List Char) : ∀ c ∈ (dropBlanks text).head?, isBlank c = false := by
  intro c first
  have failed := List.head?_dropWhile_not isBlank text
  rw [dropBlanks, Option.mem_def] at first
  simpa [first] using failed

theorem stop_of_suffix {text whole : List Char} (suffix : text <:+ whole)
    (stop : ∀ c ∈ whole.getLast?, isBlank c = false) : ∀ c ∈ text.getLast?, isBlank c = false := by
  obtain ⟨front, rfl⟩ := suffix
  intro c last
  apply stop
  rw [List.getLast?_append]
  simp [Option.mem_def.mp last]

theorem trimmed_strip (text : List Char) : Trimmed (strip text) where
  start := by
    intro c first
    have starts : strip text <+: dropBlanks text :=
      List.rdropWhile_prefix isBlank (l := dropBlanks text)
    obtain ⟨back, whole⟩ := starts
    apply dropBlanks_start text
    rw [← whole, List.head?_append]
    simp [Option.mem_def.mp first]
  stop := by
    intro c last
    apply dropBlanks_start (dropBlanks text).reverse
    simpa [strip, dropBlanks] using last

theorem Trimmed.strip_eq {text : List Char} (trimmed : Trimmed text) : strip text = text := by
  cases text with
  | nil => rfl
  | cons c rest =>
      have kept : dropBlanks (c :: rest) = c :: rest := by
        simp [dropBlanks, trimmed.start c rfl]
      rw [strip, kept]
      have back : (c :: rest).rdropWhile isBlank = c :: rest := by
        rw [List.rdropWhile_eq_self_iff]
        intro some_char blank
        have last := trimmed.stop _ (List.getLast?_eq_some_getLast some_char)
        rw [last] at blank
        cases blank
      exact back

theorem Trimmed.join {first second : List Char} (trimmed : Trimmed first)
    (next : Trimmed second) (some_first : first ≠ []) (some_second : second ≠ []) :
    Trimmed (first ++ ' ' :: second) where
  start := by
    intro c head
    apply trimmed.start
    cases first with
    | nil => exact absurd rfl some_first
    | cons d rest => exact head
  stop := by
    intro c last
    apply next.stop
    obtain ⟨d, rest, rfl⟩ := List.exists_cons_of_ne_nil some_second
    rw [List.getLast?_append, List.getLast?_cons_cons] at last
    have found : ((d :: rest).getLast?).isSome := by simp
    rwa [Option.or_of_isSome found] at last

theorem Trimmed.behind {whole text : List Char} (trimmed : Trimmed whole)
    (suffix : text <:+ whole) : Trimmed (dropBlanks text) where
  start := dropBlanks_start text
  stop := stop_of_suffix ((List.dropWhile_suffix isBlank).trans suffix) trimmed.stop

end CodeFacts.Text

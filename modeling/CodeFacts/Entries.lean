/-!
Values kept under names, in the order the names first came.
-/

namespace CodeFacts.Entries

variable {α : Type}

def get? (entries : List (String × α)) (name : String) : Option α :=
  (entries.find? fun entry => entry.1 == name).map (·.2)

/-- A value put under a name, in place of the one that is there. -/
def put (entries : List (String × α)) (name : String) (value : α) : List (String × α) :=
  if entries.any (·.1 == name) then
    entries.map fun entry => if entry.1 == name then (name, value) else entry
  else entries ++ [(name, value)]

/-- A value put under a name that has none yet. -/
def putNew (entries : List (String × α)) (name : String) (value : α) : List (String × α) :=
  if entries.any (·.1 == name) then entries else entries ++ [(name, value)]

/-- Entries with each name once; of two values the later counts. -/
def ofList (entries : List (String × α)) : List (String × α) :=
  entries.foldl (fun entries entry => put entries entry.1 entry.2) []

/-- The values of each name, in their order. -/
def grouped (entries : List (String × α)) : List (String × List α) :=
  (entries.map (·.1)).eraseDups.map fun name =>
    (name, (entries.filter (·.1 == name)).map (·.2))

theorem get?_eq_none_iff {entries : List (String × α)} {name : String} :
    get? entries name = none ↔ ∀ entry ∈ entries, entry.1 ≠ name := by
  simp [get?]

theorem get?_append (entries more : List (String × α)) (name : String) :
    get? (entries ++ more) name = (get? entries name).or (get? more name) := by
  unfold get?
  rw [List.find?_append]
  cases entries.find? fun entry => entry.1 == name <;> rfl

theorem get?_putNew (entries : List (String × α)) (name other : String) (value : α) :
    get? (putNew entries name value) other =
      (get? entries other).or (if name = other then some value else none) := by
  unfold putNew
  split
  case isTrue present =>
    by_cases same : name = other
    · subst same
      cases found : get? entries name with
      | some _ => rfl
      | none =>
          have absent := get?_eq_none_iff.mp found
          simp only [List.any_eq_true, beq_iff_eq] at present
          obtain ⟨entry, member, named⟩ := present
          exact absurd named (absent entry member)
    · simp [same]
  case isFalse =>
    rw [get?_append]
    by_cases same : name = other <;> simp [get?, same]

end CodeFacts.Entries

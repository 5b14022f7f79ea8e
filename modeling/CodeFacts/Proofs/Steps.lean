import Mathlib.Data.List.Forall2

/-!
Steps that may be refused, one after the other and along a list.
-/

namespace CodeFacts.Steps

variable {ε α β : Type}

theorem bind_ok_iff {first : Except ε α} {next : α → Except ε β} {result : β} :
    first >>= next = .ok result ↔ ∃ value, first = .ok value ∧ next value = .ok result := by
  cases first with
  | error fault => simp [bind, Except.bind]
  | ok value => simp [bind, Except.bind]

theorem pure_ok_iff {value result : α} :
    (pure value : Except ε α) = .ok result ↔ value = result := by
  simp [pure, Except.pure]

theorem map_ok_iff {first : Except ε α} {next : α → β} {result : β} :
    first.map next = .ok result ↔ ∃ value, first = .ok value ∧ next value = result := by
  cases first with
  | error fault => simp [Except.map]
  | ok value => simp [Except.map]

theorem ok_of_toOption {outcome : Except ε α} {result : α}
    (given : outcome.toOption = some result) : outcome = .ok result := by
  cases outcome with
  | error fault => cases given
  | ok value => exact congrArg Except.ok (Option.some.inj given)

theorem bind_passes {first : Except ε α} {next : α → Except ε β}
    (passed : ∃ value, first = .ok value)
    (later : ∀ value, first = .ok value → ∃ result, next value = .ok result) :
    ∃ result, first >>= next = .ok result := by
  obtain ⟨value, passed⟩ := passed
  obtain ⟨result, reached⟩ := later value passed
  exact ⟨result, bind_ok_iff.mpr ⟨value, passed, reached⟩⟩

theorem mapM_ok_iff {step : α → Except ε β} {items : List α} {results : List β} :
    items.mapM step = .ok results ↔
      List.Forall₂ (fun item result => step item = .ok result) items results := by
  induction items generalizing results with
  | nil =>
      rw [List.mapM_nil, pure_ok_iff, List.forall₂_nil_left_iff]
      exact eq_comm
  | cons item rest ih =>
      simp only [List.mapM_cons, bind_ok_iff, pure_ok_iff, ih, List.forall₂_cons_left_iff]
      constructor
      · rintro ⟨result, first, others, later, rfl⟩
        exact ⟨result, others, first, later, rfl⟩
      · rintro ⟨result, others, first, later, rfl⟩
        exact ⟨result, first, others, later, rfl⟩

theorem mapM_passes {step : α → Except ε β} (items : List α)
    (each : ∀ item ∈ items, ∃ result, step item = .ok result) :
    ∃ results, items.mapM step = .ok results := by
  induction items with
  | nil => exact ⟨[], rfl⟩
  | cons item rest ih =>
      rw [List.mapM_cons]
      refine bind_passes (each item List.mem_cons_self) fun result _ => ?_
      have later := ih fun other member => each other (List.mem_cons_of_mem item member)
      exact bind_passes later fun results _ => ⟨result :: results, rfl⟩

theorem mem_of_mapM_ok {step : α → Except ε β} {items : List α} {results : List β} {result : β}
    (stepped : items.mapM step = .ok results) (member : result ∈ results) :
    ∃ item ∈ items, step item = .ok result := by
  have stepwise := mapM_ok_iff.mp stepped
  clear stepped
  induction stepwise with
  | nil => cases member
  | @cons item first items others stepped _ ih =>
      rcases List.mem_cons.mp member with rfl | later
      · exact ⟨item, List.mem_cons_self, stepped⟩
      · obtain ⟨source, held, made⟩ := ih later
        exact ⟨source, List.mem_cons_of_mem item held, made⟩

/-! Why steps are refused. -/

/-- Whether every refusal of something is of one sort. -/
def Only (sort : ε → Prop) (first : Except ε α) : Prop := ∀ fault, first = .error fault → sort fault

variable {sort other : ε → Prop}

theorem only_ok (value : α) : Only sort (.ok value) := by
  intro fault refused
  cases refused

theorem only_error {fault : ε} (allowed : sort fault) : Only sort (.error fault : Except ε α) := by
  rintro _ ⟨rfl⟩
  exact allowed

theorem Only.mono {first : Except ε α} (only : Only sort first)
    (wider : ∀ fault, sort fault → other fault) : Only other first :=
  fun fault refused => wider fault (only fault refused)

theorem Only.bind {first : Except ε α} {next : α → Except ε β} (only : Only sort first)
    (later : ∀ value, Only sort (next value)) : Only sort (first >>= next) := by
  cases first with
  | ok value => exact later value
  | error fault => exact only_error (only fault rfl)

theorem Only.map {first : Except ε α} (only : Only sort first) (next : α → β) :
    Only sort (first.map next) :=
  only.bind fun value => only_ok (next value)

theorem only_mapM {step : α → Except ε β} (items : List α)
    (each : ∀ item, Only sort (step item)) : Only sort (items.mapM step) := by
  induction items with
  | nil => exact only_ok _
  | cons item rest ih =>
      rw [List.mapM_cons]
      refine (each item).bind fun result => ?_
      exact ih.bind fun results => only_ok _

end CodeFacts.Steps

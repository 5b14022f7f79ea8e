import CodeFacts.Ontology.Profile
import CodeFacts.Proofs.Builder.Outcome

/-!
A run does not depend on the runs before it. A builder that is idle goes on as one that is new, over
the same model: all that it still keeps of its last run is the depth of a unit that is no longer
open, and nothing reads it before the next unit sets it.
-/

namespace CodeFacts.Builder

variable {σ : Type} [TripleStore σ]

/-- A builder with another depth kept for its unit. -/
def atDepth (builder : Builder σ) (depth : Nat) : Builder σ := { builder with unitDepth := depth }

section

variable (builder : Builder σ) (depth : Nat)

omit [TripleStore σ]

@[simp] theorem atDepth_phase : (builder.atDepth depth).phase = builder.phase := rfl

@[simp] theorem atDepth_unit : (builder.atDepth depth).unit = builder.unit := rfl

end

/-- Builders that can differ only in the depth of a unit that is not open. -/
inductive Alike (builder : Builder σ) : Builder σ → Prop
  | same : Alike builder builder
  | deeper (depth : Nat) (no_unit : builder.unit = none) : Alike builder (builder.atDepth depth)

section Depth

variable {builder : Builder σ} (depth : Nat) (no_unit : builder.unit = none)
include no_unit

/-- Where no unit is open, its depth has no say in any reply, and only a call that begins a unit
sets it. -/
theorem handle_atDepth {call : Call} (other : ∀ name, call ≠ .startUnit name) :
    (builder.atDepth depth).handle call =
      ((builder.handle call).1, (builder.handle call).2.atDepth depth) := by
  show (builder.along id fun _ => depth).handle call =
    ((builder.handle call).1, (builder.handle call).2.along id fun _ => depth)
  exact handle_along builder.model.follows_id (.inr ⟨no_unit, other⟩) (.inl trivial)

theorem unit_handle {call : Call} (other : ∀ name, call ≠ .startUnit name) :
    (builder.handle call).2.unit = none := by
  have outcome := outcome_handle builder call
  generalize builder.handle call = result at outcome
  cases outcome with
  | beginsUnit name told => exact absurd told (other name)
  | begins => rfl
  | endsUnit => rfl
  | _ => exact no_unit

end Depth

/-! Two builders that are alike stay so, and reply alike. -/

theorem Alike.handle {left right : Builder σ} (alike : left.Alike right) (call : Call) :
    (left.handle call).1 = (right.handle call).1 ∧
      (left.handle call).2.Alike (right.handle call).2 := by
  cases alike with
  | same => exact ⟨rfl, .same⟩
  | deeper depth no_unit =>
      by_cases begins : ∃ name, call = .startUnit name
      · obtain ⟨name, rfl⟩ := begins
        simp only [Builder.handle, startUnit, atDepth_phase, atDepth_unit, no_unit]
        cases left.phase with
        | idle => exact ⟨rfl, .deeper depth no_unit⟩
        | parsing => exact ⟨rfl, .same⟩
      · have other : ∀ name, call ≠ .startUnit name := fun name told => begins ⟨name, told⟩
        rw [handle_atDepth depth no_unit other]
        exact ⟨rfl, .deeper depth (unit_handle no_unit other)⟩

theorem Alike.run (calls : List Call) {left right : Builder σ} (alike : left.Alike right) :
    (Handler.trace left calls).map Prod.fst = (Handler.trace right calls).map Prod.fst ∧
      (Handler.after left calls).Alike (Handler.after right calls) := by
  induction calls generalizing left right with
  | nil => exact ⟨rfl, alike⟩
  | cons call rest ih =>
      obtain ⟨replies, next⟩ := alike.handle call
      obtain ⟨later, last⟩ := ih next
      exact ⟨congrArg₂ List.cons replies later, last⟩

omit [TripleStore σ] in
theorem Alike.leaves {left right : Builder σ} (alike : left.Alike right) :
    left.model = right.model ∧ left.unresolved = right.unresolved ∧ left.errors = right.errors := by
  cases alike <;> exact ⟨rfl, rfl, rfl⟩

/-- The start of a run puts an idle builder where it puts a new one, up to the depth of the last
unit. -/
theorem alike_begins {used : Builder σ} (idle : used.phase = .idle)
    (space : used.path.space = Space.model) (library location : Value) :
    let fresh := start used.model used.date
    (fresh.startParsing library location).1 = (used.startParsing library location).1 ∧
      ((used.startParsing library location).1.isAccepted = true →
        (fresh.startParsing library location).2.Alike (used.startParsing library location).2) := by
  intro fresh
  have emptied : (⟨used.path.space, []⟩ : Identifier) = .empty := by
    rw [space]
    rfl
  unfold startParsing
  rw [idle, show fresh.phase = .idle from rfl,
    show fresh.newLibrary library location = used.newLibrary library location from rfl]
  cases used.newLibrary library location with
  | error fault => exact ⟨rfl, nofun⟩
  | ok named =>
      refine ⟨rfl, fun _ => ?_⟩
      simp only [emptied]
      exact .deeper used.unitDepth rfl

/-- Once a run starts, a builder that has had other runs and a new one over the same model reply
alike to all calls, and come to the same model with the same names and errors noted. -/
theorem runs_independent (model : Model σ) (date : String) (earlier : List Call)
    (idle : (Handler.after (start model date) earlier).phase = .idle)
    (library location : Value) :
    let used := Handler.after (start model date) earlier
    let fresh := start used.model date
    let opening := Call.startParsing library location
    (fresh.handle opening).1 = (used.handle opening).1 ∧
      ((used.handle opening).1.isAccepted = true → ∀ calls,
        let told := opening :: calls
        (Handler.trace fresh told).map Prod.fst = (Handler.trace used told).map Prod.fst ∧
          (Handler.after fresh told).model = (Handler.after used told).model ∧
          (Handler.after fresh told).unresolved = (Handler.after used told).unresolved ∧
          (Handler.after fresh told).errors = (Handler.after used told).errors) := by
  intro used fresh opening
  have space : used.path.space = Space.model := ((tracks_start model date).after earlier).space
  have dated : used.date = date := date_after earlier (start model date)
  obtain ⟨replies, begun⟩ := alike_begins idle space library location
  rw [dated] at replies begun
  refine ⟨replies, fun accepted calls => ?_⟩
  obtain ⟨traced, alike⟩ := (begun accepted).run calls
  exact ⟨congrArg₂ List.cons replies traced, alike.leaves⟩

/-- Rules for libraries and packages. -/
def packageRules : Ontology :=
  .ofRelations (Ontology.libraryRelations ++
    [⟨EntityKind.package.pattern, Predicate.subClassOf.uri, .resource EntityKind.package.uri⟩,
      Ontology.linkRule .package (.contains .package) .package])

/-- A run with a unit inside of a package, and another after it. -/
theorem unitBefore_independent :
    let model : Model PlainStore := ⟨packageRules, .empty, .empty⟩
    let earlier : List Call := [.startParsing (.text "lib") (.text "/lib"),
      .startPackage (.text "a"), .startUnit (.text "A.java"), .endUnit, .endPackage, .endParsing]
    let used := Handler.after (start model "2024-01-01") earlier
    let opening := Call.startParsing (.text "more") (.text "/more")
    used.phase = .idle ∧ used.unitDepth = 1 ∧ ∀ calls,
      (Handler.after (start used.model "2024-01-01") (opening :: calls)).model =
        (Handler.after used (opening :: calls)).model := by
  intro model earlier used opening
  have ended : used.phase = .idle ∧ used.unitDepth = 1 ∧
      (used.handle opening).1.isAccepted = true := by
    decide +kernel
  obtain ⟨idle, deep, accepted⟩ := ended
  refine ⟨idle, deep, fun calls => ?_⟩
  have independent := runs_independent model "2024-01-01" earlier idle (.text "more")
    (.text "/more")
  exact (independent.2 accepted calls).2.1

end CodeFacts.Builder

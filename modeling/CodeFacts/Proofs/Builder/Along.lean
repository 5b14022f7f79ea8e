import CodeFacts.Builder.Handle

/-!
A call takes from a builder its state and what its model answers. Along an image of the model in
which searches and additions go on as they do in the model, every call goes on as it does in the
original; so it does where another depth is kept for a unit that is not open.
-/

namespace CodeFacts

variable {σ τ : Type} [TripleStore σ] [TripleStore τ]

/-- Whether what a call asks of a model goes on in its image as it does in the model: searches,
additions that are accepted, and where it is said so those that are refused. -/
structure Model.Follows (model : Model σ) (image : Model σ → Model τ) (refused : Prop) : Prop where
  finds : ∀ pattern, TripleStore.search (image model).store pattern =
    TripleStore.search model.store pattern
  adds : ∀ writes, refused ∨ (model.writeAll writes).2.isOk = true →
    (image model).writeAll writes = (image (model.writeAll writes).1, (model.writeAll writes).2)

theorem Model.follows_id (model : Model σ) : model.Follows id True :=
  ⟨fun _ => rfl, fun _ _ => rfl⟩

namespace Builder

/-- A builder with the image of its model, and another depth kept for its unit. -/
def along (image : Model σ → Model τ) (deep : Nat → Nat) (builder : Builder σ) : Builder τ where
  model := image builder.model
  date := builder.date
  phase := builder.phase
  library := builder.library
  location := builder.location
  unit := builder.unit
  unitDepth := deep builder.unitDepth
  unresolved := builder.unresolved
  errors := builder.errors
  path := builder.path
  scopes := builder.scopes

section

variable (image : Model σ → Model τ) (deep : Nat → Nat) (builder : Builder σ)

omit [TripleStore σ] [TripleStore τ]

@[simp] theorem along_model : (builder.along image deep).model = image builder.model := rfl

@[simp] theorem along_phase : (builder.along image deep).phase = builder.phase := rfl

@[simp] theorem along_unit : (builder.along image deep).unit = builder.unit := rfl

@[simp] theorem along_unitDepth :
    (builder.along image deep).unitDepth = deep builder.unitDepth := rfl

@[simp] theorem along_path : (builder.along image deep).path = builder.path := rfl

@[simp] theorem along_scopes : (builder.along image deep).scopes = builder.scopes := rfl

@[simp] theorem along_depth : (builder.along image deep).depth = builder.depth := rfl

end

variable {image : Model σ → Model τ} {deep : Nat → Nat} {refused : Prop} {builder : Builder σ}

omit [TripleStore σ] [TripleStore τ] in
/-- Only containers closed inside of a unit are held against its depth. -/
theorem closeScope_along (kept : deep = id ∨ builder.unit = none) (kind : EntityKind) :
    (builder.along image deep).closeScope kind =
      ((builder.closeScope kind).1, (builder.closeScope kind).2.along image deep) := by
  unfold closeScope
  rw [along_phase, along_scopes, along_unit, along_unitDepth, along_depth]
  cases builder.phase with
  | idle => rfl
  | parsing =>
      cases builder.scopes with
      | nil => rfl
      | cons scope outer =>
          dsimp only
          split
          · rfl
          · cases open_unit : builder.unit with
            | none => rfl
            | some unit =>
                obtain rfl := kept.resolve_right (by simp [open_unit])
                dsimp only [id]
                split <;> rfl

omit [TripleStore σ] [TripleStore τ] in
theorem endUnit_along (kept : deep = id ∨ builder.unit = none) :
    (builder.along image deep).endUnit =
      (builder.endUnit.1, builder.endUnit.2.along image deep) := by
  unfold endUnit
  rw [along_phase, along_unit, along_unitDepth, along_depth]
  cases builder.phase with
  | idle => rfl
  | parsing =>
      cases open_unit : builder.unit with
      | none => rfl
      | some unit =>
          obtain rfl := kept.resolve_right (by simp [open_unit])
          dsimp only [id]
          split <;> rfl

omit [TripleStore σ] [TripleStore τ] in
theorem startUnit_along (kept : deep = id) (name : Value) :
    (builder.along image deep).startUnit name =
      ((builder.startUnit name).1, (builder.startUnit name).2.along image deep) := by
  subst kept
  unfold startUnit
  rw [along_phase, along_unit]
  cases builder.phase with
  | idle => rfl
  | parsing => cases builder.unit <;> rfl

variable (follows : builder.model.Follows image refused)
include follows

theorem startParsing_along (library location : Value) :
    (builder.along image deep).startParsing library location =
      ((builder.startParsing library location).1,
        (builder.startParsing library location).2.along image deep) := by
  have known (name : String) :
      (builder.along image deep).hasLibrary name = builder.hasLibrary name := by
    simp only [hasLibrary, along_model, follows.finds]
  have same : (builder.along image deep).newLibrary library location =
      builder.newLibrary library location := by
    simp only [newLibrary, known]
  unfold startParsing
  rw [same, along_phase]
  cases builder.phase with
  | parsing => rfl
  | idle => cases builder.newLibrary library location <;> rfl

theorem write_along {notices : List Notice} {writes : List Write}
    {after : Builder σ → Builder σ} {after' : Builder τ → Builder τ}
    (same : ∀ next, after' (next.along image deep) = (after next).along image deep)
    (fine : refused ∨ (builder.write notices writes after).1.isAccepted = true) :
    (builder.along image deep).write notices writes after' =
      ((builder.write notices writes after).1,
        (builder.write notices writes after).2.along image deep) := by
  have added := follows.adds writes
  unfold write at fine ⊢
  rw [along_model]
  cases written : builder.model.writeAll writes with
  | mk model outcome =>
      rw [written] at fine added
      cases outcome with
      | error fault => rw [added (.inl (fine.resolve_right nofun))]; rfl
      | ok unknown => simp only [added (.inr rfl), ← same]; rfl

theorem openScope_along {notices : List Notice} {kind : EntityKind} {segments : List String}
    {name : String} {writes : Identifier → List Write}
    (fine : refused ∨ (builder.openScope notices kind segments name writes).1.isAccepted = true) :
    (builder.along image deep).openScope notices kind segments name writes =
      ((builder.openScope notices kind segments name writes).1,
        (builder.openScope notices kind segments name writes).2.along image deep) := by
  unfold openScope at fine ⊢
  rw [along_path]
  generalize pushAll kind builder.path segments = pushed at fine ⊢
  obtain ⟨path, fault⟩ := pushed
  cases fault with
  | some fault => rfl
  | none => exact write_along follows (fun _ => rfl) fine

theorem openType_along {kind : EntityKind} {what : String} {name : Value}
    {writes : (container id : Identifier) → List Write}
    (fine : refused ∨ (builder.openType kind what name writes).1.isAccepted = true) :
    (builder.along image deep).openType kind what name writes =
      ((builder.openType kind what name writes).1,
        (builder.openType kind what name writes).2.along image deep) := by
  unfold openType at fine ⊢
  rw [along_phase, show (builder.along image deep).simpleName = builder.simpleName from rfl]
  cases running : builder.phase with
  | idle => rfl
  | parsing =>
      rw [running] at fine
      cases named : builder.simpleName name with
      | error fault => rfl
      | ok found =>
          rw [named] at fine
          exact openScope_along follows fine

theorem startPackage_along {name : Value}
    (fine : refused ∨ (builder.startPackage name).1.isAccepted = true) :
    (builder.along image deep).startPackage name =
      ((builder.startPackage name).1, (builder.startPackage name).2.along image deep) := by
  unfold startPackage at fine ⊢
  rw [along_phase, show (builder.along image deep).packageName = builder.packageName from rfl]
  cases running : builder.phase with
  | idle => rfl
  | parsing =>
      rw [running] at fine
      cases named : builder.packageName name with
      | error fault => rfl
      | ok found =>
          rw [named] at fine
          exact openScope_along follows fine

theorem declare_along {kind : EntityKind} {what : String} {kinds : List EntityKind}
    {named : Except Fault (String × List Notice)}
    {writes : (container id : Identifier) → List Write}
    (fine : refused ∨ (builder.declare kind what kinds named writes).1.isAccepted = true) :
    (builder.along image deep).declare kind what kinds named writes =
      ((builder.declare kind what kinds named writes).1,
        (builder.declare kind what kinds named writes).2.along image deep) := by
  unfold declare at fine ⊢
  rw [along_phase, along_scopes]
  cases running : builder.phase with
  | idle => rfl
  | parsing =>
      cases open_scope : builder.scopes with
      | nil => rfl
      | cons scope outer =>
          rw [running, open_scope] at fine
          dsimp only at fine ⊢
          by_cases outside : scope.kind ∉ kinds
          · rw [if_pos outside, if_pos outside]
            rfl
          · rw [if_neg outside] at fine
            rw [if_neg outside, if_neg outside]
            cases named with
            | error fault => rfl
            | ok found =>
                dsimp only at fine ⊢
                cases child : scope.identifier.child found.1 kind.key with
                | error fault => rfl
                | ok id =>
                    rw [child] at fine
                    exact write_along follows (fun _ => rfl) fine

theorem endParsing_along (fine : refused ∨ builder.endParsing.1.isAccepted = true) :
    (builder.along image deep).endParsing =
      (builder.endParsing.1, builder.endParsing.2.along image deep) := by
  unfold endParsing at fine ⊢
  rw [along_phase, along_unit, along_scopes]
  cases running : builder.phase with
  | idle => rfl
  | parsing =>
      cases open_unit : builder.unit with
      | some unit => rfl
      | none =>
          cases open_scope : builder.scopes with
          | cons scope outer => rfl
          | nil =>
              rw [running, open_unit, open_scope] at fine
              exact write_along follows (fun _ => rfl) fine

theorem handle_along {call : Call}
    (kept : deep = id ∨ builder.unit = none ∧ ∀ name, call ≠ .startUnit name)
    (fine : refused ∨ (builder.handle call).1.isAccepted = true) :
    (builder.along image deep).handle call =
      ((builder.handle call).1, (builder.handle call).2.along image deep) := by
  have level : deep = id ∨ builder.unit = none := kept.imp_right And.left
  cases call with
  | startParsing library location => exact startParsing_along follows library location
  | endParsing => exact endParsing_along follows fine
  | startUnit name =>
      exact startUnit_along (kept.resolve_right fun other => other.2 name rfl) name
  | endUnit => exact endUnit_along level
  | startPackage => exact startPackage_along follows fine
  | endPackage => exact closeScope_along level .package
  | startClass => exact openType_along follows fine
  | endClass => exact closeScope_along level .classType
  | startInterface => exact openType_along follows fine
  | endInterface => exact closeScope_along level .interface
  | startEnumeration => exact openType_along follows fine
  | endEnumeration => exact closeScope_along level .enumeration
  | «attribute» => exact declare_along follows fine
  | constructor => exact declare_along follows fine
  | method => exact declare_along follows fine
  | parseError => rfl
  | parsedEntry => rfl
  | classDoc => rfl
  | methodDoc entry path signature =>
      simp only [handle, noteMethodDoc]
      split <;> rfl

end Builder

end CodeFacts

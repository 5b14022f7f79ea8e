import CodeFacts.Proofs.Builder.Layers
import CodeFacts.Proofs.Builder.Reported
import CodeFacts.Proofs.Query.Answers

/-!
What is declared is known under its name as long as no outer part of the name is known as something
else. A type can take over the name of a package or of a type around what was declared, and what is
inside is then looked for in vain.
-/

namespace CodeFacts

/-- The fragment with another kind of entity for a qualifier. -/
def Fragment.as (fragment : Fragment) (kind : EntityKind) : Fragment where
  name := fragment.name
  qualifier := kind.key
  name_plain := fragment.name_plain
  qualifier_plain := kind.key_plain.1
  qualifier_ne_empty := kind.key_plain.2

theorem Fragment.as_self {fragment : Fragment} {kind : EntityKind}
    (qualifier : fragment.qualifier = kind.key) : fragment.as kind = fragment := by
  cases fragment
  cases qualifier
  rfl

/-- Fragments of one kind are made again from their names. -/
theorem Fragment.mapM_make {fragments : List Fragment} {kind : EntityKind}
    (each : ∀ fragment ∈ fragments, fragment.qualifier = kind.key) :
    (fragments.map (·.name)).mapM (Fragment.make · kind.key) = .ok fragments := by
  induction fragments with
  | nil => rfl
  | cons fragment rest ih =>
      have first := fragment.make_self
      rw [each fragment List.mem_cons_self] at first
      rw [List.map_cons, List.mapM_cons, first,
        ih fun other member => each other (List.mem_cons_of_mem fragment member)]
      rfl

theorem Fragment.make_as (fragment : Fragment) (kind : EntityKind) :
    Fragment.make fragment.name kind.key = .ok (fragment.as kind) :=
  (fragment.as kind).make_self

namespace Identifier

/-- What is around that which is declared under an identifier: a type, or no type but packages. -/
def asType? (id : Identifier) : Option Identifier :=
  match id.fragments.getLast? with
  | some fragment => if fragment.qualifier = EntityKind.package.key then none else some id
  | none => none

theorem asType?_push (outer : Identifier) (fragment : Fragment) :
    (outer.push fragment).asType? =
      if fragment.qualifier = EntityKind.package.key then none else some (outer.push fragment) := by
  simp [asType?, push]

@[elab_as_elim]
theorem pushes {motive : Identifier → Prop} (id : Identifier)
    (root : ∀ space, motive ⟨space, []⟩)
    (push : ∀ (outer : Identifier) (fragment : Fragment), motive outer →
      motive (outer.push fragment)) : motive id := by
  obtain ⟨space, fragments⟩ := id
  induction fragments using List.reverseRecOn with
  | nil => exact root space
  | append_singleton front last ih => exact push ⟨space, front⟩ last ih

theorem push_of_strongest {id : Identifier} {qualifier : String}
    (strongest : id.strongestQualifier = .ok qualifier) :
    ∃ (outer : Identifier) (fragment : Fragment), id = outer.push fragment ∧
      fragment.qualifier = qualifier := by
  cases id using Identifier.pushes with
  | root space => cases strongest
  | push outer fragment =>
      rw [strongestQualifier_push] at strongest
      exact ⟨outer, fragment, rfl, Except.ok.inj strongest⟩

theorem dottedName_as (outer : Identifier) (fragment : Fragment) (kind : EntityKind) :
    (outer.push (fragment.as kind)).dottedName = (outer.push fragment).dottedName := by
  simp [dottedName, push, Fragment.as]

end Identifier

namespace Layered

variable {triples : List Triple} {outer : Identifier} {fragment : Fragment}

theorem parent (layered : Layered triples (outer.push fragment)) : Layered triples outer := by
  generalize same : outer.push fragment = id at layered
  cases layered with
  | packages space each =>
      subst same
      exact .packages space fun other member => each other (List.mem_append_left _ member)
  | type around =>
      rw [(Identifier.push_injective same).1]
      exact around

theorem qualifier (layered : Layered triples (outer.push fragment)) :
    fragment.qualifier = EntityKind.package.key ∨
      ∃ kind ∈ EntityKind.types, fragment.qualifier = kind.key := by
  generalize same : outer.push fragment = id at layered
  cases layered with
  | packages _ each =>
      subst same
      exact .inl (each fragment (List.mem_append_right _ List.mem_cons_self)).1
  | type _ type qualifier =>
      rw [(Identifier.push_injective same).2]
      exact .inr ⟨_, type, qualifier⟩

/-- What no type is around has packages around it. -/
theorem packages_around (layered : Layered triples outer) (none : outer.asType? = none) :
    ∀ other ∈ outer.fragments,
      other.qualifier = EntityKind.package.key ∧ other.name ≠ "" := by
  cases layered with
  | packages _ each => exact each
  | type around type qualifier =>
      rw [Identifier.asType?_push, qualifier] at none
      split at none
      · rename_i package
        obtain rfl := EntityKind.key_injective package
        exact absurd type (by decide)
      · cases none

/-- What is looked for under a name inside of what is around it: the identifier with each kind. -/
theorem candidate (layered : Layered triples (outer.push fragment)) (kind : EntityKind) :
    Model.candidate outer.asType? (outer.push fragment).dottedName kind =
      .ok (outer.push (fragment.as kind)) := by
  obtain ⟨before, simple⟩ := layered.named.parts
  cases around : outer.asType? with
  | some type =>
      obtain rfl : outer = type := by
        unfold Identifier.asType? at around
        split at around
        · split at around
          · cases around
          · exact Option.some.inj around
        · cases around
      rw [Model.candidate, simple, Identifier.child, fragment.make_as]
      rfl
  | none =>
      have each := layered.parent.packages_around around
      have packages : Identifier.packagesOf (outer.push fragment).dottedName =
          .ok outer.fragments := by
        rw [Identifier.packagesOf, before]
        by_cases outermost : outer.fragments = []
        · rw [if_pos (by rw [layered.parent.named.dottedName, outermost]; rfl), outermost]
        · rw [if_neg (layered.parent.named.proper outermost).ne_empty,
            layered.parent.named.segments outermost]
          exact Fragment.mapM_make fun other member => (each other member).1
      rw [Model.candidate, Identifier.ofTypeName, packages, simple, fragment.make_as]
      show Except.ok _ = Except.ok _
      rw [Identifier.push, layered.parent.space]
      rfl

end Layered

namespace Model

/-- Whether no other type has the dotted name of an identifier, nor any type that of a package. -/
structure Unrivalled {σ : Type} [TripleStore σ] (model : Model σ) (id : Identifier) : Prop where
  declared : ∀ kind ∈ EntityKind.types, ∀ other : Identifier,
    model.hasKind other.text kind = true → other.dottedName = id.dottedName → other = id
  known : id.strongestQualifier = .ok EntityKind.package.key →
    model.symbols.knows id.dottedName = false

/-- Whether all that is around an identifier is alone under its dotted name. -/
def Unshadowed {σ : Type} [TripleStore σ] (model : Model σ) (id : Identifier) : Prop :=
  ∀ outer inner, id.fragments = outer ++ inner → outer ≠ [] → inner ≠ [] →
    model.Unrivalled { id with fragments := outer }

section

variable {σ τ : Type} [TripleStore σ] [TripleStore τ] {view : StoreMap σ τ} {model : Model σ}
  {id : Identifier}

theorem unrivalled_map : (model.map view).Unrivalled id ↔ model.Unrivalled id := by
  constructor
  · rintro ⟨declared, known⟩
    exact ⟨by simpa using declared, by simpa using known⟩
  · rintro ⟨declared, known⟩
    exact ⟨by simpa using declared, by simpa using known⟩

theorem unshadowed_map : (model.map view).Unshadowed id ↔ model.Unshadowed id := by
  simp only [Unshadowed, unrivalled_map]

end

theorem Unshadowed.outer {σ : Type} [TripleStore σ] {model : Model σ} {outer : Identifier}
    {fragment : Fragment} (clear : model.Unshadowed (outer.push fragment)) :
    model.Unshadowed outer := by
  intro around inner split some_around some_inner
  refine clear around (inner ++ [fragment]) ?_ some_around (by simp)
  rw [← List.append_assoc, ← split]
  rfl

theorem Unshadowed.alone {σ : Type} [TripleStore σ] {model : Model σ} {outer : Identifier}
    {fragment : Fragment} (clear : model.Unshadowed (outer.push fragment))
    (filled : outer.fragments ≠ []) : model.Unrivalled outer :=
  clear outer.fragments [fragment] rfl filled (List.cons_ne_nil _ _)

variable {model : Model PlainStore} {outer : Identifier} {fragment : Fragment}

/-- What is looked up inside of what is around it is found there, and if nothing is, it was no type. -/
theorem declaredAs_layered (layered : Layered model.store.triples (outer.push fragment)) :
    ∃ found, model.declaredAs outer.asType? (outer.push fragment).dottedName EntityKind.types =
        .ok found ∧
      (∀ id ∈ found, ∃ kind ∈ EntityKind.types, id = outer.push (fragment.as kind) ∧
        model.hasKind id.text kind = true) ∧
      (found = none → ∀ kind ∈ EntityKind.types, fragment.qualifier ≠ kind.key) := by
  have proper := layered.named.proper (by simp [Identifier.push])
  obtain ⟨found, looked⟩ := model.declaredAs_unmarked outer.asType? proper.2 EntityKind.types
  obtain ⟨sound, complete⟩ := declaredAs_found looked
  refine ⟨found, looked, fun id member => ?_, fun none kind type qualifier => ?_⟩
  · obtain ⟨kind, type, made, declared⟩ := sound id member
    rw [layered.candidate] at made
    exact ⟨kind, type, (Except.ok.inj made).symm, declared⟩
  · obtain ⟨id, made, undeclared⟩ := complete none kind type
    rw [layered.candidate, Fragment.as_self qualifier] at made
    obtain rfl := Except.ok.inj made
    have strongest := Identifier.strongestQualifier_push outer fragment
    rw [qualifier] at strongest
    have declared : model.hasKind (outer.push fragment).text kind = true :=
      (Query.lists_plain model.store).hasKind_iff.mpr ⟨false, layered.told strongest type⟩
    rw [declared] at undeclared
    cases undeclared

/-- A type is known under its name where what is around it is. -/
theorem declaredType_of_enclosing {kind : EntityKind}
    (layered : Layered model.store.triples (outer.push fragment)) (type : kind ∈ EntityKind.types)
    (qualifier : fragment.qualifier = kind.key)
    (around : model.enclosingType (outer.push fragment).dottedName = .ok outer.asType?) :
    ∃ id, model.declaredType (outer.push fragment).dottedName = .ok (some id) := by
  have proper := layered.named.proper (by simp [Identifier.push])
  obtain ⟨found, looked, _, complete⟩ := declaredAs_layered layered
  cases found with
  | none => exact absurd qualifier (complete rfl kind type)
  | some id => exact ⟨id, declaredType_declared proper.1 around looked⟩

/-- What is alone under its name is known as itself, or as no type if it is a package. -/
theorem declaredType_unrivalled (layered : Layered model.store.triples (outer.push fragment))
    (around : model.enclosingType (outer.push fragment).dottedName = .ok outer.asType?)
    (alone : model.Unrivalled (outer.push fragment)) :
    model.declaredType (outer.push fragment).dottedName = .ok (outer.push fragment).asType? := by
  have proper := layered.named.proper (by simp [Identifier.push])
  obtain ⟨found, looked, sound, complete⟩ := declaredAs_layered layered
  cases found with
  | some id =>
      obtain ⟨kind, type, rfl, declared⟩ := sound id rfl
      have same := alone.declared kind type _ declared (Identifier.dottedName_as outer fragment kind)
      have qualifier : fragment.qualifier = kind.key := by
        rw [← (Identifier.push_injective same).2]
        rfl
      have other : fragment.qualifier ≠ EntityKind.package.key := by
        rw [qualifier]
        intro package
        obtain rfl := EntityKind.key_injective package
        exact absurd type (by decide)
      rw [declaredType_declared proper.1 around looked, Identifier.asType?_push, if_neg other, same]
  | none =>
      have package : fragment.qualifier = EntityKind.package.key := by
        obtain package | ⟨kind, type, same⟩ := layered.qualifier
        · exact package
        · exact absurd same (complete rfl kind type)
      have strongest := Identifier.strongestQualifier_push outer fragment
      rw [package] at strongest
      rw [declaredType_undeclared proper.1 around looked, alone.known strongest,
        if_neg Bool.false_ne_true, Identifier.asType?_push, if_pos package]

/-- A name is read inside what is around it, where that is alone under its name all the way. -/
theorem enclosingType_unshadowed (layered : Layered model.store.triples (outer.push fragment))
    (clear : model.Unshadowed (outer.push fragment)) :
    model.enclosingType (outer.push fragment).dottedName = .ok outer.asType? := by
  induction outer using Identifier.pushes generalizing fragment with
  | root space =>
      rw [enclosingType, layered.named.parts.1]
      rfl
  | push outer last ih =>
      have filled : (outer.push last).fragments ≠ [] := by simp [Identifier.push]
      have around := ih layered.parent clear.outer
      have found := declaredType_unrivalled layered.parent around (clear.alone filled)
      rw [enclosingType, layered.named.parts.1]
      simpa only [(layered.parent.named.proper filled).ne_empty, if_false] using found

/-- What overshadows nothing now did not before. -/
theorem Unshadowed.of_leads {before after : Model PlainStore} {id : Identifier}
    (clear : after.Unshadowed id) (leads : before.Leads after) : before.Unshadowed id := by
  intro outer inner split some_outer some_inner
  obtain ⟨declared, known⟩ := clear outer inner split some_outer some_inner
  refine ⟨fun kind type other told named => declared kind type other ?_ named, fun package => ?_⟩
  · obtain ⟨literal, member⟩ := (Query.lists_plain before.store).hasKind_iff.mp told
    exact (Query.lists_plain after.store).hasKind_iff.mpr ⟨literal, leads.kept _ member⟩
  · rw [← leads.symbols]
    exact known package

end Model

end CodeFacts

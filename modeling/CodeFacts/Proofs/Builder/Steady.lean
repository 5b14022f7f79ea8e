import CodeFacts.Proofs.Builder.Writes
import CodeFacts.Proofs.Distinct
import CodeFacts.Proofs.Query.Answers

/-!
Additions that declare no type. What names are known as stays the same along them, so that all their
references are stored as they would have been stored before the first of them.
-/

namespace CodeFacts

namespace Model

variable {σ : Type} [TripleStore σ]

/-- Whether two models know the same types. -/
structure SameTypes (left right : Model σ) : Prop where
  symbols : left.symbols = right.symbols
  declared : ∀ kind ∈ EntityKind.types, ∀ text, left.hasKind text kind = right.hasKind text kind

namespace SameTypes

variable {left right : Model σ} (same : left.SameTypes right)
include same

theorem declaredAs (enclosing : Option Identifier) (name : String) {kinds : List EntityKind}
    (types : ∀ kind ∈ kinds, kind ∈ EntityKind.types) :
    left.declaredAs enclosing name kinds = right.declaredAs enclosing name kinds := by
  induction kinds with
  | nil => rfl
  | cons kind rest ih =>
      have later := ih fun other member => types other (List.mem_cons_of_mem kind member)
      simp only [Model.declaredAs, same.declared kind (types kind List.mem_cons_self), later]

theorem declaredBySegments (segments : List String) :
    left.declaredBySegments segments = right.declaredBySegments segments := by
  induction segments with
  | nil => rfl
  | cons simple outer ih =>
      have declared (enclosing : Option Identifier) (name : String) :=
        same.declaredAs enclosing name fun kind (type : kind ∈ EntityKind.types) => type
      simp only [Model.declaredBySegments, ih, declared, same.symbols]

theorem declaredType (name : String) : left.declaredType name = right.declaredType name :=
  same.declaredBySegments _

theorem enclosingType (name : String) : left.enclosingType name = right.enclosingType name := by
  simp only [Model.enclosingType, same.declaredType]

theorem bind (type : TypeRef) : left.bind type = right.bind type := by
  induction type with
  | primitive => rfl
  | named kind name enclosing =>
      cases enclosing with
      | none => simp only [Model.bind, same.enclosingType]
      | some => rfl
  | array element dimensions ih => simp only [Model.bind, ih]

theorem isResolved (type : TypeRef) : left.isResolved type = right.isResolved type := by
  simp only [Model.isResolved, same.declaredType, same.symbols]

theorem storedText (type : TypeRef) : left.storedText type = right.storedText type := by
  simp only [Model.storedText, Model.resolve, same.bind, same.isResolved]

end SameTypes

end Model

/-- Of any sort, a store has what it had and then each that was added, once and in the order it
came. -/
theorem PlainStore.filter_insertAll {sort : Triple → Bool} (added : List Triple)
    (store : PlainStore) :
    (added.foldl TripleStore.insert store).triples.filter sort =
      (store.triples.filter sort ++ added.filter sort).eraseDups := by
  induction added using List.reverseRecOn with
  | nil =>
      rw [List.filter_nil, List.append_nil, eraseDups_of_nodup (store.distinct.filter sort)]
      rfl
  | append_singleton front last ih =>
      rw [List.foldl_append, List.filter_append]
      show ((front.foldl TripleStore.insert store).insert last).triples.filter sort = _
      rw [triples_insert]
      by_cases own : sort last = true
      · have one : [last].filter sort = [last] := by simp [own]
        have known : last ∈ (front.foldl TripleStore.insert store).triples ↔
            last ∈ store.triples.filter sort ++ front.filter sort := by
          have listed : last ∈ (store.triples.filter sort ++ front.filter sort).eraseDups ↔ _ :=
            List.mem_eraseDups
          rw [← listed, ← ih, List.mem_filter, and_iff_left own]
        rw [one, ← List.append_assoc, eraseDups_concat, ← ih]
        by_cases present : last ∈ (front.foldl TripleStore.insert store).triples
        · rw [if_pos present, if_pos (known.mp present)]
        · rw [if_neg present, if_neg (mt known.mpr present), List.filter_append, one]
      · have none_more : [last].filter sort = [] := by simp [own]
        rw [none_more, List.append_nil, ← ih]
        split
        · rfl
        · rw [List.filter_append, none_more, List.append_nil]

/-- Whether an addition declares no type. -/
def Write.NoType (first : Write) : Prop :=
  ∀ stored, ∀ triple ∈ first.triples stored, triple.predicate = Predicate.subClassOf.uri →
    ∀ kind ∈ EntityKind.types, triple.object ≠ kind.uri

namespace Draft

variable {draft next last : Draft PlainStore}

theorem write_steady {first : Write} (steady : first.NoType)
    (written : draft.write first = .ok next) :
    next.model.SameTypes draft.model ∧ next.model.store =
      (first.triples draft.model.storedText).foldl TripleStore.insert draft.model.store := by
  obtain ⟨unknown, _, rfl⟩ := write_ok written
  refine ⟨⟨rfl, fun kind type text => ?_⟩, rfl⟩
  rw [Bool.eq_iff_iff]
  refine ((Query.lists_plain _).hasKind_iff.trans ?_).trans
    (Query.lists_plain draft.model.store).hasKind_iff.symm
  refine exists_congr fun literal => (PlainStore.mem_insertAll _ _ _).trans (or_iff_left ?_)
  exact fun made => steady _ _ made rfl kind type rfl

/-- Additions that declare no type add what each would have added first. -/
theorem writeAll_steady (writes : List Write) (steady : ∀ first ∈ writes, first.NoType)
    {draft : Draft PlainStore} (written : draft.writeAll writes = (last, none)) :
    last.model.store = (writes.flatMap (·.triples draft.model.storedText)).foldl
      TripleStore.insert draft.model.store := by
  induction writes generalizing draft with
  | nil =>
      obtain rfl : draft = last := congrArg Prod.fst written
      rfl
  | cons first rest ih =>
      unfold writeAll at written
      cases step : draft.write first with
      | error fault =>
          rw [step] at written
          cases written
      | ok next =>
          rw [step] at written
          obtain ⟨same, stored⟩ := write_steady (steady first List.mem_cons_self) step
          have stored_same : next.model.storedText = draft.model.storedText :=
            funext same.storedText
          rw [ih (fun other member => steady other (List.mem_cons_of_mem first member)) written,
            stored_same, stored, List.flatMap_cons, List.foldl_append]

/-- Where additions are accepted, none of them is a refusal. -/
theorem writeAll_unrefused (writes : List Write) {draft : Draft PlainStore}
    (written : draft.writeAll writes = (last, none)) (fault : Fault) :
    Write.refuse fault ∉ writes := by
  induction writes generalizing draft with
  | nil => exact List.not_mem_nil
  | cons first rest ih =>
      unfold writeAll at written
      cases step : draft.write first with
      | error fault =>
          rw [step] at written
          cases written
      | ok next =>
          rw [step] at written
          intro member
          rcases List.mem_cons.mp member with rfl | later
          · cases step
          · exact ih written later

end Draft

namespace Model

variable {model next : Model PlainStore} {writes : List Write} {unknown : List String}

theorem writeAll_steady (steady : ∀ first ∈ writes, first.NoType)
    (written : model.writeAll writes = (next, .ok unknown)) :
    next.store =
      (writes.flatMap (·.triples model.storedText)).foldl TripleStore.insert model.store := by
  obtain ⟨last, drafted, rfl, _⟩ := writeAll_drafted written
  exact Draft.writeAll_steady writes steady drafted

theorem writeAll_unrefused (written : model.writeAll writes = (next, .ok unknown))
    (fault : Fault) : Write.refuse fault ∉ writes := by
  obtain ⟨last, drafted, rfl, _⟩ := writeAll_drafted written
  exact Draft.writeAll_unrefused writes drafted fault

end Model

end CodeFacts

import CodeFacts.Proofs.Distinct
import CodeFacts.Proofs.Steps
import CodeFacts.Proofs.Store.Memory
import Mathlib.Algebra.BigOperators.Group.List.Lemmas
import Mathlib.Algebra.GroupWithZero.Nat

/-!
Runs of edits of a store. After any run the memory store holds what the plain store holds, answers
every search from it, counts it, and can be drained of the matches of a search.
-/

namespace CodeFacts

theorem Pattern.holds_iff (pattern : Pattern) (triple : Triple) :
    pattern.holds triple = true ↔
      (∀ subject ∈ pattern.subject?, triple.subject = subject) ∧
      (∀ predicate ∈ pattern.predicate?, triple.predicate = predicate) ∧
      ∀ object ∈ pattern.object?, triple.object = object := by
  have agrees_iff (asked : Option String) (term : String) :
      agrees asked term = true ↔ ∀ wanted ∈ asked, term = wanted := by
    cases asked with
    | none => simp [agrees]
    | some wanted =>
        simp only [agrees, beq_iff_eq, Option.mem_def, Option.some.injEq, forall_eq']
        exact eq_comm
  simp only [Pattern.holds, Bool.and_eq_true, agrees_iff, and_assoc]

namespace Store

open TripleStore

/-- A request to change a store, with unchecked terms. -/
inductive Edit where
  | addResource (subject predicate object : Value)
  | addLiteral (subject predicate literal : Value)
  | addCollection (subject predicate values : Value)
  | removeResource (subject predicate object : Value)
  | removeLiteral (subject predicate literal : Value)
  | clear

section

variable {σ : Type} [TripleStore σ]

def edit (store : σ) : Edit → Except Fault σ
  | .addResource subject predicate object => addResource store subject predicate object
  | .addLiteral subject predicate literal => addLiteral store subject predicate literal
  | .addCollection subject predicate values => addCollection store subject predicate values
  | .removeResource subject predicate object => removeResource store subject predicate object
  | .removeLiteral subject predicate literal => removeLiteral store subject predicate literal
  | .clear => .ok (TripleStore.clear store)

/-- The literal triples with the items of a value, if it has items. -/
def literalTriples (subject predicate : Value) : Option (List Value) → Except Fault (List Triple)
  | none => .error (.unsupported .operation)
  | some items => items.mapM (literalTriple subject predicate)

theorem addCollection_eq (store : σ) (subject predicate : Value) {values : Value}
    (no_text : ∀ text, values ≠ .text text) :
    addCollection store subject predicate values =
      (literalTriples subject predicate values.items?).map fun triples =>
        triples.foldl TripleStore.insert store := by
  unfold addCollection
  split
  · exact absurd rfl (no_text _)
  · cases values.items? with
    | none => rfl
    | some items =>
        dsimp only [literalTriples]
        cases items.mapM (literalTriple subject predicate) <;> rfl

/-- The triples a request makes of its terms, if they pass the checks. -/
def Edit.triples : Edit → Except Fault (List Triple)
  | .addResource subject predicate object | .removeResource subject predicate object =>
      (resourceTriple subject predicate object).map fun triple => [triple]
  | .addLiteral subject predicate literal | .removeLiteral subject predicate literal =>
      (literalTriple subject predicate literal).map fun triple => [triple]
  | .addCollection subject predicate values =>
      match values with
      | .text _ => .error (.malformed .collection values)
      | _ => literalTriples subject predicate values.items?
  | .clear => .ok []

/-- What a request does with its triples. -/
def Edit.apply (store : σ) (triples : List Triple) : Edit → σ
  | .addResource .. | .addLiteral .. | .addCollection .. => triples.foldl insert store
  | .removeResource .. | .removeLiteral .. => triples.foldl erase store
  | .clear => TripleStore.clear store

/-- Every edit is checked before the store changes. -/
theorem edit_eq (store : σ) (request : Edit) :
    edit store request = request.triples.map fun triples => request.apply store triples := by
  have single (made : Except Fault Triple) (change : σ → Triple → σ) :
      made.map (change store) =
        (made.map fun triple => [triple]).map fun triples => triples.foldl change store := by
    cases made <;> rfl
  cases request with
  | addResource => exact single _ insert
  | addLiteral => exact single _ insert
  | removeResource => exact single _ erase
  | removeLiteral => exact single _ erase
  | clear => rfl
  | addCollection subject predicate values =>
      cases values with
      | text => rfl
      | _ =>
          simp only [edit, Edit.triples, Edit.apply]
          apply addCollection_eq
          rintro text ⟨⟩

/-- The store after some edits. One that is refused leaves it as it is. -/
def edited (store : σ) (edits : List Edit) : σ :=
  edits.foldl (fun store request => (edit store request).toOption.getD store) store

/-- The request to take a triple out. -/
def removal (triple : Triple) : Edit :=
  if triple.literal then
    .removeLiteral (.text triple.subject) (.text triple.predicate) (.text triple.object)
  else .removeResource (.text triple.subject) (.text triple.predicate) (.text triple.object)

/-- The store after every match of a search is taken out in its turn, if no removal is refused. -/
def removeMatches (store : σ) (pattern : Pattern) : Except Fault σ :=
  (search store pattern).foldlM (fun store triple => edit store (removal triple)) store

end

/-! What an edit does goes along with a map between stores. -/

section

variable {σ τ : Type} [TripleStore σ] [TripleStore τ] (view : StoreMap σ τ)

theorem edit_map (store : σ) (request : Edit) :
    edit (view.map store) request = (edit store request).map view.map := by
  have applied (triples : List Triple) :
      request.apply (view.map store) triples = view.map (request.apply store triples) := by
    cases request with
    | addResource => exact view.insertAll_map triples store
    | addLiteral => exact view.insertAll_map triples store
    | addCollection => exact view.insertAll_map triples store
    | removeResource => exact view.eraseAll_map triples store
    | removeLiteral => exact view.eraseAll_map triples store
    | clear => exact view.clear_map store
  rw [edit_eq, edit_eq]
  cases request.triples with
  | error fault => rfl
  | ok triples => exact congrArg Except.ok (applied triples)

theorem edited_map (edits : List Edit) (store : σ) :
    edited (view.map store) edits = view.map (edited store edits) := by
  induction edits generalizing store with
  | nil => rfl
  | cons request rest ih =>
      have step : (edit (view.map store) request).toOption.getD (view.map store) =
          view.map ((edit store request).toOption.getD store) := by
        rw [edit_map]
        cases edit store request <;> rfl
      simp only [edited, List.foldl_cons, step] at ih ⊢
      exact ih _

end

/-! Stores refuse terms they cannot take, and nothing else. -/

/-- Whether a fault is one that a store finds with the terms it is given. -/
def OfTerms : Fault → Prop
  | .malformed _ _ | .unsupported _ => True
  | _ => False

theorem checkTerm_only (role : TermRole) (term : Value) :
    Steps.Only OfTerms (checkTerm role term) := by
  unfold checkTerm
  split
  · split
    · exact Steps.only_error trivial
    · exact Steps.only_ok _
  · exact Steps.only_error trivial

theorem checkLiteral_only (term : Value) : Steps.Only OfTerms (checkLiteral term) := by
  unfold checkLiteral
  split
  · exact Steps.only_ok _
  · exact Steps.only_error trivial

theorem resourceTriple_only (subject predicate object : Value) :
    Steps.Only OfTerms (resourceTriple subject predicate object) := by
  refine (checkTerm_only _ _).bind fun _ => (checkTerm_only _ _).bind fun _ => ?_
  exact (checkTerm_only _ _).bind fun _ => Steps.only_ok _

theorem literalTriple_only (subject predicate literal : Value) :
    Steps.Only OfTerms (literalTriple subject predicate literal) := by
  refine (checkTerm_only _ _).bind fun _ => (checkTerm_only _ _).bind fun _ => ?_
  exact (checkLiteral_only _).bind fun _ => Steps.only_ok _

theorem Edit.triples_only (request : Edit) : Steps.Only OfTerms request.triples := by
  cases request with
  | addResource => exact (resourceTriple_only _ _ _).map _
  | addLiteral => exact (literalTriple_only _ _ _).map _
  | removeResource => exact (resourceTriple_only _ _ _).map _
  | removeLiteral => exact (literalTriple_only _ _ _).map _
  | clear => exact Steps.only_ok _
  | addCollection subject predicate values =>
      simp only [Edit.triples]
      split
      · exact Steps.only_error trivial
      · unfold literalTriples
        split
        · exact Steps.only_error trivial
        · exact Steps.only_mapM _ fun item => literalTriple_only _ _ item

theorem edit_only {σ : Type} [TripleStore σ] (store : σ) (request : Edit) :
    Steps.Only OfTerms (edit store request) := by
  rw [edit_eq]
  exact request.triples_only.map _

/-! The terms of stored triples have passed the checks, so that no removal of one is refused. -/

/-- A triple whose terms pass the checks of a store. -/
structure WellTermed (triple : Triple) : Prop where
  subject : triple.subject ≠ ""
  predicate : triple.predicate ≠ ""
  object : triple.literal = false → triple.object ≠ ""

theorem checkTerm_ok {role : TermRole} {term : Value} {text : String}
    (checked : checkTerm role term = .ok text) : text ≠ "" := by
  unfold checkTerm at checked
  split at checked
  case h_1 value =>
      split at checked
      · cases checked
      · rename_i characters
        cases checked
        exact characters
  case h_2 => cases checked

@[simp] theorem checkTerm_text {role : TermRole} {text : String} (characters : text ≠ "") :
    checkTerm role (.text text) = .ok text := by
  rw [checkTerm, if_neg characters]

theorem checkTerm_text_ok {role : TermRole} {term text : String}
    (checked : checkTerm role (.text term) = .ok text) : term = text := by
  simp only [checkTerm] at checked
  split at checked
  · cases checked
  · exact Except.ok.inj checked

theorem wellTermed_of_resourceTriple {subject predicate object : Value} {triple : Triple}
    (made : resourceTriple subject predicate object = .ok triple) : WellTermed triple := by
  simp only [resourceTriple, Steps.bind_ok_iff, Steps.pure_ok_iff] at made
  obtain ⟨_, first, _, second, _, third, rfl⟩ := made
  exact ⟨checkTerm_ok first, checkTerm_ok second, fun _ => checkTerm_ok third⟩

theorem wellTermed_of_literalTriple {subject predicate literal : Value} {triple : Triple}
    (made : literalTriple subject predicate literal = .ok triple) : WellTermed triple := by
  simp only [literalTriple, Steps.bind_ok_iff, Steps.pure_ok_iff] at made
  obtain ⟨_, first, _, second, _, _, rfl⟩ := made
  exact ⟨checkTerm_ok first, checkTerm_ok second, fun resource => by cases resource⟩

theorem edit_removal {σ : Type} [TripleStore σ] {triple : Triple} (termed : WellTermed triple)
    (store : σ) : edit store (removal triple) = .ok (erase store triple) := by
  obtain ⟨subject, predicate, object, literal⟩ := triple
  cases literal with
  | true =>
      simp only [removal, if_true, edit, removeLiteral, literalTriple,
        checkTerm_text termed.subject, checkTerm_text termed.predicate, checkLiteral]
      rfl
  | false =>
      simp only [removal, Bool.false_eq_true, if_false, edit, removeResource, resourceTriple,
        checkTerm_text termed.subject, checkTerm_text termed.predicate,
        checkTerm_text (termed.object rfl)]
      rfl

theorem wellTermed_insertAll (triples : List Triple) {store : PlainStore}
    (new : ∀ triple ∈ triples, WellTermed triple)
    (termed : ∀ triple ∈ store.triples, WellTermed triple) :
    ∀ triple ∈ (triples.foldl TripleStore.insert store).triples, WellTermed triple := by
  induction triples generalizing store with
  | nil => exact termed
  | cons first rest ih =>
      apply ih fun triple later => new triple (List.mem_cons_of_mem first later)
      intro triple member
      rcases (PlainStore.mem_insert store first triple).mp member with old | same
      · exact termed triple old
      · exact same ▸ new first List.mem_cons_self

theorem triples_eraseAll (gone : List Triple) (store : PlainStore) :
    (gone.foldl erase store).triples = store.triples.filter (· ∉ gone) := by
  induction gone generalizing store with
  | nil => simp
  | cons first rest ih =>
      rw [List.foldl_cons, ih]
      show (store.triples.filter (· ≠ first)).filter (· ∉ rest) = _
      rw [List.filter_filter]
      apply List.filter_congr
      intro triple _
      simp [Bool.and_comm]

theorem Edit.wellTermed {request : Edit} {triples : List Triple}
    (made : request.triples = .ok triples) : ∀ triple ∈ triples, WellTermed triple := by
  have single {made : Except Fault Triple} {triples : List Triple}
      (new : ∀ triple, made = .ok triple → WellTermed triple)
      (listed : (made.map fun triple => [triple]) = .ok triples) :
      ∀ triple ∈ triples, WellTermed triple := by
    obtain ⟨triple, checked, rfl⟩ := Steps.map_ok_iff.mp listed
    exact List.forall_mem_singleton.mpr (new triple checked)
  cases request with
  | addResource => exact single (fun _ => wellTermed_of_resourceTriple) made
  | addLiteral => exact single (fun _ => wellTermed_of_literalTriple) made
  | removeResource => exact single (fun _ => wellTermed_of_resourceTriple) made
  | removeLiteral => exact single (fun _ => wellTermed_of_literalTriple) made
  | clear =>
      cases made
      exact List.forall_mem_nil _
  | addCollection subject predicate values =>
      simp only [Edit.triples] at made
      split at made
      · cases made
      · unfold literalTriples at made
        split at made
        · cases made
        · intro triple member
          obtain ⟨item, _, literal⟩ := Steps.mem_of_mapM_ok made member
          exact wellTermed_of_literalTriple literal

theorem wellTermed_edit {store next : PlainStore} {request : Edit}
    (termed : ∀ triple ∈ store.triples, WellTermed triple)
    (accepted : edit store request = .ok next) :
    ∀ triple ∈ next.triples, WellTermed triple := by
  rw [edit_eq] at accepted
  obtain ⟨triples, made, rfl⟩ := Steps.map_ok_iff.mp accepted
  have added := wellTermed_insertAll triples (Edit.wellTermed made) termed
  have kept : ∀ triple ∈ (triples.foldl erase store).triples, WellTermed triple := by
    intro triple member
    rw [triples_eraseAll] at member
    exact termed triple (List.mem_filter.mp member).1
  cases request with
  | addResource => exact added
  | addLiteral => exact added
  | addCollection => exact added
  | removeResource => exact kept
  | removeLiteral => exact kept
  | clear =>
      intro triple member
      cases member

theorem wellTermed_edited (edits : List Edit) {store : PlainStore}
    (termed : ∀ triple ∈ store.triples, WellTermed triple) :
    ∀ triple ∈ (edited store edits).triples, WellTermed triple := by
  induction edits generalizing store with
  | nil => exact termed
  | cons request rest ih =>
      apply ih
      show ∀ triple ∈ ((edit store request).toOption.getD store).triples, WellTermed triple
      cases outcome : edit store request with
      | error fault => exact termed
      | ok next => exact wellTermed_edit termed outcome

theorem predicateCounts_sum {σ : Type} [TripleStore σ] (store : σ) :
    ((predicateCounts store).map (·.2)).sum = total store := by
  unfold predicateCounts total
  generalize listed : (search store Pattern.any).map (·.predicate) = predicates
  have size : predicates.length = (search store Pattern.any).length := by
    rw [← listed, List.length_map]
  have arranged : predicates.eraseDups.Perm predicates.dedup := by
    rw [List.perm_ext_iff_of_nodup (nodup_eraseDups _) (List.nodup_dedup _)]
    intro predicate
    rw [List.mem_eraseDups, List.mem_dedup]
  rw [List.map_map, ← size, ← List.sum_map_count_dedup_eq_length predicates]
  exact (arranged.map _).sum_eq

theorem removals_eq_eraseAll {σ : Type} [TripleStore σ] {gone : List Triple}
    (termed : ∀ triple ∈ gone, WellTermed triple) (store : σ) :
    gone.foldlM (fun store triple => edit store (removal triple)) store =
      .ok (gone.foldl erase store) := by
  induction gone generalizing store with
  | nil => rfl
  | cons first rest ih =>
      rw [List.foldlM_cons, edit_removal (termed first List.mem_cons_self)]
      exact ih (fun triple later => termed triple (List.mem_cons_of_mem first later)) _

end Store

namespace MemoryStore

/-- A memory store acts as a list of triples without repeats: it lists them, adds at the end, takes
out in place, finds by reading through, and counts them. -/
structure ActsAs (store : MemoryStore) (kept : List Triple) : Prop where
  distinct : kept.Nodup
  listed : store.triples = kept
  added : ∀ triple,
    (store.insert triple).triples = if triple ∈ kept then kept else kept ++ [triple]
  removed : ∀ triple, (store.erase triple).triples = kept.filter (· ≠ triple)
  cleared : store.clear.triples = []
  found : ∀ pattern, store.search pattern = kept.filter pattern.holds
  counted : TripleStore.count store = kept.length
  totalled : Store.total store = kept.length
  tallied : ((Store.predicateCounts store).map (·.2)).sum = kept.length

theorem actsAs (store : MemoryStore) : store.ActsAs store.triples where
  distinct := store.sound.distinct
  listed := rfl
  added := store.ledger.triples_add
  removed := store.ledger.triples_remove
  cleared := rfl
  found := store.sound.search_eq
  counted := (List.length_map _).symm
  totalled := by
    have all : store.search Pattern.any = store.triples.filter fun _ => true :=
      store.sound.search_eq Pattern.any
    rw [List.filter_true] at all
    exact congrArg List.length all
  tallied := by
    have all : store.search Pattern.any = store.triples.filter fun _ => true :=
      store.sound.search_eq Pattern.any
    rw [List.filter_true] at all
    rw [Store.predicateCounts_sum]
    exact congrArg List.length all

/-- After any edits the memory store acts as the list the same edits leave in the plain store, it
takes and refuses the next edit alike, a search gives each stored triple that has the terms asked
for, and taking out its matches one by one leaves the others in their order. -/
theorem edited_refines_plain (edits : List Store.Edit) (pattern : Pattern) :
    let store := Store.edited empty edits
    let plain := Store.edited PlainStore.empty edits
    store.ActsAs plain.triples ∧
      (∀ request, (Store.edit store request).map toPlain = Store.edit plain request) ∧
      (∀ triple, triple ∈ store.search pattern ↔ triple ∈ plain.triples ∧
        (∀ subject ∈ pattern.subject?, triple.subject = subject) ∧
        (∀ predicate ∈ pattern.predicate?, triple.predicate = predicate) ∧
        ∀ object ∈ pattern.object?, triple.object = object) ∧
      ∃ rest, Store.removeMatches store pattern = .ok rest ∧
        rest.triples = plain.triples.filter fun triple => !pattern.holds triple := by
  intro store plain
  have same : view.map store = plain := (Store.edited_map view edits empty).symm
  have kept : store.triples = plain.triples := congrArg PlainStore.triples same
  have found : store.search pattern = plain.triples.filter pattern.holds := by
    rw [← kept]
    exact store.sound.search_eq pattern
  refine ⟨?_, ?_, ?_, ?_⟩
  · rw [← kept]
    exact store.actsAs
  · intro request
    rw [← same]
    exact (Store.edit_map view store request).symm
  · intro triple
    rw [found, List.mem_filter, Pattern.holds_iff]
  · have termed : ∀ triple ∈ plain.triples, Store.WellTermed triple := by
      apply Store.wellTermed_edited
      intro triple member
      cases member
    have matchesTermed : ∀ triple ∈ store.search pattern, Store.WellTermed triple := by
      intro triple member
      rw [found] at member
      exact termed triple (List.mem_filter.mp member).1
    refine ⟨_, Store.removals_eq_eraseAll matchesTermed store, ?_⟩
    have drained := congrArg PlainStore.triples
      (view.eraseAll_map (store.search pattern) store)
    refine drained.symm.trans ?_
    rw [same, Store.triples_eraseAll, found]
    apply List.filter_congr
    intro triple member
    simp [member]

end MemoryStore

end CodeFacts

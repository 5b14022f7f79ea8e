import CodeFacts.Proofs.Store.Edit

/-!
Stores seen as sets of triples. What such a store answers to edits is settled by the triples it has,
so that two of them that start empty answer alike, whatever they keep their triples in.
-/

namespace CodeFacts

namespace Store

open TripleStore

section

variable {σ : Type} [TripleStore σ]

/-- Whether a search of the whole store finds a triple. -/
def Has (store : σ) (triple : Triple) : Prop := triple ∈ search store Pattern.any

/-- A store in one of its valid states is a set of triples: a search gives each triple that fits
once, the count is that of all triples, and each change changes what it says and no other triple.
All of it is asked for triples of one sort only. -/
structure IsSet (valid : σ → Prop) (sort : Triple → Prop) : Prop where
  valid_insert : ∀ {store triple}, valid store → sort triple → valid (insert store triple)
  valid_erase : ∀ {store triple}, valid store → sort triple → valid (erase store triple)
  valid_clear : ∀ {store}, valid store → valid (clear store)
  has_insert : ∀ {store triple}, valid store → sort triple →
    ∀ other, Has (insert store triple) other ↔ Has store other ∨ other = triple
  has_erase : ∀ {store triple}, valid store → sort triple →
    ∀ other, Has (erase store triple) other ↔ Has store other ∧ other ≠ triple
  has_clear : ∀ {store}, valid store → ∀ triple, ¬Has (clear store) triple
  mem_search : ∀ {store}, valid store → ∀ pattern triple,
    triple ∈ search store pattern ↔ Has store triple ∧ pattern.holds triple = true
  nodup_search : ∀ {store}, valid store → ∀ pattern, (search store pattern).Nodup
  count_eq : ∀ {store}, valid store → count store = total store

/-- What a store answers to edits: of each whether it is refused, and why, and the count of triples
after it. -/
def answers (store : σ) : List Edit → List (Except Fault Unit × Nat)
  | [] => []
  | request :: rest =>
      let next := (edit store request).toOption.getD store
      ((edit store request).map fun _ => (), count next) :: answers next rest

end

variable {σ τ : Type} [TripleStore σ] [TripleStore τ]
variable {valid : σ → Prop} {valid' : τ → Prop} {sort : Triple → Prop}

/-- Whether two stores are valid and have the same triples. -/
structure SameTriples (valid : σ → Prop) (valid' : τ → Prop) (one : σ) (other : τ) : Prop where
  valid_one : valid one
  valid_other : valid' other
  has_iff : ∀ triple, Has one triple ↔ Has other triple

namespace SameTriples

variable {one : σ} {other : τ}

theorem search_perm (set : IsSet valid sort) (set' : IsSet valid' sort)
    (same : SameTriples valid valid' one other) (pattern : Pattern) :
    (search one pattern).Perm (search other pattern) := by
  rw [List.perm_ext_iff_of_nodup (set.nodup_search same.valid_one pattern)
    (set'.nodup_search same.valid_other pattern)]
  intro triple
  rw [set.mem_search same.valid_one, set'.mem_search same.valid_other, same.has_iff]

theorem count_eq (set : IsSet valid sort) (set' : IsSet valid' sort)
    (same : SameTriples valid valid' one other) : count one = count other := by
  rw [set.count_eq same.valid_one, set'.count_eq same.valid_other]
  exact (same.search_perm set set' Pattern.any).length_eq

theorem insert (set : IsSet valid sort) (set' : IsSet valid' sort) {triple : Triple}
    (sorted : sort triple) (same : SameTriples valid valid' one other) :
    SameTriples valid valid' (TripleStore.insert one triple) (TripleStore.insert other triple) := by
  refine ⟨set.valid_insert same.valid_one sorted, set'.valid_insert same.valid_other sorted, ?_⟩
  intro found
  rw [set.has_insert same.valid_one sorted, set'.has_insert same.valid_other sorted, same.has_iff]

theorem erase (set : IsSet valid sort) (set' : IsSet valid' sort) {triple : Triple}
    (sorted : sort triple) (same : SameTriples valid valid' one other) :
    SameTriples valid valid' (TripleStore.erase one triple) (TripleStore.erase other triple) := by
  refine ⟨set.valid_erase same.valid_one sorted, set'.valid_erase same.valid_other sorted, ?_⟩
  intro found
  rw [set.has_erase same.valid_one sorted, set'.has_erase same.valid_other sorted, same.has_iff]

/-- What one triple changes alike in both stores, some triples do one after the other. -/
theorem foldl (change : σ → Triple → σ) (change' : τ → Triple → τ)
    (step : ∀ {one other triple}, sort triple → SameTriples valid valid' one other →
      SameTriples valid valid' (change one triple) (change' other triple))
    {triples : List Triple} (sorted : ∀ triple ∈ triples, sort triple)
    (same : SameTriples valid valid' one other) :
    SameTriples valid valid' (triples.foldl change one) (triples.foldl change' other) := by
  induction triples generalizing one other with
  | nil => exact same
  | cons first rest ih =>
      obtain ⟨first_sorted, rest_sorted⟩ := List.forall_mem_cons.mp sorted
      exact ih rest_sorted (step first_sorted same)

theorem clear (set : IsSet valid sort) (set' : IsSet valid' sort)
    (same : SameTriples valid valid' one other) :
    SameTriples valid valid' (TripleStore.clear one) (TripleStore.clear other) := by
  refine ⟨set.valid_clear same.valid_one, set'.valid_clear same.valid_other, ?_⟩
  intro triple
  exact iff_of_false (set.has_clear same.valid_one triple) (set'.has_clear same.valid_other triple)

theorem apply (set : IsSet valid sort) (set' : IsSet valid' sort) (request : Edit)
    {triples : List Triple} (sorted : ∀ triple ∈ triples, sort triple)
    (same : SameTriples valid valid' one other) :
    SameTriples valid valid' (request.apply one triples) (request.apply other triples) := by
  have added := same.foldl TripleStore.insert TripleStore.insert
    (fun sorted same => same.insert set set' sorted) sorted
  have removed := same.foldl TripleStore.erase TripleStore.erase
    (fun sorted same => same.erase set set' sorted) sorted
  cases request with
  | addResource => exact added
  | addLiteral => exact added
  | addCollection => exact added
  | removeResource => exact removed
  | removeLiteral => exact removed
  | clear => exact same.clear set set'

/-- An edit is refused by both stores for one fault, or leaves them with the same triples. -/
theorem edit (set : IsSet valid sort) (set' : IsSet valid' sort) {request : Edit}
    (sorted : ∀ triples, request.triples = .ok triples → ∀ triple ∈ triples, sort triple)
    (same : SameTriples valid valid' one other) :
    ((edit one request).map fun _ => ()) = ((Store.edit other request).map fun _ => ()) ∧
      SameTriples valid valid' ((Store.edit one request).toOption.getD one)
        ((Store.edit other request).toOption.getD other) := by
  rw [edit_eq, edit_eq]
  cases made : request.triples with
  | error fault => exact ⟨rfl, same⟩
  | ok triples => exact ⟨rfl, same.apply set set' request (sorted triples made)⟩

end SameTriples

theorem SameTriples.edited (set : IsSet valid sort) (set' : IsSet valid' sort) {edits : List Edit}
    (sorted : ∀ request ∈ edits, ∀ triples, request.triples = .ok triples →
      ∀ triple ∈ triples, sort triple)
    {one : σ} {other : τ} (same : SameTriples valid valid' one other) :
    answers one edits = answers other edits ∧
      SameTriples valid valid' (Store.edited one edits) (Store.edited other edits) := by
  induction edits generalizing one other with
  | nil => exact ⟨rfl, same⟩
  | cons request rest ih =>
      obtain ⟨outcome, next⟩ := same.edit set set' (sorted request List.mem_cons_self)
      obtain ⟨later, final⟩ :=
        ih (fun other listed => sorted other (List.mem_cons_of_mem request listed)) next
      refine ⟨?_, final⟩
      simp only [answers, outcome, next.count_eq set set', later]

/-- Two stores answer some edits alike and find the same triples after them, each once. -/
structure AnswerAlike (one : σ) (other : τ) (edits : List Edit) : Prop where
  answers_eq : answers one edits = answers other edits
  found : ∀ pattern, (search (edited one edits) pattern).Perm (search (edited other edits) pattern)
  once : ∀ pattern, (search (edited one edits) pattern).Nodup

theorem SameTriples.answerAlike (set : IsSet valid sort) (set' : IsSet valid' sort)
    {edits : List Edit}
    (sorted : ∀ request ∈ edits, ∀ triples, request.triples = .ok triples →
      ∀ triple ∈ triples, sort triple)
    {one : σ} {other : τ} (same : SameTriples valid valid' one other) :
    AnswerAlike one other edits where
  answers_eq := (same.edited set set' sorted).1
  found := (same.edited set set' sorted).2.search_perm set set'
  once := set.nodup_search (same.edited set set' sorted).2.valid_one

end Store

namespace MemoryStore

theorem mem_search (store : MemoryStore) (pattern : Pattern) (triple : Triple) :
    triple ∈ store.search pattern ↔ triple ∈ store.triples ∧ pattern.holds triple = true := by
  rw [show store.search pattern = store.triples.filter pattern.holds from
    store.sound.search_eq pattern, List.mem_filter]

theorem has_iff (store : MemoryStore) (triple : Triple) :
    Store.Has store triple ↔ triple ∈ store.triples :=
  (store.mem_search Pattern.any triple).trans (and_iff_left rfl)

/-- The memory store is the set of the triples it lists. -/
theorem isSet (sort : Triple → Prop) : Store.IsSet (fun _ : MemoryStore => True) sort where
  valid_insert := fun _ _ => trivial
  valid_erase := fun _ _ => trivial
  valid_clear := fun _ => trivial
  has_insert := by
    intro store triple _ _ other
    have inserted := store.toPlain.mem_insert triple other
    rw [show store.toPlain.insert triple = (store.insert triple).toPlain from
      view.insert_map store triple] at inserted
    exact (has_iff _ other).trans (inserted.trans (or_congr_left (has_iff store other).symm))
  has_erase := by
    intro store triple _ _ other
    have removed : (store.erase triple).triples = store.triples.filter (· ≠ triple) :=
      store.ledger.triples_remove triple
    rw [has_iff, has_iff]
    show other ∈ (store.erase triple).triples ↔ _
    rw [removed, List.mem_filter, decide_eq_true_eq]
  has_clear := by
    intro store _ triple has
    cases (has_iff _ triple).mp has
  mem_search := by
    intro store _ pattern triple
    exact (store.mem_search pattern triple).trans
      (and_congr_left fun _ => (has_iff store triple).symm)
  nodup_search := by
    intro store _ pattern
    show (store.ledger.search pattern).Nodup
    rw [store.sound.search_eq]
    exact store.sound.distinct.filter _
  count_eq := by
    intro store _
    exact (store.actsAs.counted).trans (store.actsAs.totalled).symm

theorem has_empty (triple : Triple) : ¬Store.Has empty triple := fun has => by
  cases (has_iff empty triple).mp has

end MemoryStore

end CodeFacts

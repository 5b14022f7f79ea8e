import CodeFacts.Store.Basic

/-!
The plain store, a list of triples without repeats, and maps between stores that keep every answer.
What is proved of a plain store holds of any store that maps to it.
-/

namespace CodeFacts

/-- A list of triples, each at most once, the last one that came at its end. -/
structure PlainStore where
  triples : List Triple
  distinct : triples.Nodup

namespace PlainStore

def empty : PlainStore := ⟨[], List.nodup_nil⟩

def insert (store : PlainStore) (triple : Triple) : PlainStore :=
  if present : triple ∈ store.triples then store
  else ⟨store.triples ++ [triple], Store.nodup_append_new store.distinct present⟩

def erase (store : PlainStore) (triple : Triple) : PlainStore :=
  ⟨store.triples.filter (· ≠ triple), store.distinct.filter _⟩

@[ext] theorem ext {left right : PlainStore} (same : left.triples = right.triples) :
    left = right := by
  cases left
  cases right
  simp_all

theorem triples_insert (store : PlainStore) (triple : Triple) :
    (store.insert triple).triples =
      if triple ∈ store.triples then store.triples else store.triples ++ [triple] := by
  unfold insert
  split <;> rfl

theorem mem_insert (store : PlainStore) (triple other : Triple) :
    other ∈ (store.insert triple).triples ↔ other ∈ store.triples ∨ other = triple := by
  rw [triples_insert]
  by_cases present : triple ∈ store.triples
  · rw [if_pos present]
    constructor
    · exact Or.inl
    · rintro (stored | same)
      · exact stored
      · exact same ▸ present
  · rw [if_neg present, List.mem_append, List.mem_singleton]

@[simp] theorem triples_erase (store : PlainStore) (triple : Triple) :
    (store.erase triple).triples = store.triples.filter (· ≠ triple) :=
  rfl

end PlainStore

instance : TripleStore PlainStore where
  listing := PlainStore.triples
  search := fun store pattern => store.triples.filter pattern.holds
  insert := PlainStore.insert
  erase := PlainStore.erase
  clear := fun _ => .empty
  count := fun store => store.triples.length
  connected := fun _ => true
  connect := id
  close := id
  access := id

theorem PlainStore.insertAll_extends (triples : List Triple) (store : PlainStore) :
    ∃ new, (triples.foldl TripleStore.insert store).triples = store.triples ++ new ∧
      ∀ triple ∈ new, triple ∈ triples ∧ triple ∉ store.triples := by
  induction triples generalizing store with
  | nil => exact ⟨[], by simp, by simp⟩
  | cons first rest ih =>
      obtain ⟨new, extended, fresh⟩ := ih (store.insert first)
      rw [PlainStore.triples_insert] at extended fresh
      by_cases present : first ∈ store.triples
      · rw [if_pos present] at extended fresh
        refine ⟨new, extended, ?_⟩
        intro triple member
        exact ⟨List.mem_cons_of_mem first (fresh triple member).1, (fresh triple member).2⟩
      · rw [if_neg present] at extended fresh
        refine ⟨first :: new, extended.trans (List.append_assoc _ _ _), ?_⟩
        intro triple member
        rcases List.mem_cons.mp member with rfl | later
        · exact ⟨List.mem_cons_self, present⟩
        · have absent := (fresh triple later).2
          rw [List.mem_append, not_or] at absent
          exact ⟨List.mem_cons_of_mem first (fresh triple later).1, absent.1⟩

theorem PlainStore.mem_insertAll (triples : List Triple) (store : PlainStore) (triple : Triple) :
    triple ∈ (triples.foldl TripleStore.insert store).triples ↔
      triple ∈ store.triples ∨ triple ∈ triples := by
  induction triples generalizing store with
  | nil => simp
  | cons first rest ih =>
      have inserted := store.mem_insert first triple
      rw [List.foldl_cons, ih, List.mem_cons, ← or_assoc]
      exact or_congr_left inserted

/-- A map between stores that keeps every answer and goes along with every change. -/
structure StoreMap (σ τ : Type) [TripleStore σ] [TripleStore τ] where
  map : σ → τ
  listing_map : ∀ store, TripleStore.listing (map store) = TripleStore.listing store
  search_map : ∀ store pattern,
    TripleStore.search (map store) pattern = TripleStore.search store pattern
  count_map : ∀ store, TripleStore.count (map store) = TripleStore.count store
  insert_map : ∀ store triple,
    TripleStore.insert (map store) triple = map (TripleStore.insert store triple)
  erase_map : ∀ store triple,
    TripleStore.erase (map store) triple = map (TripleStore.erase store triple)
  clear_map : ∀ store, TripleStore.clear (map store) = map (TripleStore.clear store)

attribute [simp] StoreMap.listing_map StoreMap.search_map StoreMap.count_map StoreMap.insert_map
  StoreMap.erase_map StoreMap.clear_map

namespace StoreMap

variable {σ τ : Type} [TripleStore σ] [TripleStore τ] (view : StoreMap σ τ)

theorem insertAll_map (triples : List Triple) (store : σ) :
    triples.foldl TripleStore.insert (view.map store) =
      view.map (triples.foldl TripleStore.insert store) := by
  induction triples generalizing store with
  | nil => rfl
  | cons triple rest ih => simp only [List.foldl_cons, view.insert_map, ih]

theorem eraseAll_map (triples : List Triple) (store : σ) :
    triples.foldl TripleStore.erase (view.map store) =
      view.map (triples.foldl TripleStore.erase store) := by
  induction triples generalizing store with
  | nil => rfl
  | cons triple rest ih => simp only [List.foldl_cons, view.erase_map, ih]

end StoreMap

end CodeFacts

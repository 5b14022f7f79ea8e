import CodeFacts.Index
import CodeFacts.Store.Basic

/-!
A store that numbers its triples in the order they come, and files each of them under its subject,
its predicate and its object. A search takes what is filed under every term it gives and puts it in
the order of the numbers.
-/

namespace CodeFacts

/-- Triples in the order they came, each with its number, the last number given, and the same
triples by each of their terms. -/
structure Ledger where
  entries : List (Triple × Nat)
  last : Nat
  bySubject : Index Triple
  byPredicate : Index Triple
  byObject : Index Triple

namespace Ledger

/-- No triples, with a last number that was given before. -/
def blank (last : Nat) : Ledger := ⟨[], last, .empty, .empty, .empty⟩

def triples (ledger : Ledger) : List Triple := ledger.entries.map (·.1)

def number? (ledger : Ledger) (triple : Triple) : Option Nat :=
  (ledger.entries.find? fun entry => decide (entry.1 = triple)).map (·.2)

def has (ledger : Ledger) (triple : Triple) : Bool := (ledger.number? triple).isSome

/-- The ledger with a triple under the next number, unchanged if it has it. -/
def add (ledger : Ledger) (triple : Triple) : Ledger :=
  if ledger.has triple then ledger
  else
    { entries := ledger.entries ++ [(triple, ledger.last + 1)]
      last := ledger.last + 1
      bySubject := ledger.bySubject.fileNew triple.subject triple
      byPredicate := ledger.byPredicate.fileNew triple.predicate triple
      byObject := ledger.byObject.fileNew triple.object triple }

/-- The ledger without a triple. The others keep their numbers. -/
def remove (ledger : Ledger) (triple : Triple) : Ledger :=
  if ledger.has triple then
    { ledger with
      entries := ledger.entries.filter fun entry => entry.1 ≠ triple
      bySubject := ledger.bySubject.drop triple.subject triple
      byPredicate := ledger.byPredicate.drop triple.predicate triple
      byObject := ledger.byObject.drop triple.object triple }
  else ledger

/-- What was found so far, and of it only what is filed under a term if one is asked for. Nothing
was looked for where no term was asked for yet. -/
def narrow (index : Index Triple) (asked : Option String) (found : Option (List Triple)) :
    Option (List Triple) :=
  match asked, found with
  | none, _ => found
  | some term, none => some (index.find term)
  | some term, some found =>
      let filed := index.find term
      some (found.filter fun triple => decide (triple ∈ filed))

/-- The triples filed under every term a pattern gives, none if it gives no term. -/
def candidates? (ledger : Ledger) (pattern : Pattern) : Option (List Triple) :=
  narrow ledger.byObject pattern.object? <|
    narrow ledger.byPredicate pattern.predicate? <|
      narrow ledger.bySubject pattern.subject? none

/-- Some triples of the ledger in the order of their numbers. -/
def inOrder (ledger : Ledger) (triples : List Triple) : List Triple :=
  triples.mergeSort fun left right =>
    decide ((ledger.number? left).getD 0 ≤ (ledger.number? right).getD 0)

def search (ledger : Ledger) (pattern : Pattern) : List Triple :=
  (ledger.candidates? pattern).elim ledger.triples ledger.inOrder

/-- What ties the parts of a ledger together: no triple comes twice, the numbers rise up to the last
one given, and each index files exactly the triples there are. -/
structure Sound (ledger : Ledger) : Prop where
  distinct : ledger.triples.Nodup
  rising : (ledger.entries.map (·.2)).Pairwise (· < ·)
  bounded : ∀ entry ∈ ledger.entries, entry.2 ≤ ledger.last
  subjects : ledger.bySubject.Files Triple.subject ledger.triples
  predicates : ledger.byPredicate.Files Triple.predicate ledger.triples
  objects : ledger.byObject.Files Triple.object ledger.triples

theorem has_iff (ledger : Ledger) (triple : Triple) :
    ledger.has triple = true ↔ triple ∈ ledger.triples := by
  simp [has, number?, triples, List.find?_isSome]

theorem triples_add (ledger : Ledger) (triple : Triple) :
    (ledger.add triple).triples =
      if triple ∈ ledger.triples then ledger.triples else ledger.triples ++ [triple] := by
  unfold add
  by_cases present : triple ∈ ledger.triples
  · rw [if_pos ((ledger.has_iff triple).mpr present), if_pos present]
  · rw [if_neg fun has => present ((ledger.has_iff triple).mp has), if_neg present]
    simp [triples]

theorem triples_remove (ledger : Ledger) (triple : Triple) :
    (ledger.remove triple).triples = ledger.triples.filter (· ≠ triple) := by
  unfold remove
  by_cases present : triple ∈ ledger.triples
  · rw [if_pos ((ledger.has_iff triple).mpr present)]
    simp only [triples, List.filter_map]
    rfl
  · rw [if_neg fun has => present ((ledger.has_iff triple).mp has)]
    refine (List.filter_eq_self.mpr ?_).symm
    intro other member
    exact decide_eq_true fun same => present (same ▸ member)

theorem sound_blank (last : Nat) : (blank last).Sound where
  distinct := List.nodup_nil
  rising := List.Pairwise.nil
  bounded := by simp [blank]
  subjects := Index.files_empty _
  predicates := Index.files_empty _
  objects := Index.files_empty _

theorem Sound.add {ledger : Ledger} (sound : ledger.Sound) (triple : Triple) :
    (ledger.add triple).Sound := by
  unfold Ledger.add
  by_cases present : triple ∈ ledger.triples
  · rw [if_pos ((ledger.has_iff triple).mpr present)]
    exact sound
  · rw [if_neg fun has => present ((ledger.has_iff triple).mp has)]
    have listed : (ledger.entries ++ [(triple, ledger.last + 1)]).map (·.1) =
        ledger.triples ++ [triple] := by simp [triples]
    constructor
    · show ((ledger.entries ++ [(triple, ledger.last + 1)]).map (·.1)).Nodup
      rw [listed]
      exact Store.nodup_append_new sound.distinct present
    · show ((ledger.entries ++ [(triple, ledger.last + 1)]).map (·.2)).Pairwise (· < ·)
      rw [List.map_append, List.pairwise_append]
      refine ⟨sound.rising, by simp, ?_⟩
      intro number member next last
      obtain ⟨entry, held, rfl⟩ := List.mem_map.mp member
      have bound := sound.bounded entry held
      simp only [List.map_cons, List.map_nil, List.mem_singleton] at last
      omega
    · intro entry member
      rcases List.mem_append.mp member with old | new
      · have bound := sound.bounded entry old
        exact Nat.le_succ_of_le bound
      · obtain rfl := List.mem_singleton.mp new
        exact Nat.le_refl _
    · show (ledger.bySubject.fileNew triple.subject triple).Files _ (List.map _ _)
      rw [listed]
      exact sound.subjects.fileNew present
    · show (ledger.byPredicate.fileNew triple.predicate triple).Files _ (List.map _ _)
      rw [listed]
      exact sound.predicates.fileNew present
    · show (ledger.byObject.fileNew triple.object triple).Files _ (List.map _ _)
      rw [listed]
      exact sound.objects.fileNew present

theorem Sound.remove {ledger : Ledger} (sound : ledger.Sound) (triple : Triple) :
    (ledger.remove triple).Sound := by
  have listed := ledger.triples_remove triple
  unfold Ledger.remove at listed ⊢
  by_cases present : ledger.has triple
  · rw [if_pos present] at listed ⊢
    constructor
    · rw [listed]
      exact sound.distinct.filter _
    · exact sound.rising.sublist (List.filter_sublist.map _)
    · intro entry member
      exact sound.bounded entry (List.mem_filter.mp member).1
    · rw [listed]
      exact sound.subjects.drop sound.distinct triple
    · rw [listed]
      exact sound.predicates.drop sound.distinct triple
    · rw [listed]
      exact sound.objects.drop sound.distinct triple
  · rw [if_neg present]
    exact sound

end Ledger

/-- A ledger whose parts are tied together, and whether the store is connected. -/
structure MemoryStore where
  ledger : Ledger
  sound : ledger.Sound
  connected : Bool

namespace MemoryStore

def empty : MemoryStore := ⟨.blank 0, Ledger.sound_blank 0, true⟩

def triples (store : MemoryStore) : List Triple := store.ledger.triples

/-- The store with a triple at the end, unchanged if it has it. -/
def insert (store : MemoryStore) (triple : Triple) : MemoryStore :=
  { store with ledger := store.ledger.add triple, sound := store.sound.add triple }

def erase (store : MemoryStore) (triple : Triple) : MemoryStore :=
  { store with ledger := store.ledger.remove triple, sound := store.sound.remove triple }

/-- The triples that fit a pattern, in the order they came. -/
def search (store : MemoryStore) (pattern : Pattern) : List Triple :=
  store.ledger.search pattern

/-- The store without triples. Numbers are not given again. -/
def clear (store : MemoryStore) : MemoryStore :=
  { store with ledger := .blank store.ledger.last, sound := Ledger.sound_blank _ }

def ofList (triples : List Triple) : MemoryStore :=
  triples.foldl insert empty

end MemoryStore

instance : TripleStore MemoryStore where
  listing := MemoryStore.triples
  search := MemoryStore.search
  insert := MemoryStore.insert
  erase := MemoryStore.erase
  clear := MemoryStore.clear
  count := fun store => store.ledger.entries.length
  connected := MemoryStore.connected
  connect := fun store => { store with connected := true }
  close := fun store => { store with connected := false }
  access := id

end CodeFacts

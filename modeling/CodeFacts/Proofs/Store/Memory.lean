import CodeFacts.Proofs.Store.Plain
import CodeFacts.Store.Memory
import Mathlib.Data.List.Nodup

/-!
A search through the indexes of a ledger finds what reading through its triples finds, in the same
order. A memory store therefore answers and changes as the plain store of its triples does.
-/

namespace CodeFacts

namespace Ledger

/-- What was found so far, where nothing was looked for yet, is all triples; what was found is the
triples that pass a test, in any order. -/
def Answers (triples : List Triple) (test : Triple → Bool) : Option (List Triple) → Prop
  | none => ∀ triple ∈ triples, test triple = true
  | some found => found.Perm (triples.filter test)

theorem narrow_answers {triples : List Triple} {test : Triple → Bool}
    {found : Option (List Triple)} {index : Index Triple} {term : Triple → String}
    (files : index.Files term triples) (answers : Answers triples test found)
    (asked : Option String) :
    Answers triples (fun triple => test triple && agrees asked (term triple))
      (narrow index asked found) := by
  cases asked with
  | none => simpa [agrees, narrow] using answers
  | some wanted =>
      have filed (triple : Triple) (member : triple ∈ triples) :
          (wanted == term triple) = decide (triple ∈ index.find wanted) := by
        simp [files.mem_find, member, Bool.beq_eq_decide_eq, eq_comm]
      cases found with
      | none =>
          refine (files wanted).trans (List.Perm.of_eq (List.filter_congr ?_))
          intro triple member
          have passed : test triple = true := answers triple member
          simp only [agrees, passed, Bool.true_and]
          exact Bool.beq_comm
      | some found =>
          refine (List.Perm.filter _ answers).trans (List.Perm.of_eq ?_)
          rw [List.filter_filter]
          apply List.filter_congr
          intro triple member
          rw [Bool.and_comm, agrees, filed triple member]

theorem candidates_answers {ledger : Ledger} (sound : ledger.Sound) (pattern : Pattern) :
    Answers ledger.triples pattern.holds (ledger.candidates? pattern) := by
  have all : Answers ledger.triples (fun _ => true) none := fun _ _ => rfl
  have bySubject := narrow_answers sound.subjects all pattern.subject?
  have byPredicate := narrow_answers sound.predicates bySubject pattern.predicate?
  have byObject := narrow_answers sound.objects byPredicate pattern.object?
  simp only [Bool.true_and] at byObject
  exact byObject

theorem Sound.number_of_mem {ledger : Ledger} (sound : ledger.Sound) {triple : Triple}
    {number : Nat} (entered : (triple, number) ∈ ledger.entries) :
    ledger.number? triple = some number := by
  unfold number?
  cases located : ledger.entries.find? fun entry => decide (entry.1 = triple) with
  | none =>
      have missing := List.find?_eq_none.mp located _ entered
      simp at missing
  | some entry =>
      have same := List.find?_some located
      rw [decide_eq_true_eq] at same
      have equal := List.inj_on_of_nodup_map sound.distinct (List.mem_of_find?_eq_some located)
        entered same
      rw [equal]
      rfl

/-- The number of a triple of the ledger; zero stands for none. -/
def number (ledger : Ledger) (triple : Triple) : Nat := (ledger.number? triple).getD 0

theorem Sound.number_rising {ledger : Ledger} (sound : ledger.Sound) :
    ledger.triples.Pairwise fun left right => ledger.number left < ledger.number right := by
  unfold triples
  rw [List.pairwise_map]
  refine (List.pairwise_map.mp sound.rising).imp_of_mem ?_
  intro left right leftEntered rightEntered rises
  rw [number, number, sound.number_of_mem leftEntered, sound.number_of_mem rightEntered]
  exact rises

theorem Sound.number_injective {ledger : Ledger} (sound : ledger.Sound) {left right : Triple}
    (leftStored : left ∈ ledger.triples) (rightStored : right ∈ ledger.triples)
    (same : ledger.number left = ledger.number right) : left = right := by
  obtain ⟨first, firstEntered, rfl⟩ := List.mem_map.mp leftStored
  obtain ⟨second, secondEntered, rfl⟩ := List.mem_map.mp rightStored
  rw [number, number, sound.number_of_mem firstEntered, sound.number_of_mem secondEntered] at same
  have distinct : (ledger.entries.map (·.2)).Nodup := sound.rising.imp Nat.ne_of_lt
  rw [List.inj_on_of_nodup_map distinct firstEntered secondEntered same]

theorem Sound.inOrder_eq {ledger : Ledger} (sound : ledger.Sound) {found : List Triple}
    {test : Triple → Bool} (answers : found.Perm (ledger.triples.filter test)) :
    ledger.inOrder found = ledger.triples.filter test := by
  -- Both sides are the same triples by rising numbers, and the numbers tell triples apart.
  have arranged : (ledger.inOrder found).Perm (ledger.triples.filter test) :=
    (List.mergeSort_perm found _).trans answers
  have sorted : (ledger.inOrder found).Pairwise fun left right =>
      decide (ledger.number left ≤ ledger.number right) = true := by
    apply List.pairwise_mergeSort
    · intro first second third
      simp only [decide_eq_true_eq]
      exact Nat.le_trans
    · intro first second
      simp only [Bool.or_eq_true, decide_eq_true_eq]
      exact Nat.le_total _ _
  have kept : (ledger.triples.filter test).Pairwise fun left right =>
      decide (ledger.number left ≤ ledger.number right) = true := by
    refine (List.Pairwise.filter test sound.number_rising).imp ?_
    intro left right rises
    exact decide_eq_true (Nat.le_of_lt rises)
  refine List.Perm.eq_of_pairwise ?_ sorted kept arranged
  intro left right leftFound rightKept below above
  have leftStored := (List.mem_filter.mp (arranged.mem_iff.mp leftFound)).1
  have rightStored := (List.mem_filter.mp rightKept).1
  exact sound.number_injective leftStored rightStored
    (Nat.le_antisymm (of_decide_eq_true below) (of_decide_eq_true above))

theorem Sound.search_eq {ledger : Ledger} (sound : ledger.Sound) (pattern : Pattern) :
    ledger.search pattern = ledger.triples.filter pattern.holds := by
  have answers := candidates_answers sound pattern
  unfold search
  cases found : ledger.candidates? pattern with
  | none =>
      rw [found] at answers
      exact (List.filter_eq_self.mpr answers).symm
  | some candidates =>
      rw [found] at answers
      exact sound.inOrder_eq answers

end Ledger

namespace MemoryStore

/-- The plain store of the triples of a memory store. -/
def toPlain (store : MemoryStore) : PlainStore := ⟨store.triples, store.sound.distinct⟩

/-- A memory store answers and changes as the plain store of its triples does. -/
def view : StoreMap MemoryStore PlainStore where
  map := toPlain
  listing_map := fun _ => rfl
  search_map := fun store pattern => (store.sound.search_eq pattern).symm
  count_map := fun _ => List.length_map _
  insert_map := by
    intro store triple
    apply PlainStore.ext
    exact (store.toPlain.triples_insert triple).trans (store.ledger.triples_add triple).symm
  erase_map := by
    intro store triple
    apply PlainStore.ext
    exact (store.ledger.triples_remove triple).symm
  clear_map := fun _ => rfl

end MemoryStore

end CodeFacts

import CodeFacts.Proofs.Store.Contents
import CodeFacts.Proofs.Text.Digest
import CodeFacts.Store.Keyed

/-!
The key of a triple tells its sort and its terms as long as the separators in them stay countable:
of triples whose subjects, and whose predicates, hold equally many separators no two share a text to
take the digest of. A keyed store that is asked for such triples only answers as the memory store
does. Where a separator moves from one term to the next, two triples have one key.
-/

namespace CodeFacts

/-- What stands before a mark and behind it is settled by the number of marks before it. -/
theorem eq_of_append_mark {α : Type} [DecidableEq α] {mark : α} {front front' rest rest' : List α}
    (same : front ++ mark :: rest = front' ++ mark :: rest')
    (counts : front.count mark = front'.count mark) : front = front' ∧ rest = rest' := by
  induction front generalizing front' with
  | nil =>
      cases front' with
      | nil => exact ⟨rfl, (List.cons.inj same).2⟩
      | cons first more =>
          obtain ⟨rfl, _⟩ := List.cons.inj same
          simp at counts
  | cons first more ih =>
      cases front' with
      | nil =>
          obtain ⟨rfl, _⟩ := List.cons.inj same
          simp at counts
      | cons other others =>
          obtain ⟨rfl, later⟩ := List.cons.inj same
          simp only [List.count_cons, Nat.add_right_cancel_iff] at counts
          obtain ⟨rfl, rest_same⟩ := ih later counts
          exact ⟨rfl, rest_same⟩

namespace Triple

/-- How many separators the subject holds, and how many the predicate. -/
def separators (triple : Triple) : Nat × Nat :=
  (triple.subject.toList.count '\x1f', triple.predicate.toList.count '\x1f')

theorem toList_keyText (triple : Triple) :
    triple.keyText.toList = (if triple.literal then 'L' else 'R') :: '\x1f' ::
      (triple.subject.toList ++ '\x1f' ::
        (triple.predicate.toList ++ '\x1f' :: triple.object.toList)) := by
  obtain ⟨subject, predicate, object, literal⟩ := triple
  rw [keyText, String.toList_intercalate]
  cases literal <;> simp

theorem eq_of_keyText {one other : Triple} (even : one.separators = other.separators)
    (same : one.keyText = other.keyText) : one = other := by
  obtain ⟨subject, predicate, object, literal⟩ := one
  obtain ⟨subject', predicate', object', literal'⟩ := other
  obtain ⟨subjects, predicates⟩ := Prod.mk.inj even
  have texts := congrArg String.toList same
  rw [toList_keyText, toList_keyText] at texts
  -- The sort is one character; subject and predicate end where the counts of separators say.
  obtain ⟨sorts, texts⟩ := List.cons.inj texts
  obtain ⟨first, texts⟩ := eq_of_append_mark (List.cons.inj texts).2 subjects
  obtain ⟨second, third⟩ := eq_of_append_mark texts predicates
  obtain rfl := String.toList_injective first
  obtain rfl := String.toList_injective second
  obtain rfl := String.toList_injective third
  obtain rfl : literal = literal' := by
    cases literal <;> cases literal' <;> simp at sorts ⊢
  rfl

/-- Triples with equally many separators have different keys, if the digest is different for the
different texts of their keys. -/
theorem eq_of_key {asked : List Triple} (apart : Text.Digest.Apart (asked.map keyText))
    (even : ∀ one ∈ asked, ∀ other ∈ asked, one.separators = other.separators) {one other : Triple}
    (listed : one ∈ asked) (other_listed : other ∈ asked) (same : one.key = other.key) :
    one = other :=
  eq_of_keyText (even one listed other other_listed)
    (apart.eq_of_hexOf (List.mem_map_of_mem listed) (List.mem_map_of_mem other_listed) same)

end Triple

open TableLibrary

/-- What a database promises of a table: its rows have different keys, changes change the row of one
key, and a search gives the triple of each row that fits. -/
class LawfulTableLibrary (τ : Type) [TableLibrary τ] : Prop where
  rows_created : rows (created : τ) = []
  nodup_keys : ∀ table : τ, ((rows table).map (·.1)).Nodup
  mem_merge : ∀ (table : τ) (key : String) (triple : Triple) (row : String × Triple),
    row ∈ rows (merge table key triple) ↔
      row ∈ rows table ∨ key ∉ (rows table).map (·.1) ∧ row = (key, triple)
  mem_delete : ∀ (table : τ) (key : String) (row : String × Triple),
    row ∈ rows (delete table key) ↔ row ∈ rows table ∧ row.1 ≠ key
  rows_deleteAll : ∀ table : τ, rows (deleteAll table) = []
  find_perm : ∀ (table : τ) (pattern : Pattern),
    (find table pattern).Perm (((rows table).map (·.2)).filter pattern.holds)
  count_eq : ∀ table : τ, count table = (rows table).length

instance : LawfulTableLibrary RowList where
  rows_created := rfl
  nodup_keys := RowList.distinct
  mem_merge := by
    intro table key triple row
    show row ∈ (table.merge key triple).rows ↔ row ∈ table.rows ∨ key ∉ table.rows.map _ ∧ _
    unfold RowList.merge
    split
    · rename_i present
      exact (or_iff_left fun new => new.1 present).symm
    · rename_i absent
      exact List.mem_append.trans (or_congr_right (List.mem_singleton.trans
        (and_iff_right absent).symm))
  mem_delete := by
    intro table key row
    show row ∈ table.rows.filter _ ↔ row ∈ table.rows ∧ _
    rw [List.mem_filter, bne_iff_ne]
  rows_deleteAll := fun _ => rfl
  find_perm := fun _ _ => List.Perm.refl _
  count_eq := fun _ => rfl

namespace KeyedStore

variable {τ : Type} [TableLibrary τ]

/-- The rows of the open table. -/
def rows (store : KeyedStore τ) : List (String × Triple) := TableLibrary.rows store.access.table

theorem connected_access (store : KeyedStore τ) : store.access.connected = true := by
  unfold access
  split
  · assumption
  · rfl

theorem rows_of_open (table : τ) (store : KeyedStore τ) :
    rows { store.access with table := table } = TableLibrary.rows table := by
  unfold rows
  rw [access, if_pos (connected_access store)]

/-- Whether every row is filed under the key of its triple, and has one of the triples asked for. -/
def Filed (asked : List Triple) (store : KeyedStore τ) : Prop :=
  ∀ row ∈ store.rows, row.1 = row.2.key ∧ row.2 ∈ asked

theorem Filed.mem_rows {asked : List Triple} {store : KeyedStore τ} (filed : Filed asked store)
    (triple : Triple) : triple ∈ store.rows.map (·.2) ↔ (triple.key, triple) ∈ store.rows := by
  constructor
  · intro member
    obtain ⟨⟨key, other⟩, held, rfl⟩ := List.mem_map.mp member
    obtain rfl : key = other.key := (filed _ held).1
    exact held
  · intro held
    exact List.mem_map_of_mem held

theorem Filed.of_rows {asked : List Triple} {store : KeyedStore τ} (none : store.rows = []) :
    Filed asked store := by
  intro row held
  rw [none] at held
  cases held

variable [LawfulTableLibrary τ]

open LawfulTableLibrary

theorem Filed.mem_search {asked : List Triple} {store : KeyedStore τ} (filed : Filed asked store)
    (pattern : Pattern) (triple : Triple) :
    triple ∈ store.search pattern ↔
      (triple.key, triple) ∈ store.rows ∧ pattern.holds triple = true := by
  rw [search, (find_perm store.access.table pattern).mem_iff, List.mem_filter]
  exact and_congr_left fun _ => filed.mem_rows triple

theorem Filed.has_iff {asked : List Triple} {store : KeyedStore τ} (filed : Filed asked store)
    (triple : Triple) : Store.Has store triple ↔ (triple.key, triple) ∈ store.rows :=
  (filed.mem_search Pattern.any triple).trans (and_iff_left rfl)

theorem Filed.nodup {asked : List Triple} {store : KeyedStore τ} (filed : Filed asked store) :
    (store.rows.map (·.2)).Nodup := by
  have keys : (store.rows.map (·.2)).map Triple.key = store.rows.map (·.1) := by
    rw [List.map_map]
    exact List.map_congr_left fun row held => (filed row held).1.symm
  apply List.Nodup.of_map Triple.key
  rw [keys]
  exact nodup_keys store.access.table

theorem mem_rows_insert (store : KeyedStore τ) (triple : Triple) (row : String × Triple) :
    row ∈ (store.insert triple).rows ↔
      row ∈ store.rows ∨ triple.key ∉ store.rows.map (·.1) ∧ row = (triple.key, triple) := by
  rw [insert, rows_of_open]
  exact mem_merge _ _ _ _

theorem mem_rows_erase (store : KeyedStore τ) (triple : Triple) (row : String × Triple) :
    row ∈ (store.erase triple).rows ↔ row ∈ store.rows ∧ row.1 ≠ triple.key := by
  rw [erase, rows_of_open]
  exact mem_delete _ _ _

theorem rows_clear (store : KeyedStore τ) : store.clear.rows = [] := by
  rw [clear, rows_of_open]
  exact rows_deleteAll _

theorem Filed.insert {asked : List Triple} {store : KeyedStore τ} {triple : Triple}
    (filed : Filed asked store) (listed : triple ∈ asked) : Filed asked (store.insert triple) := by
  intro row held
  rcases (mem_rows_insert store triple row).mp held with old | ⟨_, rfl⟩
  · exact filed row old
  · exact ⟨rfl, listed⟩

theorem Filed.erase {asked : List Triple} {store : KeyedStore τ} (filed : Filed asked store)
    (triple : Triple) : Filed asked (store.erase triple) := by
  intro row held
  exact filed row ((mem_rows_erase store triple row).mp held).1

theorem not_has_of_rows {store : KeyedStore τ} (none : store.rows = []) (triple : Triple) :
    ¬Store.Has store triple := by
  intro has
  have held := ((Filed.of_rows none : Filed [] store).has_iff triple).mp has
  rw [none] at held
  cases held

theorem rows_closed : (closed : KeyedStore τ).rows = [] := rows_created

/-- A keyed store is the set of its triples as long as the triples it is asked for have different
keys. -/
theorem isSet {asked : List Triple}
    (distinct : ∀ one ∈ asked, ∀ other ∈ asked, one.key = other.key → one = other) :
    Store.IsSet (Filed asked : KeyedStore τ → Prop) (· ∈ asked) where
  valid_insert := Filed.insert
  valid_erase := fun filed _ => filed.erase _
  valid_clear := fun _ => Filed.of_rows (rows_clear _)
  has_insert := by
    intro store triple filed listed other
    refine ((filed.insert listed).has_iff other).trans ?_
    rw [filed.has_iff, mem_rows_insert]
    refine or_congr_right' fun missing => ?_
    constructor
    · rintro ⟨_, same⟩
      exact (Prod.mk.inj same).2
    · rintro rfl
      refine ⟨fun taken => missing ?_, rfl⟩
      -- The row that has the key is one of the same triple, as no other has its key.
      obtain ⟨⟨key, holder⟩, held, rfl⟩ := List.mem_map.mp taken
      obtain ⟨filed_under, holder_listed⟩ := filed _ held
      obtain rfl := distinct other listed holder holder_listed filed_under
      exact held
  has_erase := by
    intro store triple filed listed other
    refine ((filed.erase triple).has_iff other).trans ?_
    rw [filed.has_iff, mem_rows_erase]
    refine and_congr_right fun held => not_congr ?_
    constructor
    · exact distinct other (filed _ held).2 triple listed
    · exact congrArg Triple.key
  has_clear := by
    intro store _
    exact not_has_of_rows store.rows_clear
  mem_search := by
    intro store filed pattern triple
    rw [filed.has_iff]
    exact filed.mem_search pattern triple
  nodup_search := by
    intro store filed pattern
    exact (find_perm store.access.table pattern).nodup_iff.mpr (filed.nodup.filter _)
  count_eq := by
    intro store _
    show count store.access.table = (find store.access.table Pattern.any).length
    rw [count_eq, (find_perm _ _).length_eq]
    show _ = (List.filter (fun _ => true) _).length
    rw [List.filter_true, List.length_map]

/-- Triples with equally many separators in their subjects, and in their predicates, have different
keys, if the digest tells the texts of their keys apart. After any edits with such triples a keyed
store has refused and counted what the memory store has, every search finds the same triples, each
once, and adding or removing a triple stores it or takes it out and leaves the others. -/
theorem keeps_triples_apart {asked : List Triple}
    (apart : Text.Digest.Apart (asked.map Triple.keyText))
    (even : ∀ one ∈ asked, ∀ other ∈ asked, one.separators = other.separators) :
    (∀ one ∈ asked, ∀ other ∈ asked, one ≠ other → one.key ≠ other.key) ∧
      ∀ edits : List Store.Edit,
        (∀ request ∈ edits, ∀ triples, request.triples = .ok triples → triples ⊆ asked) →
        Store.AnswerAlike (closed : KeyedStore τ) MemoryStore.empty edits ∧
        ∀ triple ∈ asked, ∀ other,
          let store := Store.edited (closed : KeyedStore τ) edits
          (Store.Has (store.insert triple) other ↔ Store.Has store other ∨ other = triple) ∧
            (Store.Has (store.erase triple) other ↔ Store.Has store other ∧ other ≠ triple) := by
  have distinct : ∀ one ∈ asked, ∀ other ∈ asked, one.key = other.key → one = other :=
    fun one listed other other_listed => Triple.eq_of_key apart even listed other_listed
  refine ⟨fun one listed other other_listed => mt (distinct one listed other other_listed), ?_⟩
  intro edits within
  have set : Store.IsSet (Filed asked : KeyedStore τ → Prop) (· ∈ asked) := isSet distinct
  have start : Store.SameTriples (Filed asked : KeyedStore τ → Prop) (fun _ => True) closed
      MemoryStore.empty :=
    ⟨Filed.of_rows rows_closed, trivial, fun triple =>
      iff_of_false (not_has_of_rows rows_closed triple) (MemoryStore.has_empty triple)⟩
  refine ⟨start.answerAlike set (MemoryStore.isSet _) within, ?_⟩
  intro triple listed other store
  have filed : Filed asked store := (start.edited set (MemoryStore.isSet _) within).2.valid_one
  exact ⟨set.has_insert filed listed other, set.has_erase filed listed other⟩

/-- A text as a resource and as a literal. -/
theorem resourceAndLiteral_kept_apart :
    let edits : List Store.Edit := [.addResource (.text "a") (.text "p") (.text "b"),
      .addLiteral (.text "a") (.text "p") (.text "b"),
      .removeResource (.text "a") (.text "p") (.text "b")]
    Text.Digest.Apart ([⟨"a", "p", "b", false⟩, ⟨"a", "p", "b", true⟩].map Triple.keyText) ∧
      Store.AnswerAlike (closed : KeyedStore RowList) MemoryStore.empty edits := by
  intro edits
  have apart : Text.Digest.Apart
      ([⟨"a", "p", "b", false⟩, ⟨"a", "p", "b", true⟩].map Triple.keyText) := by
    decide +kernel
  refine ⟨apart, ((keeps_triples_apart apart (by decide)).2 edits ?_).1⟩
  intro request listed triples made
  simp only [edits, List.mem_cons, List.not_mem_nil, or_false] at listed
  rcases listed with rfl | rfl | rfl
  · obtain rfl : [⟨"a", "p", "b", false⟩] = triples := Except.ok.inj made
    simp
  · obtain rfl : [⟨"a", "p", "b", true⟩] = triples := Except.ok.inj made
    simp
  · obtain rfl : [⟨"a", "p", "b", false⟩] = triples := Except.ok.inj made
    simp

/-- A separator that moves from the subject to the predicate is lost in the key: the second triple
is not stored beside the first, and removing it takes the first out. -/
theorem movedSeparator_confused :
    let first : Triple := ⟨"a\x1fb", "c", "d", false⟩
    let second : Triple := ⟨"a", "b\x1fc", "d", false⟩
    let addFirst : Store.Edit := .addResource (.text "a\x1fb") (.text "c") (.text "d")
    let addSecond : Store.Edit := .addResource (.text "a") (.text "b\x1fc") (.text "d")
    let counts (edits : List Store.Edit) : List Nat :=
      (Store.answers (closed : KeyedStore RowList) edits).map (·.2)
    Store.WellTermed first ∧ Store.WellTermed second ∧ first ≠ second ∧ first.key = second.key ∧
      counts [addFirst, addSecond] = [1, 1] ∧
      counts [addFirst, Store.removal second] = [1, 0] ∧
      (Store.answers MemoryStore.empty [addFirst, addSecond]).map (·.2) = [1, 2] ∧
      (Store.answers MemoryStore.empty [addFirst, Store.removal second]).map (·.2) = [1, 1] := by
  intro first second addFirst addSecond counts
  have same : first.keyText = second.keyText := by decide +kernel
  refine ⟨⟨by decide, by decide, by decide⟩, ⟨by decide, by decide, by decide⟩, by decide,
    congrArg Text.Digest.hexOf same, ?_, ?_, ?_, ?_⟩
  · decide +kernel
  · decide +kernel
  · decide +kernel
  · decide +kernel

end KeyedStore

end CodeFacts

import CodeFacts.Fault
import CodeFacts.Triple

/-!
What a store of triples offers, and the checked operations on it. Terms come as untrusted values;
every check of an operation is made before the store changes.
-/

namespace CodeFacts

/-- A store of triples. It has each triple at most once. -/
class TripleStore (σ : Type) where
  /-- Every triple, in the order answers list them. -/
  listing : σ → List Triple
  /-- The triples that fit a pattern. -/
  search : σ → Pattern → List Triple
  /-- The store with a triple, unchanged if it has it. -/
  insert : σ → Triple → σ
  /-- The store without a triple, unchanged if it lacks it. -/
  erase : σ → Triple → σ
  /-- The store without triples. -/
  clear : σ → σ
  /-- The number of triples. -/
  count : σ → Nat
  /-- Whether the store is connected to what holds its triples. -/
  connected : σ → Bool
  /-- The store connected anew. -/
  connect : σ → σ
  /-- The store released. -/
  close : σ → σ
  /-- The store as any access leaves it. -/
  access : σ → σ

namespace Store

theorem nodup_append_new {α : Type} {items : List α} (distinct : items.Nodup) {item : α}
    (absent : item ∉ items) : (items ++ [item]).Nodup := by
  rw [List.nodup_append]
  refine ⟨distinct, by simp, ?_⟩
  intro other member last final same
  rw [List.mem_singleton.mp final] at same
  exact absent (same ▸ member)

open TripleStore

variable {σ : Type} [TripleStore σ]

/-- A term that must be a text with characters. -/
def checkTerm (role : TermRole) (term : Value) : Except Fault String :=
  match term with
  | .text value => if value = "" then .error (.malformed role term) else .ok value
  | _ => .error (.malformed role term)

/-- A literal, which must be a text. -/
def checkLiteral (term : Value) : Except Fault String :=
  match term with
  | .text value => .ok value
  | _ => .error (.malformed .literal term)

def resourceTriple (subject predicate object : Value) : Except Fault Triple := do
  let subject ← checkTerm .subject subject
  let predicate ← checkTerm .predicate predicate
  let object ← checkTerm .object object
  return ⟨subject, predicate, object, false⟩

def literalTriple (subject predicate literal : Value) : Except Fault Triple := do
  let subject ← checkTerm .subject subject
  let predicate ← checkTerm .predicate predicate
  let literal ← checkLiteral literal
  return ⟨subject, predicate, literal, true⟩

def addResource (store : σ) (subject predicate object : Value) : Except Fault σ :=
  (resourceTriple subject predicate object).map (insert store)

def addLiteral (store : σ) (subject predicate literal : Value) : Except Fault σ :=
  (literalTriple subject predicate literal).map (insert store)

/-- The store with one literal triple for each value of a list, or for each name of a record. A bare
text is no list. -/
def addCollection (store : σ) (subject predicate values : Value) : Except Fault σ :=
  match values with
  | .text _ => .error (.malformed .collection values)
  | _ =>
      match values.items? with
      | none => .error (.unsupported .operation)
      | some items => do
          let triples ← items.mapM (literalTriple subject predicate)
          return triples.foldl insert store

def removeResource (store : σ) (subject predicate object : Value) : Except Fault σ :=
  (resourceTriple subject predicate object).map (erase store)

def removeLiteral (store : σ) (subject predicate literal : Value) : Except Fault σ :=
  (literalTriple subject predicate literal).map (erase store)

/-- The matches of a search, and the store after each of them was removed. -/
def drain (store : σ) (pattern : Pattern) : List Triple × σ :=
  let found := search store pattern
  (found, found.foldl erase store)

/-- The pattern of unchecked terms; a missing one is open, and no triple has one that is no text. -/
def patternOf? (subject predicate object : Value) : Option Pattern := do
  let asked : Value → Option (Option String)
    | .null => some none
    | .text term => some (some term)
    | _ => none
  return ⟨← asked subject, ← asked predicate, ← asked object⟩

def searchValues (store : σ) (subject predicate object : Value) : List Triple :=
  (patternOf? subject predicate object).elim [] (search store)

/-- The triples with unchecked terms, and the store after each of them was removed. -/
def drainValues (store : σ) (subject predicate object : Value) : List Triple × σ :=
  (patternOf? subject predicate object).elim ([], store) (drain store)

/-- How many triples a search of the whole store finds. -/
def total (store : σ) : Nat := (search store Pattern.any).length

/-- How many triples a store has for each predicate. -/
def predicateCounts (store : σ) : List (String × Nat) :=
  let predicates := (search store Pattern.any).map (·.predicate)
  predicates.eraseDups.map fun predicate => (predicate, predicates.count predicate)

/-- The triples of a store that are not in a list, and those of the list it no longer has. -/
def changes (before : List Triple) (store : σ) : List Triple × List Triple :=
  let after := listing store
  (after.filter (· ∉ before), before.filter (· ∉ after))

/-- Whether the store is connected inside a block that uses it, and the store after the block. -/
def useOnce (store : σ) : Bool × σ :=
  let inside := if connected store then store else connect store
  (connected inside, close inside)

end Store

end CodeFacts

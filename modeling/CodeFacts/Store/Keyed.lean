import CodeFacts.Store.Basic
import CodeFacts.Text.Digest

/-!
A store that keeps a table of rows with a primary key in a database. The key of a triple is the
digest of its sort and its terms. The table lives in memory only: it is empty whenever it is opened,
closing gives it up, and any access opens a closed one.
-/

namespace CodeFacts

/-- The text whose digest is the key of a triple: its sort and its terms, a unit separator between
them. -/
def Triple.keyText (triple : Triple) : String :=
  "\x1f".intercalate
    [if triple.literal then "L" else "R", triple.subject, triple.predicate, triple.object]

def Triple.key (triple : Triple) : String := Text.Digest.hexOf triple.keyText

/-- What a database offers for a table of triples with keys. -/
class TableLibrary (τ : Type) where
  created : τ
  /-- The table with a row for a triple under a key, unchanged if the key is taken. -/
  merge : τ → (key : String) → Triple → τ
  /-- The table without the row of a key, unchanged if there is none. -/
  delete : τ → (key : String) → τ
  deleteAll : τ → τ
  /-- Every row, its key and its triple. -/
  rows : τ → List (String × Triple)
  /-- The triples of the rows that fit a pattern. -/
  find : τ → Pattern → List Triple
  /-- The number of rows. -/
  count : τ → Nat

/-- A table as the list of its rows, at most one for each key. -/
structure RowList where
  rows : List (String × Triple)
  distinct : (rows.map (·.1)).Nodup

namespace RowList

def merge (table : RowList) (key : String) (triple : Triple) : RowList :=
  if present : key ∈ table.rows.map (·.1) then table
  else
    ⟨table.rows ++ [(key, triple)], by
      rw [List.map_append]
      exact Store.nodup_append_new table.distinct present⟩

def delete (table : RowList) (key : String) : RowList :=
  ⟨table.rows.filter fun row => row.1 != key,
    table.distinct.sublist (List.filter_sublist.map _)⟩

end RowList

instance : TableLibrary RowList where
  created := ⟨[], List.nodup_nil⟩
  merge := RowList.merge
  delete := RowList.delete
  deleteAll := fun _ => ⟨[], List.nodup_nil⟩
  rows := RowList.rows
  find := fun table pattern => (table.rows.map (·.2)).filter pattern.holds
  count := fun table => table.rows.length

structure KeyedStore (τ : Type) where
  table : τ
  connected : Bool

namespace KeyedStore

variable {τ : Type} [TableLibrary τ]

def closed : KeyedStore τ := ⟨TableLibrary.created, false⟩

def opened : KeyedStore τ := ⟨TableLibrary.created, true⟩

/-- The table, opened if it is closed. -/
def access (store : KeyedStore τ) : KeyedStore τ :=
  if store.connected then store else opened

def insert (store : KeyedStore τ) (triple : Triple) : KeyedStore τ :=
  { store.access with table := TableLibrary.merge store.access.table triple.key triple }

def erase (store : KeyedStore τ) (triple : Triple) : KeyedStore τ :=
  { store.access with table := TableLibrary.delete store.access.table triple.key }

def search (store : KeyedStore τ) (pattern : Pattern) : List Triple :=
  TableLibrary.find store.access.table pattern

def clear (store : KeyedStore τ) : KeyedStore τ :=
  { store.access with table := TableLibrary.deleteAll store.access.table }

end KeyedStore

instance {τ : Type} [TableLibrary τ] : TripleStore (KeyedStore τ) where
  listing := fun store => Triple.sorted ((TableLibrary.rows store.access.table).map (·.2))
  search := KeyedStore.search
  insert := KeyedStore.insert
  erase := KeyedStore.erase
  clear := KeyedStore.clear
  count := fun store => TableLibrary.count store.access.table
  connected := KeyedStore.connected
  connect := fun _ => KeyedStore.opened
  close := fun _ => KeyedStore.closed
  access := KeyedStore.access

end CodeFacts

import CodeFacts.Store.Form
import CodeFacts.Store.Keyed
import CodeFacts.Store.Memory

/-!
A store chosen by name when the program runs.
-/

namespace CodeFacts

inductive Backend where
  | memory (store : MemoryStore)
  | graph (store : GraphStore EdgeList)
  | keyed (store : KeyedStore RowList)

namespace Backend

/-- The empty store of a name. No store can be looked up by a list or a record. -/
def ofName (name : Value) : Except Fault Backend :=
  match name with
  | .text "memory" => .ok (.memory .empty)
  | .text "rdflib" => .ok (.graph .empty)
  | .text "kuzudb" => .ok (.keyed .closed)
  | .list _ | .record _ => .error (.unsupported .operation)
  | name => .error (.value (.noBackend name.plain))

/-- A store with what a file holds. Only graphs are loaded, and no such file exists here. -/
def load (store : Backend) (path : String) : Except Fault Backend :=
  match store with
  | .graph _ => .error (.noFile .graph path)
  | _ => .error (.unsupported .part)

/-- The store a name and the file it should be loaded from stand for. -/
def open? (name : Value) (source : Option String) : Except Fault Backend := do
  match ← ofName name, source with
  | .graph store, some path => if path = "" then return .graph store else load (.graph store) path
  | store, _ => return store

/-- The triples of a store read back from a form they were written in, in a file at a place. Only
graphs are written. -/
def exchange (store : Backend) (form : GraphForm) (place : String) : Except Fault (List Triple) :=
  match store with
  | .graph store => form.exchange place store.triples
  | _ => .error (.unsupported .part)

end Backend

instance : TripleStore Backend where
  listing
    | .memory store => TripleStore.listing store
    | .graph store => TripleStore.listing store
    | .keyed store => TripleStore.listing store
  search
    | .memory store => TripleStore.search store
    | .graph store => TripleStore.search store
    | .keyed store => TripleStore.search store
  insert
    | .memory store => fun triple => .memory (TripleStore.insert store triple)
    | .graph store => fun triple => .graph (TripleStore.insert store triple)
    | .keyed store => fun triple => .keyed (TripleStore.insert store triple)
  erase
    | .memory store => fun triple => .memory (TripleStore.erase store triple)
    | .graph store => fun triple => .graph (TripleStore.erase store triple)
    | .keyed store => fun triple => .keyed (TripleStore.erase store triple)
  clear
    | .memory store => .memory (TripleStore.clear store)
    | .graph store => .graph (TripleStore.clear store)
    | .keyed store => .keyed (TripleStore.clear store)
  count
    | .memory store => TripleStore.count store
    | .graph store => TripleStore.count store
    | .keyed store => TripleStore.count store
  connected
    | .memory store => TripleStore.connected store
    | .graph store => TripleStore.connected store
    | .keyed store => TripleStore.connected store
  connect
    | .memory store => .memory (TripleStore.connect store)
    | .graph store => .graph (TripleStore.connect store)
    | .keyed store => .keyed (TripleStore.connect store)
  close
    | .memory store => .memory (TripleStore.close store)
    | .graph store => .graph (TripleStore.close store)
    | .keyed store => .keyed (TripleStore.close store)
  access
    | .memory store => .memory (TripleStore.access store)
    | .graph store => .graph (TripleStore.access store)
    | .keyed store => .keyed (TripleStore.access store)

end CodeFacts

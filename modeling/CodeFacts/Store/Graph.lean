import CodeFacts.Store.Basic

/-!
A store that keeps a graph of nodes in a library of graphs. A resource and a literal with the same
text are different nodes, so a search for an object text asks the graph for each of the two.
-/

namespace CodeFacts

/-- A node at the end of an edge. -/
inductive GraphNode where
  | resource (text : String)
  | literal (text : String)
  deriving DecidableEq

/-- The nodes an object text stands for, a resource and a literal. Without a text any node does. -/
def GraphNode.asked : Option String → List (Option GraphNode)
  | none => [none]
  | some text => [some (.resource text), some (.literal text)]

structure GraphEdge where
  subject : String
  predicate : String
  object : GraphNode
  deriving DecidableEq

namespace GraphEdge

def ofTriple (triple : Triple) : GraphEdge :=
  ⟨triple.subject, triple.predicate,
    if triple.literal then .literal triple.object else .resource triple.object⟩

def toTriple (edge : GraphEdge) : Triple :=
  match edge.object with
  | .resource text => ⟨edge.subject, edge.predicate, text, false⟩
  | .literal text => ⟨edge.subject, edge.predicate, text, true⟩

@[simp] theorem toTriple_ofTriple (triple : Triple) : (ofTriple triple).toTriple = triple := by
  obtain ⟨subject, predicate, object, literal⟩ := triple
  cases literal <;> rfl

@[simp] theorem ofTriple_toTriple (edge : GraphEdge) : ofTriple edge.toTriple = edge := by
  obtain ⟨subject, predicate, object⟩ := edge
  cases object <;> rfl

end GraphEdge

/-- The nodes a graph is asked for; a missing one is open. -/
structure EdgePattern where
  subject? : Option String
  predicate? : Option String
  object? : Option GraphNode

namespace EdgePattern

def any : EdgePattern := ⟨none, none, none⟩

/-- The pattern of one edge. -/
def exactly (edge : GraphEdge) : EdgePattern :=
  ⟨some edge.subject, some edge.predicate, some edge.object⟩

def holds (pattern : EdgePattern) (edge : GraphEdge) : Bool :=
  agrees pattern.subject? edge.subject && agrees pattern.predicate? edge.predicate &&
    (match pattern.object? with
    | none => true
    | some node => decide (node = edge.object))

end EdgePattern

/-- What a library of graphs offers. -/
class GraphLibrary (γ : Type) where
  empty : γ
  add : γ → GraphEdge → γ
  /-- The graph without the edges that fit a pattern. -/
  remove : γ → EdgePattern → γ
  /-- The edges that fit a pattern. -/
  edges : γ → EdgePattern → List GraphEdge
  /-- The number of edges. -/
  size : γ → Nat

/-- A graph as the list of its edges, each at most once. -/
structure EdgeList where
  edges : List GraphEdge
  distinct : edges.Nodup

namespace EdgeList

def add (graph : EdgeList) (edge : GraphEdge) : EdgeList :=
  if present : edge ∈ graph.edges then graph
  else ⟨graph.edges ++ [edge], Store.nodup_append_new graph.distinct present⟩

end EdgeList

instance : GraphLibrary EdgeList where
  empty := ⟨[], List.nodup_nil⟩
  add := EdgeList.add
  remove := fun graph pattern =>
    ⟨graph.edges.filter fun edge => !pattern.holds edge, graph.distinct.filter _⟩
  edges := fun graph pattern => graph.edges.filter pattern.holds
  size := fun graph => graph.edges.length

structure GraphStore (γ : Type) where
  graph : γ
  connected : Bool

namespace GraphStore

variable {γ : Type} [GraphLibrary γ]

def empty : GraphStore γ := ⟨GraphLibrary.empty, true⟩

/-- The triples of all edges. -/
def triples (store : GraphStore γ) : List Triple :=
  (GraphLibrary.edges store.graph .any).map GraphEdge.toTriple

/-- The triples that fit a pattern; an object text stands for a resource and for a literal. -/
def search (store : GraphStore γ) (pattern : Pattern) : List Triple :=
  (GraphNode.asked pattern.object?).flatMap fun object =>
    (GraphLibrary.edges store.graph ⟨pattern.subject?, pattern.predicate?, object⟩).map
      GraphEdge.toTriple

def insert (store : GraphStore γ) (triple : Triple) : GraphStore γ :=
  { store with graph := GraphLibrary.add store.graph (.ofTriple triple) }

def erase (store : GraphStore γ) (triple : Triple) : GraphStore γ :=
  { store with graph := GraphLibrary.remove store.graph (.exactly (.ofTriple triple)) }

def clear (store : GraphStore γ) : GraphStore γ :=
  { store with graph := GraphLibrary.remove store.graph .any }

def ofList (triples : List Triple) : GraphStore γ :=
  triples.foldl insert empty

end GraphStore

instance {γ : Type} [GraphLibrary γ] : TripleStore (GraphStore γ) where
  listing := fun store => Triple.sorted store.triples
  search := GraphStore.search
  insert := GraphStore.insert
  erase := GraphStore.erase
  clear := GraphStore.clear
  count := fun store => GraphLibrary.size store.graph
  connected := GraphStore.connected
  connect := fun store => { store with connected := true }
  close := fun store => { store with connected := false }
  access := id

end CodeFacts

import CodeFacts.Proofs.Store.Contents
import CodeFacts.Store.Graph

/-!
A graph store answers as the memory store does, if its library keeps a graph as a set of edges and
gives each edge of a search once. An object text of a search is asked for as a resource and as a
literal; no edge ends in both, so that no triple is given twice.
-/

namespace CodeFacts

open GraphLibrary

theorem agrees_some (wanted term : String) : agrees (some wanted) term = true ↔ wanted = term :=
  beq_iff_eq

namespace EdgePattern

@[simp] theorem any_holds (edge : GraphEdge) : EdgePattern.any.holds edge = true := rfl

theorem exactly_holds (edge other : GraphEdge) :
    (exactly edge).holds other = true ↔ edge = other := by
  obtain ⟨subject, predicate, object⟩ := edge
  obtain ⟨subject', predicate', object'⟩ := other
  simp only [holds, exactly, Bool.and_eq_true, agrees_some, decide_eq_true_eq,
    GraphEdge.mk.injEq, and_assoc]

/-- A triple has the object asked for where its edge ends in one of the nodes that stand for it. -/
theorem holds_asked (pattern : Pattern) (triple : Triple) :
    pattern.holds triple = true ↔ ∃ object ∈ GraphNode.asked pattern.object?,
      holds ⟨pattern.subject?, pattern.predicate?, object⟩ (.ofTriple triple) = true := by
  obtain ⟨subject?, predicate?, object?⟩ := pattern
  obtain ⟨subject, predicate, object, literal⟩ := triple
  simp only [Pattern.holds, holds, GraphEdge.ofTriple, Bool.and_eq_true]
  cases object? with
  | none => simp [GraphNode.asked, agrees]
  | some text => cases literal <;> simp [GraphNode.asked, agrees_some]

end EdgePattern

namespace GraphEdge

theorem ofTriple_injective : Function.Injective ofTriple :=
  Function.LeftInverse.injective toTriple_ofTriple

theorem toTriple_injective : Function.Injective toTriple :=
  Function.LeftInverse.injective ofTriple_toTriple

theorem toTriple_eq_iff (edge : GraphEdge) (triple : Triple) :
    edge.toTriple = triple ↔ edge = ofTriple triple := by
  constructor
  · rintro rfl
    exact (ofTriple_toTriple edge).symm
  · rintro rfl
    exact toTriple_ofTriple triple

end GraphEdge

/-- What a library of graphs promises: a graph is a set of edges, and a search gives each of its
edges that fits once. -/
class LawfulGraphLibrary (γ : Type) [GraphLibrary γ] : Prop where
  edges_empty : edges (empty : γ) .any = []
  mem_add : ∀ (graph : γ) (new edge : GraphEdge),
    edge ∈ edges (add graph new) .any ↔ edge ∈ edges graph .any ∨ edge = new
  mem_remove : ∀ (graph : γ) (pattern : EdgePattern) (edge : GraphEdge),
    edge ∈ edges (remove graph pattern) .any ↔ edge ∈ edges graph .any ∧ ¬pattern.holds edge = true
  mem_edges : ∀ (graph : γ) (pattern : EdgePattern) (edge : GraphEdge),
    edge ∈ edges graph pattern ↔ edge ∈ edges graph .any ∧ pattern.holds edge = true
  nodup_edges : ∀ (graph : γ) (pattern : EdgePattern), (edges graph pattern).Nodup
  size_eq : ∀ graph : γ, size graph = (edges graph .any).length

instance : LawfulGraphLibrary EdgeList where
  edges_empty := rfl
  mem_add := by
    intro graph new edge
    show edge ∈ (graph.add new).edges.filter _ ↔ edge ∈ graph.edges.filter _ ∨ _
    rw [List.mem_filter, List.mem_filter]
    simp only [EdgePattern.any_holds, and_true]
    unfold EdgeList.add
    split
    · rename_i present
      constructor
      · exact Or.inl
      · rintro (held | rfl)
        · exact held
        · exact present
    · exact List.mem_append.trans (or_congr_right List.mem_singleton)
  mem_remove := by
    intro graph pattern edge
    show edge ∈ (graph.edges.filter _).filter _ ↔ edge ∈ graph.edges.filter _ ∧ _
    simp only [List.mem_filter, EdgePattern.any_holds, and_true, Bool.not_eq_true',
      Bool.not_eq_true]
  mem_edges := by
    intro graph pattern edge
    show edge ∈ graph.edges.filter _ ↔ edge ∈ graph.edges.filter _ ∧ _
    simp only [List.mem_filter, EdgePattern.any_holds, and_true]
  nodup_edges := fun graph pattern => graph.distinct.filter _
  size_eq := by
    intro graph
    exact congrArg List.length (List.filter_true graph.edges).symm

namespace GraphStore

variable {γ : Type} [GraphLibrary γ] [LawfulGraphLibrary γ]

open LawfulGraphLibrary

theorem mem_search (store : GraphStore γ) (pattern : Pattern) (triple : Triple) :
    triple ∈ store.search pattern ↔
      GraphEdge.ofTriple triple ∈ edges store.graph .any ∧ pattern.holds triple = true := by
  have found (object : Option GraphNode) :
      triple ∈ (edges store.graph ⟨pattern.subject?, pattern.predicate?, object⟩).map
          GraphEdge.toTriple ↔
        GraphEdge.ofTriple triple ∈ edges store.graph .any ∧
          EdgePattern.holds ⟨pattern.subject?, pattern.predicate?, object⟩ (.ofTriple triple) := by
    simp only [List.mem_map, GraphEdge.toTriple_eq_iff, exists_eq_right]
    exact mem_edges _ _ _
  simp only [search, List.mem_flatMap, found, EdgePattern.holds_asked]
  constructor
  · rintro ⟨object, asked, held, fits⟩
    exact ⟨held, object, asked, fits⟩
  · rintro ⟨held, object, asked, fits⟩
    exact ⟨object, asked, held, fits⟩

theorem nodup_search (store : GraphStore γ) (pattern : Pattern) : (store.search pattern).Nodup := by
  have each (object : Option GraphNode) :
      ((edges store.graph ⟨pattern.subject?, pattern.predicate?, object⟩).map
        GraphEdge.toTriple).Nodup :=
    (nodup_edges _ _).map GraphEdge.toTriple_injective
  unfold search
  cases pattern.object? with
  | none =>
      rw [GraphNode.asked, List.flatMap_singleton]
      exact each none
  | some text =>
      rw [GraphNode.asked, List.flatMap_cons, List.flatMap_singleton, List.nodup_append]
      refine ⟨each _, each _, ?_⟩
      -- An edge found by both questions would end in a resource and in a literal.
      rintro triple resource other literal rfl
      obtain ⟨edge, held, made⟩ := List.mem_map.mp resource
      obtain ⟨edge', held', made'⟩ := List.mem_map.mp literal
      obtain rfl := GraphEdge.toTriple_injective (made.trans made'.symm)
      have one := ((mem_edges _ _ _).mp held).2
      have two := ((mem_edges _ _ _).mp held').2
      simp only [EdgePattern.holds, Bool.and_eq_true, decide_eq_true_eq] at one two
      cases one.2.trans two.2.symm

theorem has_iff (store : GraphStore γ) (triple : Triple) :
    Store.Has store triple ↔ GraphEdge.ofTriple triple ∈ edges store.graph .any :=
  (store.mem_search Pattern.any triple).trans (and_iff_left rfl)

theorem isSet (sort : Triple → Prop) : Store.IsSet (fun _ : GraphStore γ => True) sort where
  valid_insert := fun _ _ => trivial
  valid_erase := fun _ _ => trivial
  valid_clear := fun _ => trivial
  has_insert := by
    intro store triple _ _ other
    rw [has_iff, has_iff]
    exact (mem_add store.graph _ _).trans (or_congr_right GraphEdge.ofTriple_injective.eq_iff)
  has_erase := by
    intro store triple _ _ other
    rw [has_iff, has_iff]
    refine (mem_remove store.graph _ _).trans (and_congr_right fun _ => ?_)
    rw [EdgePattern.exactly_holds, GraphEdge.ofTriple_injective.eq_iff, eq_comm]
  has_clear := by
    intro store _ triple has
    exact ((mem_remove store.graph _ _).mp ((has_iff _ triple).mp has)).2 rfl
  mem_search := by
    intro store _ pattern triple
    rw [has_iff]
    exact store.mem_search pattern triple
  nodup_search := fun _ pattern => nodup_search _ pattern
  count_eq := by
    intro store _
    have listed : store.search Pattern.any = (edges store.graph .any).map GraphEdge.toTriple :=
      List.flatMap_singleton _ _
    show size store.graph = (store.search Pattern.any).length
    rw [listed, List.length_map, size_eq]

/-- After any edits a graph store has refused and counted what the memory store has, and every
search finds the same triples, each once. -/
theorem agrees_with_memory (edits : List Store.Edit) :
    Store.AnswerAlike (empty : GraphStore γ) MemoryStore.empty edits := by
  refine Store.SameTriples.answerAlike (isSet fun _ => True) (MemoryStore.isSet _)
    (fun _ _ _ _ _ _ => trivial) ⟨trivial, trivial, ?_⟩
  intro triple
  refine iff_of_false ?_ (MemoryStore.has_empty triple)
  intro has
  have held := (has_iff _ triple).mp has
  rw [show edges (empty : GraphStore γ).graph .any = [] from edges_empty] at held
  cases held

/-- A literal with the text of a resource is another triple, also where the resource goes. -/
theorem edgeList_agrees :
    let edits : List Store.Edit := [.addResource (.text "a") (.text "p") (.text "b"),
      .addCollection (.text "a") (.text "p") (.list [.text "b", .text ""]),
      .addResource (.text "a") (.text "p") (.text ""),
      .removeResource (.text "a") (.text "p") (.text "b")]
    LawfulGraphLibrary EdgeList ∧
      Store.answers (empty : GraphStore EdgeList) edits =
        [(.ok (), 1), (.ok (), 3), (.error (.malformed .object (.text "")), 3), (.ok (), 2)] ∧
      Store.AnswerAlike (empty : GraphStore EdgeList) MemoryStore.empty edits :=
  ⟨inferInstance, rfl, agrees_with_memory _⟩

end GraphStore

end CodeFacts

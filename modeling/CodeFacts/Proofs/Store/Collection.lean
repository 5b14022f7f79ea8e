import CodeFacts.Proofs.Ontology.Gate

/-!
Collections are added as a whole. They are told here step by step, each value checked and then each
stored, where a step that is refused takes back none of those before it.
-/

namespace CodeFacts.Store

section

variable {σ : Type}

/-- The store after some steps, up to the first that is refused, and the fault of that one. -/
def carryOut (store : σ) : List (σ → Except Fault σ) → σ × Option Fault
  | [] => (store, none)
  | step :: rest =>
      match step store with
      | .ok next => carryOut next rest
      | .error fault => (store, some fault)

/-- What an operation comes to that leaves the store as it is where it is refused. -/
def allOrNothing (store : σ) : Except Fault σ → σ × Option Fault
  | .ok next => (next, none)
  | .error fault => (store, some fault)

theorem carryOut_append (store : σ) (first second : List (σ → Except Fault σ)) :
    carryOut store (first ++ second) =
      match carryOut store first with
      | (next, none) => carryOut next second
      | (next, some fault) => (next, some fault) := by
  induction first generalizing store with
  | nil => rfl
  | cons step rest ih =>
      simp only [List.cons_append, carryOut]
      cases step store with
      | error fault => rfl
      | ok middle => exact ih middle

def checkStep (subject predicate item : Value) (store : σ) : Except Fault σ :=
  (literalTriple subject predicate item).map fun _ => store

theorem carryOut_checks (subject predicate : Value) (items : List Value) (store : σ) :
    carryOut store (items.map (checkStep subject predicate)) =
      allOrNothing store ((items.mapM (literalTriple subject predicate)).map fun _ => store) := by
  induction items with
  | nil => rfl
  | cons item rest ih =>
      rw [List.map_cons, carryOut, List.mapM_cons, checkStep]
      cases literalTriple subject predicate item with
      | error fault => rfl
      | ok triple =>
          simp only [Except.map]
          rw [ih]
          cases rest.mapM (literalTriple subject predicate) <;> rfl

end

variable {σ : Type} [TripleStore σ]

def literalStep (subject predicate item : Value) (store : σ) : Except Fault σ :=
  addLiteral store subject predicate item

/-- The steps of adding a collection: all values are checked, and then all are stored. -/
def collectionSteps (subject predicate values : Value) : List (σ → Except Fault σ) :=
  match values with
  | .text _ => [fun _ => .error (.malformed .collection values)]
  | _ =>
      match values.items? with
      | none => [fun _ => .error (.unsupported .operation)]
      | some items =>
          items.map (checkStep subject predicate) ++ items.map (literalStep subject predicate)

/-- The steps of adding a collection behind a gate, whose rules are asked first. -/
def gateSteps (ontology : Ontology) (subject predicate values : Value) :
    List (σ → Except Fault σ) :=
  match values.items? with
  | none => [fun _ => .error (.unsupported .operation)]
  | some items =>
      (fun store => ((ontology.judgeObject subject predicate (.list items)).mapError
        (Ontology.asViolation subject predicate (.list items))).map fun _ => store) ::
        collectionSteps subject predicate values

theorem carryOut_literals {subject predicate : Value} {items : List Value} {triples : List Triple}
    (made : items.mapM (literalTriple subject predicate) = .ok triples) (store : σ) :
    carryOut store (items.map (literalStep subject predicate)) =
      (triples.foldl TripleStore.insert store, none) := by
  have each := Steps.mapM_ok_iff.mp made
  clear made
  induction each generalizing store with
  | nil => rfl
  | cons checked _ ih =>
      rw [List.map_cons, carryOut, literalStep, addLiteral, checked]
      exact ih (TripleStore.insert store _)

/-- The steps of a collection change nothing where one is refused: the checks come first, and what
passes them is stored. -/
theorem carryOut_collection (store : σ) (subject predicate values : Value) :
    carryOut store (collectionSteps subject predicate values) =
      allOrNothing store (addCollection store subject predicate values) := by
  unfold collectionSteps
  split
  case h_1 => rfl
  case h_2 other =>
    rw [addCollection_eq store subject predicate other]
    cases values.items? with
    | none => rfl
    | some items =>
        dsimp only [literalTriples]
        rw [carryOut_append, carryOut_checks]
        cases made : items.mapM (literalTriple subject predicate) with
        | error fault => rfl
        | ok triples => exact carryOut_literals made store

theorem carryOut_gate (ontology : Ontology) (store : σ) (subject predicate values : Value) :
    carryOut store (gateSteps ontology subject predicate values) =
      allOrNothing store (ontology.addCollection store subject predicate values) := by
  unfold gateSteps Ontology.addCollection
  cases values.items? with
  | none => rfl
  | some items =>
      dsimp only
      rw [carryOut]
      cases (ontology.judgeObject subject predicate (.list items)).mapError
        (Ontology.asViolation subject predicate (.list items)) with
      | error fault => rfl
      | ok rule => exact carryOut_collection store subject predicate values

/-! Which collections are refused. -/

def IsTerm (value : Value) : Prop := ∃ text, value = .text text ∧ text ≠ ""

def Malformed {α : Type} (outcome : Except Fault α) : Prop :=
  ∃ role term, outcome = .error (.malformed role term)

theorem malformed_map {α β : Type} {made : Except Fault α} (change : α → β) :
    Malformed (made.map change) ↔ Malformed made := by
  cases made <;> simp [Malformed, Except.map]

theorem checkTerm_passes_iff {role : TermRole} {term : Value} :
    (∃ text, checkTerm role term = .ok text) ↔ IsTerm term := by
  constructor
  · rintro ⟨text, checked⟩
    exact ⟨text, checkTerm_given checked, checkTerm_ok checked⟩
  · rintro ⟨text, rfl, characters⟩
    exact ⟨text, checkTerm_text characters⟩

theorem literalTriple_passes_iff {subject predicate item : Value} :
    (∃ triple, literalTriple subject predicate item = .ok triple) ↔
      IsTerm subject ∧ IsTerm predicate ∧ item.isText = true := by
  constructor
  · rintro ⟨triple, made⟩
    simp only [literalTriple, Steps.bind_ok_iff] at made
    obtain ⟨_, first, _, second, _, third, _⟩ := made
    refine ⟨checkTerm_passes_iff.mp ⟨_, first⟩, checkTerm_passes_iff.mp ⟨_, second⟩, ?_⟩
    cases item with
    | text => rfl
    | _ => cases third
  · rintro ⟨⟨subject, rfl, first⟩, ⟨predicate, rfl, second⟩, third⟩
    cases item with
    | text value =>
        rw [literalTriple, checkTerm_text first, checkTerm_text second]
        exact ⟨_, rfl⟩
    | _ => cases third

theorem literalTriple_refused (subject predicate item : Value) :
    Steps.Only (fun fault => ∃ role term, fault = .malformed role term)
      (literalTriple subject predicate item) := by
  have term (role : TermRole) (value : Value) :
      Steps.Only (fun fault => ∃ role term, fault = .malformed role term)
        (checkTerm role value) := by
    unfold checkTerm
    split
    · split
      · exact Steps.only_error ⟨_, _, rfl⟩
      · exact Steps.only_ok _
    · exact Steps.only_error ⟨_, _, rfl⟩
  refine (term _ _).bind fun _ => (term _ _).bind fun _ => ?_
  refine Steps.Only.bind ?_ fun _ => Steps.only_ok _
  unfold checkLiteral
  split
  · exact Steps.only_ok _
  · exact Steps.only_error ⟨_, _, rfl⟩

theorem mapM_passes_iff {ε α β : Type} {step : α → Except ε β} {items : List α} :
    (∃ results, items.mapM step = .ok results) ↔
      ∀ item ∈ items, ∃ result, step item = .ok result := by
  refine ⟨?_, Steps.mapM_passes items⟩
  rintro ⟨results, made⟩
  have each := Steps.mapM_ok_iff.mp made
  clear made
  induction each with
  | nil => simp
  | cons stepped _ ih =>
      intro item member
      rcases List.mem_cons.mp member with rfl | later
      · exact ⟨_, stepped⟩
      · exact ih item later

theorem not_malformed_iff (subject predicate : Value) (items : List Value) :
    (¬Malformed (items.mapM (literalTriple subject predicate))) ↔
      ∃ triples, items.mapM (literalTriple subject predicate) = .ok triples := by
  have only := Steps.only_mapM items fun item => literalTriple_refused subject predicate item
  cases made : items.mapM (literalTriple subject predicate) with
  | ok triples =>
      refine iff_of_true ?_ ⟨triples, rfl⟩
      rintro ⟨_, _, refused⟩
      cases refused
  | error fault =>
      obtain ⟨role, term, rfl⟩ := only fault made
      refine iff_of_false (not_not.mpr ⟨role, term, rfl⟩) ?_
      rintro ⟨_, passed⟩
      cases passed

/-- A collection is refused if it is a bare text, or if it has an item and the subject, the
predicate or an item cannot be a term of a literal triple. -/
theorem malformed_iff (store : σ) (subject predicate values : Value) :
    Malformed (addCollection store subject predicate values) ↔
      values.isText = true ∨ ∃ items ∈ values.items?, items ≠ [] ∧
        (¬IsTerm subject ∨ ¬IsTerm predicate ∨ ∃ item ∈ items, item.isText = false) := by
  by_cases text : values.isText = true
  · refine iff_of_true ?_ (Or.inl text)
    cases values with
    | text value => exact ⟨.collection, .text value, rfl⟩
    | _ => cases text
  have no_text (value : String) : values ≠ .text value := by
    rintro rfl
    exact text rfl
  rw [addCollection_eq store subject predicate no_text, or_iff_right text]
  cases values.items? with
  | none =>
      refine iff_of_false ?_ (by simp)
      rintro ⟨role, term, refused⟩
      cases refused
  | some items =>
      rw [malformed_map, literalTriples, ← not_iff_not, not_malformed_iff, mapM_passes_iff]
      simp only [literalTriple_passes_iff, Option.mem_def, Option.some.injEq, exists_eq_left',
        not_and, not_or, not_not, not_exists, Bool.not_eq_false]
      constructor
      · intro each some_item
        obtain ⟨first, member⟩ := List.exists_mem_of_ne_nil items some_item
        exact ⟨(each first member).1, (each first member).2.1, fun item held =>
          (each item held).2.2⟩
      · intro all item member
        obtain ⟨first, second, third⟩ := all (List.ne_nil_of_mem member)
        exact ⟨first, second, third item member⟩

/-- A list that is not refused is stored item by item. -/
theorem collection_itemwise (store : σ) {subject predicate values : Value} {items : List Value}
    (listed : values.items? = some items)
    (accepted : ¬Malformed (addCollection store subject predicate values)) :
    ∃ next, addCollection store subject predicate values = .ok next ∧
      carryOut store (items.map (literalStep subject predicate)) = (next, none) := by
  have no_text (value : String) : values ≠ .text value := by
    rintro rfl
    exact accepted ⟨_, _, rfl⟩
  rw [addCollection_eq store subject predicate no_text, listed, literalTriples] at accepted ⊢
  rw [malformed_map, not_malformed_iff] at accepted
  obtain ⟨triples, made⟩ := accepted
  refine ⟨triples.foldl TripleStore.insert store, ?_, carryOut_literals made store⟩
  rw [made]
  rfl

theorem gate_ok_iff (ontology : Ontology) (store next : σ) (subject predicate : String)
    (values : Value) :
    ontology.addCollection store (.text subject) (.text predicate) values = .ok next ↔
      (∃ items ∈ values.items?, ∃ rule,
        ontology.validateCollection subject predicate items.length = .ok rule) ∧
      addCollection store (.text subject) (.text predicate) values = .ok next := by
  unfold Ontology.addCollection
  cases values.items? with
  | none => simp
  | some items =>
      simp only [Option.mem_def, Option.some.injEq, exists_eq_left', Ontology.judgeObject,
        Ontology.judge]
      cases ontology.validateCollection subject predicate items.length with
      | error cause => simp [Except.mapError, bind, Except.bind]
      | ok rule => simp [Except.mapError, bind, Except.bind]

/-- A collection is stored as a whole or not at all, on any store. It is refused just if it is
malformed, and then none of its steps has left a trace; one that is not refused comes to what its
items come to in their order. A gate lets the same through or changes nothing either. -/
theorem collection_all_or_nothing (ontology : Ontology) (store : σ)
    (subject predicate values : Value) :
    (Malformed (addCollection store subject predicate values) ↔
      values.isText = true ∨ ∃ items ∈ values.items?, items ≠ [] ∧
        (¬IsTerm subject ∨ ¬IsTerm predicate ∨ ∃ item ∈ items, item.isText = false)) ∧
    carryOut store (collectionSteps subject predicate values) =
      allOrNothing store (addCollection store subject predicate values) ∧
    (∀ items ∈ values.items?, ¬Malformed (addCollection store subject predicate values) →
      ∃ next, addCollection store subject predicate values = .ok next ∧
        carryOut store (items.map (literalStep subject predicate)) = (next, none)) ∧
    carryOut store (gateSteps ontology subject predicate values) =
      allOrNothing store (ontology.addCollection store subject predicate values) ∧
    ∀ subject predicate next,
      ontology.addCollection store (.text subject) (.text predicate) values = .ok next ↔
        (∃ items ∈ values.items?, ∃ rule,
          ontology.validateCollection subject predicate items.length = .ok rule) ∧
        addCollection store (.text subject) (.text predicate) values = .ok next := by
  refine ⟨malformed_iff store subject predicate values,
    carryOut_collection store subject predicate values, ?_,
    carryOut_gate ontology store subject predicate values, ?_⟩
  · intro items listed accepted
    exact collection_itemwise store listed accepted
  · intro subject predicate next
    exact gate_ok_iff ontology store next subject predicate values

theorem repeated_items_stored :
    let values := Value.list [.text "a", .text "", .text "a"]
    ∃ next : MemoryStore, addCollection .empty (.text "s") (.text "p") values = .ok next ∧
      carryOut .empty (List.map (literalStep (.text "s") (.text "p"))
        [.text "a", .text "", .text "a"]) = (next, none) := by
  have whole := collection_all_or_nothing .empty MemoryStore.empty (.text "s") (.text "p")
    (.list [.text "a", .text "", .text "a"])
  refine whole.2.2.1 _ rfl (mt whole.1.mp ?_)
  simp [Value.isText, Value.items?, IsTerm]

end CodeFacts.Store

import CodeFacts.Proofs.Source.Blocks

/-!
What stands around the declarations of a unit. Whatever is told of members that are no types in
their surroundings is told of all of them, block by block, once what is known of names is right for
the surroundings and stays so inside of types.
-/

namespace CodeFacts.Source

/-- What stands around some members: the dotted name of their owner, all members of the owner, and
the type variables in scope, innermost first. -/
structure Surroundings where
  owner : String
  members : List (Option Node × Node)
  scopes : List (List String)

namespace Surroundings

/-- What stands around the members of a type. -/
def inside (around : Surroundings) (node name : Node) : Surroundings :=
  ⟨Dotted.within around.owner name.text, node.members, typeVariables node :: around.scopes⟩

@[simp] theorem inside_owner (around : Surroundings) (node name : Node) :
    (around.inside node name).owner = Dotted.within around.owner name.text := rfl

def ofUnit (root : Node) : Surroundings := ⟨packageName root, root.typeDeclarations, []⟩

end Surroundings

variable {told : Surroundings → Option Node × Node → List Call → Prop}
  {known : Surroundings → Resolver → Prop}

/-- How members are told in their order, where it is given how a member that is no type is told in
its surroundings. A type is a block. -/
inductive Telling (told : Surroundings → Option Node × Node → List Call → Prop) :
    Surroundings → List (Option Node × Node) → List Call → Prop
  | nil {around : Surroundings} : Telling told around [] []
  | member {around : Surroundings} {declaration : Option Node × Node}
      {rest : List (Option Node × Node)} {calls later : List Call}
      (here : told around declaration calls) (after : Telling told around rest later) :
      Telling told around (declaration :: rest) (calls ++ later)
  | block {around : Surroundings} {previous : Option Node} {node name : Node}
      {rest : List (Option Node × Node)} {opening : Call} {inner later : List Call}
      (sort : TypeSort) (declaration : typeSort? node.type = some sort)
      (named : node.field? "name" = some name)
      (opens : opening.opening? = some (sort.kind, .text (Dotted.within around.owner name.text)))
      (within : Telling told (around.inside node name) node.members inner)
      (after : Telling told around rest later) :
      Telling told around ((previous, node) :: rest)
        (opening ::
            documented previous (.classDoc · (.text (Dotted.within around.owner name.text))) ++
          inner ++ closeCall sort :: later)
  | nothing {around : Surroundings} {declaration : Option Node × Node}
      {rest : List (Option Node × Node)} {later : List Call}
      (untold : declaration.2.isTold = false) (after : Telling told around rest later) :
      Telling told around (declaration :: rest) later

theorem Telling.blocks {around : Surroundings} {nodes : List (Option Node × Node)}
    {calls : List Call} (telling : Telling told around nodes calls)
    (each : ∀ around declaration calls, told around declaration calls →
      Member.Told around.owner declaration.1 declaration.2 calls) :
    Blocks around.owner nodes calls := by
  induction telling with
  | nil => exact .nil
  | member here _ later => exact .member (each _ _ _ here) later
  | block sort declaration named opens _ _ inside later =>
      exact .block sort declaration named opens inside later
  | nothing untold _ later => exact .nothing untold later

theorem Telling.of_each {around : Surroundings} {resolver : Resolver} {inInterface : Bool}
    {nodes : List (Option Node × Node)}
    (each : ∀ declaration ∈ nodes, ∀ methods constructors member,
      readMember declaration = some member →
        (memberTrace resolver around.owner inInterface methods constructors member).fault = none →
          ∀ rest later, Telling told around rest later → Telling told around (declaration :: rest)
            ((memberTrace resolver around.owner inInterface methods constructors member).calls ++
              later))
    {methods : List String} {constructors : Nat}
    (passed : (memberTraces resolver around.owner inInterface methods constructors
      (nodes.filterMap readMember)).fault = none) :
    Telling told around nodes (memberTraces resolver around.owner inInterface methods constructors
      (nodes.filterMap readMember)).calls := by
  induction nodes generalizing methods constructors with
  | nil => exact .nil
  | cons declaration rest ih =>
      obtain ⟨previous, node⟩ := declaration
      have later := fun methods constructors => @ih
        (fun other listed => each other (List.mem_cons_of_mem _ listed)) methods constructors
      rcases readMember_cases previous node with ⟨unread, untold⟩ | ⟨member, read, _⟩
      · rw [List.filterMap_cons_none unread] at passed ⊢
        exact .nothing untold (later methods constructors passed)
      · rw [List.filterMap_cons_some read] at passed ⊢
        obtain ⟨more, total, split⟩ :=
          memberTraces_cons resolver around.owner inInterface methods constructors member
            (rest.filterMap readMember)
        rw [split] at passed ⊢
        obtain ⟨this, others, calls⟩ := Trace.of_append passed
        rw [calls]
        exact each _ List.mem_cons_self methods constructors member read this rest _
          (later more total others)

/-- What has to be known of names in some surroundings is known inside of types too, and where it is
known, the members that are no types are told. -/
structure Kept (known : Surroundings → Resolver → Prop)
    (told : Surroundings → Option Node × Node → List Call → Prop) : Prop where
  inside : ∀ {around resolver previous node name sort}, known around resolver →
    (previous, node) ∈ around.members → typeSort? node.type = some sort →
      node.field? "name" = some name →
        known (around.inside node name) (resolver.enter (typeVariables node))
  member : ∀ {around resolver declaration member}, known around resolver →
    declaration ∈ around.members → typeSort? declaration.2.type = none →
      member.Read declaration.1 declaration.2 → ∀ inInterface methods constructors,
        let trace := memberTrace resolver around.owner inInterface methods constructors member
        trace.fault = none →
          (declaration.2.isTold = false ∧ trace = .empty) ∨ told around declaration trace.calls

namespace Kept

variable (kept : Kept known told)
include kept

/-- A node that is read without fault is told as its block, or as the member it is. The induction
is over the members of types: a type is told as soon as its members are. -/
theorem node_telling (node : Node) {around : Surroundings} {resolver : Resolver}
    (right : known around resolver) {inInterface : Bool} (methods : List String)
    (constructors : Nat) {previous : Option Node} (listed : (previous, node) ∈ around.members)
    {member : Member} (given : readMember (previous, node) = some member)
    (passed : (memberTrace resolver around.owner inInterface methods constructors member).fault =
      none)
    {rest : List (Option Node × Node)} {later : List Call}
    (after : Telling told around rest later) :
    Telling told around ((previous, node) :: rest)
      ((memberTrace resolver around.owner inInterface methods constructors member).calls ++
        later) := by
  induction node using Node.members_induction generalizing around resolver inInterface methods
    constructors previous member rest later with
  | step node ih =>
  rcases readMember_cases previous node with ⟨unread, _⟩ | ⟨read, found, shape⟩
  · cases unread.symm.trans given
  cases found.symm.trans given
  cases declaration : typeSort? node.type with
  | none =>
      rcases kept.member right listed declaration shape inInterface methods constructors passed with
        ⟨untold, silent⟩ | told
      · rw [silent]
        exact .nothing untold after
      · exact .member told after
  | some sort =>
      cases shape with
      | @type name sort declaration named =>
          simp only [memberTrace, typeDocTrace_eq] at passed ⊢
          obtain ⟨front, _, calls⟩ := Trace.of_append passed
          obtain ⟨opened, inside, front_calls⟩ := Trace.of_append front
          obtain ⟨started, _, start_calls⟩ := Trace.of_append opened
          obtain ⟨opening, call, one⟩ := Trace.calls_ofCall started
          rw [calls, front_calls, start_calls, one]
          -- The members are told in the surroundings that the type makes, by the induction hypothesis.
          have entered := kept.inside right listed declaration named
          have told : Telling told (around.inside node name) node.members _ := .of_each
            (fun declaration listed methods constructors _ given passed _ _ after =>
              ih declaration listed entered methods constructors listed given passed after) inside
          have opens := opening_of_openCall call
          have block : Telling _ around ((previous, node) :: rest) _ :=
            .block sort declaration named opens told after
          simpa [Trace.ofCalls] using block
      | field field => rcases field with same | same <;> simp [typeSort?, same] at declaration
      | method method => simp [typeSort?, method] at declaration
      | constructor constructor => simp [typeSort?, constructor] at declaration

/-- All members in some surroundings are told, if they are read without fault. -/
theorem telling {around : Surroundings} {resolver : Resolver} (right : known around resolver)
    {inInterface : Bool} {methods : List String} {constructors : Nat}
    (passed : (memberTraces resolver around.owner inInterface methods constructors
      (around.members.filterMap readMember)).fault = none) :
    Telling told around around.members (memberTraces resolver around.owner inInterface methods
      constructors (around.members.filterMap readMember)).calls :=
  .of_each (fun declaration listed methods constructors _ given passed _ _ after =>
    kept.node_telling declaration.2 right methods constructors listed given passed after) passed

end Kept

/-- Each member is told as the member it is, whatever is known of names. -/
theorem kept_told : Kept (fun _ _ => True) fun around declaration calls =>
    Member.Told around.owner declaration.1 declaration.2 calls where
  inside _ _ _ _ := trivial
  member := by
    intro around resolver declaration member _ _ other read inInterface methods constructors trace
      passed
    cases read with
    | type sort declaration =>
        rw [declaration] at other
        cases other
    | field declaration typed => exact .inr (field_told declaration typed passed)
    | method declaration named =>
        simp only [trace, memberTrace] at passed ⊢
        exact method_told declaration named passed
    | constructor declaration => exact .inr (constructor_told declaration passed)

end CodeFacts.Source

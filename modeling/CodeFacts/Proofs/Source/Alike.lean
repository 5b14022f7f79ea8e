import CodeFacts.Proofs.Source.Altered

/-!
Trees that differ in little are read alike: of a declaration all is read that was read before, save
for names that are missing.
-/

namespace CodeFacts.Source

variable {leeway : Leeway} {place : Place} {node other : Node}

/-! ### Clauses, names and parameters -/

theorem Altered.written {outer : Place}
    (altered : Altered leeway (outer.inside node.head) node other)
    (unnamed : outer.inside node.head ≠ .name) :
    Source.writtenType other = Source.writtenType node :=
  altered.writtenType unnamed Place.inside_form

theorem Altered.writtenTypes (altered : Altered leeway .other node other) :
    other.namedChildren.map Source.writtenType = node.namedChildren.map Source.writtenType :=
  map_eq_of_forall₂ (altered.namedChildren Place.other_not_open) fun _ _ here =>
    here.written Place.inside_other_ne_name

/-- What holds a field that is no name, or any field of a node that is no declaration, is what it
was. -/
theorem Altered.field_kept (altered : Altered leeway place node other) {field : String}
    (unnamed : field ≠ "name" ∨ place = .other) :
    (node.field? field = none ∧ other.field? field = none) ∨
      ∃ child changed, node.field? field = some child ∧ other.field? field = some changed ∧
        changed.text = child.text ∧ Source.writtenType changed = Source.writtenType child := by
  rcases altered.field? field with missing | ⟨child, changed, one, other, held, below⟩
  · exact .inl missing
  · have kept : place.inside child.head ≠ .name := by
      rcases unnamed with unnamed | rfl
      · exact Place.inside_ne_name (by rw [held]; simpa using unnamed)
      · exact Place.inside_other_ne_name
    exact .inr ⟨child, changed, one, other, congrArg NodeHead.text (below.kept kept),
      below.written kept⟩

mutual

/-- What is read of the heads of all nodes is the same where nothing is read of comments that are
added, nor of names what they lose. -/
theorem Altered.preorder {β : Type} {read : NodeHead → Option β}
    (lost : leeway.names = true → ∀ head : NodeHead, head.type ∈ Place.nameTypes →
      read head.lost = read head)
    (bare : leeway.remarks = true → ∀ head, head.isRemark = true → read head = none)
    {place : Place} {node other : Node} (altered : Altered leeway place node other) :
    other.preorder.filterMap (read ·.head) = node.preorder.filterMap (read ·.head) := by
  match altered with
  | .loses names type =>
      simp only [Node.preorder, Node.preorderAll, List.filterMap_cons, Node.head,
        lost names _ type]
  | .keeps below =>
      rw [Node.preorder, Node.preorder, List.filterMap_cons, List.filterMap_cons,
        AlteredAll.preorderAll lost bare below]
      rfl

theorem AlteredAll.preorderAll {β : Type} {read : NodeHead → Option β}
    (lost : leeway.names = true → ∀ head : NodeHead, head.type ∈ Place.nameTypes →
      read head.lost = read head)
    (bare : leeway.remarks = true → ∀ head, head.isRemark = true → read head = none)
    {place : Place} {children others : List Node}
    (altered : AlteredAll leeway place children others) :
    (Node.preorderAll others).filterMap (read ·.head) =
      (Node.preorderAll children).filterMap (read ·.head) := by
  match altered with
  | .nil => rfl
  | .cons here later =>
      rw [Node.preorderAll, Node.preorderAll, List.filterMap_append, List.filterMap_append,
        Altered.preorder lost bare here, AlteredAll.preorderAll lost bare later]
  | .remark remarks comment later =>
      rw [Node.preorderAll, List.filterMap_append, AlteredAll.preorderAll lost bare later]
      simp [Node.preorder, Node.preorderAll, Node.head, bare remarks _ comment]

end

theorem first?_text (node : Node) (type : String) :
    (node.first? type).map Node.text =
      (node.preorder.filterMap fun node =>
        if node.head.type = type then some node.head.text else none).head? := by
  unfold Node.first?
  generalize node.preorder = nodes
  induction nodes with
  | nil => rfl
  | cons node rest ih =>
      rw [List.find?_cons, List.filterMap_cons]
      by_cases found : node.head.type = type
      · rw [beq_iff_eq.mpr (show node.type = type from found), if_pos found]
        rfl
      · rw [beq_eq_false_iff_ne.mpr (show node.type ≠ type from found), if_neg found]
        exact ih

theorem Altered.first?_text (altered : Altered leeway place node other) {type : String}
    (no_name : type ∉ Place.nameTypes) (no_remark : type ∉ NodeHead.remarkTypes) :
    (other.first? type).map Node.text = (node.first? type).map Node.text := by
  rw [Source.first?_text, Source.first?_text]
  let read (head : NodeHead) : Option String := if head.type = type then some head.text else none
  show (other.preorder.filterMap (read ·.head)).head? =
    (node.preorder.filterMap (read ·.head)).head?
  rw [altered.preorder (fun _ head name => ?_) fun _ head remark => ?_]
  · have other : head.type ≠ type := fun same => no_name (same ▸ name)
    exact (if_neg other).trans (if_neg other).symm
  · simp only [NodeHead.isRemark, Bool.and_eq_true, decide_eq_true_eq] at remark
    have other : head.type ≠ type := fun same => no_remark (same ▸ remark.1.1.1)
    exact if_neg other

/-- The children of some types, none of which a place is known by. -/
theorem Altered.plainTypes (altered : Altered leeway place node other) {types : List String}
    (bare : ∀ type ∈ NodeHead.remarkTypes, type ∉ types)
    (unknown : ∀ type ∈ types, type ∉ Place.knownTypes) :
    List.Forall₂ (fun child other => child.type ∈ types ∧ Altered leeway .other child other)
      (node.ofTypes types) (other.ofTypes types) :=
  (altered.ofTypes bare).imp fun _ _ here =>
    ⟨here.1, Place.inside_eq_other (unknown _ here.1) ▸ here.2⟩

theorem Altered.keywords (altered : Altered leeway place node other) :
    keywords other = keywords node := by
  refine flatMap_eq_of_forall₂ (altered.plainTypes (by decide) (by decide)) ?_
  intro modifiers changed ⟨_, below⟩
  rw [map_eq_of_forall₂ (below.all Place.other_not_open) fun _ _ here => here.type_eq]

theorem Altered.typeVariables (altered : Altered leeway place node other) :
    typeVariables other = typeVariables node := by
  unfold Source.typeVariables
  rcases altered.field? "type_parameters" with
    ⟨none, other_none⟩ | ⟨child, changed, one, other, held, below⟩
  · rw [none, other_none]
  · rw [one, other]
    exact filterMap_eq_of_forall₂ (below.plainTypes (by decide) (by decide)) fun _ _ here =>
      here.2.first?_text (by decide) (by decide)

theorem Altered.typeList (altered : Altered leeway place node other) :
    typeList (some other) = typeList (some node) := by
  simp only [Source.typeList, Option.toList_some, List.flatMap_cons, List.flatMap_nil]
  rw [flatMap_eq_of_forall₂ (altered.plainTypes (by decide) (by decide)) fun _ _ here =>
    here.2.writtenTypes]

theorem Altered.exceptions (altered : Altered leeway place node other) :
    exceptions other = exceptions node :=
  flatMap_eq_of_forall₂ (altered.plainTypes (by decide) (by decide)) fun _ _ here =>
    here.2.writtenTypes

theorem Altered.parameter? (altered : Altered leeway .other node other) :
    parameter? other = parameter? node := by
  unfold Source.parameter?
  rw [altered.type_eq]
  split
  · rcases altered.field_kept (.inr rfl : "name" ≠ "name" ∨ _) with
      ⟨none, other_none⟩ | ⟨name, renamed, named, other_named, texts, _⟩
    · rw [none, other_none]
      rfl
    rcases altered.field_kept (.inr rfl : "type" ≠ "name" ∨ _) with
      ⟨none, other_none⟩ | ⟨type, changed, typed, other_typed, _, types⟩
    · rw [none, other_none, named, other_named]
      rfl
    · rw [named, other_named, typed, other_typed, altered.bracketCount]
      show some (renamed.text, _) = some (name.text, _)
      rw [texts, types]
  · have declarators := altered.ofTypes (by decide :
      ∀ type ∈ NodeHead.remarkTypes, type ∉ ["variable_declarator"])
    rcases first_of_forall₂ declarators with
      ⟨none, other_none⟩ | ⟨declarator, changed, one, other_one, sort, below⟩
    · rw [none, other_none]
      rfl
    rw [Place.inside_other_declarator (List.mem_singleton.mp sort)] at below
    rw [one, other_one]
    rcases below.field_kept (.inr rfl : "name" ≠ "name" ∨ _) with
      ⟨none, other_none⟩ | ⟨name, renamed, named, other_named, texts, _⟩
    · simp only [Option.bind_eq_bind, Option.bind_some, none, other_none, Option.bind_none]
    simp only [Option.bind_eq_bind, Option.bind_some, named, other_named]
    rcases find?_of_forall₂ (altered.namedChildren Place.other_not_open) fun _ _ here =>
        congrArg (fun type => decide (type ∉ ["modifiers", "variable_declarator"]))
          here.type_eq with
      ⟨none, other_none⟩ | ⟨type, changed, typed, other_typed, here⟩
    · rw [none, other_none]
      rfl
    · rw [typed, other_typed]
      simp only [Option.bind_some, texts, here.written Place.inside_other_ne_name]
  · rfl

theorem Altered.parameters (altered : Altered leeway place node other) :
    parameters other = parameters node := by
  unfold Source.parameters
  rcases altered.field? "parameters" with
    ⟨none, other_none⟩ | ⟨list, changed, listed, relisted, _, below⟩
  · rw [none, other_none]
  rw [listed, relisted]
  -- Comments among the parameters are no parameters: only nodes of two types count.
  let test (head : NodeHead) : Bool :=
    head.named && decide (head.type ∈ ["formal_parameter", "spread_parameter"])
  have chosen (node : Node) : node.namedChildren.filterMap Source.parameter? =
      (node.children.filter (test ·.head)).filterMap Source.parameter? := by
    rw [Node.namedChildren, List.filterMap_filter, List.filterMap_filter]
    refine congrArg (List.filterMap · node.children) (funext fun child => ?_)
    by_cases counts : child.type ∈ ["formal_parameter", "spread_parameter"]
    · simp only [test, decide_eq_true (show child.head.type ∈ _ from counts), Bool.and_true]
    · have none : Source.parameter? child = none := by
        unfold Source.parameter?
        split <;> simp_all
      simp [none]
  have steady (head : NodeHead) : test head.lost = test head := rfl
  have bare (head : NodeHead) (remark : head.isRemark = true) : test head = false := by
    simp only [NodeHead.isRemark, NodeHead.remarkTypes, Bool.and_eq_true, decide_eq_true_eq,
      List.mem_cons, List.not_mem_nil, or_false] at remark
    rcases remark.1.1.1 with line | block | plain <;> simp [test, *]
  show changed.namedChildren.filterMap Source.parameter? =
    list.namedChildren.filterMap Source.parameter?
  rw [chosen, chosen]
  refine filterMap_eq_of_forall₂ (below.children.filter steady fun _ => bare) ?_
  rintro one another ⟨tested, here⟩
  have type := of_decide_eq_true (Bool.and_eq_true_iff.mp tested).2
  have unknown : ∀ type ∈ ["formal_parameter", "spread_parameter"], type ∉ Place.knownTypes := by
    decide
  rw [Place.inside_eq_other (unknown _ type)] at here
  exact here.parameter?

theorem AlteredAll.first_named {place : Place} {children others : List Node}
    (altered : AlteredAll leeway place children others) (ordered : place ≠ .spaced) :
    (children.find? (·.head.named) = none ∧ others.find? (·.head.named) = none) ∨
      ∃ child other, children.find? (·.head.named) = some child ∧
        others.find? (·.head.named) = some other ∧
        Altered leeway (place.inside child.head) child other := by
  match altered with
  | .nil => exact .inl ⟨rfl, rfl⟩
  | @AlteredAll.cons _ _ child other rest others here later =>
      have tested : other.head.named = child.head.named := here.test fun _ => rfl
      rw [List.find?_cons, List.find?_cons, tested]
      cases named : child.head.named with
      | true => exact .inr ⟨child, other, rfl, rfl, here⟩
      | false =>
          have same : place.behind child.head = place := if_neg (by simp [named])
          rw [same] at later
          exact later.first_named ordered
  | .remark _ _ _ => exact absurd rfl ordered

theorem Altered.extendedClass (altered : Altered leeway place node other) :
    extendedClass other = extendedClass node := by
  unfold Source.extendedClass
  rcases altered.field? "superclass" with
    ⟨none, other_none⟩ | ⟨clause, changed, one, another, held, below⟩
  · rw [none, other_none]
  have shown := Place.shows_inside place clause.head
  have ordered : place.inside clause.head ≠ .spaced := fun same => by
    have field := shown.spaced same
    rw [held] at field
    exact absurd field (by decide)
  rw [one, another]
  show (List.head? (List.filter _ changed.children)).map _ =
    (List.head? (List.filter _ clause.children)).map _
  rw [List.head?_filter, List.head?_filter]
  rcases below.children.first_named ordered with
    ⟨none, other_none⟩ | ⟨type, retyped, typed, other_typed, here⟩
  · rw [none, other_none]
  · rw [typed, other_typed, Option.map_some, Option.map_some, here.written]
    intro name
    rcases ((Place.shows_inside _ type.head).name name).1 with declaration | declarator
    · exact shown.declaration declaration held
    · have field := shown.declarator declarator
      rw [held] at field
      exact absurd field (by decide)

/-- What is left of a name. -/
def Unnamed (leeway : Leeway) (name other : String) : Prop :=
  other = name ∨ leeway.names = true ∧ other = ""

theorem Altered.name (altered : Altered leeway place node other) :
    (node.field? "name" = none ∧ other.field? "name" = none) ∨
      ∃ name renamed, node.field? "name" = some name ∧ other.field? "name" = some renamed ∧
        Unnamed leeway name.text renamed.text := by
  rcases altered.field? "name" with missing | ⟨name, renamed, one, another, _, below⟩
  · exact .inl missing
  · refine .inr ⟨name, renamed, one, another, ?_⟩
    rcases below.head_eq with same | ⟨_, names, lost⟩
    · exact .inl (congrArg NodeHead.text same)
    · exact .inr ⟨names, congrArg NodeHead.text lost⟩

theorem Altered.executable (altered : Altered leeway place node other) (name : String)
    (documentation : Option DocEntry) :
    executable other name documentation = executable node name documentation := by
  unfold Source.executable
  rw [altered.keywords, altered.typeVariables, altered.parameters, altered.exceptions,
    altered.bracketCount]
  have bodies : (other.field? "body").isSome = (node.field? "body").isSome := by
    rcases altered.field? "body" with ⟨none, other_none⟩ | ⟨body, changed, one, another, _, _⟩
    · rw [none, other_none]
    · rw [one, another]
      rfl
  rw [bodies]
  rcases altered.field_kept (.inl (by decide) : "type" ≠ "name" ∨ _) with
    ⟨none, other_none⟩ | ⟨type, changed, one, another, _, types⟩
  · rw [none, other_none]
  · rw [one, another, Option.map_some, Option.map_some, types]

theorem Altered.enumElements (altered : Altered leeway place node other) :
    enumElements other = enumElements node := by
  unfold Source.enumElements
  rcases altered.field? "body" with ⟨none, other_none⟩ | ⟨body, changed, one, another, _, below⟩
  · rw [none, other_none]
  · rw [one, another]
    simp only [Option.toList_some, List.flatMap_cons, List.flatMap_nil]
    rw [filterMap_eq_of_forall₂ (below.plainTypes (by decide) (by decide)) fun _ _ here => ?_]
    rcases here.2.field_kept (.inr rfl : "name" ≠ "name" ∨ _) with
      ⟨none, other_none⟩ | ⟨name, renamed, one, another, texts, _⟩
    · rw [none, other_none]
    · rw [one, another, Option.map_some, Option.map_some, texts]

theorem Altered.typeHeading (altered : Altered leeway place node other) (sort : TypeSort)
    (name : String) (documentation : Option DocEntry) :
    typeHeading other sort name documentation = typeHeading node sort name documentation := by
  have clause :
      Source.typeList (other.field? "interfaces") =
        Source.typeList (node.field? "interfaces") := by
    rcases altered.field? "interfaces" with
      ⟨none, other_none⟩ | ⟨clause, changed, one, another, _, below⟩
    · rw [none, other_none]
    · rw [one, another, below.typeList]
  have extended : Source.typeList (other.ofTypes ["extends_interfaces"]).head? =
      Source.typeList (node.ofTypes ["extends_interfaces"]).head? := by
    rcases first_of_forall₂ (altered.ofTypes (by decide :
        ∀ type ∈ NodeHead.remarkTypes, type ∉ ["extends_interfaces"])) with
      ⟨none, other_none⟩ | ⟨clause, changed, one, another, _, below⟩
    · rw [none, other_none]
    · rw [one, another, below.typeList]
  unfold Source.typeHeading
  rw [altered.keywords, altered.typeVariables, altered.extendedClass, altered.enumElements, clause,
    extended]

/-! ### Members -/

/-- Whether two nodes, each with the named node before it, differ only in what they may. -/
def Alike (leeway : Leeway) (one other : Option Node × Node) : Prop :=
  Node.documentation other.1 = Node.documentation one.1 ∧
    ∃ place, Altered leeway place one.2 other.2

theorem Altered.documentation (altered : Altered leeway place node other) :
    Node.documentation (some other) = Node.documentation (some node) := by
  cases altered with
  | keeps => rfl
  | @loses head _ name =>
      have no_comment : head.type ∉ Node.commentTypes := by
        simp only [Place.nameTypes, List.mem_cons, List.not_mem_nil, or_false] at name
        rcases name with plain | pattern <;> simp [Node.commentTypes, *]
      have none (other : NodeHead) (same : other.type = head.type) :
          Node.documentation (some (.mk other [])) = none :=
        if_neg (show other.type ∉ Node.commentTypes by rwa [same])
      rw [none head.lost rfl, none head rfl]

theorem withPrevious_alike {nodes others : List Node}
    (each : List.Forall₂ (fun child other => ∃ place, Altered leeway place child other)
      nodes others)
    {previous before : Option Node}
    (same : Node.documentation before = Node.documentation previous) :
    List.Forall₂ (Alike leeway) (Node.withPrevious previous nodes)
      (Node.withPrevious before others) := by
  induction each generalizing previous before with
  | nil => exact .nil
  | cons here _ ih =>
      rw [Node.withPrevious, Node.withPrevious]
      refine .cons ⟨same, here⟩ (ih ?_)
      obtain ⟨_, altered⟩ := here
      rw [altered.test (fun _ => rfl : ∀ head : NodeHead, head.lost.named = head.named)]
      split
      · exact altered.documentation
      · exact same

theorem Altered.members (altered : Altered leeway place node other) :
    List.Forall₂ (Alike leeway) node.members other.members := by
  unfold Node.members
  rcases altered.field? "body" with
    ⟨none, other_none⟩ | ⟨body, changed, one, another, held, below⟩
  · rw [none, other_none]
    exact .nil
  rw [one, another]
  dsimp only
  rw [below.type_eq]
  split
  · refine List.rel_flatMap (below.plainTypes (by decide) (by decide)) fun part changed here => ?_
    exact withPrevious_alike ((here.2.namedChildren Place.other_not_open).imp
      fun _ _ here => ⟨_, here⟩) rfl
  · have closed : ¬(place.inside body.head).Open :=
      Place.not_open_inside (by rw [held]; decide) (by rw [held]; decide)
    exact withPrevious_alike ((below.namedChildren closed).imp fun _ _ here => ⟨_, here⟩) rfl

def SameDeclarator (leeway : Leeway) (one other : Declarator) : Prop :=
  Unnamed leeway one.name other.name ∧ other.dimensions = one.dimensions ∧ other.value = one.value

/-- What two nodes that differ only in what they may are read as. -/
inductive ReadAlike (leeway : Leeway) (one other : Option Node × Node) :
    Option Member → Option Member → Prop
  | nothing : ReadAlike leeway one other none none
  | field (declaration : FieldDeclaration) {declarators : List Declarator}
      (each : List.Forall₂ (SameDeclarator leeway) declaration.declarators declarators) :
      ReadAlike leeway one other (some (.field declaration))
        (some (.field { declaration with declarators }))
  | method (declaration : ExecutableDeclaration) {name : String}
      (unnamed : Unnamed leeway declaration.name name) :
      ReadAlike leeway one other (some (.method declaration))
        (some (.method { declaration with name }))
  | constructor (declaration : ExecutableDeclaration) :
      ReadAlike leeway one other (some (.constructor declaration))
        (some (.constructor declaration))
  | type (heading : TypeHeading) {name : String} (unnamed : Unnamed leeway heading.name name)
      (members : List.Forall₂ (Alike leeway) one.2.members other.2.members) :
      ReadAlike leeway one other
        (some (.type heading (one.2.members.filterMap readMember)))
        (some (.type { heading with name } (other.2.members.filterMap readMember)))

theorem Altered.declarators (altered : Altered leeway place node other) :
    List.Forall₂ (SameDeclarator leeway) (declarators node) (declarators other) := by
  unfold Source.declarators
  have each := altered.fieldAll "declarator"
  generalize node.fieldAll "declarator" = all, other.fieldAll "declarator" = changed at each
  induction each with
  | nil => exact .nil
  | @cons declarator changed _ _ here _ ih =>
      rcases here.2.name with ⟨none, other_none⟩ | ⟨name, renamed, one, another, unnamed⟩
      · rw [List.filterMap_cons_none (by rw [none]; rfl),
          List.filterMap_cons_none (by rw [other_none]; rfl)]
        exact ih
      · rw [List.filterMap_cons_some (by rw [one]; rfl),
          List.filterMap_cons_some (by rw [another]; rfl)]
        refine .cons ⟨unnamed, here.2.bracketCount, ?_⟩ ih
        rcases here.2.field_kept (.inl (by decide) : "value" ≠ "name" ∨ _) with
          ⟨none, other_none⟩ | ⟨value, changed, one, another, texts, _⟩
        · rw [none, other_none]
        · rw [one, another, Option.map_some, Option.map_some, texts]

theorem Alike.read {one other : Option Node × Node} (alike : Alike leeway one other) :
    ReadAlike leeway one other (readMember one) (readMember other) := by
  obtain ⟨previous, node⟩ := one
  obtain ⟨before, changed⟩ := other
  obtain ⟨documented, place, altered⟩ := alike
  have documented : Node.documentation before = Node.documentation previous := documented
  have altered : Altered leeway place node changed := altered
  rw [readMember_eq, readMember_eq, altered.type_eq, documented]
  cases typeSort? node.type with
  | some sort =>
      dsimp only
      rcases altered.name with ⟨none, other_none⟩ | ⟨name, renamed, one, another, unnamed⟩
      · rw [none, other_none]
        exact .nothing
      · rw [one, another, Option.map_some, Option.map_some, altered.typeHeading]
        exact .type (Source.typeHeading node sort name.text _) unnamed altered.members
  | none =>
      dsimp only
      split
      case h_1 | h_2 =>
        unfold fieldDeclaration?
        rcases altered.field_kept (.inl (by decide) : "type" ≠ "name" ∨ _) with
          ⟨none, other_none⟩ | ⟨type, retyped, one, another, _, types⟩
        · rw [none, other_none]
          exact .nothing
        · rw [one, another, Option.map_some, Option.map_some, Option.map_some, Option.map_some,
            altered.keywords, types]
          exact .field ⟨Source.keywords node, _, Source.declarators node⟩ altered.declarators
      case h_3 =>
        rcases altered.name with ⟨none, other_none⟩ | ⟨name, renamed, one, another, unnamed⟩
        · rw [none, other_none]
          exact .nothing
        · rw [one, another, Option.map_some, Option.map_some, altered.executable]
          exact .method (Source.executable node name.text _) unnamed
      case h_4 =>
        rw [altered.executable]
        exact .constructor _
      case h_5 => exact .nothing

/-! ### Units -/

theorem Altered.packageName (altered : Altered leeway place node other) :
    packageName other = packageName node := by
  unfold Source.packageName
  rcases first_of_forall₂ (altered.plainTypes (by decide) (by decide) :
      List.Forall₂ _ (node.ofTypes ["package_declaration"]) _) with
    ⟨none, other_none⟩ | ⟨declaration, changed, one, another, _, below⟩
  · rw [none, other_none]
  rw [one, another]
  rcases find?_of_forall₂ (below.namedChildren Place.other_not_open) fun child changed here =>
      congrArg (fun type => decide (type ∈ nameTypes)) here.type_eq with
    ⟨none, other_none⟩ | ⟨name, renamed, named, other_named, here⟩
  · dsimp only
    rw [none, other_none]
  · have kept := congrArg NodeHead.text (here.kept Place.inside_other_ne_name)
    dsimp only
    rw [named, other_named]
    exact kept

theorem Altered.import? (altered : Altered leeway .other node other) :
    Source.import? other = Source.import? node := by
  have absent (type : String) (bare : type ∉ NodeHead.remarkTypes) :
      (other.ofTypes [type]).isEmpty = (node.ofTypes [type]).isEmpty := by
    have each := altered.ofTypes fun remark (listed : remark ∈ _) (same : remark ∈ [type]) =>
      bare (List.mem_singleton.mp same ▸ listed)
    generalize node.ofTypes [type] = chosen, other.ofTypes [type] = others at each
    cases each <;> rfl
  have names := altered.ofTypes (by decide : ∀ type ∈ NodeHead.remarkTypes, type ∉ nameTypes)
  unfold Source.import?
  rw [absent "static" (by decide), absent "asterisk" (by decide)]
  rcases first_of_forall₂ names with ⟨none, other_none⟩ | ⟨name, renamed, one, another, _, here⟩
  · rw [none, other_none]
  · have kept : renamed.text = name.text :=
      congrArg NodeHead.text (here.kept Place.inside_other_ne_name)
    rw [one, another, Option.map_some, Option.map_some, kept]

theorem Altered.imports (altered : Altered leeway place node other) :
    (other.ofTypes ["import_declaration"]).filterMap Source.import? =
      (node.ofTypes ["import_declaration"]).filterMap Source.import? :=
  filterMap_eq_of_forall₂ (altered.plainTypes (by decide) (by decide)) fun _ _ here =>
    here.2.import?

theorem Altered.typeDeclarations (altered : Altered leeway place node other)
    (closed : ¬place.Open) :
    List.Forall₂ (Alike leeway) node.typeDeclarations other.typeDeclarations := by
  have each : List.Forall₂ (Alike leeway) (Node.withPrevious none node.children)
      (Node.withPrevious none other.children) :=
    withPrevious_alike ((altered.all closed).imp fun _ _ here => ⟨_, here⟩) rfl
  refine List.rel_filter (fun one other alike => ?_) each
  obtain ⟨_, _, below⟩ := alike
  simp only [below.type_eq]

end CodeFacts.Source

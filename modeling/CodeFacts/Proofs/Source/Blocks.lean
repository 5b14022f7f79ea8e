import CodeFacts.Proofs.Builder.Replies
import CodeFacts.Proofs.Source.Trace
import CodeFacts.Source.Telling

/-!
A unit is told in blocks: every type declaration that is reached is one block of calls, from the one
that opens the type to the one that closes it, with the calls of its members in between. What is
reached and how it is told is said here of the nodes, without the outline they are read as.
-/

namespace CodeFacts.Source

def TypeSort.kind : TypeSort → EntityKind
  | .classType => .classType
  | .interface => .interface
  | .enumeration => .enumeration

namespace Node

/-- A named node at the start of a text. -/
def atStart (type text : String) (field : Option String) (children : List Node) : Node :=
  .mk ⟨type, true, text, 0, 0, field, false⟩ children

/-! ### What is reached -/

/-- Nodes with the named node before each of them. -/
def withPrevious (previous : Option Node) : List Node → List (Option Node × Node)
  | [] => []
  | child :: rest =>
      (previous, child) :: withPrevious (if child.head.named then some child else previous) rest

/-- The members of a type declaration. Those of an enumeration stand in parts of its body. -/
def members (node : Node) : List (Option Node × Node) :=
  match node.field? "body" with
  | none => []
  | some body =>
      if body.type = "enum_body" then
        (body.ofTypes ["enum_body_declarations"]).flatMap fun part =>
          withPrevious none part.namedChildren
      else withPrevious none body.namedChildren

/-- The type declarations of a unit that stand in no other. -/
def typeDeclarations (root : Node) : List (Option Node × Node) :=
  (withPrevious none root.children).filter fun declaration =>
    (typeSort? declaration.2.type).isSome

theorem mem_of_mem_withPrevious {previous : Option Node} {nodes : List Node}
    {member : Option Node × Node} (listed : member ∈ withPrevious previous nodes) :
    member.2 ∈ nodes := by
  induction nodes generalizing previous with
  | nil => cases listed
  | cons child rest ih =>
      rcases List.mem_cons.mp listed with rfl | later
      · exact List.mem_cons_self
      · exact List.mem_cons_of_mem child (ih later)

theorem sizeOf_child {node child : Node} (member : child ∈ node.children) :
    sizeOf child < sizeOf node := by
  obtain ⟨head, children⟩ := node
  have small := List.sizeOf_lt_of_mem member
  simp only [Node.children] at small
  simp only [mk.sizeOf_spec]
  omega

theorem mem_children_of_field? {node child : Node} {field : String}
    (found : node.field? field = some child) : child ∈ node.children :=
  List.mem_of_find?_eq_some found

/-- A member stands in the body, or in a part of it. -/
theorem mem_members {node : Node} {member : Option Node × Node} (listed : member ∈ node.members) :
    ∃ body ∈ node.children,
      member.2 ∈ body.children ∨ ∃ part ∈ body.children, member.2 ∈ part.children := by
  unfold members at listed
  split at listed
  · cases listed
  · rename_i body found
    refine ⟨body, mem_children_of_field? found, ?_⟩
    split at listed
    · obtain ⟨part, one, listed⟩ := List.mem_flatMap.mp listed
      have named := mem_of_mem_withPrevious listed
      exact .inr ⟨part, (List.mem_filter.mp one).1, (List.mem_filter.mp named).1⟩
    · exact .inl (List.mem_filter.mp (mem_of_mem_withPrevious listed)).1

theorem sizeOf_member {node : Node} {member : Option Node × Node}
    (listed : member ∈ node.members) : sizeOf member.2 < sizeOf node := by
  obtain ⟨body, inside, direct | ⟨part, one, direct⟩⟩ := mem_members listed
  · exact (sizeOf_child direct).trans (sizeOf_child inside)
  · exact (sizeOf_child direct).trans ((sizeOf_child one).trans (sizeOf_child inside))

/-- What holds of a node as soon as it holds of its members holds of every node. -/
theorem members_induction {motive : Node → Prop}
    (step : ∀ node, (∀ member ∈ node.members, motive member.2) → motive node) (node : Node) :
    motive node :=
  step node fun member _ => members_induction step member.2
termination_by sizeOf node
decreasing_by exact sizeOf_member ‹_›

/-- Whether a node is a declaration that is told: a type by its name, a method by its name and its
type, a field by its type. -/
def isTold (node : Node) : Bool :=
  match typeSort? node.type with
  | some _ => (node.field? "name").isSome
  | none =>
      match node.type with
      | "field_declaration" | "constant_declaration" => (node.field? "type").isSome
      | "method_declaration" => (node.field? "name").isSome && (node.field? "type").isSome
      | "constructor_declaration" => true
      | _ => false

/-- The kinds and the dotted names of a type declaration and of those in it, each before those in
it. A declaration without a name hides what is in it. -/
def declaredTypes (owner : String) (node : Node) : List (EntityKind × Value) :=
  match typeSort? node.type, node.field? "name" with
  | some sort, some name =>
      (sort.kind, .text (Dotted.within owner name.text)) ::
        node.members.attach.flatMap fun member =>
          declaredTypes (Dotted.within owner name.text) member.1.2
  | _, _ => []
termination_by sizeOf node
decreasing_by exact sizeOf_member member.2

theorem declaredTypes_of_named {owner : String} {node name : Node} {sort : TypeSort}
    (declaration : typeSort? node.type = some sort) (named : node.field? "name" = some name) :
    node.declaredTypes owner =
      (sort.kind, .text (Dotted.within owner name.text)) ::
        node.members.flatMap fun member =>
          member.2.declaredTypes (Dotted.within owner name.text) := by
  rw [declaredTypes, declaration, named]
  conv_rhs => rw [← List.attach_map_subtype_val node.members, List.flatMap_map]

theorem declaredTypes_of_other {owner : String} {node : Node}
    (other : typeSort? node.type = none) : node.declaredTypes owner = [] := by
  rw [declaredTypes, other]

theorem declaredTypes_of_untold {owner : String} {node : Node} (untold : node.isTold = false) :
    node.declaredTypes owner = [] := by
  unfold isTold at untold
  rw [declaredTypes]
  split
  · rename_i declaration named
    rw [declaration, named] at untold
    cases untold
  · rfl

/-- The nodes of the names that a member which is no type is told with. -/
def memberNames (node : Node) : List Node :=
  if (node.field? "type").isNone then []
  else
    match node.type with
    | "field_declaration" | "constant_declaration" =>
        (node.fieldAll "declarator").filterMap (·.field? "name")
    | "method_declaration" => (node.field? "name").toList
    | _ => []

/-- The names that a declaration and those in it are told with: types by their dotted names, fields
and methods by their own. -/
def givenNames (owner : String) (node : Node) : List String :=
  match typeSort? node.type, node.field? "name" with
  | none, _ => node.memberNames.map text
  | some _, none => []
  | some _, some name =>
      Dotted.within owner name.text ::
        node.members.attach.flatMap fun member =>
          givenNames (Dotted.within owner name.text) member.1.2
termination_by sizeOf node
decreasing_by exact sizeOf_member member.2

theorem givenNames_of_named {owner : String} {node name : Node} {sort : TypeSort}
    (declaration : typeSort? node.type = some sort) (named : node.field? "name" = some name) :
    node.givenNames owner =
      Dotted.within owner name.text ::
        node.members.flatMap fun member =>
          member.2.givenNames (Dotted.within owner name.text) := by
  rw [givenNames, declaration, named]
  conv_rhs => rw [← List.attach_map_subtype_val node.members, List.flatMap_map]

theorem givenNames_of_other {owner : String} {node : Node} (other : typeSort? node.type = none) :
    node.givenNames owner = node.memberNames.map text := by
  rw [givenNames, other]

theorem givenNames_of_untold {owner : String} {node : Node} (untold : node.isTold = false) :
    node.givenNames owner = [] := by
  unfold isTold at untold
  cases declaration : typeSort? node.type with
  | some sort =>
      rw [declaration] at untold
      cases named : node.field? "name" with
      | none => rw [givenNames, declaration, named]
      | some name =>
          rw [named] at untold
          cases untold
  | none =>
      rw [declaration] at untold
      rw [givenNames_of_other declaration, memberNames]
      cases typed : node.field? "type" with
      | none => rfl
      | some type =>
          dsimp only at untold
          split at untold <;> simp_all

end Node

/-! ### Blocks -/

/-- The documentation right before a declaration, noted and then told with a call of its own. -/
def documented (previous : Option Node) (told : DocEntry → Call) : List Call :=
  match Node.documentation previous with
  | none => []
  | some entry => [.parsedEntry entry, told entry]

/-- How a member that is no type is told: a field by a call for each of its names, a method by a
call and its documentation, a constructor by a call. -/
inductive Member.Told (owner : String) (previous : Option Node) (node : Node) :
    List Call → Prop
  | field {type : Node} {calls : List Call}
      (declaration : node.type = "field_declaration" ∨ node.type = "constant_declaration")
      (typed : node.field? "type" = some type)
      (each : List.Forall₂
        (fun name call => ∃ visibility type modifiers value,
          call = Call.attribute visibility (.text name.text) type modifiers value)
        ((node.fieldAll "declarator").filterMap (·.field? "name")) calls) :
      Told owner previous node calls
  | method {name type : Node} (declaration : node.type = "method_declaration")
      (named : node.field? "name" = some name) (typed : node.field? "type" = some type)
      (visibility parameters signature overload : Value) (types exceptions : List TypeRef)
      (result : TypeRef) (modifiers : List Nat) :
      Told owner previous node
        (.method visibility (.text name.text) parameters types (some result) modifiers exceptions
            overload ::
          documented previous
            (.methodDoc · (.text (Dotted.within owner name.text)) signature))
  | constructor (declaration : node.type = "constructor_declaration")
      (visibility overload parameters : Value) (types exceptions : List TypeRef)
      (modifiers : List Nat) :
      Told owner previous node
        [.constructor visibility overload parameters types modifiers exceptions]

/-- How members of an owner are told in their order. A type is a block: the call that opens it under
its dotted name, its documentation, its members and the call that closes it. -/
inductive Blocks : (owner : String) → List (Option Node × Node) → List Call → Prop
  | nil {owner : String} : Blocks owner [] []
  | member {owner : String} {previous : Option Node} {node : Node}
      {rest : List (Option Node × Node)} {calls later : List Call}
      (told : Member.Told owner previous node calls) (after : Blocks owner rest later) :
      Blocks owner ((previous, node) :: rest) (calls ++ later)
  | block {owner : String} {previous : Option Node} {node name : Node}
      {rest : List (Option Node × Node)} {opening : Call} {inner later : List Call}
      (sort : TypeSort) (declaration : typeSort? node.type = some sort)
      (named : node.field? "name" = some name)
      (opens : opening.opening? = some (sort.kind, .text (Dotted.within owner name.text)))
      (inside : Blocks (Dotted.within owner name.text) node.members inner)
      (after : Blocks owner rest later) :
      Blocks owner ((previous, node) :: rest)
        (opening :: documented previous (.classDoc · (.text (Dotted.within owner name.text))) ++
          inner ++ closeCall sort :: later)
  | nothing {owner : String} {previous : Option Node} {node : Node}
      {rest : List (Option Node × Node)} {later : List Call} (untold : node.isTold = false)
      (after : Blocks owner rest later) : Blocks owner ((previous, node) :: rest) later

/-! ### The outline of the nodes -/

/-- What a node is read as, with the documentation before it. -/
def readMember (declaration : Option Node × Node) : Option Member :=
  member? (Node.documentation declaration.1) declaration.2

theorem membersAfter_eq (previous : Option Node) (nodes : List Node) :
    membersAfter previous nodes =
      (Node.withPrevious previous (nodes.filter (·.head.named))).filterMap readMember := by
  induction nodes generalizing previous with
  | nil => rfl
  | cons child rest ih =>
      rw [membersAfter]
      by_cases named : child.head.named = true
      · rw [if_pos named, List.filter_cons, if_pos named, Node.withPrevious, if_pos named,
          List.filterMap_cons, ih]
        show (readMember (previous, child)).toList ++ _ = _
        cases readMember (previous, child) <;> rfl
      · rw [if_neg named, List.filter_cons, if_neg named, ih]

theorem partMembers_eq (nodes : List Node) :
    partMembers nodes =
      ((nodes.filter fun child => decide (child.type ∈ ["enum_body_declarations"])).flatMap
        fun part => Node.withPrevious none part.namedChildren).filterMap readMember := by
  induction nodes with
  | nil => rfl
  | cons child rest ih =>
      rw [partMembers, ih]
      by_cases part : child.type = "enum_body_declarations"
      · obtain ⟨head, children⟩ := child
        rw [if_pos part, List.filter_cons_of_pos (by simp [part]), List.flatMap_cons,
          List.filterMap_append, membersIn, membersAfter_eq]
        rfl
      · rw [if_neg part, List.filter_cons_of_neg (by simp [part]), List.nil_append]

theorem membersOf_eq (body : Node) :
    membersOf body =
      (if body.type = "enum_body" then
        (body.ofTypes ["enum_body_declarations"]).flatMap fun part =>
          Node.withPrevious none part.namedChildren
      else Node.withPrevious none body.namedChildren).filterMap readMember := by
  obtain ⟨head, children⟩ := body
  rw [membersOf]
  show _ = (if head.type = "enum_body" then _ else _ : List _).filterMap readMember
  by_cases parts : head.type = "enum_body"
  · rw [if_pos parts, if_pos parts, partMembers_eq]
    rfl
  · rw [if_neg parts, if_neg parts, membersAfter_eq]
    rfl

theorem bodyMembers_eq (node : Node) :
    bodyMembers node.children = node.members.filterMap readMember := by
  have first (children : List Node) :
      bodyMembers children =
        ((children.find? (·.head.field == some "body")).map membersOf).getD [] := by
    induction children with
    | nil => rfl
    | cons child rest ih =>
        rw [bodyMembers, List.find?_cons]
        cases child.head.field == some "body" with
        | true => rfl
        | false => exact ih
  rw [first, Node.members]
  show ((node.field? "body").map membersOf).getD [] = _
  cases node.field? "body" with
  | none => rfl
  | some body => exact membersOf_eq body

theorem typesAfter_eq (previous : Option Node) (nodes : List Node) :
    typesAfter previous nodes =
      ((Node.withPrevious previous nodes).filter fun declaration =>
        (typeSort? declaration.2.type).isSome).filterMap readMember := by
  induction nodes generalizing previous with
  | nil => rfl
  | cons child rest ih =>
      rw [typesAfter, Node.withPrevious, ih]
      cases declaration : typeSort? child.type with
      | none => rw [List.filter_cons_of_neg (by simp [declaration])]; rfl
      | some sort =>
          rw [List.filter_cons_of_pos (by simp [declaration]), List.filterMap_cons]
          show (readMember (previous, child)).toList ++ _ = _
          cases readMember (previous, child) <;> rfl

theorem readMember_eq (previous : Option Node) (node : Node) :
    readMember (previous, node) =
      match typeSort? node.type with
      | some sort =>
          (node.field? "name").map fun name =>
            .type (typeHeading node sort name.text (Node.documentation previous))
              (node.members.filterMap readMember)
      | none =>
          match node.type with
          | "field_declaration" | "constant_declaration" => (fieldDeclaration? node).map .field
          | "method_declaration" =>
              (node.field? "name").map fun name =>
                .method (executable node name.text (Node.documentation previous))
          | "constructor_declaration" => some (.constructor (executable node "" none))
          | _ => none := by
  rw [← bodyMembers_eq]
  obtain ⟨head, children⟩ := node
  rw [readMember, member?]
  show _ = match typeSort? head.type with
    | some sort => _
    | none => _
  cases typeSort? head.type with
  | some sort =>
      dsimp only
      rw [Option.map_map]
      rfl
  | none =>
      show (match head.type with
        | "field_declaration" | "constant_declaration" => _
        | "method_declaration" => _
        | "constructor_declaration" => _
        | _ => _) = match head.type with
        | "field_declaration" | "constant_declaration" => _
        | "method_declaration" => _
        | "constructor_declaration" => _
        | _ => _
      split
      · rfl
      · rfl
      · rw [Option.map_map]
        rfl
      · rfl
      · rfl

/-- What a node can be read as. -/
inductive Member.Read (previous : Option Node) (node : Node) : Member → Prop
  | type {name : Node} (sort : TypeSort) (declaration : typeSort? node.type = some sort)
      (named : node.field? "name" = some name) :
      Read previous node
        (.type (typeHeading node sort name.text (Node.documentation previous))
          (node.members.filterMap readMember))
  | field {type : Node}
      (declaration : node.type = "field_declaration" ∨ node.type = "constant_declaration")
      (typed : node.field? "type" = some type) :
      Read previous node (.field ⟨keywords node, writtenType type, declarators node⟩)
  | method {name : Node} (declaration : node.type = "method_declaration")
      (named : node.field? "name" = some name) :
      Read previous node
        (.method (executable node name.text (Node.documentation previous)))
  | constructor (declaration : node.type = "constructor_declaration") :
      Read previous node (.constructor (executable node "" none))

theorem readMember_cases (previous : Option Node) (node : Node) :
    (readMember (previous, node) = none ∧ node.isTold = false) ∨
      ∃ member, readMember (previous, node) = some member ∧ member.Read previous node := by
  rw [readMember_eq]
  unfold Node.isTold
  cases declaration : typeSort? node.type with
  | some sort =>
      dsimp only
      cases named : node.field? "name" with
      | none => exact .inl ⟨rfl, rfl⟩
      | some name => exact .inr ⟨_, rfl, .type sort declaration named⟩
  | none =>
      dsimp only
      split
      case h_1 | h_2 =>
        rename_i field
        rw [fieldDeclaration?]
        cases typed : node.field? "type" with
        | none => exact .inl ⟨rfl, rfl⟩
        | some type => exact .inr ⟨_, rfl, .field (by simp [field]) typed⟩
      case h_3 method =>
        cases named : node.field? "name" with
        | none => exact .inl ⟨rfl, rfl⟩
        | some name => exact .inr ⟨_, rfl, .method method named⟩
      case h_4 constructor => exact .inr ⟨_, rfl, .constructor constructor⟩
      case h_5 => exact .inl ⟨rfl, rfl⟩

/-! ### How the outline is told -/

variable {resolver : Resolver} {owner : String} {inInterface : Bool}

theorem opening_of_openCall {name : String} {heading : TypeHeading} {call : Call}
    (told : openCall resolver name inInterface heading = .ok call) :
    call.opening? = some (heading.sort.kind, .text name) := by
  simp only [openCall, Steps.bind_ok_iff] at told
  obtain ⟨extended, _, interfaces, _, told⟩ := told
  cases sort : heading.sort <;> (rw [sort] at told; cases told; rfl)

@[simp] theorem typeHeading_sort (node : Node) (sort : TypeSort) (name : String)
    (documentation : Option DocEntry) : (typeHeading node sort name documentation).sort = sort :=
  rfl

@[simp] theorem typeHeading_name (node : Node) (sort : TypeSort) (name : String)
    (documentation : Option DocEntry) : (typeHeading node sort name documentation).name = name :=
  rfl

@[simp] theorem typeHeading_typeVariables (node : Node) (sort : TypeSort) (name : String)
    (documentation : Option DocEntry) :
    (typeHeading node sort name documentation).typeVariables = typeVariables node :=
  rfl

theorem typeDocTrace_eq (name : String) (node : Node) (sort : TypeSort) (text : String)
    (previous : Option Node) :
    typeDocTrace name (typeHeading node sort text (Node.documentation previous)) =
      Trace.ofCalls (documented previous (.classDoc · (.text name))) := by
  unfold typeDocTrace documented typeHeading
  dsimp only
  cases Node.documentation previous <;> rfl

theorem declarators_names (node : Node) :
    (declarators node).map Declarator.name =
      ((node.fieldAll "declarator").filterMap (·.field? "name")).map Node.text := by
  unfold declarators
  rw [List.map_filterMap, List.map_filterMap]
  congr 1
  funext declarator
  cases declarator.field? "name" <;> rfl

theorem field_told {previous : Option Node} {node type : Node}
    (declaration : node.type = "field_declaration" ∨ node.type = "constant_declaration")
    (typed : node.field? "type" = some type)
    (passed : (fieldTrace resolver inInterface
      ⟨keywords node, writtenType type, declarators node⟩).fault = none) :
    Member.Told owner previous node (fieldTrace resolver inInterface
      ⟨keywords node, writtenType type, declarators node⟩).calls := by
  let Names (name : String) (call : Call) : Prop := ∃ visibility type modifiers value,
    call = .attribute visibility (.text name) type modifiers value
  have each : List.Forall₂ (fun declarator call => Names declarator.name call)
      (declarators node) (fieldTrace resolver inInterface
        ⟨keywords node, writtenType type, declarators node⟩).calls := by
    refine (Trace.calls_join passed).imp fun declarator call told => ?_
    obtain ⟨type, _, told⟩ := Steps.bind_ok_iff.mp told
    cases told
    exact ⟨_, _, _, _, rfl⟩
  rw [← List.forall₂_map_left_iff, declarators_names, List.forall₂_map_left_iff] at each
  exact .field declaration typed each

theorem methodDocTrace_calls {declaration : ExecutableDeclaration} {types : List TypeRef}
    {previous : Option Node} (read : declaration.documentation = Node.documentation previous)
    (passed : (methodDocTrace owner declaration types).fault = none) :
    ∃ signature, (methodDocTrace owner declaration types).calls =
      documented previous
        (.methodDoc · (.text (Dotted.within owner declaration.name)) signature) := by
  unfold methodDocTrace documented at *
  rw [read] at passed ⊢
  cases written : Node.documentation previous with
  | none => exact ⟨.null, rfl⟩
  | some entry =>
      rw [written] at passed
      obtain ⟨_, told, calls⟩ := Trace.of_append passed
      obtain ⟨call, given, one⟩ := Trace.calls_ofCall told
      obtain ⟨signature, _, given⟩ := Steps.bind_ok_iff.mp given
      cases given
      exact ⟨_, by rw [calls, one]; rfl⟩

theorem method_told {previous : Option Node} {node name : Node} {overload : Nat}
    (declaration : node.type = "method_declaration") (named : node.field? "name" = some name)
    (passed : (methodTrace resolver owner inInterface
      (executable node name.text (Node.documentation previous)) overload).fault = none) :
    (node.isTold = false ∧
      methodTrace resolver owner inInterface
        (executable node name.text (Node.documentation previous)) overload = .empty) ∨
      Member.Told owner previous node (methodTrace resolver owner inInterface
        (executable node name.text (Node.documentation previous)) overload).calls := by
  unfold methodTrace at *
  cases typed : node.field? "type" with
  | none =>
      refine .inl ⟨?_, ?_⟩
      · simp [Node.isTold, declaration, typeSort?, typed]
      · simp [executable, typed]
  | some type =>
      refine .inr ?_
      have read : (executable node name.text (Node.documentation previous)).type =
          some ((writtenType type).extend (bracketCount (node.field? "dimensions"))) := by
        simp [executable, typed]
      rw [read] at passed ⊢
      dsimp only at passed ⊢
      revert passed
      split
      · exact nofun
      · intro passed
        obtain ⟨_, told, calls⟩ := Trace.of_append passed
        rw [calls]
        obtain ⟨signature, documented⟩ := methodDocTrace_calls rfl told
        rw [documented]
        exact .method declaration named typed _ _ _ _ _ _ _ _

theorem constructor_told {previous : Option Node} {node : Node} {overload : Nat}
    (declaration : node.type = "constructor_declaration")
    (passed : (constructorTrace resolver (executable node "" none) overload).fault = none) :
    Member.Told owner previous node
      (constructorTrace resolver (executable node "" none) overload).calls := by
  unfold constructorTrace at *
  obtain ⟨call, given, one⟩ := Trace.calls_ofCall passed
  simp only [Steps.bind_ok_iff] at given
  obtain ⟨types, _, exceptions, _, given⟩ := given
  cases given
  dsimp only
  rw [one]
  exact .constructor declaration _ _ _ _ _ _

/-- What comes after a member is told with the counts the member leaves. -/
theorem memberTraces_cons (resolver : Resolver) (owner : String) (inInterface : Bool)
    (methods : List String) (constructors : Nat) (member : Member) (rest : List Member) :
    ∃ more total, memberTraces resolver owner inInterface methods constructors (member :: rest) =
      memberTrace resolver owner inInterface methods constructors member ++
        memberTraces resolver owner inInterface more total rest := by
  cases member <;> exact ⟨_, _, rfl⟩

/-! ### Which types are opened -/

/-- What some calls open, in their order: the kind and the name of each container. -/
def openings (calls : List Call) : List (EntityKind × Value) := calls.filterMap Call.opening?

@[simp] theorem openings_append (first second : List Call) :
    openings (first ++ second) = openings first ++ openings second :=
  List.filterMap_append

theorem openings_cons_none {call : Call} (other : call.opening? = none) (rest : List Call) :
    openings (call :: rest) = openings rest :=
  List.filterMap_cons_none other

theorem openings_cons_some {call : Call} {opened : EntityKind × Value}
    (opens : call.opening? = some opened) (rest : List Call) :
    openings (call :: rest) = opened :: openings rest :=
  List.filterMap_cons_some opens

theorem openings_documented (previous : Option Node) {told : DocEntry → Call}
    (notes : ∀ entry, (told entry).opening? = none) : openings (documented previous told) = [] := by
  unfold documented
  cases Node.documentation previous with
  | none => rfl
  | some entry => rw [openings_cons_none rfl, openings_cons_none (notes entry)]; rfl

theorem Member.Told.opens_none {previous : Option Node} {node : Node} {calls : List Call}
    (told : Member.Told owner previous node calls) :
    typeSort? node.type = none ∧ openings calls = [] := by
  cases told with
  | field declaration typed each =>
      refine ⟨by rcases declaration with field | constant <;> simp [typeSort?, *], ?_⟩
      generalize (node.fieldAll "declarator").filterMap (·.field? "name") = names at each
      induction each with
      | nil => rfl
      | cons attributed _ ih =>
          obtain ⟨visibility, type, modifiers, value, rfl⟩ := attributed
          rw [openings_cons_none rfl, ih]
  | method declaration named typed =>
      refine ⟨by simp [typeSort?, declaration], ?_⟩
      rw [openings_cons_none rfl, openings_documented previous fun _ => rfl]
  | constructor declaration => exact ⟨by simp [typeSort?, declaration], rfl⟩

/-- Each type that is reached is opened once, in the order of the text. -/
theorem Blocks.openings {nodes : List (Option Node × Node)} {calls : List Call}
    (blocks : Blocks owner nodes calls) :
    openings calls = nodes.flatMap fun node => node.2.declaredTypes owner := by
  induction blocks with
  | nil => rfl
  | member told after later =>
      obtain ⟨other, silent⟩ := told.opens_none
      rw [openings_append, silent, List.flatMap_cons, later, Node.declaredTypes_of_other other]
  | @block _ previous _ _ _ _ _ _ sort declaration named opens inside after within later =>
      have closed : (closeCall sort).opening? = none := by cases sort <;> rfl
      rw [List.flatMap_cons, Node.declaredTypes_of_named declaration named, ← later, ← within]
      rw [List.cons_append, List.cons_append, openings_cons_some opens, openings_append,
        openings_append, openings_cons_none closed, openings_documented previous fun _ => rfl]
      rfl
  | nothing untold after later =>
      rw [List.flatMap_cons, Node.declaredTypes_of_untold untold, later, List.nil_append]

/-! ### Which names are given -/

theorem placedNames_documented (previous : Option Node) {told : DocEntry → Call}
    (notes : ∀ entry, (told entry).placedName? = none) :
    (documented previous told).filterMap Call.placedName? = [] := by
  unfold documented
  cases Node.documentation previous with
  | none => rfl
  | some entry => rw [List.filterMap_cons_none rfl, List.filterMap_cons_none (notes entry)]; rfl

theorem Member.Told.names {previous : Option Node} {node : Node} {calls : List Call}
    (told : Member.Told owner previous node calls) :
    calls.filterMap Call.placedName? = node.memberNames.map (.text ·.text) := by
  cases told with
  | field declaration typed each =>
      have names : node.memberNames = (node.fieldAll "declarator").filterMap (·.field? "name") := by
        rcases declaration with field | constant <;> simp [Node.memberNames, *]
      rw [names]
      clear names
      generalize (node.fieldAll "declarator").filterMap (·.field? "name") = names at each
      induction each with
      | nil => rfl
      | cons attributed _ ih =>
          obtain ⟨visibility, type, modifiers, value, rfl⟩ := attributed
          show .text _ :: List.filterMap Call.placedName? _ = _
          rw [ih, List.map_cons]
  | method declaration named typed =>
      show .text _ :: List.filterMap Call.placedName? _ = _
      rw [placedNames_documented previous fun _ => rfl]
      simp [Node.memberNames, declaration, named, typed]
  | constructor declaration => simp [Node.memberNames, declaration, Call.placedName?]

/-- Each name that is given is given once, in the order of the text. -/
theorem Blocks.names {nodes : List (Option Node × Node)} {calls : List Call}
    (blocks : Blocks owner nodes calls) :
    calls.filterMap Call.placedName? =
      (nodes.flatMap fun node => node.2.givenNames owner).map .text := by
  induction blocks with
  | nil => rfl
  | member told after later =>
      rw [List.filterMap_append, told.names, List.flatMap_cons, List.map_append, later,
        Node.givenNames_of_other told.opens_none.1, List.map_map]
      rfl
  | @block owner previous _ name _ opening _ _ sort declaration named opens _ _ within later =>
      have opened : opening.placedName? = some (.text (Dotted.within owner name.text)) := by
        cases sort <;> cases opening <;> cases opens <;> rfl
      have closed : (closeCall sort).placedName? = none := by cases sort <;> rfl
      have silent := placedNames_documented previous
        (fun _ => rfl : ∀ entry, (Call.classDoc entry
          (.text (Dotted.within owner name.text))).placedName? = none)
      rw [List.flatMap_cons, Node.givenNames_of_named declaration named, List.map_append,
        List.map_cons, ← later, ← within]
      simp [opened, closed, silent]
  | nothing untold after later =>
      rw [List.flatMap_cons, Node.givenNames_of_untold untold, later, List.nil_append]

end CodeFacts.Source

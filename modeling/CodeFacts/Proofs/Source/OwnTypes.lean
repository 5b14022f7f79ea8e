import CodeFacts.Proofs.Source.Qualified
import CodeFacts.Proofs.Source.Rebound
import CodeFacts.Proofs.Source.Unit

/-!
Which types the members of a type are told with. The types of a unit are known by their simple names
wherever they stand, and of two the first is meant. So a type in whose body a name is written is
told of its own member type of that name only if no type of the name comes before.
-/

namespace CodeFacts

/-- The types of an attribute, of the parameters of a constructor, or of the result and then the
parameters of a method. -/
def Call.memberTypes : Call → List TypeRef
  | .attribute _ _ type _ _ => [type]
  | .constructor _ _ _ types _ _ => types
  | .method _ _ _ types result _ _ _ => result.toList ++ types
  | _ => []

namespace Source

namespace Node

/-- The types written in a member: that of each name of a field, that of the result of a method and
those of its parameters, and those of the parameters of a constructor. -/
def writtenTypes (node : Node) : List Written :=
  match node.type with
  | "field_declaration" | "constant_declaration" =>
      (node.field? "type").toList.flatMap fun type =>
        (declarators node).map fun declarator => (writtenType type).extend declarator.dimensions
  | "method_declaration" =>
      ((node.field? "type").map fun type =>
          (writtenType type).extend (bracketCount (node.field? "dimensions"))).toList ++
        (parameters node).map (·.2)
  | "constructor_declaration" => (parameters node).map (·.2)
  | _ => []

/-- The type variables that a member itself brings into scope. -/
def ownScopes (node : Node) : List (List String) :=
  match node.type with
  | "method_declaration" | "constructor_declaration" => [typeVariables node]
  | _ => []

end Node

/-- The dotted names of the types of a unit, each before those of the types in it. -/
def unitTypes (root : Node) : List String :=
  allTypeNames (packageName root) (Outline.ofRoot root).types

/-- The first type of a unit that has a simple name. -/
def firstType? (root : Node) (name : String) : Option String :=
  (unitTypes root).find? (Dotted.simple · == name)

/-- The simple names of the types that a unit imports one by one. -/
def importedNames (root : Node) : List String :=
  ((Outline.ofRoot root).imports.filter (!·.onDemand)).map (Dotted.simple ·.name)

/-- Whether one of some members declares a type of a name. -/
def Surroundings.Declares (around : Surroundings) (name : String) : Prop :=
  ∃ member ∈ around.members, (typeSort? member.2.type).isSome ∧
    (member.2.field? "name").map Node.text = some name

/-! ### What is known of names -/

namespace Resolver

theorem get?_declareAll (names : List String) (resolver : Resolver) (name : String) :
    Entries.get? (names.foldl declare resolver).localTypes name =
      (Entries.get? resolver.localTypes name).or (names.find? (Dotted.simple · == name)) := by
  induction names generalizing resolver with
  | nil => exact (Option.or_none).symm
  | cons first rest ih =>
      rw [List.foldl_cons, ih, declare, Entries.get?_putNew, Option.or_assoc, List.find?_cons]
      by_cases same : Dotted.simple first = name
      · simp [same]
      · have other : (Dotted.simple first == name) = false := beq_eq_false_iff_ne.mpr same
        simp [same, other]

variable {resolver : Resolver} {name : String}

theorem referencedName?_resolve (kind : NamedKind) (dimensions : Int) :
    (resolver.resolve name kind dimensions).referencedName? =
      if name ∈ TypeRef.primitiveNames then none else some (resolver.qualify name) := by
  have element : (resolver.element name kind).referencedName? =
      if name ∈ TypeRef.primitiveNames then none else some (resolver.qualify name) := by
    unfold Resolver.element TypeRef.ofKeyword?
    split <;> rfl
  unfold resolve
  split
  · exact element
  · exact element

theorem qualify_of_declared {first : String} (undotted : '.' ∉ name.toList)
    (free : ∀ scope ∈ resolver.scopes, name ∉ scope)
    (unimported : Entries.get? resolver.singleImports name = none)
    (declared : Entries.get? resolver.localTypes name = some first) :
    resolver.qualify name = first := by
  have no_variable : resolver.isVariable name = false := by
    simp only [isVariable, List.any_eq_false, decide_eq_true_eq]
    exact free
  have known : resolver.known? name = some first := by
    rw [known?, unimported, declared]
  rw [qualify_simple undotted no_variable, known, Option.getD_some]

end Resolver

/-- What is known in some surroundings of a unit: the type variables in scope, imports and types by
their simple names, and among the types those that the members around declare. -/
structure KnowsTypes (root : Node) (around : Surroundings) (resolver : Resolver) : Prop where
  scopes : resolver.scopes = around.scopes
  imported : ∀ name, name ∉ importedNames root → Entries.get? resolver.singleImports name = none
  declared : ∀ name, Entries.get? resolver.localTypes name = firstType? root name
  members : ∀ name ∈ allTypeNames around.owner (around.members.filterMap readMember),
    name ∈ unitTypes root

theorem knowsTypes_ofUnit (symbols : SymbolTable) (root : Node) :
    KnowsTypes root (.ofUnit root) ((Outline.ofRoot root).resolver symbols) := by
  obtain ⟨singles, demands, imported, items⟩ :=
    Resolver.importAll (Outline.ofRoot root).imports (.start (packageName root) symbols)
  have whole : (Outline.ofRoot root).resolver symbols = (unitTypes root).foldl Resolver.declare
      { Resolver.start (packageName root) symbols with
        singleImports := singles, onDemandImports := demands } := by
    rw [← imported]
    rfl
  have same (name : String) : Entries.get? ((Outline.ofRoot root).resolver symbols).localTypes
      name = firstType? root name := by
    rw [whole, Resolver.get?_declareAll]
    rfl
  obtain ⟨localTypes, others, _⟩ := Resolver.declareAll (unitTypes root)
    { Resolver.start (packageName root) symbols with
      singleImports := singles, onDemandImports := demands }
  refine ⟨?_, ?_, same, ?_⟩
  · rw [whole, others]
    rfl
  · intro name absent
    rw [whole, others, Entries.get?_eq_none_iff]
    rintro entry listed rfl
    rcases items entry listed with before | ⟨item, member, single, rfl⟩
    · cases before
    · exact absent (List.mem_map.mpr ⟨item, List.mem_filter.mpr ⟨member, by simp [single]⟩, rfl⟩)
  · intro name member
    have types : (Outline.ofRoot root).types = root.typeDeclarations.filterMap readMember :=
      typesAfter_eq none root.children
    rw [unitTypes, types]
    exact member

theorem mem_allTypeNames {owner name : String} {member : Member} {members : List Member}
    (listed : member ∈ members) (named : name ∈ typeNames owner member) :
    name ∈ allTypeNames owner members := by
  induction members with
  | nil => cases listed
  | cons first rest ih =>
      rw [allTypeNames]
      rcases List.mem_cons.mp listed with rfl | later
      · exact List.mem_append_left _ named
      · exact List.mem_append_right _ (ih later)

namespace KnowsTypes

variable {root : Node} {around : Surroundings} {resolver : Resolver}

/-- The types of a member that is read as a type are among those of the unit. -/
theorem type_names (knows : KnowsTypes root around resolver) {previous : Option Node}
    {node name : Node} {sort : TypeSort} (listed : (previous, node) ∈ around.members)
    (declaration : typeSort? node.type = some sort) (named : node.field? "name" = some name) :
    ∀ type ∈ Dotted.within around.owner name.text ::
        allTypeNames (Dotted.within around.owner name.text) (node.members.filterMap readMember),
      type ∈ unitTypes root := by
  intro type member
  have read : readMember (previous, node) = some (.type
      (typeHeading node sort name.text (Node.documentation previous))
      (node.members.filterMap readMember)) := by
    rw [readMember_eq, declaration, named]
    rfl
  exact knows.members type
    (mem_allTypeNames (List.mem_filterMap.mpr ⟨_, listed, read⟩) member)

theorem inside (knows : KnowsTypes root around resolver) {previous : Option Node}
    {node name : Node} {sort : TypeSort} (listed : (previous, node) ∈ around.members)
    (declaration : typeSort? node.type = some sort) (named : node.field? "name" = some name) :
    KnowsTypes root (around.inside node name) (resolver.enter (typeVariables node)) where
  scopes := congrArg (typeVariables node :: ·) knows.scopes
  imported := knows.imported
  declared := knows.declared
  members := (List.forall_mem_cons.mp (knows.type_names listed declaration named)).2

/-- A simple name of a type that the owner declares is that of some type of the unit. -/
theorem first_of_declares (knows : KnowsTypes root around resolver) {name : String}
    (undotted : '.' ∉ name.toList) (declares : around.Declares name) :
    ∃ first, firstType? root name = some first := by
  obtain ⟨⟨previous, node⟩, listed, some_sort, given⟩ := declares
  obtain ⟨sort, declaration⟩ := Option.isSome_iff_exists.mp some_sort
  obtain ⟨name, named, rfl⟩ := Option.map_eq_some_iff.mp given
  have known := knows.type_names listed declaration named _ List.mem_cons_self
  refine Option.isSome_iff_exists.mp (List.find?_isSome.mpr ⟨_, known, ?_⟩)
  exact beq_iff_eq.mpr (Dotted.simple_within undotted)

/-- A simple name of a type that the owner declares is told as the first type of the unit that has
the name, unless it is a keyword. -/
theorem reference_iff (knows : KnowsTypes root around resolver) {name : String}
    (own : List (List String)) (undotted : '.' ∉ name.toList) (declares : around.Declares name)
    (free : ∀ scope ∈ own ++ around.scopes, name ∉ scope) (unimported : name ∉ importedNames root)
    (dimensions : Int) {type : String} :
    ({ resolver with scopes := own ++ resolver.scopes }.resolve name .classType
        dimensions).referencedName? = some type ↔
      name ∉ TypeRef.primitiveNames ∧ firstType? root name = some type := by
  obtain ⟨first, found⟩ := knows.first_of_declares undotted declares
  have qualified : { resolver with scopes := own ++ resolver.scopes }.qualify name = first := by
    refine Resolver.qualify_of_declared undotted ?_ (knows.imported name unimported)
      ((knows.declared name).trans found)
    rw [knows.scopes]
    exact free
  rw [Resolver.referencedName?_resolve, qualified, found]
  by_cases keyword : name ∈ TypeRef.primitiveNames
  · simp [keyword]
  · simp [keyword]

end KnowsTypes

/-! ### What the types of members are told as -/

variable {resolver : Resolver} {owner : String} {inInterface : Bool}

/-- Whether references are what a resolver makes of written types. -/
def References (resolver : Resolver) (types : List Written) (references : List TypeRef) : Prop :=
  List.Forall₂ (fun written reference =>
    resolver.reference .classType written = .ok reference) types references

/-- Whether calls tell a member with the types it is written with, its own type variables being in
scope. -/
def ToldTypes (resolver : Resolver) (node : Node) (calls : List Call) : Prop :=
  References { resolver with scopes := node.ownScopes ++ resolver.scopes } node.writtenTypes
    (calls.flatMap Call.memberTypes)

theorem forall₂_flatMap_of_singletons {α β γ : Type} {relation : α → β → Prop} {told : γ → List β}
    {items : List α} {calls : List γ}
    (each : List.Forall₂ (fun item call => ∃ one, relation item one ∧ told call = [one]) items
      calls) :
    List.Forall₂ relation items (calls.flatMap told) := by
  induction each with
  | nil => exact .nil
  | cons first _ later =>
      obtain ⟨one, related, single⟩ := first
      rw [List.flatMap_cons, single]
      exact .cons related later

theorem memberTypes_documented (previous : Option Node) {told : DocEntry → Call}
    (notes : ∀ entry, (told entry).memberTypes = []) :
    (documented previous told).flatMap Call.memberTypes = [] := by
  unfold documented
  cases Node.documentation previous with
  | none => rfl
  | some entry =>
      have first : (Call.parsedEntry entry).memberTypes = [] := rfl
      rw [List.flatMap_cons, List.flatMap_singleton, first, notes]
      rfl

theorem field_references {node type : Node}
    (declaration : node.type = "field_declaration" ∨ node.type = "constant_declaration")
    (typed : node.field? "type" = some type)
    (passed : (fieldTrace resolver inInterface
      ⟨keywords node, writtenType type, declarators node⟩).fault = none) :
    ToldTypes resolver node (fieldTrace resolver inInterface
      ⟨keywords node, writtenType type, declarators node⟩).calls := by
  have written : node.writtenTypes =
      (declarators node).map fun declarator => (writtenType type).extend declarator.dimensions := by
    rcases declaration with field | constant <;> simp [Node.writtenTypes, *]
  have own : node.ownScopes = [] := by
    rcases declaration with field | constant <;> simp [Node.ownScopes, *]
  rw [ToldTypes, written, own, List.nil_append, References, List.forall₂_map_left_iff]
  have each := Trace.calls_join passed
  refine forall₂_flatMap_of_singletons (each.imp fun declarator call told => ?_)
  obtain ⟨reference, read, told⟩ := Steps.bind_ok_iff.mp told
  cases told
  exact ⟨reference, read, rfl⟩

theorem parameter_references {declaration : ExecutableDeclaration} {types : List TypeRef}
    (read : parameterTypes resolver declaration = .ok types) :
    References resolver (declaration.parameters.map (·.2)) types :=
  List.forall₂_map_left_iff.mpr (Steps.mapM_ok_iff.mp read)

theorem constructor_references {node : Node} {overload : Nat}
    (declaration : node.type = "constructor_declaration")
    (passed : (constructorTrace resolver (executable node "" none) overload).fault = none) :
    ToldTypes resolver node
      (constructorTrace resolver (executable node "" none) overload).calls := by
  have written : node.writtenTypes = (parameters node).map (·.2) := by
    simp [Node.writtenTypes, declaration]
  have own : node.ownScopes = [typeVariables node] := by simp [Node.ownScopes, declaration]
  unfold constructorTrace at *
  obtain ⟨call, given, one⟩ := Trace.calls_ofCall passed
  simp only [Steps.bind_ok_iff] at given
  obtain ⟨types, read, exceptions, _, given⟩ := given
  cases given
  dsimp only
  rw [ToldTypes, one, written, own]
  simp only [Trace.ofCalls, List.flatMap_singleton, Call.memberTypes]
  exact parameter_references read

theorem method_references {previous : Option Node} {node name type : Node} {overload : Nat}
    (declaration : node.type = "method_declaration") (typed : node.field? "type" = some type)
    (passed : (methodTrace resolver owner inInterface
      (executable node name.text (Node.documentation previous)) overload).fault = none) :
    ToldTypes resolver node (methodTrace resolver owner inInterface
      (executable node name.text (Node.documentation previous)) overload).calls := by
  have written : node.writtenTypes =
      (writtenType type).extend (bracketCount (node.field? "dimensions")) ::
        (parameters node).map (·.2) := by
    simp [Node.writtenTypes, declaration, typed]
  have own : node.ownScopes = [typeVariables node] := by simp [Node.ownScopes, declaration]
  have result : (executable node name.text (Node.documentation previous)).type =
      some ((writtenType type).extend (bracketCount (node.field? "dimensions"))) := by
    simp [executable, typed]
  unfold methodTrace at *
  rw [result] at passed ⊢
  dsimp only at passed ⊢
  revert passed
  split
  · intro passed
    cases passed
  · rename_i given
    intro passed
    simp only [Steps.bind_ok_iff] at given
    obtain ⟨result, read, types, read_types, exceptions, _, given⟩ := given
    cases given
    obtain ⟨_, told, calls⟩ := Trace.of_append passed
    obtain ⟨signature, documented⟩ := methodDocTrace_calls rfl told
    rw [ToldTypes, calls, List.flatMap_append, documented,
      memberTypes_documented previous fun _ => rfl, List.append_nil, written, own]
    simp only [Trace.ofCalls, List.flatMap_singleton, Call.memberTypes]
    exact .cons read (parameter_references read_types)

theorem Member.Told.typed {previous : Option Node} {node : Node} {calls : List Call}
    (told : Member.Told owner previous node calls)
    (declaration : node.type = "method_declaration") :
    ∃ type, node.field? "type" = some type := by
  cases told with
  | field other => rcases other with same | same <;> simp [declaration] at same
  | method _ _ typed => exact ⟨_, typed⟩
  | constructor other => simp [declaration] at other

/-- How a member is told, with the types it is written with. One that is written as the simple name
of a type its owner declares, where that is no type variable in scope and not imported by itself,
is told as the type of the owner just if the name is no keyword and no type of the unit has it
before. -/
def OwnTypes (root : Node) (around : Surroundings) (declaration : Option Node × Node)
    (calls : List Call) : Prop :=
  Member.Told around.owner declaration.1 declaration.2 calls ∧
    List.Forall₂ (fun written reference => ∃ type, written = .ok type ∧
      ('.' ∉ type.name.toList → around.Declares type.name →
        (∀ scope ∈ declaration.2.ownScopes ++ around.scopes, type.name ∉ scope) →
        type.name ∉ importedNames root →
          (reference.referencedName? = some (Dotted.within around.owner type.name) ↔
            type.name ∉ TypeRef.primitiveNames ∧
              firstType? root type.name = some (Dotted.within around.owner type.name))))
      declaration.2.writtenTypes (calls.flatMap Call.memberTypes)

theorem KnowsTypes.ownTypes {root : Node} {around : Surroundings} {declaration : Option Node × Node}
    {calls : List Call} (knows : KnowsTypes root around resolver)
    (told : Member.Told around.owner declaration.1 declaration.2 calls)
    (types : ToldTypes resolver declaration.2 calls) :
    OwnTypes root around declaration calls := by
  refine ⟨told, types.imp fun written reference read => ?_⟩
  obtain ⟨type, rfl, rfl⟩ := Steps.map_ok_iff.mp read
  exact ⟨type, rfl, fun undotted declares free unimported =>
    knows.reference_iff _ undotted declares free unimported _⟩

theorem kept_ownTypes (root : Node) : Kept (KnowsTypes root) (OwnTypes root) where
  inside knows listed declaration named := knows.inside listed declaration named
  member := by
    rintro around resolver ⟨previous, node⟩ member knows _ other read inInterface methods
      constructors trace passed
    cases read with
    | type sort declaration =>
        rw [declaration] at other
        cases other
    | field declaration typed =>
        exact .inr (knows.ownTypes (field_told declaration typed passed)
          (field_references declaration typed passed))
    | method declaration named =>
        simp only [trace, memberTrace] at passed ⊢
        rcases method_told declaration named passed with untold | told
        · exact .inl untold
        · obtain ⟨type, typed⟩ := told.typed declaration
          exact .inr (knows.ownTypes told (method_references declaration typed passed))
    | constructor declaration =>
        exact .inr (knows.ownTypes (constructor_told declaration passed)
          (constructor_references declaration passed))

/-- A unit that can be read is told as its parse errors and, in its package, block by block. A
field, a parameter or a result that is written as the simple name of a member type of the type it
stands in is told as that type just if the name is no keyword and no type of the unit has it
before. -/
theorem own_types_told (symbols : SymbolTable) (path : String) (root : Node)
    (read : (unitTrace symbols path root).fault = none) :
    ∃ blocks, Telling (OwnTypes root) (.ofUnit root) root.typeDeclarations blocks ∧
      (unitTrace symbols path root).calls =
        root.errors path ++ packaged (packageName root) blocks :=
  unit_telling (kept_ownTypes root) (knowsTypes_ofUnit symbols root) read

/-- A class in which a field has the type of a class in it. -/
def classOfOwnField (name : String) : Node :=
  .atStart "class_declaration" "" none
    [.atStart "identifier" name (some "name") [],
      .atStart "class_body" "" (some "body")
        [.atStart "class_declaration" "" none [.atStart "identifier" "X" (some "name") []],
          .atStart "field_declaration" "" none
            [.atStart "type_identifier" "X" (some "type") [],
              .atStart "variable_declarator" "" (some "declarator")
                [.atStart "identifier" "f" (some "name") []]]]]

theorem declares_classOfOwnField (around : Surroundings) (name : String) :
    (around.inside (classOfOwnField name) (.atStart "identifier" name (some "name") [])).Declares
      "X" := by
  refine ⟨(none, .atStart "class_declaration" "" none [.atStart "identifier" "X" (some "name") []]),
    ?_, rfl, rfl⟩
  exact List.mem_cons_self

/-- A class alone in its unit is told of its own member type. -/
theorem onlyOwnType_told :
    let root := Node.atStart "program" "" none [classOfOwnField "B"]
    let trace := unitTrace .empty "B.java" root
    trace.fault = none ∧
      (∃ blocks, Telling (OwnTypes root) (.ofUnit root) root.typeDeclarations blocks ∧
        trace.calls = root.errors "B.java" ++ packaged (packageName root) blocks) ∧
      firstType? root "X" = some "B.X" ∧
      trace.calls.flatMap Call.memberTypes = [.named .classType "B.X" none] := by
  intro root trace
  have read : trace.fault = none := Option.isNone_iff_eq_none.mp (by decide +kernel)
  exact ⟨read, own_types_told .empty "B.java" root read, by decide +kernel, by decide +kernel⟩

/-- The second of two classes with member types of one name is told of the first one's. -/
theorem secondOwnType_missed :
    let first := Node.atStart "class_declaration" "" none
      [.atStart "identifier" "A" (some "name") [],
        .atStart "class_body" "" (some "body")
          [.atStart "class_declaration" "" none [.atStart "identifier" "X" (some "name") []]]]
    let second := classOfOwnField "B"
    let root := Node.atStart "program" "" none [first, second]
    let around := (Surroundings.ofUnit root).inside second
      (.atStart "identifier" "B" (some "name") [])
    let trace := unitTrace .empty "A.java" root
    trace.fault = none ∧ (some first, second) ∈ root.typeDeclarations ∧ around.owner = "B" ∧
      around.Declares "X" ∧ around.scopes = [[]] ∧ importedNames root = [] ∧
      second.members.flatMap (·.2.writtenTypes) = [.ok ⟨"X", 0⟩] ∧
      trace.calls.flatMap Call.memberTypes = [.named .classType "A.X" none] := by
  intro first second root around trace
  refine ⟨Option.isNone_iff_eq_none.mp (by decide +kernel), ?_, by decide +kernel,
    declares_classOfOwnField _ _, by decide +kernel, by decide +kernel, rfl, by decide +kernel⟩
  exact List.mem_filter.mpr ⟨List.mem_cons_of_mem _ List.mem_cons_self, by decide +kernel⟩

end Source

end CodeFacts

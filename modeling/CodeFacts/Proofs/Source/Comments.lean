import CodeFacts.Proofs.Source.Alike

/-!
Comments among what a declaration is made of. One more comment between parameters, or behind the
class that is extended, tells nothing else. In front of that class, or among the types of a clause, a
comment is read as a type.
-/

namespace CodeFacts.Source

/-- Whether a tree is another one with a comment more, between the parameters of a declaration or
behind the class that is extended. -/
inductive Inserted : Node → Node → Prop
  | parameter {head comment : NodeHead} (before after : List Node)
      (list : head.type = "formal_parameters") (held : head.field = some "parameters")
      (remark : comment.isRemark = true) :
      Inserted (.mk head (before ++ after)) (.mk head (before ++ .mk comment [] :: after))
  | extended {head comment : NodeHead} (before after : List Node)
      (clause : head.type = "superclass") (held : head.field = some "superclass")
      (behind : ∃ type ∈ before, type.head.named = true) (remark : comment.isRemark = true) :
      Inserted (.mk head (before ++ after)) (.mk head (before ++ .mk comment [] :: after))
  | within {head : NodeHead} {child other : Node} (before after : List Node)
      (inserted : Inserted child other) :
      Inserted (.mk head (before ++ child :: after)) (.mk head (before ++ other :: after))

/-- Trees that differ in comments only. -/
def Leeway.comments : Leeway := ⟨false, true⟩

/-- The place that what stands behind some nodes is in. -/
def Place.past (place : Place) (nodes : List Node) : Place :=
  nodes.foldl (fun place node => place.behind node.head) place

theorem Place.inside_past (place : Place) (nodes : List Node) (head : NodeHead) :
    (place.past nodes).inside head = place.inside head := by
  induction nodes generalizing place with
  | nil => rfl
  | cons node rest ih => exact (ih _).trans (place.inside_behind node.head head)

theorem Place.past_spaced (nodes : List Node) : Place.spaced.past nodes = .spaced := by
  induction nodes with
  | nil => rfl
  | cons node rest ih => exact ih

theorem Place.past_extended {nodes : List Node} (behind : ∃ type ∈ nodes, type.head.named = true) :
    Place.extended.past nodes = .spaced := by
  induction nodes with
  | nil =>
      obtain ⟨_, listed, _⟩ := behind
      cases listed
  | cons node rest ih =>
      rw [Place.past, List.foldl_cons]
      by_cases named : node.head.named = true
      · have next : Place.extended.behind node.head = .spaced := if_pos ⟨rfl, named⟩
        rw [next]
        exact past_spaced rest
      · have next : Place.extended.behind node.head = .extended := if_neg fun both => named both.2
        rw [next]
        obtain ⟨type, listed, type_named⟩ := behind
        rcases List.mem_cons.mp listed with rfl | later
        · exact absurd type_named named
        · exact ih ⟨type, later, type_named⟩

theorem AlteredAll.behind {leeway : Leeway} {place : Place} (before : List Node)
    {nodes others : List Node} (altered : AlteredAll leeway (place.past before) nodes others) :
    AlteredAll leeway place (before ++ nodes) (before ++ others) := by
  induction before generalizing place with
  | nil => exact altered
  | cons node rest ih => exact .cons (altered_self _ _ node) (ih altered)

theorem Inserted.altered {node other : Node} (inserted : Inserted node other) (outer : Place) :
    Altered .comments (outer.inside node.head) node other := by
  induction inserted generalizing outer with
  | @parameter head comment before after list held remark =>
      have spaced : outer.inside head = .spaced := by
        simp [Place.inside, list, held, Place.declarationTypes, Place.fieldTypes, Place.nameTypes]
      refine .keeps (.behind before ?_)
      show AlteredAll _ ((outer.inside head).past before) _ _
      rw [spaced, Place.past_spaced]
      exact .remark rfl remark (alteredAll_self _ _ after)
  | @extended head comment before after clause held behind remark =>
      have extended : outer.inside head = .extended := by
        simp [Place.inside, clause, held, Place.declarationTypes, Place.fieldTypes, Place.nameTypes]
      refine .keeps (.behind before ?_)
      show AlteredAll _ ((outer.inside head).past before) _ _
      rw [extended, Place.past_extended behind]
      exact .remark rfl remark (alteredAll_self _ _ after)
  | @within head child other before after _ ih =>
      refine .keeps (.behind before (.cons ?_ (alteredAll_self _ _ after)))
      rw [Place.inside_past]
      exact ih _

/-! ### What is read -/

theorem eq_of_unnamed {name other : String} (unnamed : Unnamed .comments name other) :
    other = name := by
  rcases unnamed with same | ⟨lost, _⟩
  · exact same
  · cases lost

/-- Nodes that differ in comments only are read as the same. The induction is over the members of
types. -/
theorem Alike.read_same {one other : Option Node × Node} (alike : Alike .comments one other) :
    readMember other = readMember one := by
  obtain ⟨previous, node⟩ := one
  induction node using Node.members_induction generalizing previous other with
  | step node ih =>
  have read := alike.read
  generalize found : readMember (previous, node) = first, readMember other = second at read
  cases read with
  | nothing => rfl
  | @field declaration declarators each =>
      have same : declarators = declaration.declarators := by
        clear found ih
        generalize declaration.declarators = all at each
        induction each with
        | nil => rfl
        | @cons declarator changed _ _ here _ ih =>
            obtain ⟨name, dimensions, value⟩ := here
            rw [ih]
            cases declarator
            cases changed
            cases eq_of_unnamed name
            cases dimensions
            cases value
            rfl
      rw [same]
  | method declaration unnamed => rw [eq_of_unnamed unnamed]
  | constructor declaration => rfl
  | @type heading name unnamed members =>
      have same : other.2.members.filterMap readMember = node.members.filterMap readMember := by
        have each : List.Forall₂
            (fun one other : Option Node × Node => readMember other = readMember one)
            node.members other.2.members :=
          forall₂_of_mem members fun member listed _ alike => ih member listed member.1 alike
        exact filterMap_eq_of_forall₂ each fun _ _ same => same
      rw [same, eq_of_unnamed unnamed]

theorem Altered.errors {place : Place} {root other : Node}
    (altered : Altered .comments place root other) (path : String) :
    other.errors path = root.errors path := by
  let read (head : NodeHead) : Option Call :=
    (Node.error? (.mk head [])).map fun description =>
      .parseError (.text s!"{path}:{head.row + 1}:{head.column + 1}") (.text description)
  have eq (node : Node) : node.errors path = node.preorder.filterMap (read ·.head) :=
    List.filterMap_congr fun below _ => by
      obtain ⟨head, children⟩ := below
      rfl
  rw [eq, eq]
  have lost (names : Leeway.comments.names = true) : False := by cases names
  refine altered.preorder (fun names => (lost names).elim) fun _ head remark => ?_
  simp only [NodeHead.isRemark, NodeHead.remarkTypes, Bool.and_eq_true, decide_eq_true_eq,
    Bool.not_eq_true', List.mem_cons, List.not_mem_nil, or_false] at remark
  have silent : Node.error? (.mk head []) = none := by
    rcases remark.1.1.1 with line | block | plain <;>
      simp [Node.error?, Node.head, Node.type, remark.2, *]
  show (Node.error? (.mk head [])).map _ = none
  rw [silent, Option.map_none]

theorem Altered.outline {root other : Node} {place : Place}
    (altered : Altered .comments place root other) (closed : ¬place.Open) :
    Outline.ofRoot other = Outline.ofRoot root := by
  have types : typesAfter none other.children = typesAfter none root.children := by
    rw [typesAfter_eq, typesAfter_eq]
    exact filterMap_eq_of_forall₂ (altered.typeDeclarations closed) fun _ _ alike =>
      alike.read_same
  unfold Outline.ofRoot
  rw [altered.packageName, altered.imports, types]

/-- A comment between parameters, or behind the class that is extended, changes nothing that is
told: neither the calls nor what they are given. -/
theorem comment_changes_nothing {root other : Node} (inserted : Inserted root other)
    (outermost : root.head.field = none) (symbols : SymbolTable) (path : String) :
    unitTrace symbols path other = unitTrace symbols path root := by
  have altered := inserted.altered .other
  have closed : ¬(Place.other.inside root.head).Open :=
    Place.not_open_inside (by rw [outermost]; exact nofun) (by rw [outermost]; exact nofun)
  unfold unitTrace
  rw [altered.errors, altered.outline closed]

theorem commentBehindParameter_silent :
    let parameter := Node.atStart "formal_parameter" "B b" none
      [.atStart "type_identifier" "B" (some "type") [],
        .atStart "identifier" "b" (some "name") []]
    let comment := Node.atStart "line_comment" "// the b" none []
    let unit := fun parameters => Node.atStart "program" "" none
      [.atStart "class_declaration" "" none
        [.atStart "identifier" "A" (some "name") [],
          .atStart "class_body" "" (some "body")
            [.atStart "constructor_declaration" "" none
              [.atStart "formal_parameters" "" (some "parameters") parameters]]]]
    Inserted (unit [parameter]) (unit [parameter, comment]) ∧
      (unit [parameter]).head.field = none ∧
      unitTrace .empty "A.java" (unit [parameter, comment]) =
        unitTrace .empty "A.java" (unit [parameter]) ∧
      (unitTrace .empty "A.java" (unit [parameter])).calls.length = 3 := by
  intro parameter comment unit
  have inserted : Inserted (unit [parameter]) (unit [parameter, comment]) :=
    .within [] [] <| .within [.atStart "identifier" "A" (some "name") []] [] <|
      .within [] [] <| .within [] [] <| .parameter [parameter] [] rfl rfl (by decide +kernel)
  exact ⟨inserted, rfl, comment_changes_nothing inserted rfl .empty "A.java", by decide +kernel⟩

/-! ### Comments among types -/

/-- In a clause a comment is a type among the others, written as the text of the comment. -/
theorem writtenTypes_comment {head comment : NodeHead} (before after : List Node)
    (remark : comment.isRemark = true) :
    (Node.mk head (before ++ .mk comment [] :: after)).namedChildren.map writtenType =
      (Node.mk head before).namedChildren.map writtenType ++
        .ok ⟨comment.text, 0⟩ :: (Node.mk head after).namedChildren.map writtenType := by
  simp only [NodeHead.isRemark, NodeHead.remarkTypes, Bool.and_eq_true, decide_eq_true_eq,
    List.mem_cons, List.not_mem_nil, or_false] at remark
  have read : writtenType (.mk comment []) = .ok ⟨comment.text, 0⟩ := by
    refine @writtenType_of_other (.mk comment []) ?_
    show comment.type ∉ typeForms
    rcases remark.1.1.1 with line | block | plain <;> simp [typeForms, *]
  have named : (Node.mk comment []).head.named = true := remark.1.1.2
  simp only [Node.namedChildren, Node.children, List.filter_append, List.map_append]
  rw [List.filter_cons, if_pos named, List.map_cons, read]

/-- A comment before the class that is extended, or among the types of another clause, is told as a
type of its text. -/
theorem commentAsType_told :
    let unit := fun comments => Node.atStart "program" "" none
      [.atStart "class_declaration" "" none
        [.atStart "identifier" "A" (some "name") [],
          .atStart "superclass" "" (some "superclass")
            (comments ++ [.atStart "type_identifier" "B" none []]),
          .atStart "super_interfaces" "" (some "interfaces")
            [.atStart "type_list" "" none
              (comments ++ [.atStart "type_identifier" "I" none []])],
          .atStart "class_body" "" (some "body")
            [.atStart "constructor_declaration" "" none
              [.atStart "throws" "" none
                (comments ++ [.atStart "type_identifier" "E" none []])]]]]
    let references := fun (call : Call) =>
      match call with
      | .startClass _ _ _ extended implemented => extended.toList ++ implemented
      | .constructor _ _ _ _ _ exceptions => exceptions
      | _ => []
    let comment := Node.atStart "block_comment" "/* c */" none []
    (unitTrace .empty "A.java" (unit [])).calls.flatMap references =
        [.named .classType "B" none, .named .interface "I" none, .named .exception "E" none] ∧
      (unitTrace .empty "A.java" (unit [comment])).calls.flatMap references =
        [.named .classType "/* c */" none, .named .interface "/* c */" none,
          .named .interface "I" none, .named .exception "/* c */" none,
          .named .exception "E" none] := by
  decide +kernel

end CodeFacts.Source

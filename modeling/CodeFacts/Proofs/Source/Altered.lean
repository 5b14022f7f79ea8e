import CodeFacts.Proofs.Source.Blocks

/-!
Trees that differ in little: names of declarations may be missing, and comments may stand between
parameters or behind the class that is extended. What is chosen among the children of a node is the
same in both, and so are the types written in it.
-/

namespace CodeFacts.Source

/-- What may differ between two trees: names may be missing, comments may be added. -/
structure Leeway where
  names : Bool
  remarks : Bool

/-- What a node is, as far as it matters for what may differ in it: a declaration of a type or a
method, one of fields, one of the declarators in it, a name, the clause of the class that is
extended, a list that comments may stand in anywhere. -/
inductive Place where
  | declaration
  | fields
  | declarator
  | name
  | extended
  | spaced
  | other
  deriving DecidableEq

namespace NodeHead

/-- The node of a name that is missing. -/
def lost (head : NodeHead) : NodeHead := { head with text := "", missing := true }

def remarkTypes : List String := ["line_comment", "block_comment", "comment"]

/-- Whether a node is a comment, which holds no field of the node around it. -/
def isRemark (head : NodeHead) : Bool :=
  decide (head.type ∈ remarkTypes) && head.named && head.field.isNone && !head.missing

end NodeHead

namespace Place

def nameTypes : List String := ["identifier", "underscore_pattern"]

def fieldTypes : List String := ["field_declaration", "constant_declaration"]

/-- Declarations of types, also of those that are not told, and of methods. -/
def declarationTypes : List String :=
  ["class_declaration", "interface_declaration", "enum_declaration", "record_declaration",
    "annotation_type_declaration", "method_declaration"]

/-- The place of a node inside of another. What stands for the class that is extended is read as a
type, so that it is no declaration. -/
def inside (outer : Place) (head : NodeHead) : Place :=
  if head.type ∈ declarationTypes ∧ head.field ≠ some "superclass" then .declaration
  else if head.type ∈ fieldTypes then .fields
  else if outer = .fields ∧ head.field = some "declarator" ∧
      head.type = "variable_declarator" then .declarator
  else if (outer = .declaration ∨ outer = .declarator) ∧ head.field = some "name" ∧
      head.type ∈ nameTypes then .name
  else if head.type = "superclass" ∧ head.field = some "superclass" then .extended
  else if head.type = "formal_parameters" ∧ head.field = some "parameters" then .spaced
  else .other

/-- The place that what stands behind a child is in: behind the class that is extended comments may
stand anywhere. -/
def behind (place : Place) (head : NodeHead) : Place :=
  if place = .extended ∧ head.named = true then .spaced else place

theorem inside_behind (place : Place) (head next : NodeHead) :
    (place.behind head).inside next = place.inside next := by
  unfold behind
  split
  · rename_i behind
    rw [behind.1]
    rfl
  · rfl

/-- Whether comments may be added among what is in a place. -/
def Open (place : Place) : Prop := place = .spaced ∨ place = .extended

theorem open_of_behind {place : Place} {head : NodeHead} (spaced : (place.behind head).Open) :
    place.Open := by
  unfold behind at spaced
  split at spaced
  · rename_i extended
    exact .inr extended.1
  · exact spaced

/-- The types that a place is known by. -/
def knownTypes : List String :=
  declarationTypes ++ fieldTypes ++ nameTypes ++
    ["variable_declarator", "superclass", "formal_parameters"]

/-- What is known of a node by its place. -/
structure Shows (outer : Place) (head : NodeHead) (place : Place) : Prop where
  name : place = .name → (outer = .declaration ∨ outer = .declarator) ∧ head.field = some "name"
  declaration : place = .declaration → head.field ≠ some "superclass"
  declarator : place = .declarator → head.field = some "declarator"
  extended : place = .extended → head.field = some "superclass"
  spaced : place = .spaced → head.field = some "parameters"
  known : place ≠ .other → head.type ∈ knownTypes

theorem shows_inside (outer : Place) (head : NodeHead) : Shows outer head (outer.inside head) := by
  have listed {types : List String} (member : head.type ∈ types)
      (known : ∀ type ∈ types, type ∈ knownTypes) : head.type ∈ knownTypes := known _ member
  unfold inside
  split
  · rename_i declaration
    exact ⟨nofun, fun _ => declaration.2, nofun, nofun, nofun, fun _ =>
      listed declaration.1 (by decide)⟩
  split
  · rename_i fields
    exact ⟨nofun, nofun, nofun, nofun, nofun, fun _ => listed fields (by decide)⟩
  split
  · rename_i declarator
    refine ⟨nofun, nofun, fun _ => declarator.2.1, nofun, nofun, fun _ => ?_⟩
    rw [declarator.2.2]
    decide
  split
  · rename_i name
    exact ⟨fun _ => ⟨name.1, name.2.1⟩, nofun, nofun, nofun, nofun, fun _ =>
      listed name.2.2 (by decide)⟩
  split
  · rename_i clause
    refine ⟨nofun, nofun, nofun, fun _ => clause.2, nofun, fun _ => ?_⟩
    rw [clause.1]
    decide
  split
  · rename_i list
    refine ⟨nofun, nofun, nofun, nofun, fun _ => list.2, fun _ => ?_⟩
    rw [list.1]
    decide
  · exact ⟨nofun, nofun, nofun, nofun, nofun, fun other => absurd rfl other⟩

theorem inside_eq_other {outer : Place} {head : NodeHead} (unknown : head.type ∉ knownTypes) :
    outer.inside head = .other := by
  by_contra other
  exact unknown ((shows_inside outer head).known other)

theorem inside_ne_name {outer : Place} {head : NodeHead} (unnamed : head.field ≠ some "name") :
    outer.inside head ≠ .name :=
  fun name => unnamed ((shows_inside outer head).name name).2

theorem inside_other_ne_name {head : NodeHead} : Place.other.inside head ≠ .name := by
  intro name
  rcases ((shows_inside .other head).name name).1 with same | same <;> cases same

theorem not_open_inside {outer : Place} {head : NodeHead}
    (no_clause : head.field ≠ some "superclass") (no_list : head.field ≠ some "parameters") :
    ¬(outer.inside head).Open := by
  rintro (spaced | extended)
  · exact no_list ((shows_inside outer head).spaced spaced)
  · exact no_clause ((shows_inside outer head).extended extended)

theorem inside_other_declarator {head : NodeHead}
    (declarator : head.type = "variable_declarator") : Place.other.inside head = .other := by
  simp [inside, declarator, declarationTypes, fieldTypes, nameTypes]

theorem other_not_open : ¬Place.other.Open := by rintro (same | same) <;> cases same

end Place

mutual

/-- Whether a tree in a place differs from another only in what it may. -/
inductive Altered (leeway : Leeway) : Place → Node → Node → Prop
  | keeps {place : Place} {head : NodeHead} {children others : List Node}
      (below : AlteredAll leeway place children others) :
      Altered leeway place (.mk head children) (.mk head others)
  | loses {head : NodeHead} (names : leeway.names = true)
      (type : head.type ∈ Place.nameTypes) :
      Altered leeway .name (.mk head []) (.mk head.lost [])

inductive AlteredAll (leeway : Leeway) : Place → List Node → List Node → Prop
  | nil {place : Place} : AlteredAll leeway place [] []
  | cons {place : Place} {child other : Node} {rest others : List Node}
      (here : Altered leeway (place.inside child.head) child other)
      (later : AlteredAll leeway (place.behind child.head) rest others) :
      AlteredAll leeway place (child :: rest) (other :: others)
  | remark {head : NodeHead} {rest others : List Node} (remarks : leeway.remarks = true)
      (remark : head.isRemark = true) (later : AlteredAll leeway .spaced rest others) :
      AlteredAll leeway .spaced rest (.mk head [] :: others)

end

mutual

theorem altered_self (leeway : Leeway) (place : Place) : (node : Node) →
    Altered leeway place node node
  | .mk _ children => .keeps (alteredAll_self leeway place children)

theorem alteredAll_self (leeway : Leeway) (place : Place) : (nodes : List Node) →
    AlteredAll leeway place nodes nodes
  | [] => .nil
  | child :: rest => .cons (altered_self leeway _ child) (alteredAll_self leeway _ rest)

end

variable {leeway : Leeway} {place : Place} {node other : Node}

theorem Altered.head_eq (altered : Altered leeway place node other) :
    other.head = node.head ∨
      place = .name ∧ leeway.names = true ∧ other.head = node.head.lost := by
  cases altered with
  | keeps below => exact .inl rfl
  | loses names => exact .inr ⟨rfl, names, rfl⟩

/-- A test of a head that does not look at what is lost with a name. -/
theorem Altered.test (altered : Altered leeway place node other) {α : Type} {test : NodeHead → α}
    (steady : ∀ head, test head.lost = test head) : test other.head = test node.head := by
  rcases altered.head_eq with same | ⟨_, _, lost⟩
  · rw [same]
  · rw [lost, steady]

theorem Altered.type_eq (altered : Altered leeway place node other) : other.type = node.type :=
  altered.test fun _ => rfl

theorem Altered.kept (altered : Altered leeway place node other) (unnamed : place ≠ .name) :
    other.head = node.head := by
  rcases altered.head_eq with same | ⟨name, _⟩
  · exact same
  · exact absurd name unnamed

theorem Altered.children (altered : Altered leeway place node other) :
    AlteredAll leeway place node.children other.children := by
  cases altered with
  | keeps below => exact below
  | loses => exact .nil

/-- What is chosen among nodes by what chooses no comment where comments may be added. -/
theorem AlteredAll.filter {place : Place} {children others : List Node}
    (altered : AlteredAll leeway place children others) {test : NodeHead → Bool}
    (steady : ∀ head, test head.lost = test head)
    (bare : place.Open → ∀ head, head.isRemark = true → test head = false) :
    List.Forall₂ (fun child other =>
        test child.head = true ∧ Altered leeway (place.inside child.head) child other)
      (children.filter (test ·.head)) (others.filter (test ·.head)) := by
  match altered with
  | .nil => exact .nil
  | .cons here later =>
      have rest := later.filter steady fun spaced => bare (Place.open_of_behind spaced)
      simp only [Place.inside_behind] at rest
      have tested := here.test steady
      simp only [List.filter_cons, tested]
      split
      · rename_i chosen
        exact .cons ⟨chosen, here⟩ rest
      · exact rest
  | .remark _ comment later =>
      rw [List.filter_cons_of_neg (by simp [bare (.inl rfl) _ comment, Node.head])]
      exact later.filter steady bare

theorem Altered.ofTypes (altered : Altered leeway place node other) {types : List String}
    (bare : ∀ type ∈ NodeHead.remarkTypes, type ∉ types) :
    List.Forall₂ (fun child other =>
        child.type ∈ types ∧ Altered leeway (place.inside child.head) child other)
      (node.ofTypes types) (other.ofTypes types) := by
  let test (head : NodeHead) : Bool := decide (head.type ∈ types)
  have passed (head : NodeHead) (remark : head.isRemark = true) : test head = false := by
    simp only [NodeHead.isRemark, Bool.and_eq_true, decide_eq_true_eq] at remark
    exact decide_eq_false (bare _ remark.1.1.1)
  have steady (head : NodeHead) : test head.lost = test head := rfl
  exact (altered.children.filter steady fun _ => passed).imp
    fun _ _ here => ⟨of_decide_eq_true here.1, here.2⟩

theorem Altered.fieldAll (altered : Altered leeway place node other) (field : String) :
    List.Forall₂ (fun child other =>
        child.head.field = some field ∧ Altered leeway (place.inside child.head) child other)
      (node.fieldAll field) (other.fieldAll field) := by
  let test (head : NodeHead) : Bool := head.field == some field
  have passed (head : NodeHead) (remark : head.isRemark = true) : test head = false := by
    simp only [NodeHead.isRemark, Bool.and_eq_true, Option.isNone_iff_eq_none] at remark
    simp [test, remark.1.2]
  have steady (head : NodeHead) : test head.lost = test head := rfl
  exact (altered.children.filter steady fun _ => passed).imp
    fun _ _ here => ⟨beq_iff_eq.mp here.1, here.2⟩

theorem Altered.all (altered : Altered leeway place node other) (closed : ¬place.Open) :
    List.Forall₂ (fun child other => Altered leeway (place.inside child.head) child other)
      node.children other.children := by
  let test (_ : NodeHead) : Bool := true
  have steady (head : NodeHead) : test head.lost = test head := rfl
  have chosen := altered.children.filter steady fun spaced => absurd spaced closed
  simpa [test] using chosen

theorem Altered.namedChildren (altered : Altered leeway place node other) (closed : ¬place.Open) :
    List.Forall₂ (fun child other => Altered leeway (place.inside child.head) child other)
      node.namedChildren other.namedChildren := by
  have steady (head : NodeHead) : head.lost.named = head.named := rfl
  exact (altered.children.filter steady fun spaced => absurd spaced closed).imp
    fun _ _ here => here.2

/-- What holds of what is chosen first holds where anything is chosen, which is so for both. -/
theorem first_of_forall₂ {α β : Type} {holds : α → β → Prop} {chosen : List α} {others : List β}
    (each : List.Forall₂ holds chosen others) :
    (chosen.head? = none ∧ others.head? = none) ∨
      ∃ one other, chosen.head? = some one ∧ others.head? = some other ∧ holds one other := by
  cases each with
  | nil => exact .inl ⟨rfl, rfl⟩
  | cons here => exact .inr ⟨_, _, rfl, rfl, here⟩

theorem Altered.field? (altered : Altered leeway place node other) (field : String) :
    (node.field? field = none ∧ other.field? field = none) ∨
      ∃ child changed, node.field? field = some child ∧ other.field? field = some changed ∧
        child.head.field = some field ∧ Altered leeway (place.inside child.head) child changed := by
  have first := first_of_forall₂ (altered.fieldAll field)
  rw [Node.fieldAll, Node.fieldAll, List.head?_filter, List.head?_filter] at first
  exact first

theorem forall₂_of_mem {α β : Type} {holds more : α → β → Prop} {items : List α} {others : List β}
    (each : List.Forall₂ holds items others)
    (step : ∀ item ∈ items, ∀ other, holds item other → more item other) :
    List.Forall₂ more items others := by
  induction each with
  | nil => exact .nil
  | cons here _ ih =>
      exact .cons (step _ List.mem_cons_self _ here)
        (ih fun item listed => step item (List.mem_cons_of_mem _ listed))

theorem find?_of_forall₂ {α β : Type} {holds : α → β → Prop} {items : List α} {others : List β}
    (each : List.Forall₂ holds items others) {test : α → Bool} {retest : β → Bool}
    (same : ∀ item other, holds item other → retest other = test item) :
    (items.find? test = none ∧ others.find? retest = none) ∨
      ∃ one other, items.find? test = some one ∧ others.find? retest = some other ∧
        holds one other := by
  have chosen : List.Forall₂ holds (items.filter test) (others.filter retest) :=
    List.rel_filter (fun item other here => by simp only [same item other here]) each
  rw [← List.head?_filter, ← List.head?_filter]
  exact first_of_forall₂ chosen

theorem map_eq_of_forall₂ {α β γ : Type} {holds : α → β → Prop} {read : α → γ} {reread : β → γ}
    {items : List α} {others : List β} (each : List.Forall₂ holds items others)
    (same : ∀ item other, holds item other → reread other = read item) :
    others.map reread = items.map read := by
  induction each with
  | nil => rfl
  | cons here _ ih => rw [List.map_cons, List.map_cons, same _ _ here, ih]

theorem flatMap_eq_of_forall₂ {α β γ : Type} {holds : α → β → Prop} {read : α → List γ}
    {reread : β → List γ} {items : List α} {others : List β}
    (each : List.Forall₂ holds items others)
    (same : ∀ item other, holds item other → reread other = read item) :
    others.flatMap reread = items.flatMap read := by
  rw [List.flatMap_def, List.flatMap_def, map_eq_of_forall₂ each same]

theorem filterMap_eq_of_forall₂ {α β γ : Type} {holds : α → β → Prop} {read : α → Option γ}
    {reread : β → Option γ} {items : List α} {others : List β}
    (each : List.Forall₂ holds items others)
    (same : ∀ item other, holds item other → reread other = read item) :
    others.filterMap reread = items.filterMap read := by
  have mapped := congrArg (List.filterMap id) (map_eq_of_forall₂ each same)
  rwa [List.filterMap_map, List.filterMap_map] at mapped

/-! ### Types -/

def typeForms : List String :=
  ["array_type", "generic_type", "annotated_type", "scoped_type_identifier"]

/-- Whether two lists of parts, each with the type it is read as, are read alike. -/
def SameParts : List (Node × Written) → List (Node × Written) → Prop :=
  List.Forall₂ fun part changed => changed.1.head = part.1.head ∧ changed.2 = part.2

section SameParts

variable {parts others : List (Node × Written)}

theorem SameParts.filter (same : SameParts parts others) (test : NodeHead → Bool) :
    SameParts (parts.filter (test ·.1.head)) (others.filter (test ·.1.head)) := by
  induction same with
  | nil => exact .nil
  | cons here _ ih =>
      simp only [List.filter_cons, here.1]
      split
      · exact .cons here ih
      · exact ih

theorem SameParts.find? (same : SameParts parts others) (test : NodeHead → Bool) :
    (others.find? (test ·.1.head)).map Prod.snd =
      (parts.find? (test ·.1.head)).map Prod.snd := by
  rw [← List.head?_filter, ← List.head?_filter]
  rcases first_of_forall₂ (same.filter test) with
    ⟨none, other_none⟩ | ⟨_, _, one, other, _, same⟩
  · rw [none, other_none]
  · rw [one, other, Option.map_some, Option.map_some, same]

theorem SameParts.getLast? (same : SameParts parts others) :
    others.getLast?.map Prod.snd = parts.getLast?.map Prod.snd := by
  have turned : SameParts parts.reverse others.reverse := List.rel_reverse same
  rw [List.getLast?_eq_head?_reverse, List.getLast?_eq_head?_reverse]
  rcases first_of_forall₂ turned with ⟨none, other_none⟩ | ⟨_, _, one, other, _, same⟩
  · rw [none, other_none]
  · rw [one, other, Option.map_some, Option.map_some, same]

theorem SameParts.scopedName (same : SameParts parts others) :
    scopedName others = scopedName parts := by
  induction same with
  | nil => rfl
  | @cons part changed _ _ here _ ih =>
      obtain ⟨part, written⟩ := part
      obtain ⟨changed, rewritten⟩ := changed
      obtain ⟨head, rfl⟩ := here
      dsimp only at head
      simp only [Source.scopedName, ih, Node.type, Node.text, head]
      rfl

end SameParts

/-- A type of some form, from its dimensions and its parts. -/
def formType (type : String) (dimensions : Nat) (parts : List (Node × Written)) : Written :=
  match type with
  | "array_type" =>
      (((parts.find? (·.1.head.field == some "element")).map Prod.snd).getD
        (.error (.unsupported .part))).extend dimensions
  | "generic_type" =>
      ((parts.find? fun part =>
        decide (part.1.head.type ∈ ["type_identifier", "scoped_type_identifier"])).map
          Prod.snd).getD (.error (.index .item))
  | "annotated_type" =>
      ((parts.filter fun part =>
        part.1.head.named && decide (part.1.head.type ∉ annotationTypes)).getLast?.map
          Prod.snd).getD (.error (.index .item))
  | _ => do return ⟨Dotted.join (← scopedName parts), 0⟩

theorem writtenType_of_form {node : Node} (form : node.type ∈ typeForms) :
    writtenType node = formType node.type (bracketCount (node.field? "dimensions"))
      (writtenParts node.children) := by
  obtain ⟨head, children⟩ := node
  have form : head.type ∈ typeForms := form
  let reading (part : Option (Node × Written)) : Written :=
    (part.map Prod.snd).getD (.error (.index .item))
  show writtenType (.mk head children) = formType head.type _ (writtenParts children)
  simp only [typeForms, List.mem_cons, List.not_mem_nil, or_false] at form
  rcases form with form | form | form | form
  all_goals simp only [writtenType, formType, form]
  · cases (writtenParts children).find? (·.1.head.field == some "element") with
    | none => rfl
    | some part =>
        obtain ⟨part, written⟩ := part
        cases written <;> rfl
  · split
    case h_1 found => exact (congrArg reading found).symm
    case h_2 found => exact (congrArg reading found).symm
  · split
    case h_1 found => exact (congrArg reading found).symm
    case h_2 found => exact (congrArg reading found).symm
  · rfl

theorem writtenType_of_other {node : Node} (other : node.type ∉ typeForms) :
    writtenType node = .ok ⟨node.text, 0⟩ := by
  obtain ⟨head, children⟩ := node
  have other : head.type ∉ typeForms := other
  simp only [typeForms, List.mem_cons, List.not_mem_nil, or_false, not_or] at other
  rw [writtenType]
  split
  · exact absurd ‹_› other.1
  · exact absurd ‹_› other.2.1
  · exact absurd ‹_› other.2.2.1
  · exact absurd ‹_› other.2.2.2
  · rfl

theorem SameParts.formType {parts others : List (Node × Written)} (same : SameParts parts others)
    (type : String) (dimensions : Nat) :
    formType type dimensions others = formType type dimensions parts := by
  unfold Source.formType
  split
  · rw [same.find? fun head => head.field == some "element"]
  · rw [same.find? fun head =>
      decide (head.type ∈ ["type_identifier", "scoped_type_identifier"])]
  · rw [(same.filter fun head =>
      head.named && decide (head.type ∉ annotationTypes)).getLast?]
  · rw [same.scopedName]

theorem Altered.bracketCount (altered : Altered leeway place node other) :
    bracketCount (other.field? "dimensions") = bracketCount (node.field? "dimensions") := by
  rcases altered.field? "dimensions" with
    ⟨none, other_none⟩ | ⟨child, changed, one, other, held, below⟩
  · rw [none, other_none]
  · have kept := below.kept (Place.inside_ne_name (by rw [held]; decide))
    rw [one, other]
    simp only [Source.bracketCount, Option.map_some, Node.text, kept]

theorem Place.inside_form {outer : Place} {head : NodeHead} (form : head.type ∈ typeForms) :
    outer.inside head = .other := by
  refine inside_eq_other ?_
  revert form
  generalize head.type = type
  simp only [typeForms, List.mem_cons, List.not_mem_nil, or_false]
  rintro (rfl | rfl | rfl | rfl) <;> decide

mutual

theorem Altered.writtenType {place : Place} {node other : Node}
    (altered : Altered leeway place node other) (unnamed : place ≠ .name)
    (formed : node.type ∈ typeForms → place = .other) :
    writtenType other = writtenType node := by
  match altered with
  | .loses _ _ => exact absurd rfl unnamed
  | @Altered.keeps _ _ head children others below =>
      by_cases form : head.type ∈ typeForms
      · cases formed form
        have same : Altered leeway .other (.mk head children) (.mk head others) := .keeps below
        have parts : SameParts (writtenParts children) (writtenParts others) := below.writtenParts
        have read {children : List Node} := @writtenType_of_form (.mk head children) form
        rw [read, read, same.bracketCount]
        exact parts.formType _ _
      · have read {children : List Node} := @writtenType_of_other (.mk head children) form
        rw [read, read]
        rfl

theorem AlteredAll.writtenParts {children others : List Node}
    (altered : AlteredAll leeway .other children others) :
    SameParts (writtenParts children) (writtenParts others) := by
  match altered with
  | .nil => exact .nil
  | .cons here later =>
      have unnamed := @Place.inside_other_ne_name
      rw [Source.writtenParts, Source.writtenParts]
      exact .cons ⟨here.kept unnamed, here.writtenType unnamed Place.inside_form⟩
        later.writtenParts

end

end CodeFacts.Source

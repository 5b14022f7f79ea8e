import CodeFacts.Call
import CodeFacts.DocComment

/-!
The nodes of the tree a text is parsed to. Every node has its text; its named children are those
that stand for something more than a mark, and some children hold a field of their parent.
-/

namespace CodeFacts.Source

/-- A node without its children. Rows and columns count from zero. -/
structure NodeHead where
  type : String
  named : Bool
  text : String
  row : Nat
  column : Nat
  field : Option String
  missing : Bool
  deriving Inhabited

inductive Node where
  | mk (head : NodeHead) (children : List Node)
  deriving Inhabited

namespace Node

def head : Node → NodeHead
  | .mk head _ => head

def children : Node → List Node
  | .mk _ children => children

def type (node : Node) : String := node.head.type

def text (node : Node) : String := node.head.text

def ofTypes (node : Node) (types : List String) : List Node :=
  node.children.filter fun child => decide (child.type ∈ types)

def namedChildren (node : Node) : List Node :=
  node.children.filter (·.head.named)

def fieldAll (node : Node) (field : String) : List Node :=
  node.children.filter (·.head.field == some field)

def field? (node : Node) (field : String) : Option Node :=
  node.children.find? (·.head.field == some field)

mutual

/-- A node and all nodes below it, each before its children. -/
def preorder : Node → List Node
  | .mk head children => .mk head children :: preorderAll children

def preorderAll : List Node → List Node
  | [] => []
  | child :: rest => preorder child ++ preorderAll rest

end

/-- The first node of a type, a node itself included. -/
def first? (node : Node) (type : String) : Option Node :=
  node.preorder.find? (·.type == type)

/-- What is wrong with a node, if its text could not be parsed. -/
def error? (node : Node) : Option String :=
  if node.head.missing then some s!"Missing {node.type}"
  else if node.type = "ERROR" then some "Syntax error"
  else none

/-- The parse errors of a tree, in the order of the text. -/
def errors (root : Node) (path : String) : List Call :=
  root.preorder.filterMap fun node =>
    node.error?.map fun description =>
      .parseError (.text s!"{path}:{node.head.row + 1}:{node.head.column + 1}") (.text description)

/-- The types of comments that can be documentation. -/
def commentTypes : List String := ["block_comment", "comment"]

/-- The documentation in the named node before a declaration, if there is any. -/
def documentation (previous : Option Node) : Option DocEntry :=
  match previous with
  | none => none
  | some comment =>
      if comment.type ∈ commentTypes then
        DocComment.read? comment.text (comment.head.row + 1) (comment.head.column + 1)
      else none

end Node

end CodeFacts.Source

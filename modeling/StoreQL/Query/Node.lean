/-
# Nodes of a query

What a query says is kept as a tree of nodes. A node has a kind, a text and attributes: the name of
a field, the word of a clause, the argument that comes with it. A tree is printed one node a line,
indented by depth.
-/
import StoreQL.Container.Tree
import StoreQL.Dictionary
import StoreQL.Literal

namespace StoreQL.Query

/-- The kinds of node. -/
inductive Node.Kind where
  | query
  | select
  | find
  | update
  | analyze
  | filter
  | condition
  | field
  | value
  | operator
  | orderBy
  | limit
  | groupBy
  | assignment
deriving DecidableEq, Repr, Inhabited

namespace Node.Kind

/-- Every kind, in the order in which they are listed to users. -/
def all : List Node.Kind :=
  [.query, .select, .find, .update, .analyze, .filter, .condition, .field, .value, .operator,
    .orderBy, .limit, .groupBy, .assignment]

/-- The name under which a kind is shown. -/
def name : Node.Kind → String
  | .query => "QUERY"
  | .select => "SELECT"
  | .find => "FIND"
  | .update => "UPDATE"
  | .analyze => "ANALYZE"
  | .filter => "WHERE"
  | .condition => "CONDITION"
  | .field => "FIELD"
  | .value => "VALUE"
  | .operator => "OPERATOR"
  | .orderBy => "ORDER_BY"
  | .limit => "LIMIT"
  | .groupBy => "GROUP_BY"
  | .assignment => "ASSIGNMENT"

/-- The kind of a given name. -/
def ofName? (name : String) : Option Node.Kind := all.find? (fun k => k.name == name)

end Node.Kind

/-- One node: its kind, its text and its attributes. -/
structure Node where
  kind : Node.Kind
  text : String
  attributes : Dictionary Literal
deriving DecidableEq, Repr, Inhabited

/-- A query as a tree. -/
abbrev SyntaxTree := Tree Node

namespace Node

/-- A node without attributes. -/
def plain (kind : Node.Kind) (text : String) : Node := ⟨kind, text, []⟩

/-- A node whose text is the name of its kind. -/
def named (kind : Node.Kind) : Node := plain kind kind.name

/-- The node with one more attribute. -/
def withAttribute (n : Node) (key : String) (value : Literal) : Node :=
  { n with attributes := n.attributes.insert key value }

/-- The line of a node: its kind, its text unless that is the name of the kind, its attributes. -/
def line (n : Node) (depth : Nat) : String :=
  let indent := String.ofList (List.replicate (2 * depth) ' ')
  let text := if n.text = n.kind.name then "" else " " ++ n.text
  let attributes := n.attributes.map (fun (key, value) => s!" [{key}={value.render}]")
  indent ++ n.kind.name ++ text ++ String.join attributes ++ "\n"

end Node

namespace SyntaxTree

/-- The lines of a tree, in pre-order. -/
def render (t : SyntaxTree) : String := String.join (t.traverse.map (fun v => v.value.line v.depth))

/-- The statement: the first child of the root, with its handle. -/
def statement? (t : SyntaxTree) : Option (Nat × Node) := (t.children Tree.root).head?

/-- The children of a node that are of a given kind. -/
def childrenOfKind (t : SyntaxTree) (handle : Nat) (kind : Node.Kind) : List (Nat × Node) :=
  (t.children handle).filter (fun c => c.2.kind == kind)

end SyntaxTree
end StoreQL.Query

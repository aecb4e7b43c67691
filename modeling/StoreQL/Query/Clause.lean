/-
# The parts of statements

What the clauses of a statement say, apart from how they are written, and the nodes that stand for
them. A condition is not kept, only whether there is one.
-/
import StoreQL.Query.Node

namespace StoreQL.Query

/-- A field, or a field of a field. -/
structure FieldPath where
  base : String
  member : Option String
deriving DecidableEq, Repr, Inhabited

/-- The path with a point between its parts. -/
def FieldPath.text (f : FieldPath) : String :=
  match f.member with
  | none => f.base
  | some m => f.base ++ "." ++ m

/-- What a selection takes from each record. -/
inductive Projection where
  | whole
  | field (path : FieldPath)
deriving DecidableEq, Repr

/-- The text of a projection. -/
def Projection.text : Projection → String
  | .whole => "*"
  | .field path => path.text

/-- The direction of an order. -/
inductive Direction where
  | ascending
  | descending
deriving DecidableEq, Repr

/-- The keyword of a direction. -/
def Direction.name : Direction → String
  | .ascending => "ASC"
  | .descending => "DESC"

/-- An order: by which field, and in which direction. -/
structure Order where
  field : FieldPath
  direction : Direction
deriving DecidableEq, Repr

/-- A field and the value that it is set to. -/
structure Assignment where
  field : FieldPath
  value : Literal
deriving DecidableEq, Repr

/-! ## Nodes -/

/-- The root of every query. -/
def rootNode : Node := .plain .query "ROOT"

/-- The node of a field, an entity or a source. -/
def fieldNode (name : String) : Node := .plain .field name

/-- The node of an order, under which its field stands. -/
def Order.node (o : Order) : Node :=
  (Node.named .orderBy).withAttribute "direction" (.string o.direction.name)

/-- The node of a limit. -/
def limitNode (numeral : String) : Node :=
  (Node.plain .limit numeral).withAttribute "count" (.ofNumeral numeral)

/-- The node of an assignment, under which its field and its value stand. -/
def assignmentNode : Node := .plain .assignment "="

/-- The node of an assigned value. -/
def valueNode (value : Literal) : Node :=
  (Node.plain .value value.render).withAttribute "value" value

/-- The node of an update, with the number of its workers if there is one. -/
def updateNode (workers : Option Literal) : Node :=
  match workers with
  | none => .named .update
  | some count => (Node.named .update).withAttribute "concurrent" count

end StoreQL.Query

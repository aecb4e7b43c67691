/-
# Errors of syntax

A query is refused at the first token that no statement could have there. The error names the token
and its place; where the tokens end too early it names the end of the input, at the place of the
last token. Besides, the tree of the query may refuse to take a node.
-/
import StoreQL.Container.Tree
import StoreQL.Token.Basic

namespace StoreQL.Query

open Text (Position)

/-- What had to come next. -/
inductive Expectation where
  | fieldList
  | from
  | sourceName
  | entityName
  | set
  | assignment
  | equals
  | value
  | by
  | orderField
  | groupField
  | member
  | limitCount
deriving DecidableEq, Repr

/-- The expectation in words. -/
def Expectation.description : Expectation → String
  | .fieldList => "field list ('*' or a field name)"
  | .from => "FROM"
  | .sourceName => "source name"
  | .entityName => "entity name"
  | .set => "SET"
  | .assignment => "assignment (field = value)"
  | .equals => "'=' in assignment"
  | .value => "value (string, number, TRUE, FALSE, or NULL)"
  | .by => "BY"
  | .orderField => "field after ORDER BY"
  | .groupField => "field after GROUP BY"
  | .member => "identifier after '.'"
  | .limitCount => "number after LIMIT"

/-- What is wrong where parsing stops. -/
inductive Complaint where
  | noStatement
  | expected (what : Expectation)
  | severalFields
deriving DecidableEq, Repr

/-- A complaint about the first of the tokens that were left. -/
structure Failure where
  complaint : Complaint
  rest : List Token
deriving DecidableEq, Repr

/-- Why some tokens are not a query. -/
inductive SyntaxError where
  | emptyQuery
  | noStatement (found : String) (position : Position)
  | expected (what : Expectation) (found : String) (position : Position)
  | severalFields (position : Position)
  | tree (error : Tree.UnknownNode)
deriving DecidableEq, Repr

/-- The error in words. -/
def SyntaxError.message : SyntaxError → String
  | .emptyQuery => "empty query"
  | .noStatement found p =>
    s!"unexpected {found} at line {p.line}, column {p.column}: " ++
      "expected SELECT, FIND, UPDATE, or ANALYZE"
  | .expected what found p =>
    s!"expected {what.description}, got {found} at line {p.line}, column {p.column}"
  | .severalFields p =>
    s!"multi-field SELECT lists are not supported (line {p.line}, column {p.column})"
  | .tree e => e.message

/-- The token that stands for the end of some tokens. -/
def endToken (tokens : List Token) : Token :=
  ⟨.endOfInput, "", (tokens.getLast?.map Token.position).getD .start⟩

/-- A failure among some tokens as an error. -/
def Failure.toError (tokens : List Token) (f : Failure) : SyntaxError :=
  let t := f.rest.head?.getD (endToken tokens)
  match f.complaint with
  | .noStatement => .noStatement t.describe t.position
  | .expected what => .expected what t.describe t.position
  | .severalFields => .severalFields t.position

end StoreQL.Query

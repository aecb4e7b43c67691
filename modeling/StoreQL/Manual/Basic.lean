/-
# The manual

The manual has a page for each of five categories. A category is asked for by its name or by another
word for it, in letters of either case.
-/
import StoreQL.Manual.Pages

namespace StoreQL.Manual

/-- The categories of the manual. -/
inductive Category where
  | statements
  | clauses
  | tokens
  | entities
  | results
deriving DecidableEq, Repr

namespace Category

/-- Every category, in the order in which they are listed to users. -/
def all : List Category := [.statements, .clauses, .tokens, .entities, .results]

/-- The name of a category. -/
def name : Category → String
  | .statements => "statements"
  | .clauses => "clauses"
  | .tokens => "tokens"
  | .entities => "entities"
  | .results => "results"

/-- The words that a category goes by, its name first. -/
def words : Category → List String
  | .statements => ["statements", "statement", "stmts"]
  | .clauses => ["clauses", "clause"]
  | .tokens => ["tokens", "lexer", "lexical"]
  | .entities => ["entities", "entity", "collections"]
  | .results => ["results", "result", "output"]

/-- The page of a category. -/
def page : Category → String
  | .statements => statementsPage
  | .clauses => clausesPage
  | .tokens => tokensPage
  | .entities => entitiesPage
  | .results => resultsPage

/-- The lower case of a character, as far as an ASCII letter comes of it. The one character beyond
ASCII of which one does is the Kelvin sign. -/
def lowerChar (c : Char) : Char := if c = '\u212a' then 'k' else c.toLower

/-- The category that goes by a word. -/
def ofWord? (word : String) : Option Category :=
  let lower := String.ofList (word.toList.map lowerChar)
  all.find? (fun c => c.words.contains lower)

end Category
end StoreQL.Manual

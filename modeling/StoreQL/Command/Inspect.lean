/-
# Views of a query, the grammar and the manual

What is printed without executing anything: the tokens of a text, the tree of a query, the grammar
and the pages of the manual. The tokens of any text can be shown, a stray character included.
-/
import StoreQL.Command.Error
import StoreQL.Grammar.Table
import StoreQL.Json.Print
import StoreQL.Manual.Basic
import StoreQL.Token.Table

namespace StoreQL.Command

/-- The tokens of a text, as a table or as JSON. -/
def showTokens (query : String) (json : Bool) : String :=
  let tokens := tokenize query
  if json then Json.pretty (.arr (tokens.map Token.toJson)) else tokenTable tokens

/-- The tree of a query. -/
def showTree (query : String) : Except Error String :=
  ((parseQuery query).mapError .query).map Query.SyntaxTree.render

/-- The grammar, in Backus-Naur form or as JSON. -/
def showGrammar (json : Bool) : String :=
  if json then Json.pretty queryGrammar.toReport else queryGrammar.toBnf

/-- The page of the manual that a word asks for. -/
def showPage (word : String) : Except Error String :=
  match Manual.Category.ofWord? word with
  | some category => .ok category.page
  | none => .error (.unknownCategory word)

end StoreQL.Command

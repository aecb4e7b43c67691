/-
# Tokens

A query is read as a list of tokens. A token has a kind, the text it stands for and the place where
it begins. Tokens are also built by hand, so nothing ties the text to the kind: a token of kind
`keyword` may carry any text, and is the keyword `FROM` only if its text is exactly `FROM`.

Two kinds are terminal: the end of the input, and an error. A list made from a text ends with one of
them and holds no other.
-/
import StoreQL.Text.Position

namespace StoreQL

open Text (Position)

/-- The kinds of token. -/
inductive Token.Kind where
  | endOfInput
  | keyword
  | identifier
  | string
  | number
  | operator
  | comma
  | dot
  | leftParen
  | rightParen
  | asterisk
  | error
deriving DecidableEq, Repr, Inhabited

namespace Token.Kind

/-- Every kind, in the order in which they are listed to users. -/
def all : List Token.Kind :=
  [.endOfInput, .keyword, .identifier, .string, .number, .operator, .comma, .dot, .leftParen,
    .rightParen, .asterisk, .error]

/-- The name under which a kind is shown. -/
def name : Token.Kind → String
  | .endOfInput => "EOF"
  | .keyword => "KEYWORD"
  | .identifier => "IDENTIFIER"
  | .string => "STRING"
  | .number => "NUMBER"
  | .operator => "OPERATOR"
  | .comma => "COMMA"
  | .dot => "DOT"
  | .leftParen => "LEFT_PAREN"
  | .rightParen => "RIGHT_PAREN"
  | .asterisk => "ASTERISK"
  | .error => "ERROR"

/-- The kind of a given name. -/
def ofName? (name : String) : Option Token.Kind := all.find? (fun k => k.name == name)

/-- The two kinds after which nothing is read. -/
def isTerminal : Token.Kind → Bool
  | .endOfInput | .error => true
  | _ => false

end Token.Kind

/-- One token: its kind, its text and where it begins. -/
structure Token where
  kind : Token.Kind
  text : String
  position : Position
deriving DecidableEq, Repr, Inhabited

namespace Token

/-- Whether the token is the keyword `word`, which is given in capitals. -/
def isKeyword (t : Token) (word : String) : Bool := t.kind == .keyword && t.text == word

/-- Whether nothing is read after the token. -/
def isTerminal (t : Token) : Bool := t.kind.isTerminal

/-- The token as messages name it: `keyword 'FROM'`, `string "x"`, `end of input`. -/
def describe (t : Token) : String :=
  match t.kind with
  | .endOfInput => "end of input"
  | .string => s!"string \"{t.text}\""
  | kind => s!"{kind.name.toLower} '{t.text}'"

end Token

/-- The words that are keywords whatever their case, in capitals. -/
def keywords : List String :=
  ["SELECT", "FROM", "WHERE", "AND", "OR", "ORDER", "BY", "LIMIT", "GROUP", "ASC", "DESC",
    "FIND", "UPDATE", "SET", "ANALYZE", "IN", "LIKE", "NULL", "TRUE", "FALSE", "CONCURRENT"]

end StoreQL

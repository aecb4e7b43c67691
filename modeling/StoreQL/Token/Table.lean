/-
# Tokens as they are shown

Tokens are shown as a table, one token a line: its place, its kind and its text, the first two
padded so that the columns line up. They are also shown as JSON.
-/
import StoreQL.Json.Basic
import StoreQL.Text.Blank
import StoreQL.Token.Basic

namespace StoreQL

/-- A text with blanks after it, at least `width` characters long. -/
def padRight (width : Nat) (s : String) : String :=
  s ++ String.ofList (List.replicate (width - s.length) ' ')

/-- A text without the blanks at its end. -/
def trimEnd (s : String) : String :=
  String.ofList (s.toList.reverse.dropWhile Text.isBlank).reverse

/-- The line of a token, whose kind is padded to `width` characters. -/
def Token.row (width : Nat) (t : Token) : String :=
  let place := s!"{t.position.line}:{t.position.column}"
  trimEnd s!"{padRight 6 place} {padRight width t.kind.name}  {t.text}"

/-- The table of some tokens. -/
def tokenTable (tokens : List Token) : String :=
  let width := (tokens.map (fun t => t.kind.name.length)).foldl max 0
  String.join (tokens.map (fun t => t.row width ++ "\n"))

/-- A token as it is printed. -/
def Token.toJson (t : Token) : Json :=
  .obj [("type", .str t.kind.name), ("value", .str t.text), ("line", .nat t.position.line),
    ("column", .nat t.position.column)]

end StoreQL

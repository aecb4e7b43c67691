/-
# Printing JSON

Two layouts of a value: `compact`, without any blank, and `pretty`, with one item or field a line
and two blanks of indentation for each level. Empty arrays and objects are `[]` and `{}` in both.

In a text only the quotation mark, the backslash and the characters below the blank are escaped,
with a letter where there is one and by number where there is not.
-/
import StoreQL.Json.Basic
import StoreQL.Json.Shortest

namespace StoreQL.Json

/-! ## 1. Texts and numbers -/

/-- A digit of base sixteen. -/
def hexDigit (n : Nat) : Char := Nat.digitChar n

/-- One character of a text as it is written between quotation marks. -/
def escape (c : Char) : List Char :=
  if c = '\x22' then ['\\', '\x22']
  else if c = '\\' then ['\\', '\\']
  else if c = '\x08' then ['\\', 'b']
  else if c = '\x0c' then ['\\', 'f']
  else if c = '\n' then ['\\', 'n']
  else if c = '\r' then ['\\', 'r']
  else if c = '\t' then ['\\', 't']
  else if c.toNat < 32 then ['\\', 'u', '0', '0', hexDigit (c.toNat / 16), hexDigit (c.toNat % 16)]
  else [c]

/-- A text between quotation marks. -/
def quote (s : String) : String :=
  String.ofList ('\x22' :: s.toList.flatMap escape ++ ['\x22'])

/-- A number as it is written. -/
def Number.render : Number → String
  | .integer i => toString i
  | .real x => x.render

/-! ## 2. The two layouts -/

mutual

/-- A value without any blank. -/
def compact : Json → String
  | .null => "null"
  | .bool true => "true"
  | .bool false => "false"
  | .num n => n.render
  | .str s => quote s
  | .arr items => "[" ++ ",".intercalate (compactItems items) ++ "]"
  | .obj fields => "\x7b" ++ ",".intercalate (compactFields fields) ++ "\x7d"
termination_by structural x => x

/-- The items of an array, each without any blank. -/
def compactItems : List Json → List String
  | [] => []
  | x :: rest => compact x :: compactItems rest
termination_by structural x => x

/-- The fields of an object, each without any blank. -/
def compactFields : List (String × Json) → List String
  | [] => []
  | f :: rest => compactField f :: compactFields rest
termination_by structural x => x

/-- A field without any blank. -/
def compactField : String × Json → String
  | (name, x) => quote name ++ ":" ++ compact x
termination_by structural x => x

end

/-- A line break and the indentation of a level. -/
def newline (level : Nat) : String := String.ofList ('\n' :: List.replicate (2 * level) ' ')

mutual

/-- A value that stands at a level of indentation. -/
def prettyAt (level : Nat) : Json → String
  | .null => "null"
  | .bool true => "true"
  | .bool false => "false"
  | .num n => n.render
  | .str s => quote s
  | .arr [] => "[]"
  | .arr (x :: rest) =>
    "[" ++ ",".intercalate (prettyItems (level + 1) (x :: rest)) ++ newline level ++ "]"
  | .obj [] => "\x7b\x7d"
  | .obj (f :: rest) =>
    "\x7b" ++ ",".intercalate (prettyFields (level + 1) (f :: rest)) ++ newline level ++ "\x7d"
termination_by structural x => x

/-- The items of an array, each on a line of its own. -/
def prettyItems (level : Nat) : List Json → List String
  | [] => []
  | x :: rest => (newline level ++ prettyAt level x) :: prettyItems level rest
termination_by structural x => x

/-- The fields of an object, each on a line of its own. -/
def prettyFields (level : Nat) : List (String × Json) → List String
  | [] => []
  | f :: rest => (newline level ++ prettyField level f) :: prettyFields level rest
termination_by structural x => x

/-- A field of which the value stands at a level of indentation. -/
def prettyField (level : Nat) : String × Json → String
  | (name, x) => quote name ++ ": " ++ prettyAt level x
termination_by structural x => x

end

/-- A value with one item or field a line. -/
def pretty (x : Json) : String := prettyAt 0 x

end StoreQL.Json

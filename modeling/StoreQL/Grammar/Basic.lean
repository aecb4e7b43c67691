/-
# Grammars

A grammar is a table of rules: a symbol and the symbols that it may stand for, one after the other.
A symbol is a non-terminal if some rule is for it, and a terminal otherwise. The alternatives for a
non-terminal are its rules, in the order of the table, and the non-terminals are listed in the order
in which they first appear there.
-/
import StoreQL.Json.Basic

namespace StoreQL

/-- A rule: `head` may stand for the symbols of `body`. -/
structure Grammar.Rule where
  head : String
  body : List String
deriving DecidableEq, Repr

/-- A grammar: the symbol to start with and the rules. -/
structure Grammar where
  start : String
  rules : List Grammar.Rule
deriving DecidableEq, Repr

namespace Grammar

/-- The rules for a symbol. -/
def rulesFor (g : Grammar) (symbol : String) : List Rule :=
  g.rules.filter (fun r => r.head == symbol)

/-- Whether some rule is for a symbol. -/
def isNonTerminal (g : Grammar) (symbol : String) : Bool := g.rules.any (fun r => r.head == symbol)

/-- The first occurrences among some texts, without those among `seen`. -/
def firstOccurrences (seen : List String) : List String → List String
  | [] => []
  | s :: rest =>
    if seen.contains s then firstOccurrences seen rest else s :: firstOccurrences (s :: seen) rest

/-- The non-terminals, each once. -/
def nonTerminals (g : Grammar) : List String := firstOccurrences [] (g.rules.map Rule.head)

/-- Whether there is a rule to start with. -/
def isValid (g : Grammar) : Bool := g.isNonTerminal g.start

/-! ## Layouts -/

/-- A symbol as it is written in a rule. -/
def renderSymbol (g : Grammar) (symbol : String) : String :=
  if g.isNonTerminal symbol then s!"<{symbol}>" else s!"\"{symbol}\""

/-- The body of a rule as it is written. -/
def renderBody (g : Grammar) (r : Rule) : String := " ".intercalate (r.body.map g.renderSymbol)

/-- The line of a non-terminal. -/
def line (g : Grammar) (symbol : String) : String :=
  let alternatives := " | ".intercalate ((g.rulesFor symbol).map g.renderBody)
  s!"<{symbol}> ::= {alternatives}\n"

/-- The grammar in Backus-Naur form, a line for each non-terminal. -/
def toBnf (g : Grammar) : String := String.join (g.nonTerminals.map g.line)

/-- A rule as it is printed. -/
def Rule.toJson (r : Rule) : Json :=
  .obj [("non_terminal", .str r.head), ("production", .arr (r.body.map .str))]

/-- The grammar as it is printed. -/
def toJson (g : Grammar) : Json :=
  .obj [("start_symbol", .str g.start), ("rules", .arr (g.rules.map Rule.toJson))]

/-- The grammar as it is printed for users, with the number of its rules. -/
def toReport (g : Grammar) : Json :=
  .obj [("rule_count", .nat g.rules.length), ("rules", .arr (g.rules.map Rule.toJson)),
    ("start_symbol", .str g.start)]

end Grammar
end StoreQL

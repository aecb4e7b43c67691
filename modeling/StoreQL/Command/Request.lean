/-
# Requests

A command line asks for one of seven things. The words before the name of the command are options of
the whole program, the words after it are its own; `--verbose` may stand in both places.

The number of records that a check gives at most may also come from a variable of the environment,
which counts only if the option is not given.
-/
import StoreQL.Command.Option
import StoreQL.Execute.Basic

namespace StoreQL.Command

/-- What a check is asked to do. -/
structure CheckRequest where
  query : String
  input : Option String
  data : Option String
  pretty : Bool
  syntaxOnly : Bool
  fetchLimit : Nat
deriving DecidableEq, Repr

/-- What a command line asks for. -/
inductive Request where
  | check (request : CheckRequest)
  | validate (query : String)
  | tokenize (query : String) (json : Bool)
  | parse (query : String)
  | grammar (json : Bool)
  | docs
  | doc (category : String)
deriving DecidableEq, Repr

/-- The options that a command knows of. -/
def switchesOf (command : String) : List Switch :=
  [.verbose, .help] ++ match command with
    | "check" => [.input, .data, .pretty, .syntaxOnly, .fetchLimit]
    | "tokenize" | "grammar" => [.json]
    | _ => []

/-- How many positional arguments a command takes. -/
def placesOf (command : String) : Nat :=
  if command = "grammar" ∨ command = "docs" then 0 else 1

/-- The limit of a check: of the option, or else of the variable, or else the usual one. -/
def fetchLimitOf (a : Arguments) (fromEnvironment : Option String) : Except Stop Nat :=
  match (a.value? .fetchLimit).or fromEnvironment with
  | none => .ok defaultFetchLimit
  | some text =>
    match readCount? text with
    | some n => .ok n
    | none => .error .misuse

/-- A check with its arguments. -/
def checkRequest (a : Arguments) (query : String) (fromEnvironment : Option String) :
    Except Stop Request := do
  if a.has .input && a.has .data then throw .misuse
  let limit ← fetchLimitOf a fromEnvironment
  return .check ⟨query, a.value? .input, a.value? .data, a.has .pretty, a.has .syntaxOnly, limit⟩

/-- A command with its arguments. -/
def requestOf (command : String) (a : Arguments) (fromEnvironment : Option String) :
    Except Stop Request :=
  match command, a.positional with
  | "check", [query] => checkRequest a query fromEnvironment
  | "validate", [query] => .ok (.validate query)
  | "tokenize", [query] => .ok (.tokenize query (a.has .json))
  | "parse", [query] => .ok (.parse query)
  | "grammar", [] => .ok (.grammar (a.has .json))
  | "docs", [] => .ok .docs
  | "doc", [category] => .ok (.doc category)
  | _, _ => .error .misuse

/-- The names of the commands. -/
def commandNames : List String :=
  ["check", "validate", "tokenize", "parse", "grammar", "docs", "doc"]

/-- Whether help is asked for: on all commands, or on one of them by its name. -/
def stopForHelp : List String → Stop
  | [] => .help
  | [command] => if command = "help" ∨ commandNames.contains command then .help else .misuse
  | _ => .misuse

/-- The words from the name of the command on; those before it are options of the program. -/
def readProgram (a : Arguments) : List String → Except Stop (List String)
  | [] => .error .misuse
  | word :: rest =>
    if word = "help" then .error (stopForHelp rest)
    else if commandNames.contains word then .ok (word :: rest)
    else if isOptionWord word && word ≠ "--" then
      match readOptionWord [.verbose, .version, .help] a word with
      | .error stop => .error stop
      | .ok (.complete a) => readProgram a rest
      | .ok (.wantsValue _ _) => .error .misuse
    else .error .misuse

/-- What the words of a command line ask for, given the variable for the limit. -/
def readRequest (words : List String) (fromEnvironment : Option String) : Except Stop Request := do
  match ← readProgram .none words with
  | [] => .error .misuse
  | command :: rest =>
    let a ← readWords (switchesOf command) (placesOf command) .none rest
    requestOf command a fromEnvironment

end StoreQL.Command

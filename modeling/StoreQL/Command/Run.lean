/-
# Answering requests

A request may want the text of a data set, from the command line, a file or the standard input. How
that is got is left open, and the rest is a function of the request and that text. The answer is
what is printed, and the code that the program ends with.
-/
import StoreQL.Command.Check
import StoreQL.Command.Inspect
import StoreQL.Command.Request

namespace StoreQL.Command

/-- Where the text of a data set comes from. -/
inductive Source where
  | none
  | text (text : String)
  | file (path : String)
  | standardInput
deriving DecidableEq, Repr

/-- Where a request wants the text of a data set from. A file is read even if it is not used. -/
def Request.source : Request → Source
  | .check r =>
    match r.input, r.data with
    | some text, _ => .text text
    | Option.none, some path => .file path
    | Option.none, Option.none => if r.syntaxOnly then .none else .standardInput
  | _ => .none

/-- The text of a data set, if one is wanted, given the files and the standard input. -/
def Source.read (files : FileTree) (standardInput : String) :
    Source → Except FileError (Option String)
  | .none => .ok Option.none
  | .text given => .ok (some given)
  | .file path => (files.read path).map some
  | .standardInput => .ok (some standardInput)

/-- The text with a line break at its end. -/
def block (text : String) : String :=
  if text.toList.getLast? = some '\n' then text else text ++ "\n"

/-- What a check prints. -/
def CheckResult.print (pretty : Bool) : CheckResult → String
  | .valid => "Syntax is valid\n"
  | .executed result =>
    (if pretty then Json.pretty result.toJson else Json.compact result.toJson) ++ "\n"

/-- What a request prints, given the text of the data set. -/
def Request.answer (input : Option String) : Request → Except Error String
  | .check r =>
    (Command.check ⟨r.query, input, r.syntaxOnly, r.fetchLimit⟩).map (CheckResult.print r.pretty)
  | .validate query => ((validateQuery query).mapError .query).map (fun _ => "Query is valid\n")
  | .tokenize query json => .ok (block (showTokens query json))
  | .parse query => (showTree query).map block
  | .grammar json => .ok (block (showGrammar json))
  | .docs => .ok Manual.overviewPage
  | .doc category => showPage category

/-- What the program prints, and the code that it ends with. -/
structure Report where
  code : Nat
  out : String
  err : String
deriving DecidableEq, Repr

/-- The answer to a request as a report. -/
def Report.ofAnswer : Except Error String → Report
  | .ok out => ⟨0, out, ""⟩
  | .error e => ⟨1, "", e.message ++ "\n"⟩

/-- How the program is used. -/
def usagePage : String := Manual.page [
  "Usage: storeql [OPTIONS] <COMMAND>",
  "",
  "Commands:",
  "  check QUERY [-i JSON | -d FILE] [-p] [--syntax-only] [--fetch-limit N]",
  "  validate QUERY",
  "  tokenize QUERY [--json]",
  "  parse QUERY",
  "  grammar [--json]",
  "  docs",
  "  doc CATEGORY",
  "",
  "Options:",
  "  -v, --verbose",
  "  -h, --help",
  "  -V, --version"]

/-- The report of a command line that asks for nothing. -/
def Report.ofStop : Stop → Report
  | .misuse => ⟨2, "", usagePage⟩
  | .version => ⟨0, "storeql 0.1.0\n", ""⟩
  | .help => ⟨0, usagePage, ""⟩

/-- The report of a command line, given the variable for the limit and how to get the text of a data
set. -/
def report {m : Type → Type} [Monad m] (fetch : Source → m (Except FileError (Option String)))
    (words : List String) (fromEnvironment : Option String) : m Report := do
  match readRequest words fromEnvironment with
  | .error stop => return .ofStop stop
  | .ok request =>
    match ← fetch request.source with
    | .error e => return .ofAnswer (.error (.file e))
    | .ok input => return .ofAnswer (request.answer input)

end StoreQL.Command

/-
# Options on the command line

The words of a command line are options and positional arguments. A word that begins with a hyphen
and is longer than that is made of options: `--name`, or short ones behind a single hyphen. An
option that takes a value takes what follows in its word, with or without an equals sign if it is
short, or else the next word, which must not look like an option. The word `--` makes all words
after it positional.

Words are read one at a time, in order. The first thing that is wrong ends the reading, be it an
option or a positional argument for which there is no place, and so does an option that asks for the
version or for help. No option may be given twice.
-/
import StoreQL.Arithmetic
import StoreQL.Text.Digit

namespace StoreQL.Command

/-- The options of all commands. -/
inductive Switch where
  | verbose
  | version
  | help
  | input
  | data
  | pretty
  | syntaxOnly
  | fetchLimit
  | json
deriving DecidableEq, Repr

namespace Switch

/-- The letter of an option, if it has one. -/
def letter? : Switch → Option Char
  | .verbose => some 'v'
  | .version => some 'V'
  | .help => some 'h'
  | .input => some 'i'
  | .data => some 'd'
  | .pretty => some 'p'
  | .syntaxOnly | .fetchLimit | .json => none

/-- The name of an option. -/
def name : Switch → String
  | .verbose => "verbose"
  | .version => "version"
  | .help => "help"
  | .input => "input"
  | .data => "data"
  | .pretty => "pretty"
  | .syntaxOnly => "syntax-only"
  | .fetchLimit => "fetch-limit"
  | .json => "json"

/-- Whether an option takes a value. -/
def takesValue : Switch → Bool
  | .input | .data | .fetchLimit => true
  | _ => false

end Switch

/-- What ends the reading of a command line early. -/
inductive Stop where
  | misuse
  | version
  | help
deriving DecidableEq, Repr

/-- What was read so far: options with their values, which are empty for those that take none, and
positional arguments, all in order. -/
structure Arguments where
  switches : List (Switch × String)
  positional : List String
deriving DecidableEq, Repr

namespace Arguments

/-- Nothing read. -/
def none : Arguments := ⟨[], []⟩

/-- Whether an option was given. -/
def has (a : Arguments) (s : Switch) : Bool := a.switches.any (fun p => p.1 == s)

/-- The value of an option, if it was given. -/
def value? (a : Arguments) (s : Switch) : Option String :=
  (a.switches.find? (fun p => p.1 == s)).map Prod.snd

/-- One more positional argument. -/
def addPositional (a : Arguments) (word : String) : Arguments :=
  { a with positional := a.positional ++ [word] }

end Arguments

/-- A number of records: a natural number below two to the 64. -/
def readCount? (text : String) : Option Nat := Text.readNatural? (twoTo 64) text.toList

/-- Whether a value is fit for an option: the name of a file is not empty, a limit is a number. -/
def Switch.admits : Switch → String → Bool
  | .data, value => value ≠ ""
  | .fetchLimit, value => (readCount? value).isSome
  | _, _ => true

/-- One more option. -/
def Arguments.addSwitch (a : Arguments) (s : Switch) (value : String) : Except Stop Arguments :=
  if a.has s || !s.admits value then .error .misuse
  else if s = .version then .error .version
  else if s = .help then .error .help
  else .ok { a with switches := a.switches ++ [(s, value)] }

/-! ## Reading words -/

/-- How far the reading of an option's word came: to its end, or to an option whose value is to be
the next word. -/
inductive Progress where
  | complete (a : Arguments)
  | wantsValue (a : Arguments) (s : Switch)
deriving Repr

/-- The options of a word behind a single hyphen. -/
def readLetters (known : List Switch) (a : Arguments) : List Char → Except Stop Progress
  | [] => .ok (.complete a)
  | c :: rest =>
    match known.find? (fun s => s.letter? == some c) with
    | Option.none => .error .misuse
    | some s =>
      if s.takesValue then
        match rest with
        | [] => .ok (.wantsValue a s)
        | '=' :: value => (a.addSwitch s (String.ofList value)).map .complete
        | value => (a.addSwitch s (String.ofList value)).map .complete
      else (a.addSwitch s "").bind (fun a => readLetters known a rest)

/-- The option of a word behind two hyphens. -/
def readName (known : List Switch) (a : Arguments) (word : List Char) : Except Stop Progress :=
  let name := String.ofList (word.takeWhile (· != '='))
  match known.find? (fun s => s.name == name), word.dropWhile (· != '=') with
  | Option.none, _ => .error .misuse
  | some s, [] =>
    if s.takesValue then .ok (.wantsValue a s) else (a.addSwitch s "").map .complete
  | some s, _ :: value =>
    if s.takesValue then (a.addSwitch s (String.ofList value)).map .complete else .error .misuse

/-- Whether a word is made of options. -/
def isOptionWord (word : String) : Bool :=
  match word.toList with
  | '-' :: _ :: _ => true
  | _ => false

/-- The options of a word that is made of them. -/
def readOptionWord (known : List Switch) (a : Arguments) (word : String) : Except Stop Progress :=
  match word.toList with
  | '-' :: '-' :: rest => readName known a rest
  | _ :: rest => readLetters known a rest
  | [] => .ok (.complete a)

/-- The words of a command line, some of whose options are known, with places for so many
positional arguments. -/
def readWords (known : List Switch) (places : Nat) (a : Arguments) :
    List String → Except Stop Arguments
  | [] => .ok a
  | word :: rest =>
    if word = "--" then .ok { a with positional := a.positional ++ rest }
    else if isOptionWord word then
      match readOptionWord known a word with
      | .error stop => .error stop
      | .ok (.complete a) => readWords known places a rest
      | .ok (.wantsValue a s) =>
        match rest with
        | [] => .error .misuse
        | value :: rest =>
          if isOptionWord value then .error .misuse
          else
            match a.addSwitch s value with
            | .error stop => .error stop
            | .ok a => readWords known places a rest
    else if a.positional.length < places then readWords known places (a.addPositional word) rest
    else .error .misuse

end StoreQL.Command

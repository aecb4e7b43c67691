/-
# The program

The outer layer: it reads the command line, gets the text of the data set if one is wanted, and
prints the report.
-/
import StoreQL.Command.Run

namespace StoreQL.Program

open Command

/-- The text of some bytes. -/
def decode (bytes : ByteArray) : Except FileError String :=
  match String.fromUTF8? bytes with
  | some text => .ok text
  | none => .error .invalidText

/-- The cause of an error of the system. -/
def causeOf : IO.Error → FileError
  | .noFileOrDirectory .. => .notFound
  | .inappropriateType _ 20 _ => .notDirectory
  | .inappropriateType _ 21 _ => .isDirectory
  | .invalidArgument _ 36 _ => .nameTooLong
  | e => .other (toString e)

/-- The text of a file, or why it cannot be read. -/
def readDataFile (path : String) : IO (Except FileError String) := do
  try
    return decode (← IO.FS.readBinFile path)
  catch e => return .error (causeOf e)

/-- The text of the standard input. -/
def readStandardInput : IO (Except FileError String) := do
  let input ← IO.getStdin
  return decode (← input.readBinToEnd)

/-- The text of a data set, if one is wanted. -/
def fetchInput : Source → IO (Except FileError (Option String))
  | .none => return .ok none
  | .text text => return .ok (some text)
  | .file path => return (← readDataFile path).map some
  | .standardInput => return (← readStandardInput).map some

end StoreQL.Program

/-- Run the program. -/
def main (words : List String) : IO UInt32 := do
  let limit ← IO.getEnv "STOREQL_FETCH_LIMIT"
  let report ← StoreQL.Command.report StoreQL.Program.fetchInput words limit
  IO.print report.out
  IO.eprint report.err
  return report.code.toUInt32

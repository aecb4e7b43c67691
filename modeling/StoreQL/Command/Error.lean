/-
# Errors of the commands

Why a command ends without its result. The errors of a query and of a data set keep their own words,
the latter with a heading.
-/
import StoreQL.Command.Files
import StoreQL.Query.Basic

namespace StoreQL.Command

/-- Why a command fails. -/
inductive Error where
  | query (error : QueryError)
  | dataSet (error : StoreError)
  | file (error : FileError)
  | noInput
  | unknownCategory (name : String)
deriving DecidableEq, Repr

/-- The error in words. -/
def Error.message : Error → String
  | .query e => e.message
  | .dataSet e => s!"invalid data set: {e.message}"
  | .file e => s!"IO error: {e.message}"
  | .noInput => "No data set provided. Use --input, --data, or pipe JSON to stdin."
  | .unknownCategory name =>
    s!"Unknown category: '{name}'\nRun 'storeql docs' to see available categories."

end StoreQL.Command

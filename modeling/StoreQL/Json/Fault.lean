/-
# Faults of a JSON text

Reading stops at the first fault. A `Fault` keeps what was left of the text there, and how many
bytes of that the reader had looked at; `Fault.locate` turns it into an `Error` with a line and a
column. Columns count bytes: a fault at the first byte of a line is at column one, and a line break
that is itself at fault is at column zero of the line that it begins.
-/

namespace StoreQL.Json

/-- What can be wrong with a JSON text. -/
inductive Cause where
  | endInArray
  | endInObject
  | endInText
  | endInValue
  | expectedColon
  | expectedArrayEnd
  | expectedObjectEnd
  | expectedWord
  | expectedValue
  | invalidEscape
  | invalidNumber
  | numberOutOfRange
  | controlCharacter
  | nameNotText
  | loneSurrogate
  | brokenPair
  | trailingComma
  | trailingCharacters
  | tooDeep
deriving DecidableEq, Repr

/-- The cause in words. -/
def Cause.message : Cause → String
  | .endInArray => "EOF while parsing a list"
  | .endInObject => "EOF while parsing an object"
  | .endInText => "EOF while parsing a string"
  | .endInValue => "EOF while parsing a value"
  | .expectedColon => "expected `:`"
  | .expectedArrayEnd => "expected `,` or `]`"
  | .expectedObjectEnd => "expected `,` or `\x7d`"
  | .expectedWord => "expected ident"
  | .expectedValue => "expected value"
  | .invalidEscape => "invalid escape"
  | .invalidNumber => "invalid number"
  | .numberOutOfRange => "number out of range"
  | .controlCharacter => "control character (\\u0000-\\u001F) found while parsing a string"
  | .nameNotText => "key must be a string"
  | .loneSurrogate => "lone leading surrogate in hex escape"
  | .brokenPair => "unexpected end of hex escape"
  | .trailingComma => "trailing comma"
  | .trailingCharacters => "trailing characters"
  | .tooDeep => "recursion limit exceeded"

/-- A cause, with what was left of the text and the number of its bytes that were looked at. -/
structure Fault where
  cause : Cause
  rest : List Char
  bytes : Nat
deriving Repr

/-- A cause and its place. -/
structure Error where
  cause : Cause
  line : Nat
  column : Nat
deriving DecidableEq, Repr

/-- The error in words. -/
def Error.message (e : Error) : String :=
  s!"{e.cause.message} at line {e.line} column {e.column}"

/-- The number of bytes that encode some characters. -/
def encodedSize (cs : List Char) : Nat := (String.ofList cs).utf8ByteSize

/-- The line and the column after some bytes. -/
def placeAfter (bytes : List UInt8) : Nat × Nat :=
  bytes.foldl (fun (p : Nat × Nat) (b : UInt8) => if b = 10 then (p.1 + 1, 0) else (p.1, p.2 + 1))
    (1, 0)

/-- The fault as an error of the whole text. -/
def Fault.locate (text : String) (f : Fault) : Error :=
  let seen := text.utf8ByteSize - encodedSize f.rest + f.bytes
  let (line, column) := placeAfter (text.toUTF8.toList.take seen)
  ⟨f.cause, line, column⟩

end StoreQL.Json

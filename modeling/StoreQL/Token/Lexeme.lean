/-
# Lexemes

A lexeme is a stretch of the text that becomes one token. Which kind of lexeme begins at a character
is decided by that character alone, and the lexeme is as long as its kind allows:

* a letter or underscore begins a word, which runs on through letters, numerals and underscores;
* a digit begins a number: the run of digits, then a point if one follows, then the run of digits
  after the point, which may be empty;
* a quotation mark begins a quotation, which ends at the next mark of the same kind, and which is
  unclosed if there is none;
* `( ) , . *` stand alone;
* `= ! < > + -` begin an operator, of two characters if the two are one of `<= >= != ==`;
* any other character is a stray.

`Lexeme.read` cuts the lexeme off the front of a text. Main statements: `chars_append_rest`, that
nothing is lost, and `rest_length_le`, that something is taken.
-/
import StoreQL.Text.Blank
import StoreQL.Text.Digit
import StoreQL.Text.Letter
import StoreQL.Text.Numeral
import StoreQL.Text.UpperCase
import StoreQL.Token.Basic

namespace StoreQL

open Text

/-! ## 1. Classes of characters -/

/-- Whether a word may begin with `c`. -/
def isWordStart (c : Char) : Bool := isLetter c || c == '_'

/-- Whether a word may go on with `c`. -/
def isWordChar (c : Char) : Bool := isLetter c || isNumeral c || c == '_'

/-- Whether `c`, a double quotation mark or an apostrophe, opens and closes a quotation. -/
def isQuote (c : Char) : Bool := c == '\x22' || c == '\x27'

/-- The kind of token that a character standing alone makes. -/
def punctuation? : Char → Option Token.Kind
  | '(' => some .leftParen
  | ')' => some .rightParen
  | ',' => some .comma
  | '.' => some .dot
  | '*' => some .asterisk
  | _ => none

/-- Whether an operator may begin with `c`. -/
def isOperatorStart (c : Char) : Bool := ['=', '!', '<', '>', '+', '-'].contains c

/-- The operators of two characters. -/
def operatorPairs : List (List Char) := [['<', '='], ['>', '='], ['!', '='], ['=', '=']]

/-! ## 2. Lexemes -/

/-- A lexeme, by kind. -/
inductive Lexeme where
  | word (chars : List Char)
  | number (chars : List Char)
  | quotation (mark : Char) (body : List Char)
  | unclosed (mark : Char) (body : List Char)
  | punctuation (kind : Token.Kind) (c : Char)
  | operator (chars : List Char)
  | stray (c : Char)
deriving DecidableEq, Repr

namespace Lexeme

/-- The characters of the text that the lexeme takes up. -/
def chars : Lexeme → List Char
  | .word cs | .number cs | .operator cs => cs
  | .quotation mark body => mark :: body ++ [mark]
  | .unclosed mark body => mark :: body
  | .punctuation _ c | .stray c => [c]

/-- The keyword that a word spells, if its upper case is one. -/
def keyword? (cs : List Char) : Option String :=
  let upper := String.ofList (upperText cs)
  if keywords.contains upper then some upper else none

/-- The text of the error token that an unclosed quotation makes. -/
def unclosedText : String := "unterminated string"

/-- The kind of token that the lexeme makes. -/
def kind : Lexeme → Token.Kind
  | .word cs => if (keyword? cs).isSome then .keyword else .identifier
  | .number _ => .number
  | .quotation .. => .string
  | .punctuation kind _ => kind
  | .operator _ => .operator
  | .unclosed .. | .stray _ => .error

/-- The text of the token that the lexeme makes: a keyword in capitals, a quotation without its
marks, and everything else as written. -/
def text : Lexeme → String
  | .word cs => (keyword? cs).getD (String.ofList cs)
  | .quotation _ body => String.ofList body
  | .unclosed .. => unclosedText
  | .number cs | .operator cs => String.ofList cs
  | .punctuation _ c | .stray c => String.singleton c

/-! ## 3. Reading a lexeme -/

/-- The number that begins with the digit `c`. -/
def readNumber (c : Char) (cs : List Char) : Lexeme × List Char :=
  let whole := c :: cs.takeWhile isDigit
  match cs.dropWhile isDigit with
  | '.' :: rest => (.number (whole ++ '.' :: rest.takeWhile isDigit), rest.dropWhile isDigit)
  | rest => (.number whole, rest)

/-- The quotation that the mark `c` opens. -/
def readQuotation (c : Char) (cs : List Char) : Lexeme × List Char :=
  let body := cs.takeWhile (· != c)
  match cs.dropWhile (· != c) with
  | [] => (.unclosed c body, [])
  | _ :: rest => (.quotation c body, rest)

/-- The operator that begins with `c`. -/
def readOperator (c : Char) : List Char → Lexeme × List Char
  | [] => (.operator [c], [])
  | d :: rest =>
    if operatorPairs.contains [c, d] then (.operator [c, d], rest) else (.operator [c], d :: rest)

/-- The lexeme that begins with `c`, and the rest of the text. -/
def read (c : Char) (cs : List Char) : Lexeme × List Char :=
  if isWordStart c then (.word (c :: cs.takeWhile isWordChar), cs.dropWhile isWordChar)
  else if isDigit c then readNumber c cs
  else if isQuote c then readQuotation c cs
  else match punctuation? c with
    | some kind => (.punctuation kind c, cs)
    | none => if isOperatorStart c then readOperator c cs else (.stray c, cs)

/-- Nothing is lost: the lexeme and the rest are the text. -/
theorem chars_append_rest (c : Char) (cs : List Char) :
    (read c cs).1.chars ++ (read c cs).2 = c :: cs := by
  unfold read
  split
  · simp [chars]
  split
  · unfold readNumber
    have hd := List.takeWhile_append_dropWhile (p := isDigit) (l := cs)
    split
    · rename_i rest h
      rw [h] at hd
      simp only [chars, List.append_assoc, List.cons_append, List.takeWhile_append_dropWhile, hd]
    · simp [chars]
  split
  · unfold readQuotation
    have hd := List.takeWhile_append_dropWhile (p := (· != c)) (l := cs)
    split
    · rename_i h
      rw [h] at hd
      simp only [chars, List.cons_append, hd]
    · rename_i d rest h
      have hne : cs.dropWhile (· != c) ≠ [] := by simp [h]
      have hdc : d = c := by
        have := List.head_dropWhile_not (· != c) hne
        simpa [h] using this
      rw [h, hdc] at hd
      simp only [chars, List.cons_append, List.append_assoc, List.nil_append, hd]
  split
  · simp [chars]
  split
  · unfold readOperator
    split
    · simp [chars]
    · split <;> simp [chars]
  · simp [chars]

/-- A lexeme takes at least one character. -/
theorem chars_ne_nil (c : Char) (cs : List Char) : (read c cs).1.chars ≠ [] := by
  unfold read readNumber readQuotation readOperator
  repeat' split
  all_goals simp [chars]

/-- What is left is no longer than what stood after the first character. -/
theorem rest_length_le (c : Char) (cs : List Char) : (read c cs).2.length ≤ cs.length := by
  have h := congrArg List.length (chars_append_rest c cs)
  have hpos := List.length_pos_iff.mpr (chars_ne_nil c cs)
  simp only [List.length_append, List.length_cons] at h
  omega

end Lexeme
end StoreQL

/-
# From text to tokens

A `Scanner` is a place in a text. `Scanner.next` passes over blanks, reads one lexeme and makes a
token of it; at the end of the text it gives an end-of-input token. Once it has given a terminal
token the scanner is finished, and gives end-of-input tokens at the place where it stopped.

`tokenize` lists the tokens of a text up to the first terminal one. `tokenizeStrict` refuses a list
that ends with an error token. The two errors are told apart by the token's text: an unclosed
quotation makes a token whose text is longer than one character, any other error token holds the
character that fits nowhere.

Main statements: `Scanner.next_rest_length_lt`, that a token which is not terminal takes something
from the text, and with it that `Scanner.tokens` ends.
-/
import StoreQL.Token.Lexeme

namespace StoreQL

open Text

/-! ## 1. The scanner -/

/-- A place in a text: what is left, where that begins, and whether a terminal token was given. -/
structure Scanner where
  rest : List Char
  position : Position
  finished : Bool
deriving Repr

namespace Scanner

/-- The scanner at the beginning of a text. -/
def ofChars (cs : List Char) : Scanner := ⟨cs, .start, false⟩

/-- The next token, and the scanner after it. -/
def next (s : Scanner) : Token × Scanner :=
  if s.finished then (⟨.endOfInput, "", s.position⟩, s)
  else
    let position := s.position.after (s.rest.takeWhile isBlank)
    match s.rest.dropWhile isBlank with
    | [] => (⟨.endOfInput, "", position⟩, ⟨[], position, true⟩)
    | c :: cs =>
      let (lexeme, rest) := Lexeme.read c cs
      (⟨lexeme.kind, lexeme.text, position⟩,
        ⟨rest, position.after lexeme.chars, lexeme.kind.isTerminal⟩)

/-- A token that is not terminal takes something from the text. -/
theorem next_rest_length_lt {s : Scanner} (h : s.next.1.isTerminal = false) :
    s.next.2.rest.length < s.rest.length := by
  unfold next at h ⊢
  split at h
  · simp [Token.isTerminal, Token.Kind.isTerminal] at h
  · rename_i hf
    simp only [hf, Bool.false_eq_true, if_false]
    split at h
    · simp [Token.isTerminal, Token.Kind.isTerminal] at h
    · rename_i c cs hcs
      have hle := Lexeme.rest_length_le c cs
      have hlen := congrArg List.length
        (List.takeWhile_append_dropWhile (p := isBlank) (l := s.rest))
      rw [hcs] at hlen
      simp only [List.length_append, List.length_cons] at hlen
      show (Lexeme.read c cs).2.length < s.rest.length
      omega

/-- The tokens up to the first terminal one. -/
def tokens (s : Scanner) : List Token :=
  match _h : s.next with
  | (t, s') => if _ht : t.isTerminal then [t] else t :: s'.tokens
termination_by s.rest.length
decreasing_by
  have hlt := next_rest_length_lt (s := s) (by rw [_h]; simpa using _ht)
  rwa [_h] at hlt

theorem tokens_eq (s : Scanner) :
    s.tokens = if s.next.1.isTerminal then [s.next.1] else s.next.1 :: s.next.2.tokens := by
  rw [tokens]
  simp only [dite_eq_ite]

/-- The first `n` tokens, those after the terminal one included. -/
def take : Nat → Scanner → List Token
  | 0, _ => []
  | n + 1, s => s.next.1 :: take n s.next.2

end Scanner

/-- The tokens of a text, the last of which is terminal. -/
def tokenize (text : String) : List Token := (Scanner.ofChars text.toList).tokens

/-! ## 2. Errors of a text -/

/-- Why a text is no list of lexemes. -/
inductive LexicalError where
  | unterminatedString (position : Position)
  | unexpectedCharacter (found : String) (position : Position)
deriving DecidableEq, Repr

namespace LexicalError

/-- The error that an error token stands for. -/
def ofToken (t : Token) : LexicalError :=
  if t.text == Lexeme.unclosedText then .unterminatedString t.position
  else .unexpectedCharacter t.text t.position

/-- The error in words. -/
def message : LexicalError → String
  | .unterminatedString p =>
    s!"unterminated string starting at line {p.line}, column {p.column}"
  | .unexpectedCharacter found p =>
    s!"unexpected character '{found}' at line {p.line}, column {p.column}"

end LexicalError

/-- The tokens of a text, unless the last of them is an error. -/
def tokenizeStrict (text : String) : Except LexicalError (List Token) :=
  let tokens := tokenize text
  match tokens.getLast? with
  | some t => if t.kind = .error then .error (.ofToken t) else .ok tokens
  | none => .ok tokens

end StoreQL

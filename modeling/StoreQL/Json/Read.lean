/-
# Reading JSON

A reader takes a value off the front of a text and says what is left, which is shorter than what it
was given; that is why the loops over items, fields and characters end. Arrays and objects may be
nested up to a fixed depth, on which `value` recurs.

An integer that fits 64 bits stays an integer, and minus zero does not. Any other number is a binary
floating-point value, computed in two steps: the digits up to 64 bits make a whole number, which is
rounded, and the product or quotient of that and a power of ten is rounded again.
-/
import StoreQL.Json.Basic
import StoreQL.Json.Fault
import StoreQL.Text.Digit

namespace StoreQL.Json

open Text (isDigit digitValue)

/-! ## 1. What is left of a text -/

/-- What is left of a text, no longer than the text. -/
structure Rest (cs : List Char) where
  chars : List Char
  length_le : chars.length ≤ cs.length

/-- What is left of a text of which something was taken. -/
structure Left (cs : List Char) where
  chars : List Char
  length_lt : chars.length < cs.length

/-- Everything is left. -/
def Rest.all (cs : List Char) : Rest cs := ⟨cs, Nat.le_refl _⟩

/-- What is left of a text is left of a longer one. -/
def Rest.within {cs : List Char} (r : Rest cs) (ds : List Char) (h : cs.length ≤ ds.length) :
    Rest ds :=
  ⟨r.chars, Nat.le_trans r.length_le h⟩

/-- What is left after one more character in front. -/
def Rest.after {cs : List Char} (r : Rest cs) (c : Char) : Rest (c :: cs) :=
  ⟨r.chars, Nat.le_succ_of_le r.length_le⟩

/-- What is left after one more character in front, which was taken. -/
def Rest.taken {cs : List Char} (r : Rest cs) (c : Char) : Left (c :: cs) :=
  ⟨r.chars, Nat.lt_succ_of_le r.length_le⟩

/-- What is left of what is left. -/
def Rest.andThen {cs : List Char} (r : Rest cs) (r' : Rest r.chars) : Rest cs :=
  ⟨r'.chars, Nat.le_trans r'.length_le r.length_le⟩

/-- What is left, without the promise that something was taken. -/
def Left.weaken {cs : List Char} (r : Left cs) : Rest cs := ⟨r.chars, Nat.le_of_lt r.length_lt⟩

/-- What is left of what is left. -/
def Left.andThen {cs : List Char} (r : Left cs) (r' : Rest r.chars) : Left cs :=
  ⟨r'.chars, Nat.lt_of_le_of_lt r'.length_le r.length_lt⟩

/-- What is left of a text of which something was taken is left of a longer one. -/
def Left.within {cs : List Char} (r : Left cs) (ds : List Char) (h : cs.length ≤ ds.length) :
    Left ds :=
  ⟨r.chars, Nat.lt_of_lt_of_le r.length_lt h⟩

/-! ## 2. Blanks, words and digits -/

/-- The four characters that may stand between the parts of a text. -/
def isSpace (c : Char) : Bool := c == ' ' || c == '\n' || c == '\t' || c == '\r'

/-- The text after its leading blanks. -/
def skipSpace : (cs : List Char) → Rest cs
  | [] => .all []
  | c :: cs => if isSpace c then (skipSpace cs).after c else .all (c :: cs)

/-- Take the letters of `word` off a text. -/
def matchWord : (word cs : List Char) → Except Fault (Rest cs)
  | [], cs => .ok (.all cs)
  | _ :: _, [] => .error ⟨.endInValue, [], 0⟩
  | w :: ws, c :: cs =>
    if c = w then (matchWord ws cs).map (fun r => r.after c)
    else .error ⟨.expectedWord, c :: cs, 1⟩

/-- The text after its leading digits, and how many they are. -/
def skipDigits : (cs : List Char) → Nat × Rest cs
  | [] => (0, .all [])
  | c :: cs =>
    if isDigit c then
      let (n, r) := skipDigits cs
      (n + 1, r.after c)
    else (0, .all (c :: cs))

/-- Append digits to the number `n` while it stays within `limit`: the number, how many digits were
appended, and what is left. -/
def takeDigits (limit n : Nat) : (cs : List Char) → Nat × Nat × Rest cs
  | [] => (n, 0, .all [])
  | c :: cs =>
    if isDigit c ∧ n * 10 + digitValue c ≤ limit then
      let (m, k, r) := takeDigits limit (n * 10 + digitValue c) cs
      (m, k + 1, r.after c)
    else (n, 0, .all (c :: cs))

/-- Whether a text begins with a digit. -/
def startsWithDigit : List Char → Bool
  | c :: _ => isDigit c
  | [] => false

/-! ## 3. Numbers -/

/-- The greatest whole number that digits are gathered into. -/
def maxSignificand : Nat := twoTo 64 - 1

/-- The greatest exponent that digits are gathered into. -/
def maxExponent : Nat := twoTo 31 - 1

/-- A power of ten up to the 308th, rounded. -/
def powerOfTen (k : Nat) : Binary64 := (Binary64.ofNat? (tenTo k)).getD .zero

/-- `x` times ten to the `e`, in steps of at most 308 places, each of them rounded. -/
def scaleByPower (x : Binary64) (e : Int) : Option Binary64 :=
  if 0 ≤ e then
    if e ≤ 308 then x.mul? (powerOfTen e.toNat) else if x.isZero then some x else none
  else if -308 ≤ e then x.div? (powerOfTen (-e).toNat)
  else if x.isZero then some x
  else (x.div? (powerOfTen 308)).bind (fun y => scaleByPower y (e + 308))
termination_by e.natAbs
decreasing_by omega

/-- The number written by a sign, a significand and a power of ten. -/
def realNumber (negative : Bool) (significand : Nat) (exponent : Int) (cs : List Char) :
    Except Fault Number :=
  match (Binary64.ofNat? significand).bind (fun x => scaleByPower x exponent) with
  | some x => .ok (.real (x.withSign negative))
  | none => .error ⟨.numberOutOfRange, cs, 0⟩

/-- The number without a fraction or an exponent. -/
def wholeNumber (negative : Bool) (n : Nat) : Number :=
  if !negative then .integer n
  else if 0 < n ∧ n ≤ twoTo 63 then .integer (-(n : Int))
  else .real (((Binary64.ofNat? n).getD .zero).withSign true)

/-- The sign of an exponent, and what is left. -/
def exponentSign : (cs : List Char) → Bool × Rest cs
  | [] => (false, .all [])
  | c :: cs =>
    if c = '-' then (true, (Rest.all cs).after c)
    else if c = '+' then (false, (Rest.all cs).after c)
    else (false, .all (c :: cs))

/-- The digits of an exponent from the first of them on. An exponent that is too great makes the
number zero or takes it out of range. -/
def exponentDigits (negative : Bool) (significand : Nat) (start : Int) (down : Bool) (c : Char)
    (cs : List Char) : Except Fault (Number × Rest cs) :=
  let (e, _, r) := takeDigits maxExponent (digitValue c) cs
  if startsWithDigit r.chars then
    if significand ≠ 0 ∧ !down then .error ⟨.numberOutOfRange, r.chars.tail, 0⟩
    else .ok (.real (Binary64.zero.withSign negative), r.andThen (skipDigits r.chars).2)
  else
    let exponent := if down then start - e else start + e
    (realNumber negative significand exponent r.chars).map (fun x => (x, r))

/-- The part of a number after the mark of its exponent. -/
def exponentPart (negative : Bool) (significand : Nat) (start : Int) (cs : List Char) :
    Except Fault (Number × Rest cs) :=
  let (down, r) := exponentSign cs
  match hr : r.chars with
  | [] => .error ⟨.endInValue, [], 0⟩
  | c :: rest =>
    if isDigit c then
      (exponentDigits negative significand start down c rest).map (fun (x, r') =>
        (x, (r'.after c).within cs (hr ▸ r.length_le)))
    else .error ⟨.invalidNumber, c :: rest, 1⟩

/-- The end of a number whose digits before the exponent have been read. -/
def afterDigits (negative : Bool) (significand : Nat) (exponent : Int) :
    (cs : List Char) → Except Fault (Number × Rest cs)
  | [] => (realNumber negative significand exponent []).map (fun x => (x, .all []))
  | c :: cs =>
    if c = 'e' ∨ c = 'E' then
      (exponentPart negative significand exponent cs).map (fun (x, r) => (x, r.after c))
    else
      (realNumber negative significand exponent (c :: cs)).map (fun x => (x, .all (c :: cs)))

/-- The part of a number after its point. Digits that no longer fit are passed over. -/
def fractionPart (negative : Bool) (significand : Nat) (exponent : Int) (cs : List Char) :
    Except Fault (Number × Rest cs) :=
  let (m, k, r) := takeDigits maxSignificand significand cs
  if startsWithDigit r.chars then
    let r' := r.andThen (skipDigits r.chars).2
    (afterDigits negative m (exponent - k) r'.chars).map (fun (x, r'') => (x, r'.andThen r''))
  else if k = 0 then
    match r.chars with
    | [] => .error ⟨.endInValue, [], 0⟩
    | rest => .error ⟨.invalidNumber, rest, 1⟩
  else (afterDigits negative m (exponent - k) r.chars).map (fun (x, r') => (x, r.andThen r'))

/-- A number whose whole part `n` has been read, with `skipped` digits of it passed over. -/
def afterWhole (negative : Bool) (n skipped : Nat) :
    (cs : List Char) → Except Fault (Number × Rest cs)
  | [] =>
    if skipped ≠ 0 then afterDigits negative n skipped []
    else .ok (wholeNumber negative n, .all [])
  | c :: cs =>
    if c = '.' then (fractionPart negative n skipped cs).map (fun (x, r) => (x, r.after c))
    else if c = 'e' ∨ c = 'E' ∨ skipped ≠ 0 then afterDigits negative n skipped (c :: cs)
    else .ok (wholeNumber negative n, .all (c :: cs))

/-- A number without its sign. -/
def number (negative : Bool) : (cs : List Char) → Except Fault (Number × Left cs)
  | [] => .error ⟨.endInValue, [], 0⟩
  | c :: cs =>
    if c = '0' then
      if startsWithDigit cs then .error ⟨.invalidNumber, cs, 1⟩
      else (afterWhole negative 0 0 cs).map (fun (x, r) => (x, r.taken c))
    else if isDigit c then
      let (n, _, r) := takeDigits maxSignificand (digitValue c) cs
      let (skipped, r') := skipDigits r.chars
      (afterWhole negative n skipped r'.chars).map (fun (x, r'') =>
        (x, ((r.andThen r').andThen r'').taken c))
    else .error ⟨.invalidNumber, c :: cs, 1⟩

/-! ## 4. Texts -/

/-- The value of a digit of base sixteen. -/
def hexValue? (c : Char) : Option Nat :=
  if '0' ≤ c ∧ c ≤ '9' then some (c.toNat - '0'.toNat)
  else if 'a' ≤ c ∧ c ≤ 'f' then some (c.toNat - 'a'.toNat + 10)
  else if 'A' ≤ c ∧ c ≤ 'F' then some (c.toNat - 'A'.toNat + 10)
  else none

/-- The number written by four digits of base sixteen. -/
def hexFour? (a b c d : Char) : Option Nat := do
  let high := (← hexValue? a) * 16 + (← hexValue? b)
  let low := (← hexValue? c) * 16 + (← hexValue? d)
  return high * 256 + low

/-- Four digits of base sixteen. Four bytes are looked at, whatever they are. -/
def codeUnit : (cs : List Char) → Except Fault (Nat × Rest cs)
  | a :: b :: c :: d :: rest =>
    match hexFour? a b c d with
    | some n => .ok (n, ((((Rest.all rest).after d).after c).after b).after a)
    | none => .error ⟨.invalidEscape, a :: b :: c :: d :: rest, 4⟩
  | few =>
    if 4 ≤ encodedSize few then .error ⟨.invalidEscape, few, 4⟩
    else .error ⟨.endInText, [], 0⟩

/-- The second half of a surrogate pair, with its own backslash. -/
def secondUnit : (cs : List Char) → Except Fault (Nat × Rest cs)
  | [] => .error ⟨.endInText, [], 0⟩
  | [c] => if c = '\\' then .error ⟨.endInText, [], 0⟩ else .error ⟨.brokenPair, [c], 1⟩
  | c :: d :: rest =>
    if c ≠ '\\' then .error ⟨.brokenPair, c :: d :: rest, 1⟩
    else if d ≠ 'u' then .error ⟨.brokenPair, d :: rest, 1⟩
    else do
      let (n, r) ← codeUnit rest
      if n < 0xDC00 ∨ 0xDFFF < n then throw ⟨.loneSurrogate, r.chars, 0⟩
      return (n, (r.after d).after c)

/-- The character of an escape by number. -/
def numberedEscape (cs : List Char) : Except Fault (Char × Rest cs) := do
  let (n, r) ← codeUnit cs
  if 0xDC00 ≤ n ∧ n ≤ 0xDFFF then throw ⟨.loneSurrogate, r.chars, 0⟩
  if n < 0xD800 ∨ 0xDBFF < n then return (Char.ofNat n, r)
  let (m, r') ← secondUnit r.chars
  return (Char.ofNat ((n - 0xD800) * 1024 + (m - 0xDC00) + 0x10000), r.andThen r')

/-- The character of an escape by letter. -/
def letterEscape? (c : Char) : Option Char :=
  if c = '\x22' ∨ c = '\\' ∨ c = '/' then some c
  else if c = 'b' then some '\x08'
  else if c = 'f' then some '\x0c'
  else if c = 'n' then some '\n'
  else if c = 'r' then some '\r'
  else if c = 't' then some '\t'
  else none

/-- The character of an escape, after its backslash. -/
def escapeSequence : (cs : List Char) → Except Fault (Char × Rest cs)
  | [] => .error ⟨.endInText, [], 0⟩
  | c :: cs =>
    if c = 'u' then (numberedEscape cs).map (fun (x, r) => (x, r.after c))
    else match letterEscape? c with
      | some x => .ok (x, (Rest.all cs).after c)
      | none => .error ⟨.invalidEscape, c :: cs, 1⟩

/-- A text after its opening quotation mark; `seen` holds its characters so far, the last first. -/
def text (seen : List Char) : (cs : List Char) → Except Fault (String × Left cs)
  | [] => .error ⟨.endInText, [], 0⟩
  | c :: cs =>
    if c = '\x22' then .ok (String.ofList seen.reverse, (Rest.all cs).taken c)
    else if c = '\\' then
      match escapeSequence cs with
      | .error e => .error e
      | .ok (x, r) =>
        (text (x :: seen) r.chars).map (fun (s, r') => (s, (r.andThen r'.weaken).taken c))
    else if c.toNat < 32 then .error ⟨.controlCharacter, c :: cs, 1⟩
    else (text (c :: seen) cs).map (fun (s, r) => (s, r.weaken.taken c))
termination_by cs => cs.length
decreasing_by
  · have := r.length_le
    simp only [List.length_cons]
    omega
  · simp

/-! ## 5. Values -/

/-- Something that takes a value off the front of a text. -/
abbrev Reader := (cs : List Char) → Except Fault (Json × Left cs)

/-- The items of an array after the first, up to and with the closing bracket. -/
def items (element : Reader) (seen : List Json) (cs : List Char) :
    Except Fault (List Json × Rest cs) :=
  let r := skipSpace cs
  match hr : r.chars with
  | [] => .error ⟨.endInArray, [], 0⟩
  | c :: rest =>
    have hc : (c :: rest).length ≤ cs.length := hr ▸ r.length_le
    if c = ']' then .ok (seen.reverse, ((Rest.all rest).after c).within cs hc)
    else if c = ',' then
      match (skipSpace rest).chars with
      | [] => .error ⟨.endInValue, [], 0⟩
      | ']' :: more => .error ⟨.trailingComma, ']' :: more, 1⟩
      | _ =>
        match element rest with
        | .error e => .error e
        | .ok (x, r') =>
          (items element (x :: seen) r'.chars).map (fun (xs, r'') =>
            (xs, ((r'.andThen r'').weaken.after c).within cs hc))
    else .error ⟨.expectedArrayEnd, c :: rest, 1⟩
termination_by cs.length
decreasing_by
  have := r'.length_lt
  simp only [List.length_cons] at hc
  omega

/-- An array after its opening bracket. -/
def array (element : Reader) (cs : List Char) : Except Fault (List Json × Rest cs) :=
  let r := skipSpace cs
  match hr : r.chars with
  | [] => .error ⟨.endInArray, [], 0⟩
  | c :: rest =>
    have hc : (c :: rest).length ≤ cs.length := hr ▸ r.length_le
    if c = ']' then .ok ([], ((Rest.all rest).after c).within cs hc)
    else do
      let (x, r') ← element (c :: rest)
      let (xs, r'') ← items element [x] r'.chars
      return (xs, (r'.andThen r'').weaken.within cs hc)

/-- One field of an object after the mark that opens its name. -/
def field (element : Reader) (cs : List Char) : Except Fault ((String × Json) × Left cs) := do
  let (name, r) ← text [] cs
  let r' := skipSpace r.chars
  match hr : r'.chars with
  | [] => throw ⟨.endInObject, [], 0⟩
  | c :: rest =>
    if c = ':' then
      let (x, r'') ← element rest
      return ((name, x), r.andThen ((r''.weaken.after c).within r.chars (hr ▸ r'.length_le)))
    else throw ⟨.expectedColon, c :: rest, 1⟩

/-- The fields of an object after the first, up to and with the closing brace. -/
def fields (element : Reader) (seen : Dictionary Json) (cs : List Char) :
    Except Fault (Dictionary Json × Rest cs) :=
  let r := skipSpace cs
  match hr : r.chars with
  | [] => .error ⟨.endInObject, [], 0⟩
  | c :: rest =>
    have hc : (c :: rest).length ≤ cs.length := hr ▸ r.length_le
    if c = '\x7d' then .ok (seen, ((Rest.all rest).after c).within cs hc)
    else if c = ',' then
      let s := skipSpace rest
      match hs : s.chars with
      | [] => .error ⟨.endInValue, [], 0⟩
      | d :: more =>
        have hd : (d :: more).length ≤ rest.length := hs ▸ s.length_le
        if d = '\x22' then
          match field element more with
          | .error e => .error e
          | .ok (f, r') =>
            (fields element (seen.insert f.1 f.2) r'.chars).map (fun (fs, r'') =>
              (fs, ((((r'.andThen r'').weaken.after d).within rest hd).after c).within cs hc))
        else if d = '\x7d' then .error ⟨.trailingComma, d :: more, 1⟩
        else .error ⟨.nameNotText, d :: more, 1⟩
    else .error ⟨.expectedObjectEnd, c :: rest, 1⟩
termination_by cs.length
decreasing_by
  have := r'.length_lt
  simp only [List.length_cons] at hc hd
  omega

/-- An object after its opening brace. -/
def object (element : Reader) (cs : List Char) : Except Fault (Dictionary Json × Rest cs) :=
  let r := skipSpace cs
  match hr : r.chars with
  | [] => .error ⟨.endInObject, [], 0⟩
  | c :: rest =>
    have hc : (c :: rest).length ≤ cs.length := hr ▸ r.length_le
    if c = '\x7d' then .ok ([], ((Rest.all rest).after c).within cs hc)
    else if c = '\x22' then do
      let (f, r') ← field element rest
      let (fs, r'') ← fields element (Dictionary.insert f.1 f.2 []) r'.chars
      return (fs, ((r'.andThen r'').weaken.after c).within cs hc)
    else .error ⟨.nameNotText, c :: rest, 1⟩

/-- A value that begins with `c`. What is inside of an array or an object is read by `nested`; in
its absence there is to be no array or object. -/
def valueFrom (nested : Option Reader) (c : Char) (cs : List Char) :
    Except Fault (Json × Left (c :: cs)) :=
  let word (w : List Char) (x : Json) : Except Fault (Json × Left (c :: cs)) :=
    (matchWord w cs).map (fun r => (x, r.taken c))
  if c = 'n' then word ['u', 'l', 'l'] .null
  else if c = 't' then word ['r', 'u', 'e'] (.bool true)
  else if c = 'f' then word ['a', 'l', 's', 'e'] (.bool false)
  else if c = '-' then (number true cs).map (fun (x, r) => (.num x, r.weaken.taken c))
  else if isDigit c then (number false (c :: cs)).map (fun (x, r) => (.num x, r))
  else if c = '\x22' then (text [] cs).map (fun (s, r) => (.str s, r.weaken.taken c))
  else if c = '[' then
    match nested with
    | none => .error ⟨.tooDeep, c :: cs, 1⟩
    | some element => (array element cs).map (fun (xs, r) => (.arr xs, r.taken c))
  else if c = '\x7b' then
    match nested with
    | none => .error ⟨.tooDeep, c :: cs, 1⟩
    | some element => (object element cs).map (fun (fs, r) => (.obj fs, r.taken c))
  else .error ⟨.expectedValue, c :: cs, 1⟩

/-- A value after the blanks before it, given how the values inside of it are read. -/
def valueWith (nested : Option Reader) : Reader := fun cs =>
  let r := skipSpace cs
  match hr : r.chars with
  | [] => .error ⟨.endInValue, [], 0⟩
  | c :: rest =>
    (valueFrom nested c rest).map (fun (x, r') => (x, r'.within cs (hr ▸ r.length_le)))

/-- A value in which `depth` arrays and objects may be open at a time. -/
def value : (depth : Nat) → Reader
  | 0 => valueWith none
  | depth + 1 => valueWith (some (value depth))

/-- The depth to which arrays and objects may be nested. -/
def maxDepth : Nat := 127

/-- The value that a text holds, and nothing but blanks around it. -/
def parse (s : String) : Except Error Json :=
  let read : Except Fault Json := do
    let (x, r) ← value maxDepth s.toList
    match (skipSpace r.chars).chars with
    | [] => return x
    | rest => throw ⟨.trailingCharacters, rest, 1⟩
  read.mapError (Fault.locate s)

end StoreQL.Json

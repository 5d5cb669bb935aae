import NostrCapsule.Text.Hex

/-!
Contract: the tokens of JSON text.

Text is read once from left to right by a machine with one mode for each place in which a
character can stand.  Only space, tab, line feed and carriage return separate tokens.

Owns:
- `Token`, with `Number` for numerals and `Option String` for strings;
- `tokens?`, which cuts text into tokens or refuses it.

A string that spells half of a surrogate pair is well formed, but it is no text: its token
carries `none`.

Does not own: the nesting of tokens.
-/

namespace NostrCapsule.Json

/-- A numeral: a whole number written with digits alone, or any other number. -/
inductive Number where
  | whole (value : Int)
  | other
deriving DecidableEq, Repr

inductive Token where
  | openObject
  | closeObject
  | openArray
  | closeArray
  | colon
  | comma
  | null
  | boolean (value : Bool)
  | number (value : Number)
  | text (content : Option String)
deriving DecidableEq, Repr

/-! ## Strings -/

/-- A character of a string, or a 16-bit code written in hexadecimal. -/
inductive TextUnit where
  | plain (character : Char)
  | code (value : Nat)
deriving DecidableEq, Repr

def isHighSurrogate (code : Nat) : Bool := 0xD800 ≤ code && code ≤ 0xDBFF

def isLowSurrogate (code : Nat) : Bool := 0xDC00 ≤ code && code ≤ 0xDFFF

/-- The characters that units spell, if no half of a pair stands alone. -/
def unitChars : List TextUnit → Option (List Char)
  | [] => some []
  | .plain character :: rest => (unitChars rest).map (character :: ·)
  | .code high :: .code low :: rest =>
      if isHighSurrogate high then
        if isLowSurrogate low then
          (unitChars rest).map
            (Char.ofNat (0x10000 + (high - 0xD800) * 0x400 + (low - 0xDC00)) :: ·)
        else none
      else if isLowSurrogate high then none
      else (unitChars (.code low :: rest)).map (Char.ofNat high :: ·)
  | .code code :: rest =>
      if isHighSurrogate code || isLowSurrogate code then none
      else (unitChars rest).map (Char.ofNat code :: ·)

def escaped? : Char → Option Char
  | '"' => some '"'
  | '\\' => some '\\'
  | '/' => some '/'
  | 'b' => some '\x08'
  | 'f' => some '\x0c'
  | 'n' => some '\n'
  | 'r' => some '\r'
  | 't' => some '\t'
  | _ => none

/-! ## Numerals -/

def isDigits (characters : List Char) : Bool :=
  !characters.isEmpty && characters.all Char.isDigit

def isExponent : List Char → Bool
  | [] => true
  | mark :: rest =>
      (mark == 'e' || mark == 'E') && match rest with
        | '+' :: digits => isDigits digits
        | '-' :: digits => isDigits digits
        | digits => isDigits digits

/-- Whether characters are a fraction, an exponent, or one after the other. -/
def isFraction : List Char → Bool
  | '.' :: rest =>
      !(rest.takeWhile Char.isDigit).isEmpty && isExponent (rest.dropWhile Char.isDigit)
  | rest => isExponent rest

/-- Whether digits are zero or do not begin with zero. -/
def isWhole : List Char → Bool
  | [] => false
  | ['0'] => true
  | first :: _ => first != '0'

/-- The number that an unsigned numeral spells, negated on demand.  A negative zero is no whole
number. -/
def magnitude? (negative : Bool) (characters : List Char) : Option Number :=
  let digits := characters.takeWhile Char.isDigit
  let rest := characters.dropWhile Char.isDigit
  if !isWhole digits then none
  else if rest.isEmpty then
    let size := Text.digitsValue digits
    if !negative then some (.whole size)
    else if size = 0 then some .other
    else some (.whole (-(size : Int)))
  else if isFraction rest then some .other
  else none

def number? : List Char → Option Number
  | '-' :: characters => magnitude? true characters
  | characters => magnitude? false characters

def isNumeral (character : Char) : Bool :=
  character.isDigit || character == '-' || character == '+' || character == '.'
    || character == 'e' || character == 'E'

/-! ## The machine -/

/-- Where the next character stands.  What was read of a token so far is kept in reverse. -/
inductive Mode where
  | between
  | numeral (written : List Char)
  | word (written : List Char)
  | string (units : List TextUnit)
  | escape (units : List TextUnit)
  | code (units : List TextUnit) (digits value : Nat)
deriving DecidableEq, Repr

/-- The token of a complete word. -/
def wordToken? (written : List Char) : Option Token :=
  match String.ofList written.reverse with
  | "null" => some .null
  | "true" => some (.boolean true)
  | "false" => some (.boolean false)
  | _ => none

/-- A character that begins a token or stands between tokens. -/
def begin? (character : Char) : Option (Mode × List Token) :=
  match character with
  | ' ' | '\t' | '\n' | '\r' => some (.between, [])
  | '{' => some (.between, [.openObject])
  | '}' => some (.between, [.closeObject])
  | '[' => some (.between, [.openArray])
  | ']' => some (.between, [.closeArray])
  | ':' => some (.between, [.colon])
  | ',' => some (.between, [.comma])
  | '"' => some (.string [], [])
  | _ =>
      if character.isDigit || character == '-' then some (.numeral [character], [])
      else if character.isLower then some (.word [character], [])
      else none

/-- The token that ends with the text. -/
def finish? : Mode → Option (List Token)
  | .between => some []
  | .numeral written => (number? written.reverse).map fun number => [.number number]
  | .word written => (wordToken? written).map fun token => [token]
  | .string _ => none
  | .escape _ => none
  | .code _ _ _ => none

/-- Ends the token of a mode and begins with the next character. -/
def restart? (mode : Mode) (character : Char) : Option (Mode × List Token) := do
  let ended ← finish? mode
  let (next, begun) ← begin? character
  pure (next, ended ++ begun)

/-- One character: the next mode, and the tokens that are complete. -/
def step? (mode : Mode) (character : Char) : Option (Mode × List Token) :=
  match mode with
  | .between => begin? character
  | .numeral written =>
      if isNumeral character then some (.numeral (character :: written), [])
      else restart? mode character
  | .word written =>
      if character.isLower then some (.word (character :: written), [])
      else restart? mode character
  | .string units =>
      if character == '"' then
        some (.between, [.text ((unitChars units.reverse).map String.ofList)])
      else if character == '\\' then some (.escape units, [])
      else if character.toNat < 0x20 then none
      else some (.string (.plain character :: units), [])
  | .escape units =>
      if character == 'u' then some (.code units 0 0, [])
      else (escaped? character).map fun plain => (.string (.plain plain :: units), [])
  | .code units digits value =>
      (Hex.digit? character).map fun digit =>
        if digits = 3 then (.string (.code (16 * value + digit) :: units), [])
        else (.code units (digits + 1) (16 * value + digit), [])

def tokensFrom? (mode : Mode) : List Char → Option (List Token)
  | [] => finish? mode
  | character :: rest =>
      match step? mode character with
      | none => none
      | some (next, complete) => (tokensFrom? next rest).map (complete ++ ·)

def tokens? (text : String) : Option (List Token) :=
  tokensFrom? .between text.toList

end NostrCapsule.Json

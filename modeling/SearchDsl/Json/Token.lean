import SearchDsl.Text.Digits

/-!
# `SearchDsl.Json.Token`: the tokens of a JSON text

The text is scanned one character at a time. A word or a number extends as far as it can and ends at
the first character that cannot belong to it. A string is kept as it is written: its short escapes
are resolved, but an escape by code unit stays one, because only a reader of the string has to pair
up surrogates. A number likewise keeps its digits and is not rounded.
-/

set_option autoImplicit false

namespace SearchDsl.Json

/-- One unit of a string: a character, or the code unit given by a `\u` escape. -/
inductive StringUnit where
  | char (c : Char)
  | code (unit : Nat)
deriving DecidableEq, Repr

/-- A number as written: `digits × 10 ^ scale` with a sign, and whether it has neither a fraction
nor an exponent. -/
structure Numeral where
  negative : Bool
  digits : Nat
  scale : Int
  isWhole : Bool
deriving DecidableEq, Repr

/-- The tokens of a JSON text. -/
inductive Token where
  | beginArray
  | endArray
  | beginObject
  | endObject
  | colon
  | comma
  | null
  | bool (value : Bool)
  | number (numeral : Numeral)
  | string (units : List StringUnit)
deriving DecidableEq, Repr

/-- The exponent at the end of a number: nothing, or `e` with an optional sign and digits. -/
def exponent? : List Char → Option Int
  | [] => some 0
  | e :: rest =>
      if e = 'e' ∨ e = 'E' then
        let (negative, digits) := match rest with
          | '-' :: digits => (true, digits)
          | '+' :: digits => (false, digits)
          | digits => (false, digits)
        if digits ≠ [] ∧ digits.all Char.isDigit then
          some (if negative then -(Text.digitsValue digits) else Text.digitsValue digits)
        else none
      else none

/-- The number written by a run of characters: an optional minus, whole digits without a needless
zero in front, and optionally a fraction and an exponent. -/
def Numeral.parse? (text : List Char) : Option Numeral :=
  let (negative, unsigned) := match text with
    | '-' :: rest => (true, rest)
    | rest => (false, rest)
  let (whole, rest) := Text.splitDigits unsigned
  if whole = [] ∨ (whole.length > 1 ∧ whole.head? = some '0') then none
  else
    match rest with
    | [] => some ⟨negative, Text.digitsValue whole, 0, true⟩
    | '.' :: rest =>
        let (fraction, rest) := Text.splitDigits rest
        if fraction = [] then none
        else (exponent? rest).map fun e =>
          ⟨negative, Text.digitsValue (whole ++ fraction), e - fraction.length, false⟩
    | rest => (exponent? rest).map fun e => ⟨negative, Text.digitsValue whole, e, false⟩

/-- The token of a bare word. -/
def Token.ofWord? (word : String) : Option Token :=
  if word = "null" then some .null
  else if word = "true" then some (.bool true)
  else if word = "false" then some (.bool false)
  else none

/-- Where the scanner is. Characters and units that were read are held in reverse. -/
inductive ScanState where
  | between
  | word (letters : List Char)
  | number (characters : List Char)
  | string (units : List StringUnit)
  | escape (units : List StringUnit)
  | codeEscape (units : List StringUnit) (length value : Nat)

/-- The character that a short escape stands for. -/
def shortEscape? (c : Char) : Option Char :=
  match c with
  | '"' => some '"'
  | '\\' => some '\\'
  | '/' => some '/'
  | 'b' => some (Char.ofNat 0x8)
  | 'f' => some (Char.ofNat 0xC)
  | 'n' => some '\n'
  | 'r' => some '\r'
  | 't' => some '\t'
  | _ => none

/-- The value of a hexadecimal digit. -/
def hexValue? (c : Char) : Option Nat :=
  if '0' ≤ c ∧ c ≤ '9' then some (c.toNat - '0'.toNat)
  else if 'a' ≤ c ∧ c ≤ 'f' then some (c.toNat - 'a'.toNat + 10)
  else if 'A' ≤ c ∧ c ≤ 'F' then some (c.toNat - 'A'.toNat + 10)
  else none

/-- Whether a character can continue a number. -/
def isNumeralChar (c : Char) : Bool :=
  c.isDigit || c == '-' || c == '+' || c == '.' || c == 'e' || c == 'E'

namespace ScanState

/-- The tokens that are complete once no more characters belong to them. -/
def finish? : ScanState → Option (List Token)
  | between => some []
  | word letters => (Token.ofWord? (String.ofList letters.reverse)).map ([·])
  | number characters => (Numeral.parse? characters.reverse).map (fun n => [.number n])
  | string _ | escape _ | codeEscape .. => none

/-- The state after a character that begins something new, and the token it completes by itself. -/
def start? (c : Char) : Option (ScanState × List Token) :=
  match c with
  | ' ' | '\n' | '\t' | '\r' => some (between, [])
  | '[' => some (between, [.beginArray])
  | ']' => some (between, [.endArray])
  | ':' => some (between, [.colon])
  | ',' => some (between, [.comma])
  | '"' => some (string [], [])
  | c =>
      if c.toNat = 0x7b then some (between, [.beginObject])
      else if c.toNat = 0x7d then some (between, [.endObject])
      else if c = '-' ∨ c.isDigit then some (number [c], [])
      else if c.isLower then some (word [c], [])
      else none

/-- Ends what was being read and begins something new. -/
def restart? (s : ScanState) (c : Char) : Option (ScanState × List Token) := do
  let done ← s.finish?
  let (next, tokens) ← start? c
  pure (next, done ++ tokens)

/-- The state after one more character, and the tokens that it completes. -/
def step? (s : ScanState) (c : Char) : Option (ScanState × List Token) :=
  match s with
  | between => start? c
  | word letters => if c.isLower then some (word (c :: letters), []) else s.restart? c
  | number characters =>
      if isNumeralChar c then some (number (c :: characters), []) else s.restart? c
  | string units =>
      if c = '"' then some (between, [.string units.reverse])
      else if c = '\\' then some (escape units, [])
      else if c.toNat < 0x20 then none
      else some (string (.char c :: units), [])
  | escape units =>
      if c = 'u' then some (codeEscape units 0 0, [])
      else (shortEscape? c).map fun resolved => (string (.char resolved :: units), [])
  | codeEscape units length value =>
      (hexValue? c).map fun digit =>
        let value := value * 16 + digit
        if length = 3 then (string (.code value :: units), [])
        else (codeEscape units (length + 1) value, [])

end ScanState

/-- The tokens from a state on, with those before them held in reverse. -/
def tokensFrom? (state : ScanState) (done : List Token) : List Char → Option (List Token)
  | [] => state.finish?.map fun last => done.reverse ++ last
  | c :: rest =>
      match state.step? c with
      | some (next, tokens) => tokensFrom? next (tokens.reverse ++ done) rest
      | none => none

/-- The tokens of a text, if it consists of tokens and white space. -/
def tokens? (text : String) : Option (List Token) :=
  tokensFrom? .between [] text.toList

end SearchDsl.Json

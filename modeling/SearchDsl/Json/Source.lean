import SearchDsl.Json.Basic
import SearchDsl.Json.Token

/-!
# `SearchDsl.Json.Source`: JSON texts as trees, and the values that they stand for

`Json.Source.parse?` builds the tree of a text from its tokens. The tree keeps what is written: the
order and the repetition of members, numbers as digits, strings as units. `Json.Source.json?` gives
the value. It fails for a number beyond the range of double precision and for a surrogate without
its partner. Of several members with one key the last counts.
-/

set_option autoImplicit false

namespace SearchDsl.Json

/-- A JSON text as it is written. -/
inductive Source where
  | null
  | bool (value : Bool)
  | number (numeral : Numeral)
  | string (units : List StringUnit)
  | array (items : List Source)
  | object (members : List (List StringUnit × Source))
deriving Inhabited

namespace Source

/-- A container whose end has not been reached, with what it holds so far in reverse. -/
inductive Frame where
  | items (done : List Source)
  | members (done : List (List StringUnit × Source)) (key : List StringUnit)

/-- What has to come next, inside the containers that are open. -/
inductive ParseState where
  | value (outer : List Frame)
  | firstItem (outer : List Frame)
  | firstKey (outer : List Frame)
  | key (done : List (List StringUnit × Source)) (outer : List Frame)
  | colon (done : List (List StringUnit × Source)) (key : List StringUnit) (outer : List Frame)
  | afterItem (done : List Source) (outer : List Frame)
  | afterMember (done : List (List StringUnit × Source)) (outer : List Frame)
  | finished (source : Source)

namespace ParseState

/-- The state after a complete value. -/
def complete (source : Source) : List Frame → ParseState
  | [] => finished source
  | .items done :: outer => afterItem (source :: done) outer
  | .members done units :: outer => afterMember ((units, source) :: done) outer

/-- The state after a token that begins a value. -/
def beginValue? (outer : List Frame) : Token → Option ParseState
  | .null => some (complete .null outer)
  | .bool b => some (complete (.bool b) outer)
  | .number n => some (complete (.number n) outer)
  | .string units => some (complete (.string units) outer)
  | .beginArray => some (firstItem outer)
  | .beginObject => some (firstKey outer)
  | .endArray | .endObject | .colon | .comma => none

/-- The state after one more token. -/
def step? (state : ParseState) (token : Token) : Option ParseState :=
  match state with
  | value outer => beginValue? outer token
  | firstItem outer =>
      match token with
      | .endArray => some (complete (.array []) outer)
      | token => beginValue? (.items [] :: outer) token
  | firstKey outer =>
      match token with
      | .endObject => some (complete (.object []) outer)
      | .string units => some (colon [] units outer)
      | _ => none
  | key done outer =>
      match token with
      | .string units => some (colon done units outer)
      | _ => none
  | colon done units outer =>
      match token with
      | .colon => some (value (.members done units :: outer))
      | _ => none
  | afterItem done outer =>
      match token with
      | .comma => some (value (.items done :: outer))
      | .endArray => some (complete (.array done.reverse) outer)
      | _ => none
  | afterMember done outer =>
      match token with
      | .comma => some (key done outer)
      | .endObject => some (complete (.object done.reverse) outer)
      | _ => none
  | finished _ => none

end ParseState

/-- The tree of a list of tokens, if they form exactly one value. -/
def ofTokens? (tokens : List Token) : Option Source :=
  match tokens.foldlM ParseState.step? (.value []) with
  | some (.finished source) => some source
  | _ => none

/-- The tree of a JSON text. -/
def parse? (text : String) : Option Source :=
  (tokens? text).bind ofTokens?

/-- The characters of a string. Code units from `0xD800` to `0xDFFF` must come in pairs of one from
each half. -/
def characters? : List StringUnit → Option (List Char)
  | [] => some []
  | .char c :: rest => (characters? rest).map (c :: ·)
  | .code high :: .code low :: rest =>
      if 0xD800 ≤ high ∧ high < 0xDC00 then
        if 0xDC00 ≤ low ∧ low < 0xE000 then
          (characters? rest).map
            (Char.ofNat (0x10000 + (high - 0xD800) * 0x400 + (low - 0xDC00)) :: ·)
        else none
      else if 0xDC00 ≤ high ∧ high < 0xE000 then none
      else (characters? (.code low :: rest)).map (Char.ofNat high :: ·)
  | .code unit :: rest =>
      if 0xD800 ≤ unit ∧ unit < 0xE000 then none
      else (characters? rest).map (Char.ofNat unit :: ·)

/-- The text of a string. -/
def text? (units : List StringUnit) : Option String :=
  (characters? units).map String.ofList

/-- The value of a number: an integer if it is written as one and in range, else the nearest double.
A negative zero is a double. -/
def number? (n : Numeral) : Option Json :=
  let value : Int := if n.negative then -n.digits else n.digits
  if n.isWhole ∧ Int64.minValue.toInt ≤ value ∧ value < UInt64.size
      ∧ ¬(n.negative ∧ n.digits = 0) then
    some (.int value)
  else
    let x := Binary.ofScientific .binary64 n.negative n.digits n.scale
    if x.isFinite then some (.double x) else none

mutual

/-- The value that a JSON text stands for. -/
def json? : Source → Option Json
  | null => some .null
  | bool b => some (.bool b)
  | number n => number? n
  | string units => (text? units).map .string
  | array items => (jsonItems? items).map .array
  | object members => (jsonMembers? members).map fun members => .object (collect members)

/-- The values of the items of an array. -/
def jsonItems? : List Source → Option (List Json)
  | [] => some []
  | item :: rest => do
      let value ← json? item
      let values ← jsonItems? rest
      pure (value :: values)

/-- The members of an object, in the order of the text. -/
def jsonMembers? : List (List StringUnit × Source) → Option (List (String × Json))
  | [] => some []
  | (units, source) :: rest => do
      let key ← text? units
      let value ← json? source
      let members ← jsonMembers? rest
      pure ((key, value) :: members)

end

end Source

/-- The value of a JSON text. -/
def parse? (text : String) : Option Json :=
  (Source.parse? text).bind Source.json?

end SearchDsl.Json

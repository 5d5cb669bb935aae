import NostrCapsule.Json.Token

/-!
Contract: JSON values, and records read from them.

Tokens are read from left to right with a stack of the arrays and objects that are still open.

Owns:
- `Json` and `Json.parse?`;
- the selection of a record's fields, and readers for the types that fields have.

Does not own: any particular record.
-/

namespace NostrCapsule

/-- A JSON value.  Fields keep their order and may repeat; a string or name that is no text is
`none`. -/
inductive Json where
  | null
  | boolean (value : Bool)
  | number (value : Json.Number)
  | text (content : Option String)
  | array (items : List Json)
  | object (fields : List (Option String × Json))
deriving Repr, Inhabited

namespace Json

/-- An open array or object with what it holds so far in reverse, or a name without its value. -/
inductive Frame where
  | array (items : List Json)
  | object (fields : List (Option String × Json))
  | field (fields : List (Option String × Json)) (name : Option String)
deriving Repr

inductive Place where
  /-- A value. -/
  | value
  /-- A value, or the end of the array. -/
  | firstItem
  /-- A name, or the end of the object. -/
  | firstName
  /-- A name. -/
  | name
  /-- The colon after a name. -/
  | colon
  /-- A comma, or the end of the innermost array or object. -/
  | after
deriving DecidableEq, Repr

inductive Reading where
  | under (frames : List Frame) (place : Place)
  | complete (value : Json)
deriving Repr

/-- Puts a value where one was due. -/
def settle (value : Json) : List Frame → Option Reading
  | [] => some (.complete value)
  | .array items :: frames => some (.under (.array (value :: items) :: frames) .after)
  | .field fields name :: frames => some (.under (.object ((name, value) :: fields) :: frames) .after)
  | .object _ :: _ => none

/-- A token that begins or is a value. -/
def beginValue (frames : List Frame) : Token → Option Reading
  | .openObject => some (.under (.object [] :: frames) .firstName)
  | .openArray => some (.under (.array [] :: frames) .firstItem)
  | .null => settle .null frames
  | .boolean value => settle (.boolean value) frames
  | .number value => settle (.number value) frames
  | .text content => settle (.text content) frames
  | _ => none

def beginName : List Frame → Token → Option Reading
  | .object fields :: frames, .text name => some (.under (.field fields name :: frames) .colon)
  | _, _ => none

/-- The end of the innermost array or object. -/
def close : List Frame → Token → Option Reading
  | .array items :: frames, .closeArray => settle (.array items.reverse) frames
  | .object fields :: frames, .closeObject => settle (.object fields.reverse) frames
  | _, _ => none

def next : List Frame → Option Reading
  | .array items :: frames => some (.under (.array items :: frames) .value)
  | .object fields :: frames => some (.under (.object fields :: frames) .name)
  | _ => none

def Reading.step : Reading → Token → Option Reading
  | .complete _, _ => none
  | .under frames .value, token => beginValue frames token
  | .under frames .firstItem, token =>
      if token = .closeArray then close frames token else beginValue frames token
  | .under frames .firstName, token =>
      if token = .closeObject then close frames token else beginName frames token
  | .under frames .name, token => beginName frames token
  | .under frames .colon, token =>
      if token = .colon then some (.under frames .value) else none
  | .under frames .after, token =>
      if token = .comma then next frames else close frames token

def ofTokens? (tokens : List Token) : Option Json :=
  match tokens.foldlM Reading.step (.under [] .value) with
  | some (.complete value) => some value
  | _ => none

def parse? (text : String) : Option Json :=
  (tokens? text).bind ofTokens?

/-! ## Records

A record is written as an object, or as an array of its fields in the order of their
declaration, from which fields at the end may be missing.  An object may hold further fields,
which are passed over, but none of the record's own twice. -/

def asText? : Json → Option String
  | .text content => content
  | _ => none

def asWhole? (low high : Int) : Json → Option Int
  | .number (.whole value) => if low ≤ value ∧ value ≤ high then some value else none
  | _ => none

def asNatural? (bound : Nat) : Json → Option Nat
  | .number (.whole (.ofNat value)) => if value < bound then some value else none
  | _ => none

def asSigned64? (value : Json) : Option Int :=
  asWhole? (-(Text.signedLimit : Int)) ((Text.signedLimit : Int) - 1) value

def asList? {α : Type} (item? : Json → Option α) : Json → Option (List α)
  | .array items => items.mapM item?
  | _ => none

/-- A value, or nothing for null. -/
def asOption? {α : Type} (value? : Json → Option α) : Json → Option (Option α)
  | .null => some none
  | value => (value? value).map some

/-- A map from names to values of one type, in which the last value of a name counts. -/
def asMap? {α : Type} (value? : Json → Option α) : Json → Option (List (String × α))
  | .object fields => fields.mapM fun (name, value) => do
      let name ← name
      let value ← value? value
      pure (name, value)
  | _ => none

/-- The fields of an object by their names, in the order of `names`.  Every name in the object
must be text, and none of `names` may occur twice. -/
def fieldsByName? (names : List String) (fields : List (Option String × Json)) :
    Option (List (Option Json)) := do
  let named ← fields.mapM fun (name, value) => name.map fun name => (name, value)
  if names.all fun name => (named.filter fun field => field.1 == name).length ≤ 1 then
    some (names.map fun name => named.lookup name)
  else none

/-- The fields of a record, in the order of `names`. -/
def fields? (names : List String) : Json → Option (List (Option Json))
  | .object fields => fieldsByName? names fields
  | .array items =>
      if items.length ≤ names.length then
        some (names.zipIdx.map fun (_, index) => items[index]?)
      else none
  | _ => none

def required? {α : Type} (value? : Json → Option α) (field : Option Json) : Option α :=
  field.bind value?

/-- A field that may be missing. -/
def optional? {α : Type} (default : α) (value? : Json → Option α) : Option Json → Option α
  | none => some default
  | some value => value? value

end Json

end NostrCapsule

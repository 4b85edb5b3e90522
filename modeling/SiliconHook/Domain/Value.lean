import SiliconHook.Library.JsonText

/-!
# Expression values

What flows through a signature expression. Text and bytes are kept distinct, and
objects keep the order of their members.
-/

namespace SiliconHook

open Encoding

/-- A JSON document as `serde_json` holds it: a number by its text, an object
with its members by key. -/
inductive JsonValue
  | null
  | bool (value : Bool)
  | number (text : String)
  | string (value : String)
  | array (values : List JsonValue)
  | object (members : List (String × JsonValue))
  deriving Repr

inductive Value
  | null
  | bool (value : Bool)
  | number (text : String)
  | text (value : String)
  | bytes (value : List UInt8)
  | list (values : List Value)
  | object (members : List (String × Value))
  deriving Repr

inductive ValueError
  | missing
  | notScalar (actual : String)
  | invalidUtf8
  | notList (actual : String)
  | notObject (actual : String)
  deriving DecidableEq, Repr

/-- The order of `str` and of byte slices. -/
def bytesLe (a b : List UInt8) : Bool := decide (a ≤ b)

-- -----------------------------------------------------------------------------
-- JSON
-- -----------------------------------------------------------------------------

namespace JsonValue

mutual

/-- `serde_json::to_string`. -/
def render : JsonValue → String
  | null => "null"
  | bool value => if value then "true" else "false"
  | number text => text
  | string value => Json.quote value
  | array values => "[" ++ ",".intercalate (renderAll values) ++ "]"
  | object members => "\x7b" ++ ",".intercalate (renderMembers members) ++ "\x7d"

def renderAll : List JsonValue → List String
  | [] => []
  | value :: rest => value.render :: renderAll rest

def renderMembers : List (String × JsonValue) → List String
  | [] => []
  | (name, value) :: rest => (Json.quote name ++ ":" ++ value.render) :: renderMembers rest

end

/-- `Map::insert`: members stay in the order of their keys, a later value
replaces an earlier one. -/
def insertMember (name : String) (value : JsonValue) :
    List (String × JsonValue) → List (String × JsonValue)
  | [] => [(name, value)]
  | (other, stored) :: rest =>
    if name = other then (name, value) :: rest
    else if bytesLe (utf8 name) (utf8 other) then (name, value) :: (other, stored) :: rest
    else (other, stored) :: insertMember name value rest

end JsonValue

namespace Value

mutual

def fromJson : JsonValue → Value
  | .null => .null
  | .bool value => .bool value
  | .number numeral => .number numeral
  | .string value => .text value
  | .array values => .list (fromJsonAll values)
  | .object members => .object (fromJsonMembers members)

def fromJsonAll : List JsonValue → List Value
  | [] => []
  | value :: rest => fromJson value :: fromJsonAll rest

def fromJsonMembers : List (String × JsonValue) → List (String × Value)
  | [] => []
  | (name, value) :: rest => (name, fromJson value) :: fromJsonMembers rest

end

mutual

/-- Back into JSON; bytes must be UTF-8. -/
def toJson : Value → Except ValueError JsonValue
  | .null => .ok .null
  | .bool value => .ok (.bool value)
  | .number numeral => .ok (.number numeral)
  | .text value => .ok (.string value)
  | .bytes value =>
    match fromUtf8 value with
    | none => .error .invalidUtf8
    | some decoded => .ok (.string decoded)
  | .list values => .array <$> toJsonAll values
  | .object members => .object <$> toJsonMembers members []

def toJsonAll : List Value → Except ValueError (List JsonValue)
  | [] => .ok []
  | value :: rest => do return (← toJson value) :: (← toJsonAll rest)

def toJsonMembers : List (String × Value) → List (String × JsonValue) →
    Except ValueError (List (String × JsonValue))
  | [], map => .ok map
  | (name, value) :: rest, map => do
    toJsonMembers rest (JsonValue.insertMember name (← toJson value) map)

end

-- -----------------------------------------------------------------------------
-- Coercions
-- -----------------------------------------------------------------------------

def typeName : Value → String
  | .null => "null"
  | .bool _ => "boolean"
  | .number _ => "number"
  | .text _ => "text"
  | .bytes _ => "bytes"
  | .list _ => "list"
  | .object _ => "object"

def isNull : Value → Bool
  | .null => true
  | _ => false

def isBytes : Value → Bool
  | .bytes _ => true
  | _ => false

def intoBytes : Value → Except ValueError (List UInt8)
  | .null => .error .missing
  | .bool value => .ok (utf8 (if value then "true" else "false"))
  | .number numeral => .ok (utf8 numeral)
  | .text value => .ok (utf8 value)
  | .bytes value => .ok value
  | .list values => .error (.notScalar (typeName (.list values)))
  | .object members => .error (.notScalar (typeName (.object members)))

def intoText : Value → Except ValueError String
  | .null => .error .missing
  | .bool value => .ok (if value then "true" else "false")
  | .number numeral => .ok numeral
  | .text value => .ok value
  | .bytes value =>
    match fromUtf8 value with
    | none => .error .invalidUtf8
    | some decoded => .ok decoded
  | .list values => .error (.notScalar (typeName (.list values)))
  | .object members => .error (.notScalar (typeName (.object members)))

def intoList : Value → Except ValueError (List Value)
  | .list values => .ok values
  | other => .error (.notList other.typeName)

def intoObject : Value → Except ValueError (List (String × Value))
  | .object members => .ok members
  | other => .error (.notObject other.typeName)

/-- A member of an object, null where it has none; no member of a scalar. -/
def member (value : Value) (name : String) : Option Value :=
  match value with
  | .object members => some (((members.find? (·.1 = name)).map Prod.snd).getD .null)
  | .null => some .null
  | _ => none

/-- An element of a list, null past its end; no element of a scalar. -/
def element (value : Value) (index : Nat) : Option Value :=
  match value with
  | .list values => some ((values[index]?).getD .null)
  | .null => some .null
  | _ => none

end Value

end SiliconHook

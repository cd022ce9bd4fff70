import StateBench.Json
import StateBench.Text.Quoted

/-!
# Decoding records

A record is given as an object, whose fields are looked at in ascending order of their keys, or as an array of its
fields in the order of their declaration, of which those at the end may be missing. Unknown fields of an object have no
effect. The first fault is reported; a field that is missing comes after all faults of fields that are there.
-/

namespace StateBench

/-- Why a document is no record of a kind. -/
inductive DecodeError where
  | missingField (name : String)
  /-- A value of one type stands where another is expected. -/
  | wrongType (found : Json) (expected : String)
  /-- A value of the right type stands where it is not allowed. -/
  | wrongValue (found : Json) (expected : String)
  | wrongLength (length : Nat) (expected : String)
  | unknownVariant (name : String) (expected : String)
  deriving Repr

/-- How a message speaks of a value. -/
def Json.description : Json → String
  | .null => "null"
  | .bool b => "boolean `" ++ toString b ++ "`"
  | .number (.int n) => "integer `" ++ toString n ++ "`"
  | .number (.float x) => "floating point `" ++ x.text ++ "`"
  | .string s => "string " ++ Text.quoted s
  | .array _ => "sequence"
  | .object _ => "map"

def DecodeError.message : DecodeError → String
  | .missingField name => "missing field `" ++ name ++ "`"
  | .wrongType found expected => "invalid type: " ++ found.description ++ ", expected " ++ expected
  | .wrongValue found expected => "invalid value: " ++ found.description ++ ", expected " ++ expected
  | .wrongLength length expected => "invalid length " ++ toString length ++ ", expected " ++ expected
  | .unknownVariant name expected => "unknown variant `" ++ name ++ "`, expected " ++ expected

namespace Decode

variable {α : Type}

def text (j : Json) : Except DecodeError String :=
  match j with
  | .string s => .ok s
  | _ => .error (.wrongType j "a string")

/-- A count, which a message calls by the name of its type. -/
def count (typeName : String) (j : Json) : Except DecodeError Nat :=
  match j with
  | .number (.int n) => if n < 0 then .error (.wrongValue j typeName) else .ok n.toNat
  | _ => .error (.wrongType j typeName)

def list (decode : Json → Except DecodeError α) (j : Json) : Except DecodeError (List α) :=
  match j with
  | .array items => items.mapM decode
  | _ => .error (.wrongType j "a sequence")

/-- A value for which null stands for none. -/
def nullable (decode : Json → Except DecodeError α) (j : Json) : Except DecodeError (Option α) :=
  match j with
  | .null => .ok none
  | _ => (decode j).map some

/-- A value that may be missing. -/
def optional (decode : Json → Except DecodeError α) : Option Json → Except DecodeError (Option α)
  | none => .ok none
  | some j => (decode j).map some

/-- The value of a field that may not be missing. -/
def required (name : String) : Option α → Except DecodeError α
  | none => .error (.missingField name)
  | some a => .ok a

/-- The name and the number of fields of a kind of records. -/
structure Shape where
  name : String
  size : Nat

/-- The item of a record that may not be missing. -/
def item (shape : Shape) (items : List Json) (index : Nat) : Except DecodeError Json :=
  match items[index]? with
  | some j => .ok j
  | none =>
    .error (.wrongLength index ("struct " ++ shape.name ++ " with " ++ toString shape.size ++ " elements"))

/-- A record, given how it is read from its fields and from its items. -/
def record (shape : Shape) (ofFields : Fields Json → Except DecodeError α) (ofItems : List Json → Except DecodeError α)
    (j : Json) : Except DecodeError α :=
  match j with
  | .object fields => ofFields fields
  | .array items => do
    let value ← ofItems items
    if shape.size < items.length then throw (.wrongLength items.length "fewer elements in array")
    return value
  | _ => .error (.wrongType j ("struct " ++ shape.name))

end Decode

end StateBench

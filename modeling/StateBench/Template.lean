import StateBench.Path.Access

/-!
# Payload templates

In an object of a template, a key that ends in `.$` holds a path: the key without that ending gets the value that the
path leads to. All else is copied, at every depth. Of `k` and `k.$` in one object the second, being later in the order
of keys, decides.
-/

namespace StateBench

namespace Template

/-- The key that a key ending in `.$` fills in. -/
def target? (key : String) : Option String :=
  match key.toList.reverse with
  | '$' :: '.' :: name => some (String.ofList name.reverse)
  | _ => none

def isIntrinsic (text : String) : Bool := "States.".toList.isPrefixOf text.toList

/-- The value for a key that ends in `.$`. -/
def fill (key : String) (value input context : Json) : Except AccessError Json :=
  match value.string? with
  | none => .error (.invalidTemplate key .notPath)
  | some path =>
    if isIntrinsic path then .error (.invalidTemplate key (.intrinsic path))
    else RefPath.select path input context

mutual
/-- The document that a template stands for. -/
def render (input context : Json) : Json → Except AccessError Json
  | .object fields => (renderFields input context fields).map Json.record
  | .array items => (renderItems input context items).map .array
  | value => .ok value

def renderItems (input context : Json) : List Json → Except AccessError (List Json)
  | [] => .ok []
  | item :: items => do
    let item ← render input context item
    let items ← renderItems input context items
    return item :: items

def renderFields (input context : Json) : List (String × Json) → Except AccessError (List (String × Json))
  | [] => .ok []
  | (key, value) :: fields => do
    let entry ← match target? key with
      | some name => (fill key value input context).map (name, ·)
      | none => (render input context value).map (key, ·)
    let entries ← renderFields input context fields
    return entry :: entries
end

end Template

end StateBench

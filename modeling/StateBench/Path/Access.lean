import StateBench.Json
import StateBench.Path

/-!
# Reading and writing documents by path

Reading follows the steps and may find nothing. Writing makes the objects it goes through where there is nothing or
null, and replaces what it finds at the end.

* `Json.follow?`, `Json.writeAt`: along steps that have been read;
* `RefPath.lookup`, `RefPath.select`, `RefPath.write`: along the text of a path, with errors that name it.
-/

namespace StateBench

/-- Why an entry of a template cannot be filled in. -/
inductive TemplateFault where
  | notPath
  | intrinsic (text : String)
  deriving DecidableEq, Repr

def TemplateFault.message : TemplateFault → String
  | .notPath => "value must be a path string"
  | .intrinsic text => "intrinsic functions are not supported: " ++ text

/-- Why data could not be read, written or filled in. -/
inductive AccessError where
  | invalidPath (path : String) (fault : PathFault)
  | notFound (path : String)
  | notObject (path : String)
  | invalidTemplate (key : String) (fault : TemplateFault)
  deriving DecidableEq, Repr

def AccessError.message : AccessError → String
  | .invalidPath path fault => "invalid path '" ++ path ++ "': " ++ fault.message
  | .notFound path => "path '" ++ path ++ "' could not be found in the input"
  | .notObject path => "cannot write to '" ++ path ++ "': an intermediate value is not an object"
  | .invalidTemplate key fault => "template field '" ++ key ++ "': " ++ fault.message

/-- What stops a write on its way. -/
inductive WriteObstacle where
  | index
  | notObject
  deriving DecidableEq, Repr

namespace Json

def step? (j : Json) : PathStep → Option Json
  | .field name => j.field? name
  | .index n => j.item? n

/-- The value that the steps lead to. -/
def follow? (j : Json) : List PathStep → Option Json
  | [] => some j
  | step :: steps => (j.step? step).bind (·.follow? steps)

/-- The document with a value put where the steps lead. -/
def writeAt (value : Json) : List PathStep → Json → Except WriteObstacle Json
  | [], _ => .ok value
  | .index _ :: _, _ => .error .index
  | .field name :: steps, .null => (writeAt value steps .null).map fun v => .object [(name, v)]
  | .field name :: steps, .object fields =>
    (writeAt value steps ((Fields.find? name fields).getD .null)).map fun v => .object (Fields.insert name v fields)
  | .field _ :: _, _ => .error .notObject

end Json

namespace RefPath

/-- Reads a path; a fault names it. -/
def parse (path : String) : Except AccessError RefPath := (read path).mapError (.invalidPath path)

/-- The value that a path leads to in the input or in the context, if there is one. -/
def lookup (path : String) (input context : Json) : Except AccessError (Option Json) := do
  let p ← parse path
  return (if p.inContext then context else input).follow? p.steps

/-- The value that a path leads to; an error if there is none. -/
def select (path : String) (input context : Json) : Except AccessError Json := do
  match ← lookup path input context with
  | some value => return value
  | none => throw (.notFound path)

/-- The document with a value put where a path leads; the path `$` replaces the document. -/
def write (target : Json) (path : String) (value : Json) : Except AccessError Json := do
  let p ← parse path
  if p.inContext then throw (.invalidPath path .writesContext)
  else
    match Json.writeAt value p.steps target with
    | .ok result => return result
    | .error .index => throw (.invalidPath path .writesIndex)
    | .error .notObject => throw (.notObject path)

end RefPath

end StateBench

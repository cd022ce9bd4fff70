/-!
# Rejected requests

A request is rejected before any state is evaluated. A rejection is no result: what goes wrong during an evaluation is a
failure of a state.
-/

namespace StateBench

inductive Rejection where
  /-- The request itself cannot be read. -/
  | malformedRequest (detail : String)
  /-- The definition declares no valid machine. -/
  | malformedDefinition (detail : String)
  /-- No state has the name or the qualified path. -/
  | stateNotFound (name : String)
  /-- More than one state has the name. -/
  | ambiguousName (name : String) (candidates : List String)
  /-- A mock cannot be used with the definition. -/
  | invalidMock (stateName detail : String)
  deriving DecidableEq, Repr

namespace Rejection

/-- The name of the kind of rejection. -/
def kindName : Rejection → String
  | .malformedRequest _ => "MalformedRequest"
  | .malformedDefinition _ => "MalformedDefinition"
  | .stateNotFound _ => "StateNotFound"
  | .ambiguousName .. => "AmbiguousStateName"
  | .invalidMock .. => "InvalidMockConfiguration"

def message : Rejection → String
  | .malformedRequest detail => "malformed request: " ++ detail
  | .malformedDefinition detail => "malformed definition: " ++ detail
  | .stateNotFound name => "state not found: " ++ name
  | .ambiguousName name candidates =>
    "state name '" ++ name ++ "' is ambiguous, candidates: " ++ ", ".intercalate candidates
  | .invalidMock stateName detail => "invalid mock configuration for '" ++ stateName ++ "': " ++ detail

end Rejection

end StateBench

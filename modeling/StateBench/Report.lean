import StateBench.Evaluation
import StateBench.Mock.Applied

/-!
# Reports

A report is what a request comes to. On the wire it is an object in which lists without entries and a missing successor
are left out.
-/

namespace StateBench

inductive Report where
  | success (result : WalkResult) (inspected : String) (applied : AppliedMocks)
  | failure (cause : Failure) (appliedNames : List String)

namespace Report

/-- The report of what came of an evaluation. -/
def ofResult (result : Except Failure WalkResult) (inspected : String) (applied : AppliedMocks) : Report :=
  match result with
  | .ok walk => .success walk inspected applied
  | .error cause => .failure cause applied.names

def isSuccess : Report → Bool
  | .success .. => true
  | .failure .. => false

/-- The states that were visited in the walk, if it came to its end. -/
def steps : Report → List Step
  | .success result _ _ => result.steps
  | .failure .. => []

/-! ## On the wire -/

/-- A list of texts under a key, unless it has no entries. -/
def namesEntry (key : String) (names : List String) : List (String × Json) :=
  if names.isEmpty then [] else [(key, .array (names.map Json.string))]

def partialJson (p : PartialResult) : Json :=
  .record [("container", .string p.container.dotted), ("branch", .string p.unit), ("output", p.output)]

def toJson : Report → Json
  | .success result inspected applied =>
    .record ([("status", .string "SUCCEEDED"), ("output", result.output), ("inspectedStateName", .string inspected)] ++
      (result.next.map fun next => ("nextState", Json.string next)).toList ++
      namesEntry "appliedMockNames" applied.names ++ namesEntry "mapMocksApplied" applied.inMap)
  | .failure cause appliedNames =>
    .record ([("status", .string "FAILED"), ("error", .string cause.error), ("cause", .string cause.cause),
        ("errorCausedByState", .string cause.origin.dotted)] ++
      (if cause.partials.isEmpty then [] else [("partialResults", .array (cause.partials.map partialJson))]) ++
      namesEntry "appliedMockNames" appliedNames)

end Report

/-- A rejection on the wire. -/
def Rejection.toJson (rejection : Rejection) : Json :=
  .record [("status", .string "INVALID_REQUEST"), ("errorType", .string rejection.kindName),
    ("message", .string rejection.message)]

end StateBench

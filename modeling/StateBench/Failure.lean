import StateBench.Machine.Index

/-!
# Failures of states

A failure carries the error, the cause and the path of the state it comes from. Containers on its way out add the
outputs of their units that had come to an end, and change nothing else.
-/

namespace StateBench

/-- The output of one unit of a container that failed. -/
structure PartialResult where
  container : StatePath
  /-- The start of a branch, or the index of an item. -/
  unit : String
  output : Json
  deriving Repr

structure Failure where
  error : String
  cause : String
  origin : StatePath
  /-- Those of the innermost container first. -/
  partials : List PartialResult
  deriving Repr

namespace Failure

/-! ## Errors of the evaluation itself -/

/-- The task could not be run. -/
def taskFailed : String := "States.TaskFailed"

/-- The task did not answer in time. -/
def timeout : String := "States.Timeout"

/-- Data was not as it has to be. -/
def runtime : String := "States.Runtime"

/-- No rule of a choice holds and there is no default. -/
def noChoiceMatched : String := "States.NoChoiceMatched"

/-- A failure that comes from a state. -/
def of (error cause : String) (origin : StatePath) : Failure := ⟨error, cause, origin, []⟩

/-- The failure with the partial results of one more container. -/
def addPartials (failure : Failure) (partials : List PartialResult) : Failure :=
  { failure with partials := failure.partials ++ partials }

end Failure

end StateBench

import StateBench.Machine.Index

/-!
# Tasks and their executors

A task is handed to an executor, which answers after a time. Time is counted in milliseconds of a clock that stands
still while anything can be done without waiting, so an executor is a function: all that it may depend on, down to which
of several visits of a state it is asked by, is in the invocation.
-/

namespace StateBench

/-- One visit of a state. -/
structure Visit where
  path : StatePath
  /-- The number of states visited before in each walk around the visit, and the index of each unit in between, from the
  outside. Together with the path it tells the visits of a run apart. -/
  trail : List Nat
  deriving DecidableEq, Repr

/-- What an executor is asked. -/
structure Invocation where
  visit : Visit
  /-- The time of the call. -/
  time : Nat
  task : TaskSpec
  /-- The effective input of the task. -/
  input : Json
  deriving Repr

/-- Why an executor has no output. -/
inductive TaskError where
  /-- The task ran and failed. -/
  | failed (error cause : String)
  /-- The task could not be run. -/
  | unavailable (resource detail : String)
  deriving DecidableEq, Repr

def TaskError.message : TaskError → String
  | .failed error cause => "task failed: " ++ error ++ ": " ++ cause
  | .unavailable resource detail => "executor unavailable for '" ++ resource ++ "': " ++ detail

/-- An answer and the time until it comes. -/
structure Reply where
  delay : Nat
  answer : Except TaskError Json

abbrev Executor := Invocation → Reply

end StateBench

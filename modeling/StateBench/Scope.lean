import StateBench.Evaluation
import StateBench.FanOut
import StateBench.Task.Outcome

/-!
# Evaluations in time

An evaluation is an activity: it asks an executor for tasks, waits for the answers, and runs the units of containers
side by side. `Scope.evaluator` says what the parts of an evaluation come to as activities.
-/

namespace StateBench

/-- What does not change during an evaluation. -/
structure Scope where
  mocks : MockRegistry
  executor : Option Executor
  settings : Settings
  /-- The input of the request, which every state can refer to. -/
  executionInput : Json

namespace Scope

/-- The course of a task that is asked for at a time and settled after a delay. -/
def taskCourse (invocation : Invocation) (delay : Nat) (events : List Event) (result : Except Failure Json) :
    Course Json :=
  let asked : Turn := { Turn.idle invocation.time with events := [.call invocation] }
  let settled : Turn := { Turn.idle (invocation.time + delay) with events }
  if delay = 0 then .ended (asked.merge settled) result
  else .paused asked settled.time fun () => .ended settled result

/-- Asks the executor and waits for the answer, or until it is too late. -/
def runTask (scope : Scope) (visit : Visit) (task : TaskSpec) (input : Json) : Activity Json :=
  match scope.executor with
  | none => .done (.error (task.withoutExecutor visit.path))
  | some executor => fun now =>
    let invocation : Invocation := ⟨visit, now, task, input⟩
    let reply := executor invocation
    let patience := task.patience scope.settings
    let answer := reply.within patience
    taskCourse invocation (min reply.delay patience) (if answer.isSome then [.answer visit] else [])
      (task.resultOf scope.settings visit.path answer)

def engine (scope : Scope) : Engine Activity where
  done := .done
  look := .look
  runTask := scope.runTask
  fanOut := StateBench.fanOut
  loop := .loop

/-- Evaluations as activities. -/
def evaluator (scope : Scope) : Evaluator Activity :=
  { scope.engine with mocks := scope.mocks, settings := scope.settings, executionInput := scope.executionInput }

/-- Walks a graph from the state with a name. -/
def walkGraph (scope : Scope) (g : Graph) (start : String) (place : Place) (input : Json) : Activity WalkResult :=
  scope.evaluator.walkGraph g start place input

end Scope

end StateBench

import StateBench.Task

/-!
# Stand-in executors

`CannedResults` answers each resource with a fixed result or, if it is told to, with the task's input. `StandIn` adds
times to that, and tasks that say in their own input what becomes of them.
-/

namespace StateBench

/-- Fixed results by resource. -/
structure CannedResults where
  results : Fields (Except TaskError Json)
  /-- Whether other resources give the input back. -/
  echo : Bool

/-- The answer for a task. -/
def CannedResults.answer (canned : CannedResults) (resource : String) (input : Json) : Except TaskError Json :=
  match Fields.find? resource canned.results with
  | some result => result
  | none => if canned.echo then .ok input else .error (.unavailable resource "no static result registered")

structure StandIn where
  canned : CannedResults
  /-- The times of answers in milliseconds; others come at once. -/
  delays : Fields Nat
  /-- Whether tasks with the resource `script` say in their input what becomes of them. -/
  scripted : Bool

namespace StandIn

/-- What becomes of a task with the given input: after `sleep` it is not available, fails, or has an output. -/
def obey (resource : String) (input : Json) : Reply where
  delay := ((input.field? "sleep").bind Json.nat?).getD 0
  answer :=
    match (input.field? "unavailable").bind Json.string?, (input.field? "error").bind Json.string? with
    | some detail, _ => .error (.unavailable resource detail)
    | none, some error => .error (.failed error (((input.field? "cause").bind Json.string?).getD ""))
    | none, none => .ok ((input.field? "output").getD .null)

def executor (standIn : StandIn) : Executor := fun invocation =>
  let resource := invocation.task.resource
  if standIn.scripted ∧ resource = "script" then obey resource invocation.input
  else ⟨(Fields.find? resource standIn.delays).getD 0, standIn.canned.answer resource invocation.input⟩

end StandIn

end StateBench

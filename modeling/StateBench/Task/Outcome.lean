import StateBench.Failure
import StateBench.Settings
import StateBench.Task

/-!
# What comes of tasks

The answer of an executor, or that it did not come in time, is what a task comes to.
-/

namespace StateBench

/-- The failure that an error of the executor stands for. -/
def TaskError.toFailure (path : StatePath) : TaskError → Failure
  | .failed error cause => .of error cause path
  | .unavailable resource detail => .of Failure.taskFailed (TaskError.unavailable resource detail).message path

namespace TaskSpec

/-- The failure of a task for which there is no executor. -/
def withoutExecutor (task : TaskSpec) (path : StatePath) : Failure :=
  .of Failure.taskFailed ("no task executor is configured for resource '" ++ task.resource ++ "'") path

/-- The failure of a task whose answer did not come in time. -/
def tooLate (task : TaskSpec) (settings : Settings) (path : StatePath) : Failure :=
  .of Failure.timeout
    ("task did not complete within " ++ toString (settings.timeoutFor task.timeoutSeconds) ++ "s") path

/-- What a task comes to for the answer that came in time, if one did. -/
def resultOf (task : TaskSpec) (settings : Settings) (path : StatePath) :
    Option (Except TaskError Json) → Except Failure Json
  | some answer => answer.mapError (TaskError.toFailure path)
  | none => .error (task.tooLate settings path)

/-- The milliseconds that are waited for an answer. -/
def patience (task : TaskSpec) (settings : Settings) : Nat :=
  Settings.patience (settings.timeoutFor task.timeoutSeconds)

end TaskSpec

namespace Reply

/-- The answer, unless it takes longer than some milliseconds. One that comes at the end of the time is in time. -/
def within (reply : Reply) (patience : Nat) : Option (Except TaskError Json) :=
  if reply.delay ≤ patience then some reply.answer else none

end Reply

end StateBench

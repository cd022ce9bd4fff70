import StateBench.Json.Decode
import StateBench.Number.Numeral
import StateBench.Text.Blank

/-!
# Settings of an evaluation

Settings come from the standard ones, from a settings document, and from environment variables, each going before the
ones named earlier. A variable that holds no count has no effect.
-/

namespace StateBench

structure Settings where
  /-- The most units of one container at a time; zero is no bound. -/
  maxConcurrency : Nat
  /-- The most states that one walk visits. -/
  maxSteps : Nat
  /-- The time for a task that sets none itself. -/
  taskTimeoutSeconds : Nat
  deriving DecidableEq, Repr

namespace Settings

def standard : Settings := ⟨16, 1000, 60⟩

/-! ## Use -/

/-- The time for a task in seconds; its own setting goes first. -/
def timeoutFor (settings : Settings) (declared : Option Nat) : Nat := declared.getD settings.taskTimeoutSeconds

/-- The milliseconds after which a task is given up that has some seconds. The clock holds 63 bits of seconds; a time
that does not fit stands for thirty years. -/
def patience (seconds : Nat) : Nat := 1000 * if seconds < 9223372036854775808 then seconds else 30 * 365 * 24 * 60 * 60

/-- How many of some units may be evaluated at a time: the smaller of the two bounds that are not zero, but at least one
and at most all of them. -/
def concurrencyFor (settings : Settings) (declared units : Nat) : Nat :=
  let bound :=
    if declared = 0 then (if settings.maxConcurrency = 0 then units else settings.maxConcurrency)
    else if settings.maxConcurrency = 0 then declared
    else min declared settings.maxConcurrency
  min (max bound 1) (max units 1)

/-! ## Sources -/

def shape : Decode.Shape := ⟨"EvalConfig", 3⟩

/-- The settings of a settings document. -/
def decode : Json → Except DecodeError Settings :=
  let ofParts (concurrency steps timeout : Option Json) : Except DecodeError Settings := do
    let concurrency ← Decode.optional (Decode.count "usize") concurrency
    let steps ← Decode.optional (Decode.count "usize") steps
    let timeout ← Decode.optional (Decode.count "u64") timeout
    return ⟨concurrency.getD standard.maxConcurrency, steps.getD standard.maxSteps,
      timeout.getD standard.taskTimeoutSeconds⟩
  Decode.record shape
    (fun fields => ofParts (Fields.find? "max_concurrency" fields) (Fields.find? "max_steps" fields)
      (Fields.find? "task_timeout_secs" fields))
    (fun items => ofParts items[0]? items[1]? items[2]?)

/-- The count that a variable holds; none if there is no such variable or it holds none. -/
def variableCount? (environment : String → Option String) (name : String) : Option Nat :=
  (environment name).bind fun value => Numeral.read? (Text.trim value.toList)

/-- The settings with those of environment variables put before them. -/
def withEnvironment (settings : Settings) (environment : String → Option String) : Settings where
  maxConcurrency := (variableCount? environment "STATECHECK_MAX_CONCURRENCY").getD settings.maxConcurrency
  maxSteps := (variableCount? environment "STATECHECK_MAX_STEPS").getD settings.maxSteps
  taskTimeoutSeconds := (variableCount? environment "STATECHECK_TASK_TIMEOUT_SECS").getD settings.taskTimeoutSeconds

end Settings

end StateBench

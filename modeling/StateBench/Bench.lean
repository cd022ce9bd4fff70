import StateBench.Machine.Loader
import StateBench.Report
import StateBench.Request
import StateBench.Scope

/-!
# The bench

A bench has an executor, or none, and settings, and evaluates requests, each for itself. A request is rejected if its
definition declares no machine, its state cannot be found, or its mocks are not accepted, in this order. Otherwise its
state is evaluated, alone or as the start of a walk through its graph, and the report says what came of it.
-/

namespace StateBench

structure Bench where
  executor : Option Executor
  settings : Settings

/-- What came of a request that was not rejected. -/
structure Evaluation where
  run : Run WalkResult
  report : Report

namespace MockRegistry

/-- The uses of mocks among the states that looked for theirs. -/
def uses (registry : MockRegistry) (lookups : List MockLookup) : List MockUse :=
  lookups.filterMap fun lookup => (registry.find? lookup.path).map fun (name, _) => ⟨name, lookup.inMap⟩

end MockRegistry

namespace Bench

/-- Without executor and with the standard settings. -/
def standard : Bench := ⟨none, .standard⟩

/-- A request that is accepted. -/
structure Job where
  target : Target
  mocks : MockRegistry
  mode : Mode
  input : Json

/-- The job that a request asks for, given the machine of its definition. -/
def jobFor (machine : Machine) (request : Request) : Except Rejection Job := do
  let target ← machine.resolve request.stateName
  let mocks ← MockRegistry.register machine (← request.bindings)
  return ⟨target, mocks, request.mode, request.input⟩

/-- The job that a request asks for. -/
def prepare (request : Request) : Except Rejection Job := do
  let machine ← (Machine.load request.definition).mapError fun e => .malformedDefinition e.message
  jobFor machine request

end Bench

/-- What a job comes to. -/
def Evaluator.perform {m : Type → Type} [Monad m] (ev : Evaluator m) (job : Bench.Job) : m WalkResult :=
  match job.mode with
  | .state => ev.runSingle job.target.ancestors job.target.state job.input
  | .subgraph => ev.walkGraph job.target.graph job.target.state.name ⟨job.target.ancestors, [], false⟩ job.input

namespace Bench

def scope (bench : Bench) (job : Job) : Scope := ⟨job.mocks, bench.executor, bench.settings, job.input⟩

/-- What a job comes to. -/
def perform (bench : Bench) (job : Job) : Activity WalkResult := (bench.scope job).evaluator.perform job

/-- Evaluates a request from a time on. -/
def evaluateAt (bench : Bench) (now : Nat) (request : Request) : Except Rejection Evaluation := do
  let job ← prepare request
  let run := (bench.perform job).run now
  return ⟨run, .ofResult run.result request.stateName (.ofUses (job.mocks.uses run.lookups))⟩

/-- The report on a request. -/
def evaluate (bench : Bench) (request : Request) : Except Rejection Report :=
  (bench.evaluateAt 0 request).map (·.report)

theorem evaluate_eq (bench : Bench) (request : Request) :
    bench.evaluate request = (prepare request).map fun job =>
      .ofResult ((bench.perform job).run 0).result request.stateName
        (.ofUses (job.mocks.uses ((bench.perform job).run 0).lookups)) := by
  unfold evaluate evaluateAt
  cases prepare request <;> rfl

/-- The answer on the wire to a request that is sent at a time, and the run if the request was not rejected. -/
def respondAt (bench : Bench) (now : Nat) (j : Json) : Json × Option (Run WalkResult) :=
  match Request.ofWire j >>= bench.evaluateAt now with
  | .ok evaluation => (evaluation.report.toJson, some evaluation.run)
  | .error rejection => (rejection.toJson, none)

/-- The answer on the wire to a request on the wire. -/
def respond (bench : Bench) (j : Json) : Json := (bench.respondAt 0 j).1

end Bench

end StateBench

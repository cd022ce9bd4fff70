import StateBench.Bench
import StateBench.Task.Outcome

/-!
# Evaluating one unit after the other

If the units of a container are run one after the other, in their order and up to the first that fails, nothing is under
way beside anything else. Then neither times nor bounds play a part: of an evaluation there is what it comes to and the
lookups on the way (`Tally`), and of an executor the answers that it gives to tasks (`Answers`).

* `Tally.inTurn` runs the units of a container;
* `Tally.evaluate` reports on a request as `Bench.evaluate` does.
-/

namespace StateBench

/-- The answer that comes in time to a task with an input, or none if it takes too long. -/
abbrev Answers := TaskSpec → Json → Option (Except TaskError Json)

/-- What an evaluation comes to, and the lookups on the way in their order. -/
structure Tally (α : Type) where
  result : Except Failure α
  lookups : List MockLookup

namespace Tally

variable {α β : Type}

/-- Ends at once. -/
def done (result : Except Failure α) : Tally α := ⟨result, []⟩

/-- One evaluation after another, which does not start if the first fails. -/
def andThen (first : Tally α) (second : α → Tally β) : Tally β :=
  match first.result with
  | .error failure => ⟨.error failure, first.lookups⟩
  | .ok value => ⟨(second value).result, first.lookups ++ (second value).lookups⟩

instance : Monad Tally where
  pure value := done (.ok value)
  bind := andThen

theorem bind_error {first : Tally α} {failure : Failure} (h : first.result = .error failure) (second : α → Tally β) :
    first >>= second = ⟨.error failure, first.lookups⟩ := by
  show first.andThen second = _
  simp only [andThen, h]

theorem bind_ok {first : Tally α} {value : α} (h : first.result = .ok value) (second : α → Tally β) :
    first >>= second = ⟨(second value).result, first.lookups ++ (second value).lookups⟩ := by
  show first.andThen second = _
  simp only [andThen, h]

/-- Takes a step, at most so often, from one state to the next until there is a value. -/
def loop {σ : Type} (step : σ → Tally (σ ⊕ α)) (exhausted : σ → Failure) : Nat → σ → Tally α
  | 0, state => done (.error (exhausted state))
  | left + 1, state => do
    match ← step state with
    | .inl state => loop step exhausted left state
    | .inr value => return value

/-- Runs units one after the other, the results of those before them being given. The first that fails ends it. -/
def inTurn (container : StatePath) (past : List PartialResult) : List (FanUnit Tally) → Tally (List Json)
  | [] => return past.map (·.output)
  | unit :: units =>
    match unit.job.result with
    | .error failure => ⟨.error (failure.addPartials past), unit.job.lookups⟩
    | .ok output =>
      let rest := inTurn container (past ++ [⟨container, unit.name, output⟩]) units
      ⟨rest.result, unit.job.lookups ++ rest.lookups⟩

/-- What a task comes to. -/
def runTask (answers : Option Answers) (settings : Settings) (visit : Visit) (task : TaskSpec) (input : Json) :
    Except Failure Json :=
  match answers with
  | none => .error (task.withoutExecutor visit.path)
  | some answer => task.resultOf settings visit.path (answer task input)

def engine (answers : Option Answers) (settings : Settings) : Engine Tally where
  done := done
  look lookup := ⟨.ok (), [lookup]⟩
  runTask visit task input := done (runTask answers settings visit task input)
  fanOut container _ units := inTurn container [] units
  loop := loop

/-- Evaluations with one unit after the other. -/
def evaluator (answers : Option Answers) (settings : Settings) (job : Bench.Job) : Evaluator Tally :=
  { engine answers settings with mocks := job.mocks, settings, executionInput := job.input }

/-- The report on a job. -/
def report (answers : Option Answers) (settings : Settings) (job : Bench.Job) (inspected : String) : Report :=
  let tally := (evaluator answers settings job).perform job
  .ofResult tally.result inspected (.ofUses (job.mocks.uses tally.lookups))

/-- The report on a request. -/
def evaluate (answers : Option Answers) (settings : Settings) (request : Request) : Except Rejection Report :=
  (Bench.prepare request).map fun job => report answers settings job request.stateName

end Tally

end StateBench

import StateBench.Failure
import StateBench.Task

/-!
# Engines

An evaluation is put together from a few parts: it ends with a result, states look for their mocks, tasks are asked for,
the units of containers are run, and walks go from step to step. An engine says what these parts come to. Evaluations
are written down once for all engines.
-/

namespace StateBench

/-- A state that looked for its mock. -/
structure MockLookup where
  path : StatePath
  /-- Whether it was visited in a unit of a Map. -/
  inMap : Bool
  deriving DecidableEq, Repr

/-- One branch of a Parallel or one item of a Map. -/
structure FanUnit (m : Type → Type) where
  /-- The start of the branch, or the index of the item. -/
  name : String
  job : m Json

/-- What the parts of evaluations come to. -/
structure Engine (m : Type → Type) where
  /-- Ends at once with a result. -/
  done : {α : Type} → Except Failure α → m α
  /-- Looks for the mock of a state. -/
  look : MockLookup → m Unit
  runTask : Visit → TaskSpec → Json → m Json
  /-- Runs the units of the container at a path, at most so many at a time. -/
  fanOut : StatePath → Nat → List (FanUnit m) → m (List Json)
  /-- Takes a step, at most so often, from one state to the next until there is a value. -/
  loop : {σ α : Type} → (σ → m (σ ⊕ α)) → (σ → Failure) → Nat → σ → m α

end StateBench

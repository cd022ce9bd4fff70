import StateBench.FanOut.Progress

/-!
# Running units side by side

A container starts its units in their order, at most so many at a time, and takes their ends as they come. A unit that
ends well makes room for the next one. The first failure ends everything: what is still under way is abandoned, and what
was not admitted never starts.

* `Pool.drain` goes from round to round until all units have ended or one fails;
* `fanOut` gives the outputs in the order of the units, whatever the order of the ends was.
-/

namespace StateBench

/-! ## Draining -/

/-- How the units of a container come to an end. The landings are those of the units that succeeded, the latest first.
-/
inductive Outcome (α : Type) where
  | completed (landings : List (Landing α))
  /-- A unit has failed. -/
  | stopped (landings : List (Landing α)) (failed : Landing α) (failure : Failure)

/-- The units that succeeded. -/
def Outcome.taken {α : Type} : Outcome α → List (Landing α)
  | .completed landings => landings
  | .stopped landings _ _ => landings

/-- The units that ended. -/
def Outcome.ended {α : Type} : Outcome α → List (Landing α)
  | .completed landings => landings
  | .stopped landings failed _ => failed :: landings

/-- Goes from round to round until all units have ended or one fails. What the container has done before in its turn is
given. A unit that a round admits leaves fewer units in the backlog, and any other round leaves fewer turns. -/
def Pool.drain {α : Type} (pool : Pool α) (turn : Turn) (landings : List (Landing α)) : Course (Outcome α) :=
  match _h : pool.round turn with
  | .landed turn landing next =>
    match landing.result with
    | .error failure => .ended turn (.ok (.stopped landings landing failure))
    | .ok _ => (next.launchNext turn.time).drain turn (landing :: landings)
  | .tired turn next => .paused turn turn.time fun () => next.drain (.idle turn.time) landings
  | .quiet turn next =>
    match _ht : next.firstTime? with
    | none => .ended turn (.ok (.completed landings))
    | some time => .waiting turn time fun () => (next.wakeAt time).drain (.idle time) landings
termination_by (pool.backlog.length, pool.roundsAhead)
decreasing_by
  · exact landed_lt _h _
  · exact tired_lt _h
  · exact quiet_lt _h _ht

/-! ## Containers -/

/-- The outputs of some units as partial results of their container. -/
def partialResults (container : StatePath) (names : List String) (landings : List (Landing Json)) :
    List PartialResult :=
  (Landing.inOrder landings).filterMap fun landing => do
    return ⟨container, ← names[landing.index]?, ← landing.output?⟩

namespace Outcome

/-- The lookups of the units that ended, in the order of the units. -/
def lookups {α : Type} (outcome : Outcome α) : List MockLookup :=
  (Landing.inOrder outcome.ended).flatMap (·.lookups)

/-- What a container comes to for the way in which its units came to an end. -/
def result (container : StatePath) (names : List String) : Outcome Json → Except Failure (List Json)
  | .completed landings => .ok ((Landing.inOrder landings).filterMap Landing.output?)
  | .stopped landings _ failure => .error (failure.addPartials (partialResults container names landings))

end Outcome

/-- Runs jobs, at most so many at a time, until all have ended or one fails. -/
def runJobs {α : Type} (limit : Nat) (jobs : List (Activity α)) : Activity (Outcome α) := fun now =>
  (Pool.start limit jobs now).drain (.idle now) []

/-- Runs the units of a container, at most so many at a time. -/
def fanOut (container : StatePath) (limit : Nat) (units : List (FanUnit Activity)) : Activity (List Json) := do
  let outcome ← runJobs limit (units.map (·.job))
  Activity.note outcome.lookups
  .done (outcome.result container (units.map (·.name)))

end StateBench

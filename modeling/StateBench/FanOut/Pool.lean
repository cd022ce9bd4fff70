import StateBench.Activity

/-!
# Pools of units

The units of a container are jobs of which a bounded number is under way. A unit that is under way waits for a time or
stands in the queue for its next turn, behind those that asked before it. Of the units that wait for one time, the one
that has waited longest comes first.

A container has turns itself and spends them on rounds (`Pool.round`). A round ends

* with the end of a unit;
* when no unit is in the queue;
* when as many turns were given as there are units under way, or when the second unit has asked for another turn: the
  container then asks for another turn itself, so that it does not keep those around it from theirs.

The lookups of a unit stay with it until the end of the container: those of a unit that is abandoned do not count.
-/

namespace StateBench

/-! ## Units under way and landed -/

/-- A unit that is under way. -/
structure Flight (α : Type) where
  index : Nat
  /-- Its lookups in the turns that it has had, the latest first. -/
  lookups : List MockLookup
  /-- The time of its next turn. -/
  time : Nat
  /-- Its course from the next turn on. -/
  rest : Unit → Course α

/-- A unit that has ended. -/
structure Landing (α : Type) where
  index : Nat
  lookups : List MockLookup
  result : Except Failure α

/-- The number of turns that a unit has not had yet. -/
def Flight.turnsAhead {α : Type} (flight : Flight α) : Nat := (flight.rest ()).length

namespace Landing

variable {α : Type}

/-- The output of a unit that succeeded. -/
def output? (landing : Landing α) : Option α := landing.result.toOption

/-- Landings in the order of their units. -/
def inOrder (landings : List (Landing α)) : List (Landing α) := landings.mergeSort (·.index ≤ ·.index)

end Landing

structure Pool (α : Type) where
  /-- The units that have asked for a turn, in the order of their asking. -/
  queue : List (Flight α)
  /-- The units that wait for a time, the first to be woken first. -/
  waiting : List (Flight α)
  /-- The units that are not admitted yet, in their order. -/
  backlog : List (Nat × Activity α)

/-- How a round of turns comes to its end; the turn tells what was done in it. -/
inductive Round (α : Type) where
  /-- A unit has ended. -/
  | landed (turn : Turn) (landing : Landing α) (pool : Pool α)
  /-- The turn is given up to others. -/
  | tired (turn : Turn) (pool : Pool α)
  /-- No unit has asked for a turn. -/
  | quiet (turn : Turn) (pool : Pool α)

/-- The turn of a container with what a unit did in it. The lookups of the unit are left to its landing. -/
def Turn.withUnit (turn own : Turn) : Turn :=
  { turn with events := own.events ++ turn.events, asksAgain := turn.asksAgain || own.asksAgain }

namespace Pool

variable {α : Type}

/-- A unit that starts at a time. -/
def launch (now : Nat) (unit : Nat × Activity α) : Flight α := ⟨unit.1, [], now, fun () => unit.2 now⟩

/-- A pool with the first units admitted, at least one. -/
def start (limit : Nat) (jobs : List (Activity α)) (now : Nat) : Pool α :=
  let units := jobs.zipIdx.map fun (job, index) => (index, job)
  ⟨(units.take (max limit 1)).map (launch now), [], units.drop (max limit 1)⟩

/-- The number of units under way. -/
def size (pool : Pool α) : Nat := pool.queue.length + pool.waiting.length

/-- Starts the next unit. -/
def launchNext (pool : Pool α) (now : Nat) : Pool α :=
  match pool.backlog with
  | [] => pool
  | unit :: backlog => { pool with queue := pool.queue ++ [launch now unit], backlog }

/-- Puts a unit among those that wait, behind those whose time is not later. -/
def addWaiting (flight : Flight α) : List (Flight α) → List (Flight α)
  | [] => [flight]
  | first :: flights =>
    if first.time ≤ flight.time then first :: addWaiting flight flights else flight :: first :: flights

/-- Puts a unit after one of its turns where it belongs: at the end of the queue or among those that wait. -/
def putBack (pool : Pool α) (asksAgain : Bool) (flight : Flight α) : Pool α :=
  if asksAgain then { pool with queue := pool.queue ++ [flight] }
  else { pool with waiting := addWaiting flight pool.waiting }

/-! ## Rounds -/

/-- Gives at most so many turns and bears with at most so many units that ask for another one. What the container has
done before in its own turn is given. -/
def giveTurns : (turns patience : Nat) → Turn → Pool α → Round α
  | 0, _, turn, pool => .tired { turn with asksAgain := true } pool
  | _, 0, turn, pool => .tired { turn with asksAgain := true } pool
  | turns + 1, patience + 1, turn, pool =>
    match pool.queue with
    | [] => .quiet turn pool
    | flight :: queue =>
      match flight.rest () with
      | .ended own result =>
        .landed (turn.withUnit own) ⟨flight.index, (own.lookups ++ flight.lookups).reverse, result⟩ { pool with queue }
      | .paused own time rest =>
        let ahead : Flight α := ⟨flight.index, own.lookups ++ flight.lookups, time, rest⟩
        giveTurns turns (if own.asksAgain then patience else patience + 1) (turn.withUnit own)
          ({ pool with queue }.putBack own.asksAgain ahead)

/-- One round. It lasts for as many turns as there are units under way, and for two units that ask again. -/
def round (pool : Pool α) (turn : Turn) : Round α :=
  if pool.queue.isEmpty then .quiet turn pool else giveTurns pool.size 2 turn pool

/-! ## Waiting -/

/-- The first time that a unit waits for. -/
def firstTime? (pool : Pool α) : Option Nat := pool.waiting.head?.map (·.time)

/-- The pool at the first time that is waited for: the units that wait for it ask for their turns. -/
def wakeAt (pool : Pool α) (time : Nat) : Pool α :=
  { pool with
    queue := pool.queue ++ pool.waiting.takeWhile (·.time = time)
    waiting := pool.waiting.dropWhile (·.time = time) }

end Pool

end StateBench

import StateBench.Proofs.FanOut.Gathering

/-!
# What happens in a container

The history of a container tells what happens in it, act by act: units start, the container waits for the next of them
to end, units have turns, and their ends are taken (`Act`). `Pool.history` goes along with `Pool.drain`. What is seen of
a container is what its units do in the turns of its history (`events_runJobs`).
-/

namespace StateBench

variable {α : Type}

/-- The turns of a course, in their order. -/
def Course.turns : Course α → List Turn
  | .ended turn _ => [turn]
  | .paused turn _ rest => turn :: (rest ()).turns

/-- What happens in a container. -/
inductive Act (α : Type) where
  | starts (index : Nat)
  /-- The container waits for the next unit to end. Those under way are given. -/
  | waits (underWay : List Nat)
  /-- A unit has a turn. -/
  | turn (index : Nat) (own : Turn)
  /-- The end of a unit is taken. -/
  | lands (index : Nat) (result : Except Failure α)

namespace Act

@[simp]
def start? : Act α → Option Nat
  | .starts index => some index
  | _ => none

@[simp]
def turn? : Act α → Option Nat
  | .turn index _ => some index
  | _ => none

@[simp]
def land? : Act α → Option Nat
  | .lands index _ => some index
  | _ => none

/-- What the unit at an index does in an act, if it has a turn. -/
@[simp]
def turnOf? (index : Nat) : Act α → Option Turn
  | .turn other own => if other = index then some own else none
  | _ => none

/-- The failure that is taken. -/
@[simp]
def failure? : Act α → Option Failure
  | .lands _ (.error failure) => some failure
  | _ => none

/-- What is seen of an act, in its order. -/
@[simp]
def events : Act α → List Event
  | .turn _ own => own.events.reverse
  | _ => []

end Act

/-- Acts in the order in which they happen. -/
abbrev History (α : Type) := List (Act α)

namespace History

/-- The units that have started, in the order of their starts. -/
def started (acts : History α) : List Nat := acts.filterMap Act.start?

/-- The units that have had turns, in the order of the turns. -/
def turned (acts : History α) : List Nat := acts.filterMap Act.turn?

/-- The units whose ends were taken, in the order in which they were. -/
def landed (acts : History α) : List Nat := acts.filterMap Act.land?

/-- What the unit at an index did in its turns. -/
def turnsOf (index : Nat) (acts : History α) : List Turn := acts.filterMap (Act.turnOf? index)

/-- The failures that were taken. -/
def failures (acts : History α) : List Failure := acts.filterMap Act.failure?

/-- Some units start one after the other. -/
def startsOf (indices : List Nat) : History α := indices.map .starts

/-- What is seen of some acts. -/
def events (acts : History α) : List Event := acts.flatMap Act.events

section Simp

variable (act : Act α) (past acts : History α)

@[simp]
theorem started_nil : started ([] : History α) = [] := rfl

@[simp]
theorem started_cons : started (act :: acts) = act.start?.toList ++ started acts := by
  cases act <;> rfl

@[simp]
theorem started_append : started (past ++ acts) = started past ++ started acts := List.filterMap_append

@[simp]
theorem turned_nil : turned ([] : History α) = [] := rfl

@[simp]
theorem turned_cons : turned (act :: acts) = act.turn?.toList ++ turned acts := by
  cases act <;> rfl

@[simp]
theorem turned_append : turned (past ++ acts) = turned past ++ turned acts := List.filterMap_append

@[simp]
theorem landed_nil : landed ([] : History α) = [] := rfl

@[simp]
theorem landed_cons : landed (act :: acts) = act.land?.toList ++ landed acts := by
  cases act <;> rfl

@[simp]
theorem landed_append : landed (past ++ acts) = landed past ++ landed acts := List.filterMap_append

@[simp]
theorem turnsOf_nil (index : Nat) : turnsOf index ([] : History α) = [] := rfl

@[simp]
theorem turnsOf_cons (index : Nat) :
    turnsOf index (act :: acts) = (act.turnOf? index).toList ++ turnsOf index acts := by
  rw [turnsOf, List.filterMap_cons]
  cases act.turnOf? index <;> rfl

@[simp]
theorem turnsOf_append (index : Nat) : turnsOf index (past ++ acts) = turnsOf index past ++ turnsOf index acts :=
  List.filterMap_append

@[simp]
theorem failures_nil : failures ([] : History α) = [] := rfl

@[simp]
theorem failures_cons : failures (act :: acts) = act.failure?.toList ++ failures acts := by
  rw [failures, List.filterMap_cons]
  cases act.failure? <;> rfl

@[simp]
theorem failures_append : failures (past ++ acts) = failures past ++ failures acts := List.filterMap_append

@[simp]
theorem events_nil : events ([] : History α) = [] := rfl

@[simp]
theorem events_cons : events (act :: acts) = act.events ++ events acts := List.flatMap_cons

@[simp]
theorem events_append : events (past ++ acts) = events past ++ events acts := List.flatMap_append

end Simp

section Starts

variable (indices : List Nat)

@[simp]
theorem started_startsOf : (startsOf indices : History α).started = indices := by
  induction indices with
  | nil => rfl
  | cons index indices ih => simpa [startsOf] using ih

@[simp]
theorem turned_startsOf : (startsOf indices : History α).turned = [] := by
  simp [turned, startsOf, List.filterMap_map]

@[simp]
theorem landed_startsOf : (startsOf indices : History α).landed = [] := by
  simp [landed, startsOf, List.filterMap_map]

@[simp]
theorem turnsOf_startsOf (index : Nat) : turnsOf index (startsOf indices : History α) = [] := by
  simp [turnsOf, startsOf, List.filterMap_map]

@[simp]
theorem failures_startsOf : (startsOf indices : History α).failures = [] := by
  simp [failures, startsOf, List.filterMap_map]

@[simp]
theorem events_startsOf : (startsOf indices : History α).events = [] := by
  simp [events, startsOf]

end Starts

end History

namespace Pool

/-! ## Histories -/

/-- The start of the next unit, if there is one. -/
def nextStarts (pool : Pool α) : History α := .startsOf ((pool.backlog.take 1).map (·.1))

/-- The acts of at most so many turns. -/
def turnActs : (turns patience : Nat) → Pool α → History α
  | 0, _, _ => []
  | _, 0, _ => []
  | turns + 1, patience + 1, pool =>
    match pool.queue with
    | [] => []
    | flight :: queue =>
      match flight.rest () with
      | .ended own result => [.turn flight.index own, .lands flight.index result]
      | .paused own time rest =>
        let ahead : Flight α := ⟨flight.index, own.lookups ++ flight.lookups, time, rest⟩
        .turn flight.index own :: turnActs turns (if own.asksAgain then patience else patience + 1)
          ({ pool with queue }.putBack own.asksAgain ahead)

/-- The acts of a round, before which the container waits. -/
def roundActs (pool : Pool α) : History α :=
  .waits (pool.flights.map (·.index)) :: if pool.queue.isEmpty then [] else turnActs pool.size 2 pool

/-- The acts from one round to the next, until all units have ended or one fails. -/
def history (pool : Pool α) (turn : Turn) : History α :=
  pool.roundActs ++
    match _h : pool.round turn with
    | .landed last landing next =>
      match landing.result with
      | .error _ => []
      | .ok _ => next.nextStarts ++ (next.launchNext last.time).history last
    | .tired last next => next.history (.idle last.time)
    | .quiet _ next =>
      match _ht : next.firstTime? with
      | none => []
      | some time => (next.wakeAt time).history (.idle time)
termination_by (pool.backlog.length, pool.roundsAhead)
decreasing_by
  · exact landed_lt _h _
  · exact tired_lt _h
  · exact quiet_lt _h _ht

end Pool

/-- What happens in a container with some jobs. -/
def History.ofJobs (limit : Nat) (jobs : List (Activity α)) (now : Nat) : History α :=
  .startsOf ((Pool.start limit jobs now).queue.map (·.index)) ++ (Pool.start limit jobs now).history (.idle now)

namespace Pool

section History

variable {pool next : Pool α} {turn last : Turn} {landing : Landing α}

theorem history_of_failed {failure : Failure} (h : pool.round turn = .landed last landing next)
    (hf : landing.result = .error failure) : pool.history turn = pool.roundActs := by
  rw [history]
  split <;> rename_i h' <;> rw [h] at h' <;> cases h'
  simp only [hf, List.append_nil]

theorem history_of_landed {value : α} (h : pool.round turn = .landed last landing next)
    (hv : landing.result = .ok value) :
    pool.history turn = pool.roundActs ++ (next.nextStarts ++ (next.launchNext last.time).history last) := by
  rw [history]
  split <;> rename_i h' <;> rw [h] at h' <;> cases h'
  simp only [hv]

theorem history_of_tired (h : pool.round turn = .tired last next) :
    pool.history turn = pool.roundActs ++ next.history (.idle last.time) := by
  rw [history]
  split <;> rename_i h' <;> rw [h] at h' <;> cases h'
  rfl

theorem history_of_quiet (h : pool.round turn = .quiet last next) (hn : next.firstTime? = none) :
    pool.history turn = pool.roundActs := by
  rw [history]
  split <;> rename_i h' <;> rw [h] at h' <;> cases h'
  split
  · rw [List.append_nil]
  · next ht => rw [hn] at ht; cases ht

theorem history_of_woken {time : Nat} (h : pool.round turn = .quiet last next) (ht : next.firstTime? = some time) :
    pool.history turn = pool.roundActs ++ (next.wakeAt time).history (.idle time) := by
  rw [history]
  split <;> rename_i h' <;> rw [h] at h' <;> cases h'
  split
  · next hn => rw [ht] at hn; cases hn
  · next hn =>
    rw [ht] at hn
    cases hn
    rfl

end History

/-! ## What is seen -/

theorem events_giveTurns (turns patience : Nat) (turn : Turn) (pool : Pool α) :
    (giveTurns turns patience turn pool).turn.events.reverse =
      turn.events.reverse ++ (turnActs turns patience pool).events := by
  fun_induction giveTurns turns patience turn pool with
  | case1 patience turn pool => simp [Round.turn, turnActs]
  | case2 turns turn pool => cases turns <;> simp [Round.turn, turnActs]
  | case3 turns patience turn pool hq => simp [Round.turn, turnActs, hq]
  | case4 turns patience turn pool flight queue hq own result hr =>
    simp [Round.turn, turnActs, Turn.withUnit, hq, hr]
  | case5 turns patience turn pool flight queue hq own time rest hr ahead ih =>
    rw [ih]
    simp [turnActs, Turn.withUnit, hq, hr, ahead]

/-- What is seen in a round is what the units do in its turns. -/
theorem events_round {pool : Pool α} {turn : Turn} {round : Round α} (h : pool.round turn = round) :
    round.turn.events.reverse = turn.events.reverse ++ pool.roundActs.events := by
  rw [← h, Pool.round, roundActs]
  split
  · simp [Round.turn]
  · exact events_giveTurns ..

/-- What is seen of a container is what its units do in the turns of its history. -/
theorem events_drain (pool : Pool α) (turn : Turn) (landings : List (Landing α)) :
    (pool.drain turn landings).toRun.events = turn.events.reverse ++ (pool.history turn).events := by
  fun_induction Pool.drain pool turn landings with
  | case1 pool turn landings last landing next h failure hf =>
    rw [history_of_failed h hf]
    exact events_round h
  | case2 pool turn landings last landing next h value hv ih =>
    rw [ih, history_of_landed h hv, History.events_append, History.events_append, nextStarts, History.events_startsOf,
      List.nil_append, ← List.append_assoc, ← events_round h]
    rfl
  | case3 pool turn landings last next h ih =>
    rw [history_of_tired h, History.events_append, ← List.append_assoc, ← events_round h]
    exact congrArg (last.events.reverse ++ ·) ih
  | case4 pool turn landings last next h ht =>
    rw [history_of_quiet h ht]
    exact events_round h
  | case5 pool turn landings last next h time ht ih =>
    rw [Course.toRun_waiting, history_of_woken h ht, History.events_append, ← List.append_assoc, ← events_round h]
    exact congrArg (last.events.reverse ++ ·) ih

end Pool

theorem events_runJobs (limit : Nat) (jobs : List (Activity α)) (now : Nat) :
    ((runJobs limit jobs).run now).events = (History.ofJobs limit jobs now).events := by
  rw [History.ofJobs, History.events_append, History.events_startsOf]
  exact Pool.events_drain ..

end StateBench

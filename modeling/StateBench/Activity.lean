import StateBench.Engine

/-!
# Activities

An activity is started at a time and goes to its end in turns. In a turn it does all that can be done without waiting;
between its turns others have theirs. It leaves a turn before its end either to wait for a later time or to ask for
another turn at the same time, and the clock goes on when nobody has asked.

A `Course` is an activity under way. It is made turn by turn: what comes after a pause is made when the pause is over,
so a course that is abandoned is made no further, however long the rest would be. A `Run` tells what has come of a
course at its end.

Activities are put together with `do`: the second starts in the turn in which the first ends, and not at all if the
first fails. What an activity does depends on the time of its start and not on what was done before in the same turn.

* `Course.startingIn` puts what was done before in a turn in front of a course that starts in it
  (`startingIn_startingIn`);
* `Activity.andThen` is one activity after another, and `Activity.loop` one activity again and again (`loop_succ`);
* `Activity.run` is an activity from its start to its end.
-/

namespace StateBench

/-! ## Turns -/

/-- What is seen of an evaluation. -/
inductive Event where
  | call (invocation : Invocation)
  /-- The answer for a visit has come in time. -/
  | answer (visit : Visit)
  | lookup (lookup : MockLookup)
  deriving Repr

namespace Event

def call? : Event → Option Invocation
  | .call invocation => some invocation
  | _ => none

def answer? : Event → Option Visit
  | .answer visit => some visit
  | _ => none

def lookup? : Event → Option MockLookup
  | .lookup sought => some sought
  | _ => none

end Event

/-- What is done in a turn. -/
structure Turn where
  time : Nat
  /-- What is seen, the latest first. -/
  events : List Event
  /-- The lookups that are put on the record, the latest first. -/
  lookups : List MockLookup
  /-- Whether another turn at the same time was asked for. -/
  asksAgain : Bool
  deriving Repr

namespace Turn

/-- A turn in which nothing is done. -/
def idle (time : Nat) : Turn := ⟨time, [], [], false⟩

/-- What is done in two parts of one turn. -/
def merge (first second : Turn) : Turn :=
  ⟨second.time, second.events ++ first.events, second.lookups ++ first.lookups, first.asksAgain || second.asksAgain⟩

theorem merge_assoc (first second third : Turn) :
    (first.merge second).merge third = first.merge (second.merge third) := by
  simp [merge, Bool.or_assoc]

theorem idle_merge (time : Nat) (turn : Turn) : (idle time).merge turn = turn := by simp [merge, idle]

end Turn

/-! ## Courses -/

/-- An activity under way. -/
inductive Course (α : Type) where
  /-- The last turn, and what came of the activity. -/
  | ended (turn : Turn) (result : Except Failure α)
  /-- A turn and the time of the next one, with which the rest begins. -/
  | paused (turn : Turn) (time : Nat) (rest : Unit → Course α)

namespace Course

variable {α β : Type}

/-- The number of turns. -/
def length : Course α → Nat
  | .ended _ _ => 1
  | .paused _ _ rest => (rest ()).length + 1

/-- A course that waits for a time after a turn. If the turn has asked for another one, there is nothing to do in that.
-/
def waiting (turn : Turn) (time : Nat) (rest : Unit → Course α) : Course α :=
  if turn.asksAgain then .paused turn turn.time fun () => .paused (.idle turn.time) time rest
  else .paused turn time rest

/-- A course whose first turn goes on where a turn has got to. -/
def startingIn (turn : Turn) : Course α → Course α
  | .ended last result => .ended (turn.merge last) result
  | .paused first time rest =>
    if first.asksAgain then .paused (turn.merge first) time rest else waiting (turn.merge first) time rest

theorem startingIn_startingIn (first second : Turn) (course : Course α) :
    (course.startingIn second).startingIn first = course.startingIn (first.merge second) := by
  cases course with
  | ended last result => simp only [startingIn, Turn.merge_assoc]
  | paused turn time rest =>
    cases ht : turn.asksAgain <;> cases hs : second.asksAgain <;> simp [startingIn, waiting, Turn.merge, ht, hs]

theorem startingIn_idle (time : Nat) (course : Course α) : course.startingIn (.idle time) = course := by
  cases course with
  | ended last result => simp only [startingIn, Turn.idle_merge]
  | paused turn time rest => cases ht : turn.asksAgain <;> simp [startingIn, waiting, Turn.idle_merge, ht]

/-- A course that goes on in its last turn if it succeeds; what it goes on with is given that turn. -/
def goOn : Course α → (α → Turn → Course β) → Course β
  | .ended turn (.error failure), _ => .ended turn (.error failure)
  | .ended turn (.ok value), next => next value turn
  | .paused turn time rest, next => .paused turn time fun () => (rest ()).goOn next

theorem goOn_startingIn {next : α → Turn → Course β} {turn : Turn}
    (h : ∀ value last, next value (turn.merge last) = (next value last).startingIn turn) (course : Course α) :
    (course.startingIn turn).goOn next = (course.goOn next).startingIn turn := by
  cases course with
  | ended last result =>
    cases result with
    | error failure => rfl
    | ok value => exact h value last
  | paused first time rest =>
    cases hf : first.asksAgain <;> cases ht : turn.asksAgain <;> simp [startingIn, waiting, goOn, Turn.merge, hf, ht]

end Course

/-! ## Runs -/

/-- What has come of a course at its end. -/
structure Run (α : Type) where
  result : Except Failure α
  /-- The time of the end. -/
  finish : Nat
  events : List Event
  /-- The lookups on the record. -/
  lookups : List MockLookup

namespace Run

variable {α : Type}

/-- What the executor was asked, in the order of the calls. -/
def calls (run : Run α) : List Invocation := run.events.filterMap Event.call?

/-- The visits for which the executor's answer came in time. -/
def answers (run : Run α) : List Visit := run.events.filterMap Event.answer?

/-- The states that were seen to look for their mocks, in the order of their lookups. -/
def lookedUp (run : Run α) : List MockLookup := run.events.filterMap Event.lookup?

/-- The run with an earlier turn. -/
def after (turn : Turn) (run : Run α) : Run α :=
  { run with events := turn.events.reverse ++ run.events, lookups := turn.lookups.reverse ++ run.lookups }

end Run

/-- Goes through a course to its end. -/
def Course.toRun {α : Type} : Course α → Run α
  | .ended turn result => ⟨result, turn.time, turn.events.reverse, turn.lookups.reverse⟩
  | .paused turn _ rest => (rest ()).toRun.after turn

/-! ## Activities -/

/-- What takes a course from the time at which it is started. -/
def Activity (α : Type) : Type := Nat → Course α

namespace Activity

variable {α β : Type}

/-- Ends at once with a result. -/
def done (result : Except Failure α) : Activity α := fun now => .ended (.idle now) result

/-- Starts an activity in a turn in which something was done before. -/
def startIn (activity : Activity α) (turn : Turn) : Course α := (activity turn.time).startingIn turn

/-- Runs one activity after the other. -/
def andThen (first : Activity α) (second : α → Activity β) : Activity β := fun now =>
  (first now).goOn fun value => (second value).startIn

instance : Monad Activity where
  pure value := done (.ok value)
  bind := andThen

/-- Looks for the mock of a state, which is seen and put on the record. -/
def look (lookup : MockLookup) : Activity Unit := fun now =>
  .ended { Turn.idle now with events := [.lookup lookup], lookups := [lookup] } (.ok ())

/-- Puts on the record that some states looked for their mocks. -/
def note (lookups : List MockLookup) : Activity Unit := fun now =>
  .ended { Turn.idle now with lookups := lookups.reverse } (.ok ())

/-! ### Loops -/

section Loops

variable {σ : Type} (step : σ → Activity (σ ⊕ α)) (exhausted : σ → Failure)

/-- A loop in a turn in which something was done before. -/
def loopIn : Nat → σ → Turn → Course α
  | 0, state, turn => .ended turn (.error (exhausted state))
  | left + 1, state, turn =>
    match (step state).startIn turn with
    | .ended turn (.error failure) => .ended turn (.error failure)
    | .ended turn (.ok (.inl state)) => loopIn left state turn
    | .ended turn (.ok (.inr value)) => .ended turn (.ok value)
    | .paused turn time rest => .paused turn time fun () => (rest ()).goOn fun next turn =>
      match next with
      | .inl state => loopIn left state turn
      | .inr value => .ended turn (.ok value)

/-- Takes a step, at most so often, from one state to the next until there is a value. -/
def loop (left : Nat) (state : σ) : Activity α := fun now => loopIn step exhausted left state (.idle now)

theorem loopIn_succ (left : Nat) (state : σ) (turn : Turn) :
    loopIn step exhausted (left + 1) state turn = ((step state).startIn turn).goOn fun next turn =>
      match next with
      | .inl state => loopIn step exhausted left state turn
      | .inr value => .ended turn (.ok value) := by
  rw [loopIn]
  split <;> simp only [Course.goOn, *]

theorem loopIn_eq (left : Nat) (state : σ) (turn : Turn) :
    loopIn step exhausted left state turn = (loop step exhausted left state).startIn turn := by
  induction left generalizing state turn with
  | zero => simp [loopIn, loop, startIn, Course.startingIn, Turn.merge, Turn.idle]
  | succ left ih =>
    rw [startIn, loop, loopIn_succ, loopIn_succ, startIn, startIn, Course.startingIn_idle]
    refine Course.goOn_startingIn (fun next last => ?_) _
    cases next with
    | inl state =>
      show loopIn step exhausted left state (turn.merge last) = (loopIn step exhausted left state last).startingIn turn
      rw [ih state (turn.merge last), ih state last]
      exact (Course.startingIn_startingIn ..).symm
    | inr value => rfl

theorem loop_succ (left : Nat) (state : σ) :
    loop step exhausted (left + 1) state = do
      match ← step state with
      | .inl state => loop step exhausted left state
      | .inr value => return value := by
  funext now
  rw [loop, loopIn_succ, startIn, Course.startingIn_idle]
  refine congrArg (step state now).goOn (funext fun next => funext fun turn => ?_)
  cases next with
  | inl state => exact loopIn_eq ..
  | inr value => simp [startIn, pure, done, Course.startingIn, Turn.merge, Turn.idle]

end Loops

/-- The run of an activity that is started at a time. -/
def run (activity : Activity α) (start : Nat) : Run α := (activity start).toRun

end Activity

end StateBench

import StateBench.Proofs.Activity.Laws

/-!
# Activities without what passes to executors

What an activity comes to, when, and for which mocks it looks does not tell whether an executor was asked on the way.
`Activity.silent` is the activity with all calls and answers left out. It goes through what puts activities together
(`silent_bind`, `silent_loop`), so activities that are the same but for their calls and answers can take each other's
place; their runs end at the same time with the same result and the same lookups (`run_of_silent_eq`).
-/

namespace StateBench

variable {α β : Type}

/-! ## Turns -/

namespace Turn

/-- The turn without its events. -/
def silent (turn : Turn) : Turn := { turn with events := [] }

theorem silent_idle (time : Nat) : (idle time).silent = idle time := rfl

theorem silent_merge (first second : Turn) : (first.merge second).silent = first.silent.merge second.silent := by
  simp [silent, merge]

end Turn

/-! ## Courses -/

namespace Course

/-- The course without the events of its turns. -/
def silent : Course α → Course α
  | .ended turn result => .ended turn.silent result
  | .paused turn time rest => .paused turn.silent time fun () => (rest ()).silent

theorem silent_waiting (turn : Turn) (time : Nat) (rest : Unit → Course α) :
    (waiting turn time rest).silent = waiting turn.silent time fun () => (rest ()).silent := by
  unfold waiting
  cases ha : turn.asksAgain <;> simp [silent, Turn.silent, Turn.idle, ha]

theorem silent_startingIn (turn : Turn) (course : Course α) :
    (course.startingIn turn).silent = course.silent.startingIn turn.silent := by
  cases course with
  | ended last result => simp only [startingIn, silent, Turn.silent_merge]
  | paused first time rest =>
    have ha : first.silent.asksAgain = first.asksAgain := rfl
    by_cases h : first.asksAgain
    · simp [startingIn, silent, ha, h, Turn.silent_merge]
    · simp [startingIn, silent, ha, h, Turn.silent_merge, silent_waiting]

theorem silent_goOn {next other : α → Turn → Course β}
    (h : ∀ value turn, (next value turn).silent = other value turn.silent) (course : Course α) :
    (course.goOn next).silent = course.silent.goOn other := by
  induction course with
  | ended turn result =>
    cases result with
    | error failure => rfl
    | ok value => exact h value turn
  | paused turn time rest ih =>
    show Course.paused _ _ _ = Course.paused _ _ _
    rw [ih ()]

theorem toRun_silent (course : Course α) : course.silent.toRun = { course.toRun with events := [] } := by
  induction course with
  | ended turn result => rfl
  | paused turn time rest ih =>
    show (rest ()).silent.toRun.after turn.silent = _
    rw [ih ()]
    rfl

end Course

/-! ## Activities -/

namespace Activity

/-- The activity without the events of its turns. -/
def silent (activity : Activity α) : Activity α := fun now => (activity now).silent

theorem silent_bind (first : Activity α) (second : α → Activity β) :
    (first >>= second).silent = first.silent >>= fun value => (second value).silent := by
  funext now
  exact Course.silent_goOn (fun value turn => Course.silent_startingIn turn _) _

/-- Activities that are the same but for their events are so when they are followed by such. -/
theorem silent_bind_congr {first other : Activity α} {second next : α → Activity β}
    (h : first.silent = other.silent) (hn : ∀ value, (second value).silent = (next value).silent) :
    (first >>= second).silent = (other >>= next).silent := by
  rw [silent_bind, silent_bind, h, funext hn]

theorem silent_loop_congr {σ : Type} {step next : σ → Activity (σ ⊕ α)}
    (h : ∀ state, (step state).silent = (next state).silent) (exhausted : σ → Failure) (left : Nat) (state : σ) :
    (loop step exhausted left state).silent = (loop next exhausted left state).silent :=
  loop_of_bind₂ (R := fun _ first other => first.silent = other.silent) (fun _ _ => rfl)
    (fun _ _ _ _ _ _ => silent_bind_congr) h exhausted left state

/-- Activities that are the same but for their events come to the same. -/
theorem run_of_silent_eq {first other : Activity α} (h : first.silent = other.silent) (now : Nat) :
    (first.run now).result = (other.run now).result ∧ (first.run now).finish = (other.run now).finish ∧
      (first.run now).lookups = (other.run now).lookups := by
  have hc : (first now).silent.toRun = (other now).silent.toRun := congrArg (fun activity => (activity now).toRun) h
  rw [Course.toRun_silent, Course.toRun_silent, Run.mk.injEq] at hc
  exact ⟨hc.1, hc.2.1, hc.2.2.2⟩

end Activity

end StateBench

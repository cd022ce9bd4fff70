import StateBench.Activity

/-!
# Runs of activities

An activity is looked at through its runs: the run of one activity after another is the run of the first and then that
of the second, which starts when the first has ended (`run_bind`). How a course is split into turns does not show in its
run.

* `toRun_startingIn`, `toRun_goOn`: the runs of courses that are put together;
* `run_bind`, `run_pure`, `run_done`, `run_look`, `run_note`, `loop_zero`: the runs of activities;
* `run_bind_error`, `run_bind_ok`: how a run of two activities came to its result;
* `bind_congr_of_run`, `loop_congr_of_run`: what comes after an activity matters only for what its runs come to.
-/

namespace StateBench

namespace Run

variable {α β : Type}

/-- A run that goes on with a second one if it succeeds. -/
def followedBy (first : Run α) (next : α → Run β) : Run β :=
  match first.result with
  | .error failure => ⟨.error failure, first.finish, first.events, first.lookups⟩
  | .ok value => ⟨(next value).result, (next value).finish, first.events ++ (next value).events,
      first.lookups ++ (next value).lookups⟩

theorem followedBy_error {first : Run α} {failure : Failure} (h : first.result = .error failure) (next : α → Run β) :
    first.followedBy next = ⟨.error failure, first.finish, first.events, first.lookups⟩ := by
  simp only [followedBy, h]

theorem followedBy_ok {first : Run α} {value : α} (h : first.result = .ok value) (next : α → Run β) :
    first.followedBy next = ⟨(next value).result, (next value).finish, first.events ++ (next value).events,
      first.lookups ++ (next value).lookups⟩ := by
  simp only [followedBy, h]

theorem after_followedBy (turn : Turn) (first : Run α) (next : α → Run β) :
    (first.after turn).followedBy next = (first.followedBy next).after turn := by
  cases h : first.result <;> simp [followedBy, after, h]

end Run

namespace Course

variable {α β : Type}

/-! ## Courses -/

/-- What was done before in the first turn comes first in the run. -/
theorem toRun_startingIn (turn : Turn) (course : Course α) :
    (course.startingIn turn).toRun = course.toRun.after turn := by
  cases course with
  | ended last result => simp [startingIn, toRun, Turn.merge, Run.after]
  | paused first time rest =>
    cases hf : first.asksAgain <;> cases ht : turn.asksAgain <;>
      simp [startingIn, waiting, toRun, Turn.merge, Turn.idle, Run.after, hf, ht]

/-- The pause of a course that waits does not show in its run. -/
theorem toRun_waiting (turn : Turn) (time : Nat) (rest : Unit → Course α) :
    (waiting turn time rest).toRun = (rest ()).toRun.after turn := by
  unfold waiting
  split <;> simp [toRun, Turn.idle, Run.after]

/-- A course that goes on with an activity runs on with the run of that activity from the time of its end. -/
theorem toRun_goOn (course : Course α) (next : α → Activity β) :
    (course.goOn fun value => (next value).startIn).toRun =
      course.toRun.followedBy fun value => (next value).run course.toRun.finish := by
  induction course with
  | ended turn result =>
    cases result with
    | error failure => rfl
    | ok value =>
      show ((next value turn.time).startingIn turn).toRun = _
      rw [toRun_startingIn]
      rfl
  | paused turn time rest ih =>
    show ((rest ()).goOn _).toRun.after turn = _
    rw [ih, ← Run.after_followedBy]
    rfl

/-- A course goes on with the one value that it comes to, and from its end. -/
theorem goOn_congr {course : Course α} {next other : α → Turn → Course β}
    (h : ∀ value turn, course.toRun.result = .ok value → turn.time = course.toRun.finish →
      next value turn = other value turn) : course.goOn next = course.goOn other := by
  induction course with
  | ended turn result =>
    cases result with
    | error failure => rfl
    | ok value => exact h value turn rfl rfl
  | paused turn time rest ih =>
    have hr : (rest ()).goOn next = (rest ()).goOn other := ih () h
    exact congrArg (fun course => Course.paused turn time fun () => course) hr

end Course

namespace Activity

variable {α β : Type}

/-! ## Activities -/

theorem run_bind (first : Activity α) (second : α → Activity β) (now : Nat) :
    (first >>= second).run now =
      (first.run now).followedBy fun value => (second value).run (first.run now).finish :=
  Course.toRun_goOn (first now) second

@[simp]
theorem run_pure (value : α) (now : Nat) : (pure value : Activity α).run now = ⟨.ok value, now, [], []⟩ := rfl

@[simp]
theorem run_done (result : Except Failure α) (now : Nat) : (done result).run now = ⟨result, now, [], []⟩ := rfl

@[simp]
theorem run_look (lookup : MockLookup) (now : Nat) :
    (look lookup).run now = ⟨.ok (), now, [.lookup lookup], [lookup]⟩ := rfl

@[simp]
theorem run_note (lookups : List MockLookup) (now : Nat) : (note lookups).run now = ⟨.ok (), now, [], lookups⟩ := by
  simp [run, note, Course.toRun, Turn.idle]

theorem loop_zero {σ : Type} (step : σ → Activity (σ ⊕ α)) (exhausted : σ → Failure) (state : σ) :
    loop step exhausted 0 state = done (.error (exhausted state)) := rfl

/-- What comes after a result that is there at once is run at the same time. -/
@[simp]
theorem run_done_bind (value : α) (second : α → Activity β) (now : Nat) :
    (done (.ok value) >>= second).run now = (second value).run now := by
  rw [run_bind, run_done, Run.followedBy_ok rfl]
  simp

@[simp]
theorem run_done_error_bind (failure : Failure) (second : α → Activity β) (now : Nat) :
    (done (.error failure) >>= second).run now = ⟨.error failure, now, [], []⟩ := by
  rw [run_bind, run_done, Run.followedBy_error rfl]

/-- A run of two activities fails in the first, or in the second after the first has succeeded. -/
theorem run_bind_error {first : Activity α} {second : α → Activity β} {now : Nat} {failure : Failure}
    (h : ((first >>= second).run now).result = .error failure) :
    (first.run now).result = .error failure ∨ ∃ value, (first.run now).result = .ok value ∧
      ((second value).run (first.run now).finish).result = .error failure := by
  rw [run_bind] at h
  cases hf : (first.run now).result with
  | error f =>
    rw [Run.followedBy_error hf] at h
    cases h
    exact .inl rfl
  | ok value =>
    rw [Run.followedBy_ok hf] at h
    exact .inr ⟨value, rfl, h⟩

/-- A run of two activities succeeds if both succeed, the second from the end of the first. -/
theorem run_bind_ok {first : Activity α} {second : α → Activity β} {now : Nat} {result : β}
    (h : ((first >>= second).run now).result = .ok result) :
    ∃ value, (first.run now).result = .ok value ∧
      ((second value).run (first.run now).finish).result = .ok result ∧
      ((first >>= second).run now).finish = ((second value).run (first.run now).finish).finish := by
  rw [run_bind] at h ⊢
  cases hf : (first.run now).result with
  | error f =>
    rw [Run.followedBy_error hf] at h
    cases h
  | ok value =>
    rw [Run.followedBy_ok hf] at h ⊢
    exact ⟨value, rfl, h, rfl⟩

/-! ## What comes after a run -/

/-- What comes after an activity matters only for the values that the activity comes to. -/
theorem bind_congr_of_run {first : Activity α} {second next : α → Activity β}
    (h : ∀ now value, (first.run now).result = .ok value → second value = next value) :
    first >>= second = first >>= next := by
  funext now
  refine Course.goOn_congr fun value turn hv _ => ?_
  rw [h now value hv]

/-- Two loops are the same if their steps are the same in all states that are come to. -/
theorem loop_congr_of_run {σ : Type} {step other : σ → Activity (σ ⊕ α)} {holds : σ → Prop}
    (same : ∀ state, holds state → step state = other state)
    (keeps : ∀ state, holds state → ∀ now next, ((step state).run now).result = .ok (.inl next) → holds next)
    (exhausted : σ → Failure) (left : Nat) {state : σ} (hs : holds state) :
    loop step exhausted left state = loop other exhausted left state := by
  induction left generalizing state with
  | zero => rfl
  | succ left ih =>
    rw [loop_succ, loop_succ, ← same state hs]
    refine bind_congr_of_run fun now result hr => ?_
    cases result with
    | inl next => exact ih (keeps state hs now next hr)
    | inr value => rfl

end Activity

end StateBench

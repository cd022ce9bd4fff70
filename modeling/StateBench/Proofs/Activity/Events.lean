import StateBench.Proofs.Activity.Laws

/-!
# What activities show

What is seen of an evaluation is seen in the turns of an activity: calls, answers and lookups. That all of it is allowed
is said of every turn that the activity can have (`Activity.Shows`), also of those that it no longer has if it is
abandoned. So it is kept by whatever puts activities together, and it holds of the events of every run
(`Activity.Shows.of_mem_events`).
-/

namespace StateBench

variable {α β : Type} {allowed : Event → Prop}

/-! ## Turns -/

/-- All events of a turn are allowed. -/
def Turn.Shows (allowed : Event → Prop) (turn : Turn) : Prop := ∀ event ∈ turn.events, allowed event

namespace Turn.Shows

theorem idle (time : Nat) : (Turn.idle time).Shows allowed := by
  intro event he
  cases he

theorem merge {first second : Turn} (hf : first.Shows allowed) (hs : second.Shows allowed) :
    (first.merge second).Shows allowed := by
  intro event he
  rcases List.mem_append.1 he with he | he
  · exact hs event he
  · exact hf event he

end Turn.Shows

/-! ## Courses -/

/-- All events in the turns of a course are allowed. -/
def Course.Shows (allowed : Event → Prop) : Course α → Prop
  | .ended turn _ => turn.Shows allowed
  | .paused turn _ rest => turn.Shows allowed ∧ (rest ()).Shows allowed

namespace Course.Shows

variable {course : Course α} {turn : Turn}

theorem waiting (ht : turn.Shows allowed) (time : Nat) {rest : Unit → Course α} (hr : (rest ()).Shows allowed) :
    (Course.waiting turn time rest).Shows allowed := by
  unfold Course.waiting
  split
  · exact ⟨ht, .idle _, hr⟩
  · exact ⟨ht, hr⟩

theorem startingIn (hc : course.Shows allowed) (ht : turn.Shows allowed) : (course.startingIn turn).Shows allowed := by
  cases course with
  | ended last result => exact ht.merge hc
  | paused first time rest =>
    have hm := ht.merge hc.1
    by_cases hf : first.asksAgain
    · simpa only [Course.startingIn, hf, if_true] using ⟨hm, hc.2⟩
    · simpa only [Course.startingIn, hf, Bool.false_eq_true, if_false] using waiting hm time hc.2

theorem goOn (hc : course.Shows allowed) {next : α → Turn → Course β}
    (hn : ∀ value {turn : Turn}, turn.Shows allowed → (next value turn).Shows allowed) :
    (course.goOn next).Shows allowed := by
  induction course with
  | ended last result =>
    cases result with
    | error failure => exact hc
    | ok value => exact hn value hc
  | paused first time rest ih => exact ⟨hc.1, ih () hc.2⟩

/-- The events of a run are in the turns of its course. -/
theorem of_mem_events (hc : course.Shows allowed) {event : Event} (he : event ∈ course.toRun.events) :
    allowed event := by
  induction course with
  | ended turn result => exact hc event (List.mem_reverse.1 he)
  | paused turn time rest ih =>
    rcases List.mem_append.1 he with he | he
    · exact hc.1 event (List.mem_reverse.1 he)
    · exact ih () hc.2 he

end Course.Shows

/-! ## Runs -/

namespace Run

variable {run : Run α}

theorem mem_calls {i : Invocation} : i ∈ run.calls ↔ Event.call i ∈ run.events := by
  rw [calls, List.mem_filterMap]
  constructor
  · rintro ⟨event, he, hi⟩
    cases event with
    | call invocation =>
      cases hi
      exact he
    | answer visit => cases hi
    | lookup sought => cases hi
  · exact fun he => ⟨_, he, rfl⟩

theorem mem_lookedUp {sought : MockLookup} : sought ∈ run.lookedUp ↔ Event.lookup sought ∈ run.events := by
  rw [lookedUp, List.mem_filterMap]
  constructor
  · rintro ⟨event, he, hs⟩
    cases event with
    | call invocation => cases hs
    | answer visit => cases hs
    | lookup found =>
      cases hs
      exact he
  · exact fun he => ⟨_, he, rfl⟩

end Run

/-! ## Activities -/

/-- All events that an activity can come to are allowed, at whatever time it is started. -/
def Activity.Shows (allowed : Event → Prop) (activity : Activity α) : Prop := ∀ now, (activity now).Shows allowed

namespace Activity.Shows

theorem done (result : Except Failure α) : (Activity.done result).Shows allowed := fun now => Turn.Shows.idle now

theorem look {sought : MockLookup} (h : allowed (.lookup sought)) : (Activity.look sought).Shows allowed := by
  intro now event he
  cases List.mem_singleton.1 he
  exact h

theorem note (lookups : List MockLookup) : (Activity.note lookups).Shows allowed := fun now => Turn.Shows.idle now

theorem bind {first : Activity α} {second : α → Activity β} (hf : first.Shows allowed)
    (hs : ∀ value, (second value).Shows allowed) : (first >>= second).Shows allowed := fun now =>
  (hf now).goOn fun value {turn} ht => (hs value turn.time).startingIn ht

theorem loop {σ : Type} {step : σ → Activity (σ ⊕ α)} (h : ∀ state, (step state).Shows allowed)
    (exhausted : σ → Failure) (left : Nat) (state : σ) : (Activity.loop step exhausted left state).Shows allowed :=
  loop_of_bind (P := fun _ => Activity.Shows allowed) (fun _ => done) (fun _ _ _ _ => bind) h exhausted left state

/-- What is seen in a run of the activity is allowed. -/
theorem of_mem_events {activity : Activity α} (h : activity.Shows allowed) {now : Nat} {event : Event}
    (he : event ∈ (activity.run now).events) : allowed event := (h now).of_mem_events he

end Activity.Shows

end StateBench

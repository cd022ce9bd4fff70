import StateBench.Proofs.Activity.Records

/-!
# Activities that agree until a lookup strays

Two activities may do the same as long as all lookups are of some kind, and part when one is not. The first turn with
such a lookup may be the same in part only, and of what comes after it nothing is said (`Course.AgreeUntil`). That goes
through what puts activities together. If no lookup of the first activity strays, the two are the same to the end
(`Activity.AgreeUntil.eq`).
-/

namespace StateBench

variable {α β : Type} {strays : MockLookup → Prop}

/-! ## Turns -/

/-- A lookup strays in the turn. -/
def Turn.Strays (strays : MockLookup → Prop) (turn : Turn) : Prop :=
  ∃ sought, Event.lookup sought ∈ turn.events ∧ strays sought

theorem Turn.Strays.mono {turn other : Turn} (h : turn.Strays strays)
    (sub : ∀ event ∈ turn.events, event ∈ other.events) : other.Strays strays := by
  obtain ⟨sought, hs, hstrays⟩ := h
  exact ⟨sought, sub _ hs, hstrays⟩

/-! ## Courses -/

/-- The courses are the same until a lookup strays in a turn of the first one. -/
inductive Course.AgreeUntil (strays : MockLookup → Prop) : Course α → Course α → Prop
  /-- From this turn on they may differ. -/
  | strayed {course other : Course α} (strayed : course.first.Strays strays) : AgreeUntil strays course other
  | ended (turn : Turn) (result : Except Failure α) : AgreeUntil strays (.ended turn result) (.ended turn result)
  | paused {turn : Turn} {time : Nat} {rest next : Unit → Course α} (rests : AgreeUntil strays (rest ()) (next ())) :
      AgreeUntil strays (.paused turn time rest) (.paused turn time next)

namespace Course.AgreeUntil

variable {course other : Course α}

theorem refl (course : Course α) : AgreeUntil strays course course := by
  induction course with
  | ended turn result => exact .ended turn result
  | paused turn time rest ih => exact .paused (ih ())

theorem waiting {turn : Turn} {time : Nat} {rest next : Unit → Course α} (h : AgreeUntil strays (rest ()) (next ())) :
    AgreeUntil strays (Course.waiting turn time rest) (Course.waiting turn time next) := by
  unfold Course.waiting
  split
  · exact .paused (.paused h)
  · exact .paused h

theorem startingIn (h : AgreeUntil strays course other) (turn : Turn) :
    AgreeUntil strays (course.startingIn turn) (other.startingIn turn) := by
  cases h with
  | strayed strayed =>
    refine .strayed ?_
    rw [first_startingIn]
    exact strayed.mono fun event he => List.mem_append_left _ he
  | ended last result => exact .refl _
  | @paused own time rest next rests =>
    simp only [Course.startingIn]
    split
    · exact .paused rests
    · exact waiting rests

theorem goOn (h : AgreeUntil strays course other) {second next : α → Activity β}
    (hn : ∀ value now, AgreeUntil strays (second value now) (next value now)) :
    AgreeUntil strays (course.goOn fun value => (second value).startIn)
      (other.goOn fun value => (next value).startIn) := by
  induction h with
  | strayed strayed => exact .strayed (strayed.mono fun event he => mem_first_goOn he second)
  | ended turn result =>
    cases result with
    | error failure => exact .refl _
    | ok value => exact (hn value turn.time).startingIn turn
  | paused rests ih => exact .paused ih

/-- Courses in which no lookup strays are the same to the end. -/
theorem eq (h : AgreeUntil strays course other) (hs : ∀ sought ∈ course.toRun.lookedUp, ¬ strays sought) :
    course = other := by
  induction h with
  | strayed strayed =>
    obtain ⟨sought, he, hstrays⟩ := strayed
    exact absurd hstrays (hs sought (Run.mem_lookedUp.2 (mem_events_of_first he)))
  | ended turn result => rfl
  | @paused turn time rest next rests ih =>
    have hrest : rest () = next () := by
      refine ih fun sought he => hs sought (Run.mem_lookedUp.2 ?_)
      exact List.mem_append_right _ (Run.mem_lookedUp.1 he)
    exact congrArg (fun course => Course.paused turn time fun () => course) hrest

end Course.AgreeUntil

/-! ## Activities -/

/-- The activities are the same, whenever they are started, until a lookup of the first one strays. -/
def Activity.AgreeUntil (strays : MockLookup → Prop) (activity other : Activity α) : Prop :=
  ∀ now, (activity now).AgreeUntil strays (other now)

namespace Activity.AgreeUntil

theorem refl (activity : Activity α) : AgreeUntil strays activity activity := fun _ => .refl _

theorem bind {first other : Activity α} {second next : α → Activity β} (h : AgreeUntil strays first other)
    (hn : ∀ value, AgreeUntil strays (second value) (next value)) :
    AgreeUntil strays (first >>= second) (other >>= next) := fun now => (h now).goOn hn

/-- After a lookup that strays everything may differ. -/
theorem look {sought : MockLookup} (h : strays sought) (second next : Unit → Activity α) :
    AgreeUntil strays (Activity.look sought >>= second) (Activity.look sought >>= next) := by
  refine fun now => .strayed ?_
  have hlook : Event.lookup sought ∈ (Activity.look sought now).first.events := List.mem_singleton_self _
  exact ⟨sought, Course.mem_first_goOn hlook second, h⟩

theorem loop {σ : Type} {step next : σ → Activity (σ ⊕ α)} (h : ∀ state, AgreeUntil strays (step state) (next state))
    (exhausted : σ → Failure) (left : Nat) (state : σ) :
    AgreeUntil strays (Activity.loop step exhausted left state) (Activity.loop next exhausted left state) :=
  loop_of_bind₂ (R := fun _ => AgreeUntil strays) (fun _ _ => refl _) (fun _ _ _ _ _ _ => bind) h exhausted left state

/-- Activities are run in the same way if no lookup strays. -/
theorem eq {activity other : Activity α} (h : AgreeUntil strays activity other) {now : Nat}
    (hs : ∀ sought ∈ (activity.run now).lookedUp, ¬ strays sought) : activity.run now = other.run now :=
  congrArg Course.toRun ((h now).eq hs)

end Activity.AgreeUntil

end StateBench

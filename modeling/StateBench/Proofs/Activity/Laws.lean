import StateBench.Activity

/-!
# Laws of activities

Activities that are put together do the same however they are grouped, and one that ends at once with a value takes no
part. So what holds of lawful monads holds of them. A loop is put together from its steps: what holds of activities, and
is kept where they are put together, holds of loops (`Activity.loop_of_bind`, `Activity.loop_of_bind₂`).
-/

namespace StateBench

variable {α β γ : Type}

theorem Turn.merge_idle (turn : Turn) : turn.merge (.idle turn.time) = turn := by simp [merge, idle]

namespace Course

/-- A course that goes on twice goes on with what goes on. -/
theorem goOn_goOn (course : Course α) (next : α → Turn → Course β) (last : β → Turn → Course γ) :
    (course.goOn next).goOn last = course.goOn fun value turn => (next value turn).goOn last := by
  induction course with
  | ended turn result => cases result <;> rfl
  | paused turn time rest ih => exact congrArg (fun course => Course.paused turn time fun () => course) (ih ())

/-- A course that goes on with the value that it has come to is the same. -/
theorem goOn_pure (course : Course α) : (course.goOn fun value => (pure value : Activity α).startIn) = course := by
  induction course with
  | ended turn result =>
    cases result with
    | error failure => rfl
    | ok value =>
      show Course.ended (turn.merge (.idle turn.time)) (.ok value) = _
      rw [Turn.merge_idle]
  | paused turn time rest ih => exact congrArg (fun course => Course.paused turn time fun () => course) (ih ())

end Course

namespace Activity

theorem pure_andThen (value : α) (next : α → Activity β) : (pure value >>= next) = next value := by
  funext now
  exact Course.startingIn_idle now (next value now)

/-- What is done before in a turn comes before both activities. -/
theorem startIn_andThen (first : Activity α) (second : α → Activity β) (turn : Turn) :
    (first >>= second).startIn turn = (first.startIn turn).goOn fun value => (second value).startIn := by
  have h (value : α) (last : Turn) :
      (second value).startIn (turn.merge last) = ((second value).startIn last).startingIn turn :=
    (Course.startingIn_startingIn turn last (second value last.time)).symm
  exact (Course.goOn_startingIn h (first turn.time)).symm

theorem andThen_assoc (first : Activity α) (second : α → Activity β) (third : β → Activity γ) :
    (first >>= second) >>= third = first >>= fun value => second value >>= third := by
  funext now
  refine (Course.goOn_goOn (first now) _ _).trans ?_
  refine congrArg (first now).goOn (funext fun value => funext fun turn => ?_)
  exact (startIn_andThen (second value) third turn).symm

instance : LawfulMonad Activity :=
  .mk' Activity (fun activity => funext fun now => Course.goOn_pure (activity now)) pure_andThen andThen_assoc

/-- Loops are related if their steps are, where that is kept when activities are put together. -/
theorem loop_of_bind₂ {R : (α : Type) → Activity α → Activity α → Prop}
    (done : ∀ (α : Type) (result : Except Failure α), R α (.done result) (.done result))
    (bind : ∀ (α β : Type) (first other : Activity α) (second next : α → Activity β), R α first other →
      (∀ value, R β (second value) (next value)) → R β (first >>= second) (other >>= next))
    {σ : Type} {step next : σ → Activity (σ ⊕ α)} (h : ∀ state, R (σ ⊕ α) (step state) (next state))
    (exhausted : σ → Failure) (left : Nat) (state : σ) :
    R α (loop step exhausted left state) (loop next exhausted left state) := by
  induction left generalizing state with
  | zero => exact done α (.error (exhausted state))
  | succ left ih =>
    rw [loop_succ, loop_succ]
    refine bind _ _ _ _ _ _ (h state) fun result => ?_
    cases result with
    | inl state => exact ih state
    | inr value => exact done α (.ok value)

/-- A loop has a property that its steps have, where that is kept when activities are put together. -/
theorem loop_of_bind {P : (α : Type) → Activity α → Prop} (done : ∀ (α : Type) result, P α (.done result))
    (bind : ∀ (α β : Type) (first : Activity α) (second : α → Activity β), P α first →
      (∀ value, P β (second value)) → P β (first >>= second))
    {σ : Type} {step : σ → Activity (σ ⊕ α)} (h : ∀ state, P (σ ⊕ α) (step state)) (exhausted : σ → Failure)
    (left : Nat) (state : σ) : P α (loop step exhausted left state) :=
  @loop_of_bind₂ α (fun α first _ => P α first) done (fun α β first _ second _ => bind α β first second) σ step step h
    exhausted left state

end Activity

end StateBench

import StateBench.Proofs.Activity.Runs

/-!
# Activities that are the same where one succeeds

An activity may give up where another one goes on, as a loop does that can take fewer steps. Where it succeeds, the two
may still be the same (`Activity.SucceedsAs`). That is kept when activities are put together (`SucceedsAs.bind`): if
both parts are to succeed, each is the same from the time at which it is started. And a loop that can take more steps is
the same where one with fewer steps succeeds (`SucceedsAs.loop`).
-/

namespace StateBench

variable {α β : Type}

/-- Whenever the activity succeeds, the other one takes the same course. -/
def Activity.SucceedsAs (activity other : Activity α) : Prop :=
  ∀ now value, (activity.run now).result = .ok value → activity now = other now

namespace Activity.SucceedsAs

theorem refl (activity : Activity α) : SucceedsAs activity activity := fun _ _ _ => rfl

/-- An activity that always fails says nothing about the other one. -/
theorem of_error (failure : Failure) (other : Activity α) : SucceedsAs (.done (.error failure)) other :=
  fun _ _ h => nomatch h

theorem bind {first other : Activity α} {second next : α → Activity β} (h : SucceedsAs first other)
    (hn : ∀ value, SucceedsAs (second value) (next value)) : SucceedsAs (first >>= second) (other >>= next) := by
  intro now result hr
  obtain ⟨value, hfirst, hsecond, -⟩ := run_bind_ok hr
  have hsame : (first now).goOn (fun value => (second value).startIn) =
      (first now).goOn fun value => (next value).startIn := by
    refine Course.goOn_congr fun found turn hf ht => ?_
    have hv : value = found := Except.ok.inj (hfirst.symm.trans hf)
    have htime : (second found).run (first.run now).finish = (second found).run turn.time :=
      congrArg (second found).run ht.symm
    rw [hv, htime] at hsecond
    rw [startIn, startIn, hn found turn.time result hsecond]
  calc (first >>= second) now
      = (first now).goOn fun value => (next value).startIn := hsame
    _ = (other >>= next) now := congrArg (Course.goOn · _) (h now value hfirst)

/-- A loop that can take more steps is the same where one with fewer steps succeeds, whatever it says if it does not. -/
theorem loop {σ : Type} {step next : σ → Activity (σ ⊕ α)} (h : ∀ state, SucceedsAs (step state) (next state))
    (exhausted other : σ → Failure) {left more : Nat} (le : left ≤ more) (state : σ) :
    SucceedsAs (Activity.loop step exhausted left state) (Activity.loop next other more state) := by
  induction left generalizing more state with
  | zero => exact of_error (exhausted state) _
  | succ left ih =>
    obtain ⟨more, rfl⟩ := Nat.exists_eq_add_of_le' (Nat.lt_of_lt_of_le (Nat.succ_pos left) le)
    rw [loop_succ, loop_succ]
    refine (h state).bind fun result => ?_
    cases result with
    | inl state => exact ih (Nat.le_of_succ_le_succ le) state
    | inr value => exact refl _

end Activity.SucceedsAs

end StateBench

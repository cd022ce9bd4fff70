import StateBench.Proofs.Activity.Events
import StateBench.Proofs.Activity.Runs

/-!
# Lookups and their record

A lookup is seen when it is made. In a container it comes on the record with the end of its unit, so that of a unit
which is abandoned does not come there. Apart from that nothing is lost:

* what is on the record was seen, and after a success all that was seen is on the record (`Activity.Recorded`);
* where no answer is waited for, an activity ends in its first turn with all on the record that was seen, whether it
  succeeds or not (`Activity.Prompt`).
-/

namespace StateBench

variable {α β : Type}

/-! ## Runs -/

/-- All lookups that were seen are on the record. -/
def Run.Complete (run : Run α) : Prop := ∀ sought ∈ run.lookedUp, sought ∈ run.lookups

/-- What is on the record was seen, and after a success all that was seen is on the record. -/
structure Run.Recorded (run : Run α) : Prop where
  seen : ∀ sought ∈ run.lookups, sought ∈ run.lookedUp
  complete : ∀ value, run.result = .ok value → run.Complete

namespace Run

theorem lookedUp_followedBy_ok {first : Run α} {value : α} (h : first.result = .ok value) (next : α → Run β) :
    (first.followedBy next).lookedUp = first.lookedUp ++ (next value).lookedUp := by
  rw [followedBy_ok h]
  exact List.filterMap_append

theorem Recorded.followedBy {first : Run α} {next : α → Run β} (hf : first.Recorded)
    (hn : ∀ value, (next value).Recorded) : (first.followedBy next).Recorded := by
  cases hr : first.result with
  | error failure =>
    rw [followedBy_error hr]
    exact ⟨hf.seen, fun value hv => nomatch hv⟩
  | ok value =>
    have hl := lookedUp_followedBy_ok hr next
    have hrecord : (first.followedBy next).lookups = first.lookups ++ (next value).lookups := by
      rw [followedBy_ok hr]
    have hresult : (first.followedBy next).result = (next value).result := by rw [followedBy_ok hr]
    constructor
    · intro sought hs
      rw [hrecord] at hs
      rw [hl]
      rcases List.mem_append.1 hs with hs | hs
      · exact List.mem_append_left _ (hf.seen sought hs)
      · exact List.mem_append_right _ ((hn value).seen sought hs)
    · intro result hv sought hs
      rw [hresult] at hv
      rw [hl] at hs
      rw [hrecord]
      rcases List.mem_append.1 hs with hs | hs
      · exact List.mem_append_left _ (hf.complete value hr sought hs)
      · exact List.mem_append_right _ ((hn value).complete result hv sought hs)

end Run

namespace Activity

/-- All runs of the activity have their lookups on the record. -/
def Recorded (activity : Activity α) : Prop := ∀ now, (activity.run now).Recorded

namespace Recorded

/-- An activity that looks for nothing has nothing to record. -/
theorem of_nil {activity : Activity α} (lookups : ∀ now, (activity.run now).lookups = [])
    (lookedUp : ∀ now, (activity.run now).lookedUp = []) : activity.Recorded := by
  intro now
  constructor
  · intro sought hs
    rw [lookups now] at hs
    cases hs
  · intro value _ sought hs
    rw [lookedUp now] at hs
    cases hs

theorem done (result : Except Failure α) : (Activity.done result).Recorded := of_nil (fun _ => rfl) fun _ => rfl

theorem look (sought : MockLookup) : (Activity.look sought).Recorded := by
  intro now
  rw [run_look]
  exact ⟨fun _ hs => hs, fun _ _ _ hs => hs⟩

theorem bind {first : Activity α} {second : α → Activity β} (hf : first.Recorded)
    (hs : ∀ value, (second value).Recorded) : (first >>= second).Recorded := by
  intro now
  rw [run_bind]
  exact (hf now).followedBy fun value => hs value _

theorem loop {σ : Type} {step : σ → Activity (σ ⊕ α)} (h : ∀ state, (step state).Recorded) (exhausted : σ → Failure)
    (left : Nat) (state : σ) : (Activity.loop step exhausted left state).Recorded :=
  loop_of_bind (P := fun _ => Activity.Recorded) (fun _ => done) (fun _ _ _ _ => bind) h exhausted left state

end Recorded

end Activity

/-! ## First turns -/

/-- The first turn of a course. -/
def Course.first : Course α → Turn
  | .ended turn _ => turn
  | .paused turn _ _ => turn

namespace Course

theorem first_waiting (turn : Turn) (time : Nat) (rest : Unit → Course α) : (waiting turn time rest).first = turn := by
  unfold waiting
  split <;> rfl

theorem first_startingIn (turn : Turn) (course : Course α) :
    (course.startingIn turn).first = turn.merge course.first := by
  cases course with
  | ended last result => rfl
  | paused own time rest =>
    by_cases ho : own.asksAgain
    · rw [startingIn, if_pos ho]
      rfl
    · rw [startingIn, if_neg ho, first_waiting]
      rfl

/-- What is seen in the first turn is seen in it, whatever comes after. -/
theorem mem_first_goOn {course : Course α} {event : Event} (h : event ∈ course.first.events)
    (next : α → Activity β) : event ∈ (course.goOn fun value => (next value).startIn).first.events := by
  cases course with
  | ended turn result =>
    cases result with
    | error failure => exact h
    | ok value =>
      show event ∈ (((next value) turn.time).startingIn turn).first.events
      rw [first_startingIn]
      exact List.mem_append_right _ h
  | paused turn time rest => exact h

theorem mem_events_of_first {course : Course α} {event : Event} (h : event ∈ course.first.events) :
    event ∈ course.toRun.events := by
  cases course with
  | ended turn result => exact List.mem_reverse.2 h
  | paused turn time rest => exact List.mem_append_left _ (List.mem_reverse.2 h)

end Course

/-! ## Waiting for answers -/

/-- Something is asked in the turn that has to be waited for. -/
def Turn.Waits (waits : Invocation → Prop) (turn : Turn) : Prop := ∃ i, Event.call i ∈ turn.events ∧ waits i

/-- All lookups that are seen in the turn are put on the record. -/
def Turn.Complete (turn : Turn) : Prop := ∀ sought, Event.lookup sought ∈ turn.events → sought ∈ turn.lookups

namespace Turn

variable {waits : Invocation → Prop} {first second : Turn}

theorem Waits.mono (h : first.Waits waits) (sub : ∀ event ∈ first.events, event ∈ second.events) :
    second.Waits waits := by
  obtain ⟨i, he, hw⟩ := h
  exact ⟨i, sub _ he, hw⟩

theorem Complete.idle (time : Nat) : (Turn.idle time).Complete := by
  intro sought hs
  cases hs

theorem Complete.merge (hf : first.Complete) (hs : second.Complete) : (first.merge second).Complete := by
  intro sought h
  rcases List.mem_append.1 h with h | h
  · exact List.mem_append_left _ (hs sought h)
  · exact List.mem_append_right _ (hf sought h)

end Turn

/-- The course ends in its first turn with all on the record that is seen, or else waits for an answer. -/
def Course.Prompt (waits : Invocation → Prop) (course : Course α) : Prop :=
  course.first.Waits waits ∨ ∃ turn result, course = .ended turn result ∧ turn.Complete

namespace Activity

/-- At whatever time it is started, the activity ends in its first turn with all on the record that is seen, or else
waits for an answer. -/
def Prompt (waits : Invocation → Prop) (activity : Activity α) : Prop := ∀ now, (activity now).Prompt waits

namespace Prompt

variable {waits : Invocation → Prop}

theorem done (result : Except Failure α) : (Activity.done result).Prompt waits := fun now =>
  .inr ⟨_, _, rfl, .idle now⟩

theorem look (sought : MockLookup) : (Activity.look sought).Prompt waits := by
  refine fun now => .inr ⟨_, _, rfl, fun found hf => ?_⟩
  cases List.mem_singleton.1 hf
  exact List.mem_singleton_self _

theorem bind {first : Activity α} {second : α → Activity β} (hf : first.Prompt waits)
    (hs : ∀ value, (second value).Prompt waits) : (first >>= second).Prompt waits := by
  intro now
  show ((first now).goOn fun value => (second value).startIn).Prompt waits
  rcases hf now with hw | ⟨turn, result, he, hc⟩
  · exact .inl (hw.mono fun event h => Course.mem_first_goOn h second)
  · rw [he]
    cases result with
    | error failure => exact .inr ⟨turn, _, rfl, hc⟩
    | ok value =>
      show (((second value) turn.time).startingIn turn).Prompt waits
      rcases hs value turn.time with hw | ⟨last, result, he, hl⟩
      · refine .inl (hw.mono fun event h => ?_)
        rw [Course.first_startingIn]
        exact List.mem_append_left _ h
      · rw [he]
        exact .inr ⟨_, _, rfl, hc.merge hl⟩

theorem loop {σ : Type} {step : σ → Activity (σ ⊕ α)} (h : ∀ state, (step state).Prompt waits)
    (exhausted : σ → Failure) (left : Nat) (state : σ) :
    (Activity.loop step exhausted left state).Prompt waits :=
  loop_of_bind (P := fun _ => Activity.Prompt waits) (fun _ => done) (fun _ _ _ _ => bind) h exhausted left state

/-- Where nothing is waited for, all that was seen is on the record. -/
theorem complete {activity : Activity α} (h : activity.Prompt waits) {now : Nat}
    (hw : ∀ i ∈ (activity.run now).calls, ¬ waits i) : (activity.run now).Complete := by
  rcases h now with ⟨i, hi, hwaits⟩ | ⟨turn, result, he, hc⟩
  · exact absurd hwaits (hw i (Run.mem_calls.2 (Course.mem_events_of_first hi)))
  · intro sought hs
    have hrun : activity.run now = ⟨result, turn.time, turn.events.reverse, turn.lookups.reverse⟩ :=
      congrArg Course.toRun he
    rw [Run.mem_lookedUp, hrun] at hs
    rw [hrun]
    exact List.mem_reverse.2 (hc sought (List.mem_reverse.1 hs))

end Prompt

end Activity

end StateBench

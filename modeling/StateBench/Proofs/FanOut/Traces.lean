import StateBench.Proofs.Activity.Records
import StateBench.Proofs.FanOut.Gathering

/-!
# What is seen of the units of a container

A container shows what its units show in the turns that it gives to them. A unit that has ended had all its turns, so
what its own run shows was seen (`Landing.Traced`, `traced_drain`). A unit that is abandoned had some of its turns only.
In a container that completes there are no such units, so what is seen belongs to units that have landed
(`landsIn_of_completed`).

That is enough to know that no lookups are lost where units are joined: containers have their lookups on the record if
their units have (`recorded_fanOut`).
-/

namespace StateBench

variable {α : Type} {jobs : List (Activity α)} {shown : Event → Prop}

/-! ## Units and their runs -/

/-- The unit came to its landing in a run of its job. -/
def Landing.OfRun (jobs : List (Activity α)) (run : Run α) (landing : Landing α) : Prop :=
  ∃ job start, jobs[landing.index]? = some job ∧ run = job.run start ∧ landing = .ofJob landing.index job start

/-- The unit came to its landing in a run of its job that was shown. -/
def Landing.Traced (jobs : List (Activity α)) (shown : Event → Prop) (landing : Landing α) : Prop :=
  ∃ run, landing.OfRun jobs run ∧ ∀ event ∈ run.events, shown event

/-- The unit is under way in a run of its job, which was shown but for what is ahead. -/
def Flight.Traced (jobs : List (Activity α)) (shown : Event → Prop) (flight : Flight α) : Prop :=
  ∃ run, flight.destiny.OfRun jobs run ∧
    (∀ event ∈ run.events, shown event ∨ event ∈ (flight.rest ()).toRun.events) ∧
    ∀ event ∈ (flight.rest ()).toRun.events, event ∈ run.events

namespace Flight.Traced

variable {flight : Flight α} {own : Turn}

theorem launch {unit : Nat × Activity α} (h : jobs[unit.1]? = some unit.2) (now : Nat) :
    (Pool.launch now unit).Traced jobs shown :=
  ⟨unit.2.run now, ⟨unit.2, now, h, rfl, rfl⟩, fun _ he => .inr he, fun _ he => he⟩

/-- After one of its turns the unit is in the same run. -/
theorem paused (h : flight.Traced jobs shown) {time : Nat} {rest : Unit → Course α}
    (hr : flight.rest () = .paused own time rest) (ho : ∀ event ∈ own.events, shown event) :
    (⟨flight.index, own.lookups ++ flight.lookups, time, rest⟩ : Flight α).Traced jobs shown := by
  obtain ⟨run, hrun, hall, hahead⟩ := h
  have hevents := Flight.events_paused hr
  refine ⟨run, ?_, fun event he => ?_, fun event he => hahead event ?_⟩
  · rw [Flight.destiny_paused hr]
    exact hrun
  · rcases hall event he with hs | ha
    · exact .inl hs
    · rw [hevents] at ha
      rcases List.mem_append.1 ha with ha | ha
      · exact .inl (ho event (List.mem_reverse.1 ha))
      · exact .inr ha
  · rw [hevents]
    exact List.mem_append_right _ he

/-- A unit that ends has shown all its run. -/
theorem ended (h : flight.Traced jobs shown) {result : Except Failure α} (hr : flight.rest () = .ended own result)
    (ho : ∀ event ∈ own.events, shown event) :
    (⟨flight.index, (own.lookups ++ flight.lookups).reverse, result⟩ : Landing α).Traced jobs shown := by
  obtain ⟨run, hrun, hall, -⟩ := h
  rw [Flight.destiny_ended hr] at hrun
  refine ⟨run, hrun, fun event he => ?_⟩
  rcases hall event he with hs | ha
  · exact hs
  · rw [hr] at ha
    exact ho event (List.mem_reverse.1 ha)

end Flight.Traced

namespace Pool

/-- The units of a pool under way are in runs that were shown, and the others in the backlog are units of the container.
-/
structure Traced (jobs : List (Activity α)) (shown : Event → Prop) (pool : Pool α) : Prop where
  flights : ∀ flight ∈ pool.flights, flight.Traced jobs shown
  backlog : ∀ unit ∈ pool.backlog, jobs[unit.1]? = some unit.2

theorem mem_flights_putBack {pool : Pool α} {asksAgain : Bool} {flight other : Flight α}
    (h : other ∈ (pool.putBack asksAgain flight).flights) : other = flight ∨ other ∈ pool.flights :=
  List.mem_cons.1 ((flights_putBack pool asksAgain flight).mem_iff.1 h)

namespace Traced

variable {pool : Pool α}

theorem start (limit : Nat) (jobs : List (Activity α)) (now : Nat) :
    (Pool.start limit jobs now).Traced jobs shown := by
  constructor
  · intro flight hm
    rcases List.mem_append.1 hm with hm | hm
    · obtain ⟨unit, hu, rfl⟩ := List.mem_map.1 hm
      exact .launch (getElem?_of_mem_backlog (List.mem_of_mem_take hu)) now
    · cases hm
  · intro unit hm
    exact getElem?_of_mem_backlog (List.mem_of_mem_drop hm)

theorem launchNext (h : pool.Traced jobs shown) (now : Nat) : (pool.launchNext now).Traced jobs shown := by
  refine ⟨fun flight hm => ?_, fun unit hu => ?_⟩
  · rcases List.mem_append.1 ((flights_launchNext pool now).mem_iff.1 hm) with hm | hm
    · obtain ⟨unit, hu, rfl⟩ := List.mem_map.1 hm
      exact .launch (h.backlog unit (List.mem_of_mem_take hu)) now
    · exact h.flights flight hm
  · rw [backlog_launchNext] at hu
    exact h.backlog unit (List.mem_of_mem_drop hu)

theorem wakeAt (h : pool.Traced jobs shown) (time : Nat) : (pool.wakeAt time).Traced jobs shown :=
  ⟨fun flight hm => h.flights flight (flights_wakeAt pool time ▸ hm), h.backlog⟩

end Traced

end Pool

/-! ## Rounds -/

/-- What is under way after a round, and what has landed in it, are in runs that were shown. -/
def Round.Traced (jobs : List (Activity α)) (shown : Event → Prop) : Round α → Prop
  | .landed _ landing pool => landing.Traced jobs shown ∧ pool.Traced jobs shown
  | .tired _ pool => pool.Traced jobs shown
  | .quiet _ pool => pool.Traced jobs shown

namespace Pool

/-- What was seen before a round is seen after it. -/
theorem mem_giveTurns {turns patience : Nat} {turn : Turn} {pool : Pool α} {event : Event} (h : event ∈ turn.events) :
    event ∈ (giveTurns turns patience turn pool).turn.events := by
  fun_induction giveTurns turns patience turn pool with
  | case1 => exact h
  | case2 => exact h
  | case3 => exact h
  | case4 turns patience turn pool flight queue hq own result hr => exact List.mem_append_right _ h
  | case5 turns patience turn pool flight queue hq own time rest hr ahead ih => exact ih (List.mem_append_right _ h)

theorem mem_round {turn : Turn} {pool : Pool α} {round : Round α} (hround : pool.round turn = round) {event : Event}
    (h : event ∈ turn.events) : event ∈ round.turn.events := by
  rw [← hround, Pool.round]
  split
  · exact h
  · exact mem_giveTurns h

theorem traced_giveTurns {turns patience : Nat} {turn : Turn} {pool : Pool α} (h : pool.Traced jobs shown)
    (hs : ∀ event ∈ (giveTurns turns patience turn pool).turn.events, shown event) :
    (giveTurns turns patience turn pool).Traced jobs shown := by
  fun_induction giveTurns turns patience turn pool with
  | case1 => exact h
  | case2 => exact h
  | case3 => exact h
  | case4 turns patience turn pool flight queue hq own result hr =>
    obtain ⟨hf, hrest⟩ := mem_flights_of_queue hq
    exact ⟨(h.flights flight hf).ended hr fun event he => hs event (List.mem_append_left _ he),
      fun other ho => h.flights other (hrest other ho), h.backlog⟩
  | case5 turns patience turn pool flight queue hq own time rest hr ahead ih =>
    obtain ⟨hf, hrest⟩ := mem_flights_of_queue hq
    -- The events of this turn are among those of the round.
    have hown : ∀ event ∈ own.events, shown event := fun event he =>
      hs event (mem_giveTurns (List.mem_append_left _ he))
    refine ih ⟨fun other ho => ?_, ?_⟩ hs
    · rcases mem_flights_putBack ho with rfl | ho
      · exact (h.flights flight hf).paused hr hown
      · exact h.flights other (hrest other ho)
    · rw [backlog_putBack]
      exact h.backlog

theorem traced_round {turn : Turn} {pool : Pool α} {round : Round α} (hround : pool.round turn = round)
    (h : pool.Traced jobs shown) (hs : ∀ event ∈ round.turn.events, shown event) : round.Traced jobs shown := by
  subst hround
  unfold Pool.round at hs ⊢
  split at hs
  · next he =>
    rw [if_pos he]
    exact h
  · next he =>
    rw [if_neg he]
    exact traced_giveTurns h hs

theorem seen_giveTurns {turns patience : Nat} {turn : Turn} {pool : Pool α} {event : Event}
    (h : event ∈ (giveTurns turns patience turn pool).turn.events) :
    event ∈ turn.events ∨ ∃ flight ∈ pool.flights, event ∈ (flight.rest ()).toRun.events := by
  fun_induction giveTurns turns patience turn pool with
  | case1 => exact .inl h
  | case2 => exact .inl h
  | case3 => exact .inl h
  | case4 turns patience turn pool flight queue hq own result hr =>
    obtain ⟨hf, -⟩ := mem_flights_of_queue hq
    rcases List.mem_append.1 h with h | h
    · refine .inr ⟨flight, hf, ?_⟩
      rw [hr]
      exact List.mem_reverse.2 h
    · exact .inl h
  | case5 turns patience turn pool flight queue hq own time rest hr ahead ih =>
    obtain ⟨hf, hrest⟩ := mem_flights_of_queue hq
    have hevents := Flight.events_paused hr
    rcases ih h with hturn | ⟨other, ho, he⟩
    · rcases List.mem_append.1 hturn with hown | hturn
      · refine .inr ⟨flight, hf, ?_⟩
        rw [hevents]
        exact List.mem_append_left _ (List.mem_reverse.2 hown)
      · exact .inl hturn
    · rcases mem_flights_putBack ho with rfl | ho
      · refine .inr ⟨flight, hf, ?_⟩
        rw [hevents]
        exact List.mem_append_right _ he
      · exact .inr ⟨other, hrest other ho, he⟩

/-- What is seen in a round is of the run of a unit that was under way. -/
theorem Traced.seen_round {turn : Turn} {pool : Pool α} {round : Round α} (hround : pool.round turn = round)
    {event : Event} (h : pool.Traced jobs shown) (he : event ∈ round.turn.events) :
    event ∈ turn.events ∨ ∃ landing ∈ pool.destinies, ∃ run, landing.OfRun jobs run ∧ event ∈ run.events := by
  rw [← hround, Pool.round] at he
  split at he
  · exact .inl he
  · rcases seen_giveTurns he with hturn | ⟨flight, hf, he⟩
    · exact .inl hturn
    · obtain ⟨run, hrun, -, hahead⟩ := h.flights flight hf
      exact .inr ⟨flight.destiny, List.mem_map_of_mem hf, run, hrun, hahead event he⟩

/-! ## Draining -/

/-- What was seen before is seen in the first turn. -/
theorem mem_first_drain {pool : Pool α} {turn : Turn} {event : Event} (h : event ∈ turn.events)
    (landings : List (Landing α)) : event ∈ (pool.drain turn landings).first.events := by
  fun_induction Pool.drain pool turn landings with
  | case1 pool turn landings last landing next hround failure hf => exact mem_round hround h
  | case2 pool turn landings last landing next hround value hv ih => exact ih (mem_round hround h)
  | case3 pool turn landings last next hround ih => exact mem_round hround h
  | case4 pool turn landings last next hround hn => exact mem_round hround h
  | case5 pool turn landings last next hround time hn ih =>
    rw [Course.first_waiting]
    exact mem_round hround h

/-- What a unit that has ended shows in its run is seen of its container. -/
theorem traced_drain {pool : Pool α} {turn : Turn} {landings : List (Landing α)} {outcome : Outcome α}
    (h : pool.Traced jobs shown) (hl : ∀ landing ∈ landings, landing.Traced jobs shown)
    (hs : ∀ event ∈ (pool.drain turn landings).toRun.events, shown event)
    (ho : (pool.drain turn landings).toRun.result = .ok outcome) :
    ∀ landing ∈ outcome.ended, landing.Traced jobs shown := by
  fun_induction Pool.drain pool turn landings with
  | case1 pool turn landings last landing next hround failure hf =>
    have hr := traced_round hround h fun event he => hs event (List.mem_reverse.2 he)
    cases ho
    exact List.forall_mem_cons.2 ⟨hr.1, hl⟩
  | case2 pool turn landings last landing next hround value hv ih =>
    have hr := traced_round hround h fun event he => hs event (Course.mem_events_of_first (mem_first_drain he _))
    exact ih (hr.2.launchNext _) (List.forall_mem_cons.2 ⟨hr.1, hl⟩) hs ho
  | case3 pool turn landings last next hround ih =>
    have hr := traced_round hround h fun event he => hs event (List.mem_append_left _ (List.mem_reverse.2 he))
    exact ih hr hl (fun event he => hs event (List.mem_append_right _ he)) ho
  | case4 pool turn landings last next hround hn =>
    cases ho
    exact hl
  | case5 pool turn landings last next hround time hn ih =>
    rw [Course.toRun_waiting] at hs ho
    have hr := traced_round hround h fun event he => hs event (List.mem_append_left _ (List.mem_reverse.2 he))
    exact ih (hr.wakeAt time) hl (fun event he => hs event (List.mem_append_right _ he)) ho

/-- The event is of the run of a unit that has landed. -/
def IsOfLanding (jobs : List (Activity α)) (landings : List (Landing α)) (event : Event) : Prop :=
  ∃ landing ∈ landings, ∃ run, landing.OfRun jobs run ∧ event ∈ run.events

/-- From a pool on some events are seen, and in the end there are some landings: those that there were and those of the
units under way are among these, and the events are of theirs or of the turn before. -/
structure LandsIn (jobs : List (Activity α)) (ends : List (Landing α)) (pool : Pool α) (turn : Turn)
    (landings : List (Landing α)) (events : List Event) : Prop where
  before : ∀ landing ∈ landings, landing ∈ ends
  units : ∀ landing ∈ pool.destinies, landing ∈ ends
  seen : ∀ event ∈ events, event ∈ turn.events ∨ IsOfLanding jobs ends event

namespace LandsIn

variable {ends landings : List (Landing α)} {pool next : Pool α} {turn last : Turn} {events : List Event}

/-- What is seen in a round is of units that land in the end. -/
theorem seen_round {round : Round α} (hround : pool.round turn = round) (h : pool.Traced jobs shown)
    (units : ∀ landing ∈ pool.destinies, landing ∈ ends) {event : Event} (he : event ∈ round.turn.events) :
    event ∈ turn.events ∨ IsOfLanding jobs ends event := by
  rcases Traced.seen_round hround h he with hturn | ⟨landing, hl, hrun⟩
  · exact .inl hturn
  · exact .inr ⟨landing, units landing hl, hrun⟩

/-- The container goes on in the turn of a round in which a unit has landed. -/
theorem landed {landing : Landing α} (hround : pool.round turn = .landed last landing next) (h : pool.Traced jobs shown)
    {now : Nat} (rest : LandsIn jobs ends (next.launchNext now) last (landing :: landings) events) :
    LandsIn jobs ends pool turn landings events := by
  have hd := destinies_round hround
  have hunits : ∀ other ∈ pool.destinies, other ∈ ends := by
    intro other hm
    rcases List.mem_cons.1 (hd.mem_iff.2 hm) with rfl | hm
    · exact rest.before _ List.mem_cons_self
    · exact rest.units other ((destinies_launchNext ..).mem_iff.2 (List.mem_append_right _ hm))
  refine ⟨fun other hm => rest.before other (List.mem_cons_of_mem _ hm), hunits, fun event he => ?_⟩
  rcases rest.seen event he with hlast | hrun
  · exact seen_round hround h hunits hlast
  · exact .inr hrun

/-- The container goes on with the same units in a turn after the round. -/
theorem paused {time : Nat} {round : Round α} (hround : pool.round turn = round) (h : pool.Traced jobs shown)
    (hd : next.destinies.Perm pool.destinies) (rest : LandsIn jobs ends next (.idle time) landings events) :
    LandsIn jobs ends pool turn landings (round.turn.events.reverse ++ events) := by
  have hunits : ∀ other ∈ pool.destinies, other ∈ ends := fun other hm => rest.units other (hd.mem_iff.2 hm)
  refine ⟨rest.before, hunits, fun event he => ?_⟩
  rcases List.mem_append.1 he with he | he
  · exact seen_round hround h hunits (List.mem_reverse.1 he)
  · rcases rest.seen event he with hidle | hrun
    · cases hidle
    · exact .inr hrun

end LandsIn

/-- What is seen of a container that completes is of units that have landed. -/
theorem landsIn_of_completed {pool : Pool α} {turn : Turn} {landings ends : List (Landing α)}
    (h : pool.Traced jobs fun _ => True)
    (ho : (pool.drain turn landings).toRun.result = .ok (.completed ends)) :
    LandsIn jobs ends pool turn landings (pool.drain turn landings).toRun.events := by
  fun_induction Pool.drain pool turn landings with
  | case1 pool turn landings last landing next hround failure hf => cases ho
  | case2 pool turn landings last landing next hround value hv ih =>
    have hr := traced_round hround h fun _ _ => trivial
    exact .landed hround h (ih (hr.2.launchNext _) ho)
  | case3 pool turn landings last next hround ih =>
    have hr := traced_round hround h fun _ _ => trivial
    exact .paused hround h (destinies_round hround) (ih hr ho)
  | case4 pool turn landings last next hround hn =>
    have hd : pool.destinies = [] := destinies_of_quiet hround hn
    have hunits : ∀ other ∈ pool.destinies, other ∈ landings := by
      intro other hm
      rw [hd] at hm
      cases hm
    cases ho
    exact ⟨fun _ hm => hm, hunits, fun event he => LandsIn.seen_round hround h hunits (List.mem_reverse.1 he)⟩
  | case5 pool turn landings last next hround time hn ih =>
    rw [Course.toRun_waiting] at ho ⊢
    have hr := traced_round hround h fun _ _ => trivial
    refine .paused hround h ?_ (ih (hr.wakeAt time) ho)
    rw [destinies_wakeAt]
    exact destinies_round hround

end Pool

/-! ## Containers -/

/-- When some jobs have been run, each that has ended was seen to do what it did, and if all have ended well, nothing
else was seen. -/
theorem traces_runJobs (limit : Nat) (jobs : List (Activity α)) (now : Nat) :
    ∃ outcome, ((runJobs limit jobs).run now).result = .ok outcome ∧
      ((runJobs limit jobs).run now).lookups = [] ∧
      (∀ landing ∈ outcome.ended, landing.Traced jobs fun event => event ∈ ((runJobs limit jobs).run now).events) ∧
      ∀ landings, outcome = .completed landings →
        (∀ landing ∈ landings, ∃ value, landing.result = .ok value) ∧
          ∀ event ∈ ((runJobs limit jobs).run now).events, Pool.IsOfLanding jobs landings event := by
  obtain ⟨stop, outcome, reaches, ends, result, lookups⟩ := run_runJobs limit jobs now
  refine ⟨outcome, result, lookups, ?_, ?_⟩
  · exact Pool.traced_drain (.start limit jobs now) (List.forall_mem_nil _) (fun event he => he) result
  · rintro landings rfl
    have hok := ((Loop.Sound.start limit jobs now).of_reaches reaches).own_of_ends ends
    have hlands := Pool.landsIn_of_completed (.start limit jobs now) result
    refine ⟨fun landing hl => (hok landing hl).2, fun event he => ?_⟩
    rcases hlands.seen event he with hidle | hrun
    · cases hidle
    · exact hrun

namespace Landing

variable {landing : Landing Json} {jobs : List (Activity Json)} {run : Run Json}

/-- The run of a unit has its lookups on the record. -/
theorem OfRun.recorded (h : landing.OfRun jobs run) (hj : ∀ job ∈ jobs, job.Recorded) :
    run.Recorded ∧ landing.lookups = run.lookups ∧ landing.result = run.result := by
  obtain ⟨job, start, hi, rfl, hl⟩ := h
  refine ⟨hj job (List.mem_of_getElem? hi) start, ?_, ?_⟩
  · rw [hl]
    rfl
  · rw [hl]
    rfl

end Landing

/-- Where units have their lookups on the record, so has their container. -/
theorem recorded_fanOut (container : StatePath) (limit : Nat) {units : List (FanUnit Activity)}
    (h : ∀ unit ∈ units, unit.job.Recorded) : (fanOut container limit units).Recorded := by
  have hj : ∀ job ∈ units.map (·.job), job.Recorded := List.forall_mem_map.2 h
  intro now
  obtain ⟨outcome, result, lookups, traced, completed⟩ := traces_runJobs limit (units.map (·.job)) now
  rw [run_fanOut_of_runJobs result, lookups, List.nil_append]
  constructor
  · intro sought hs
    obtain ⟨landing, hl, hs⟩ := List.mem_flatMap.1 hs
    obtain ⟨run, hrun, hall⟩ := traced landing (Landing.mem_inOrder.1 hl)
    obtain ⟨recorded, hlookups, -⟩ := hrun.recorded hj
    rw [hlookups] at hs
    rw [Run.mem_lookedUp]
    exact hall _ (Run.mem_lookedUp.1 (recorded.seen sought hs))
  · intro value hv sought hs
    rw [Run.mem_lookedUp] at hs
    cases outcome with
    | stopped landings failed failure => cases hv
    | completed landings =>
      obtain ⟨hok, hseen⟩ := completed landings rfl
      obtain ⟨landing, hl, run, hrun, he⟩ := hseen _ hs
      obtain ⟨recorded, hlookups, hres⟩ := hrun.recorded hj
      obtain ⟨output, ho⟩ := hok landing hl
      have hrecord : sought ∈ run.lookups := recorded.complete output (hres ▸ ho) sought (Run.mem_lookedUp.2 he)
      exact List.mem_flatMap.2 ⟨landing, Landing.mem_inOrder.2 hl, hlookups ▸ hrecord⟩

end StateBench

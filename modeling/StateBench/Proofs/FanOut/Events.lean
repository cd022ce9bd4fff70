import StateBench.Proofs.Activity.Events
import StateBench.Proofs.FanOut.Rounds

/-!
# What containers show

What is seen of a container is seen in the turns that it gives to its units, and nowhere else: if the events of all its
units are allowed, so are its own (`shows_fanOut`). Every round keeps that of the units under way and of the backlog
(`Pool.shows_round`), whether their turns come or not.
-/

namespace StateBench

variable {α : Type} {allowed : Event → Prop}

/-! ## Pools -/

namespace Pool

/-- All events that the units of a pool can still come to are allowed. -/
structure Shows (allowed : Event → Prop) (pool : Pool α) : Prop where
  queue : ∀ flight ∈ pool.queue, (flight.rest ()).Shows allowed
  waiting : ∀ flight ∈ pool.waiting, (flight.rest ()).Shows allowed
  backlog : ∀ unit ∈ pool.backlog, unit.2.Shows allowed

namespace Shows

variable {pool : Pool α}

theorem start {jobs : List (Activity α)} (h : ∀ job ∈ jobs, job.Shows allowed) (limit now : Nat) :
    (Pool.start limit jobs now).Shows allowed := by
  have hu : ∀ unit ∈ jobs.zipIdx.map fun pair => (pair.2, pair.1), unit.2.Shows allowed := by
    intro unit hm
    exact h unit.2 (List.mem_of_getElem? (getElem?_of_mem_backlog hm))
  constructor
  · intro flight hm
    obtain ⟨unit, ht, rfl⟩ := List.mem_map.1 hm
    exact hu unit (List.mem_of_mem_take ht) now
  · intro flight hm
    cases hm
  · exact fun unit hm => hu unit (List.mem_of_mem_drop hm)

theorem launchNext (h : pool.Shows allowed) (now : Nat) : (pool.launchNext now).Shows allowed := by
  rw [launchNext_eq]
  refine ⟨fun flight hm => ?_, h.waiting, fun unit hu => h.backlog unit (List.mem_of_mem_drop hu)⟩
  rcases List.mem_append.1 hm with hm | hm
  · exact h.queue flight hm
  · obtain ⟨unit, hu, rfl⟩ := List.mem_map.1 hm
    exact h.backlog unit (List.mem_of_mem_take hu) now

theorem mem_addWaiting {flight other : Flight α} {flights : List (Flight α)}
    (h : other ∈ addWaiting flight flights) : other = flight ∨ other ∈ flights := by
  fun_induction addWaiting flight flights with
  | case1 => exact .inl (List.mem_singleton.1 h)
  | case2 first flights _ ih =>
    rcases List.mem_cons.1 h with rfl | h
    · exact .inr List.mem_cons_self
    · exact (ih h).imp id (List.mem_cons_of_mem _)
  | case3 first flights => exact List.mem_cons.1 h

theorem putBack (h : pool.Shows allowed) {flight : Flight α} (hf : (flight.rest ()).Shows allowed) (asksAgain : Bool) :
    (pool.putBack asksAgain flight).Shows allowed := by
  unfold Pool.putBack
  split
  · refine ⟨fun other ho => ?_, h.waiting, h.backlog⟩
    rcases List.mem_append.1 ho with ho | ho
    · exact h.queue other ho
    · obtain rfl := List.mem_singleton.1 ho
      exact hf
  · refine ⟨h.queue, fun other ho => ?_, h.backlog⟩
    rcases mem_addWaiting ho with rfl | ho
    · exact hf
    · exact h.waiting other ho

theorem wakeAt (h : pool.Shows allowed) (time : Nat) : (pool.wakeAt time).Shows allowed := by
  constructor
  · intro flight hm
    rcases List.mem_append.1 hm with hm | hm
    · exact h.queue flight hm
    · exact h.waiting flight (List.takeWhile_sublist _ |>.subset hm)
  · exact fun flight hm => h.waiting flight (List.dropWhile_sublist _ |>.subset hm)
  · exact h.backlog

end Shows

/-! ## Rounds -/

theorem shows_giveTurns {turns patience : Nat} {turn : Turn} {pool : Pool α} (h : pool.Shows allowed)
    (ht : turn.Shows allowed) :
    (giveTurns turns patience turn pool).turn.Shows allowed ∧
      (giveTurns turns patience turn pool).pool.Shows allowed := by
  -- A unit that has a turn adds the events of that turn, and what is left of its course.
  have withUnit {turn own : Turn} (ht : turn.Shows allowed) (ho : own.Shows allowed) :
      (turn.withUnit own).Shows allowed :=
    fun event he => (List.mem_append.1 he).elim (ho event) (ht event)
  fun_induction giveTurns turns patience turn pool with
  | case1 => exact ⟨ht, h⟩
  | case2 => exact ⟨ht, h⟩
  | case3 => exact ⟨ht, h⟩
  | case4 turns patience turn pool flight queue hq own result hr =>
    have hf := h.queue flight (hq ▸ List.mem_cons_self)
    rw [hr] at hf
    exact ⟨withUnit ht hf, fun other ho => h.queue other (hq ▸ List.mem_cons_of_mem _ ho), h.waiting, h.backlog⟩
  | case5 turns patience turn pool flight queue hq own time rest hr ahead ih =>
    have hf := h.queue flight (hq ▸ List.mem_cons_self)
    rw [hr] at hf
    have hp : ({ pool with queue } : Pool α).Shows allowed :=
      ⟨fun other ho => h.queue other (hq ▸ List.mem_cons_of_mem _ ho), h.waiting, h.backlog⟩
    exact ih (hp.putBack hf.2 own.asksAgain) (withUnit ht hf.1)

/-- The events of a round are those of its units. -/
theorem shows_round {turn : Turn} {pool : Pool α} {round : Round α} (hround : pool.round turn = round)
    (h : pool.Shows allowed) (ht : turn.Shows allowed) : round.turn.Shows allowed ∧ round.pool.Shows allowed := by
  rw [← hround, Pool.round]
  split
  · exact ⟨ht, h⟩
  · exact shows_giveTurns h ht

/-- The events of a container from a pool on are those of its units. -/
theorem shows_drain {pool : Pool α} {turn : Turn} (h : pool.Shows allowed) (ht : turn.Shows allowed)
    (landings : List (Landing α)) : (pool.drain turn landings).Shows allowed := by
  fun_induction Pool.drain pool turn landings with
  | case1 pool turn landings last landing next hround failure hf =>
    have hr := shows_round hround h ht
    exact hr.1
  | case2 pool turn landings last landing next hround value hv ih =>
    have hr := shows_round hround h ht
    exact ih (hr.2.launchNext _) hr.1
  | case3 pool turn landings last next hround ih =>
    have hr := shows_round hround h ht
    exact ⟨hr.1, ih hr.2 (.idle _)⟩
  | case4 pool turn landings last next hround hn =>
    have hr := shows_round hround h ht
    exact hr.1
  | case5 pool turn landings last next hround time hn ih =>
    have hr := shows_round hround h ht
    exact .waiting hr.1 time (ih (hr.2.wakeAt time) (.idle _))

end Pool

/-! ## Containers -/

/-- A container whose units show only what is allowed does so itself. -/
theorem shows_fanOut (container : StatePath) (limit : Nat) {units : List (FanUnit Activity)}
    (h : ∀ unit ∈ units, unit.job.Shows allowed) : (fanOut container limit units).Shows allowed := by
  have hj : ∀ job ∈ units.map (·.job), job.Shows allowed := by
    intro job hm
    obtain ⟨unit, hu, rfl⟩ := List.mem_map.1 hm
    exact h unit hu
  have hr : (runJobs limit (units.map (·.job))).Shows allowed := fun now =>
    Pool.shows_drain (.start hj limit now) (.idle now) []
  exact hr.bind fun outcome => Activity.Shows.bind (.note outcome.lookups) fun _ => .done _

end StateBench

import StateBench.FanOut

/-!
# What rounds keep

A unit under way will come to one landing, whatever else is done in its container (`Flight.destiny`). Rounds take turns
of the units and put them elsewhere, and the first unit that ends lands as it was bound to: so they keep what the units
of a pool come to (`destinies_round`), and the backlog (`backlog_round`). What a container does after a round follows
from how the round ended (`drain_of_failed`, `drain_of_landed` and so on).
-/

namespace StateBench

/-! ## Where units under way land -/

variable {α : Type}

/-- The landing that a unit under way comes to if it is let. -/
def Flight.destiny (flight : Flight α) : Landing α :=
  ⟨flight.index, flight.lookups.reverse ++ (flight.rest ()).toRun.lookups, (flight.rest ()).toRun.result⟩

/-- The landing of a unit that is started at a time. -/
def Landing.ofJob (index : Nat) (job : Activity α) (start : Nat) : Landing α :=
  ⟨index, (job.run start).lookups, (job.run start).result⟩

/-- The units of a container are its jobs, under their places. -/
theorem getElem?_of_mem_backlog {jobs : List (Activity α)} {unit : Nat × Activity α}
    (h : unit ∈ jobs.zipIdx.map fun pair => (pair.2, pair.1)) : jobs[unit.1]? = some unit.2 := by
  obtain ⟨pair, hp, rfl⟩ := List.mem_map.1 h
  exact List.mk_mem_zipIdx_iff_getElem?.1 hp

namespace Flight

/-- A turn in which a unit does not end leaves what it comes to. -/
theorem destiny_paused {flight : Flight α} {own : Turn} {time : Nat} {rest : Unit → Course α}
    (h : flight.rest () = .paused own time rest) :
    (⟨flight.index, own.lookups ++ flight.lookups, time, rest⟩ : Flight α).destiny = flight.destiny := by
  simp [destiny, h, Course.toRun, Run.after]

/-- A unit that ends comes to what it was to come to. -/
theorem destiny_ended {flight : Flight α} {own : Turn} {result : Except Failure α}
    (h : flight.rest () = .ended own result) :
    flight.destiny = ⟨flight.index, (own.lookups ++ flight.lookups).reverse, result⟩ := by
  simp [destiny, h, Course.toRun]

/-- What is seen of a unit from one of its turns on is seen in this turn or after it. -/
theorem events_paused {flight : Flight α} {own : Turn} {time : Nat} {rest : Unit → Course α}
    (h : flight.rest () = .paused own time rest) :
    (flight.rest ()).toRun.events = own.events.reverse ++ (rest ()).toRun.events := by
  rw [h]
  rfl

end Flight

/-- The turn in which a round ended. -/
def Round.turn : Round α → Turn
  | .landed turn _ _ => turn
  | .tired turn _ => turn
  | .quiet turn _ => turn

namespace Pool

/-! ## Units of a pool -/

/-- The units under way. -/
def flights (pool : Pool α) : List (Flight α) := pool.queue ++ pool.waiting

/-- What the units under way come to. -/
def destinies (pool : Pool α) : List (Landing α) := pool.flights.map Flight.destiny

/-- The first unit in the queue is under way, and so are the others. -/
theorem mem_flights_of_queue {pool : Pool α} {flight : Flight α} {queue : List (Flight α)}
    (h : pool.queue = flight :: queue) :
    flight ∈ pool.flights ∧ ∀ other ∈ queue ++ pool.waiting, other ∈ pool.flights := by
  rw [flights, h, List.cons_append]
  exact ⟨List.mem_cons_self, fun other ho => List.mem_cons_of_mem _ ho⟩

theorem destinies_eq (pool : Pool α) :
    pool.destinies = pool.queue.map Flight.destiny ++ pool.waiting.map Flight.destiny := by
  rw [destinies, flights, List.map_append]

theorem addWaiting_perm (flight : Flight α) (flights : List (Flight α)) :
    (addWaiting flight flights).Perm (flight :: flights) := by
  fun_induction addWaiting flight flights with
  | case1 => exact .refl _
  | case2 first flights _ ih => exact (ih.cons first).trans (.swap ..)
  | case3 first flights => exact .refl _

/-- A unit that is put back is under way beside the others. -/
theorem flights_putBack (pool : Pool α) (asksAgain : Bool) (flight : Flight α) :
    (pool.putBack asksAgain flight).flights.Perm (flight :: pool.flights) := by
  unfold putBack flights
  split
  · rw [List.append_assoc]
    exact List.perm_middle
  · exact ((addWaiting_perm flight pool.waiting).append_left _).trans List.perm_middle

/-- Waking units leaves them under way. -/
theorem flights_wakeAt (pool : Pool α) (time : Nat) : (pool.wakeAt time).flights = pool.flights := by
  simp only [flights, wakeAt, List.append_assoc, List.takeWhile_append_dropWhile]

/-- The next unit is started from the backlog, if there is one. -/
theorem launchNext_eq (pool : Pool α) (now : Nat) :
    pool.launchNext now =
      ⟨pool.queue ++ (pool.backlog.take 1).map (launch now), pool.waiting, pool.backlog.drop 1⟩ := by
  obtain ⟨queue, waiting, backlog⟩ := pool
  cases backlog with
  | nil => simp [launchNext]
  | cons unit backlog => rfl

theorem flights_launchNext (pool : Pool α) (now : Nat) :
    (pool.launchNext now).flights.Perm ((pool.backlog.take 1).map (launch now) ++ pool.flights) := by
  rw [launchNext_eq, flights, flights, ← List.append_assoc]
  exact List.perm_append_comm.append_right _

theorem length_flights (pool : Pool α) : pool.flights.length = pool.size := by
  rw [flights, List.length_append, size]

theorem destinies_putBack (pool : Pool α) (asksAgain : Bool) (flight : Flight α) :
    (pool.putBack asksAgain flight).destinies.Perm (flight.destiny :: pool.destinies) :=
  (flights_putBack pool asksAgain flight).map _

theorem destinies_wakeAt (pool : Pool α) (time : Nat) : (pool.wakeAt time).destinies = pool.destinies := by
  rw [destinies, flights_wakeAt, destinies]

theorem destinies_launchNext (pool : Pool α) (now : Nat) :
    (pool.launchNext now).destinies.Perm
      ((pool.backlog.take 1).map (fun unit => .ofJob unit.1 unit.2 now) ++ pool.destinies) := by
  have hflights := (flights_launchNext pool now).map Flight.destiny
  rwa [List.map_append, List.map_map] at hflights

theorem backlog_launchNext (pool : Pool α) (now : Nat) : (pool.launchNext now).backlog = pool.backlog.drop 1 := by
  rw [launchNext_eq]

theorem launch_mem_launchNext {pool : Pool α} {unit : Nat × Activity α} (h : unit ∈ pool.backlog.take 1) (now : Nat) :
    launch now unit ∈ (pool.launchNext now).queue := by
  rw [launchNext_eq]
  exact List.mem_append_right _ (List.mem_map_of_mem h)

/-- The units that have not landed. -/
def indices (pool : Pool α) : List Nat := pool.destinies.map (·.index) ++ pool.backlog.map (·.1)

theorem indices_launchNext (pool : Pool α) (now : Nat) : (pool.launchNext now).indices.Perm pool.indices := by
  unfold indices
  rw [backlog_launchNext]
  refine (((destinies_launchNext pool now).map _).append_right _).trans ?_
  cases pool.backlog with
  | nil => exact .refl _
  | cons unit backlog => simpa [Landing.ofJob] using List.perm_middle.symm

end Pool

/-! ## Rounds -/

namespace Round

/-- What the units of a round come to, with the one that has landed. -/
def destinies : Round α → List (Landing α)
  | .landed _ landing pool => landing :: pool.destinies
  | .tired _ pool => pool.destinies
  | .quiet _ pool => pool.destinies

end Round

namespace Pool

theorem destinies_giveTurns (turns patience : Nat) (turn : Turn) (pool : Pool α) :
    (giveTurns turns patience turn pool).destinies.Perm pool.destinies := by
  fun_induction giveTurns turns patience turn pool with
  | case1 => exact .refl _
  | case2 => exact .refl _
  | case3 => exact .refl _
  | case4 turns patience turn pool flight queue hq own result hr =>
    rw [Round.destinies, ← Flight.destiny_ended hr, destinies_eq, destinies_eq, hq]
    exact .refl _
  | case5 turns patience turn pool flight queue hq own time rest hr ahead ih =>
    refine (ih.trans (destinies_putBack ..)).trans ?_
    rw [Flight.destiny_paused hr, destinies_eq, destinies_eq, hq]
    exact .refl _

/-- A round keeps what the units come to. -/
theorem destinies_round {pool : Pool α} {turn : Turn} {round : Round α} (h : pool.round turn = round) :
    round.destinies.Perm pool.destinies := by
  rw [← h, Pool.round]
  split
  · exact .refl _
  · exact destinies_giveTurns ..

theorem turn_giveTurns (turns patience : Nat) (turn : Turn) (pool : Pool α) :
    (giveTurns turns patience turn pool).turn.time = turn.time ∧
      (giveTurns turns patience turn pool).turn.lookups = turn.lookups := by
  fun_induction giveTurns turns patience turn pool with
  | case1 => exact ⟨rfl, rfl⟩
  | case2 => exact ⟨rfl, rfl⟩
  | case3 => exact ⟨rfl, rfl⟩
  | case4 => exact ⟨rfl, rfl⟩
  | case5 turns patience turn pool flight queue hq own time rest hr ahead ih => exact ih

/-- A round is one turn of its container, to which the lookups of the units do not go. -/
theorem turn_round {pool : Pool α} {turn : Turn} {round : Round α} (h : pool.round turn = round) :
    round.turn.time = turn.time ∧ round.turn.lookups = turn.lookups := by
  rw [← h, Pool.round]
  split
  · exact ⟨rfl, rfl⟩
  · exact turn_giveTurns ..

theorem queue_giveTurns_quiet {turns patience : Nat} {turn last : Turn} {pool next : Pool α}
    (h : giveTurns turns patience turn pool = .quiet last next) : next.queue = [] := by
  fun_induction giveTurns turns patience turn pool with
  | case1 => cases h
  | case2 => cases h
  | case3 turns patience turn pool hq => cases h; exact hq
  | case4 => cases h
  | case5 turns patience turn pool flight queue hq own time rest hr ahead ih => exact ih h

/-- After a quiet round no unit has asked for a turn. -/
theorem queue_of_quiet {turn last : Turn} {pool next : Pool α} (h : pool.round turn = .quiet last next) :
    next.queue = [] := by
  unfold round at h
  split at h
  · next hq => cases h; simpa using hq
  · exact queue_giveTurns_quiet h

/-- After a round with nothing to wait for there was no unit under way. -/
theorem destinies_of_quiet {turn last : Turn} {pool next : Pool α} (h : pool.round turn = .quiet last next)
    (hn : next.firstTime? = none) : pool.destinies = [] := by
  have hd : next.destinies.Perm pool.destinies := destinies_round h
  have hw : next.waiting = [] := by simpa [firstTime?] using hn
  have hempty : next.destinies = [] := by
    rw [destinies_eq, queue_of_quiet h, hw]
    rfl
  exact List.nil_perm.1 (hempty ▸ hd)

/-! ## Draining -/

section Drain

variable {pool next : Pool α} {turn last : Turn} {landing : Landing α}

theorem drain_of_failed {failure : Failure} (h : pool.round turn = .landed last landing next)
    (hf : landing.result = .error failure) (landings : List (Landing α)) :
    pool.drain turn landings = .ended last (.ok (.stopped landings landing failure)) := by
  rw [drain]
  split <;> rename_i h' <;> rw [h] at h' <;> cases h'
  simp only [hf]

theorem drain_of_landed {value : α} (h : pool.round turn = .landed last landing next)
    (hv : landing.result = .ok value) (landings : List (Landing α)) :
    pool.drain turn landings = (next.launchNext last.time).drain last (landing :: landings) := by
  rw [drain]
  split <;> rename_i h' <;> rw [h] at h' <;> cases h'
  simp only [hv]

theorem drain_of_tired (h : pool.round turn = .tired last next) (landings : List (Landing α)) :
    pool.drain turn landings = .paused last last.time fun () => next.drain (.idle last.time) landings := by
  rw [drain]
  split <;> rename_i h' <;> rw [h] at h' <;> cases h'
  rfl

theorem drain_of_quiet (h : pool.round turn = .quiet last next) (hn : next.firstTime? = none)
    (landings : List (Landing α)) : pool.drain turn landings = .ended last (.ok (.completed landings)) := by
  rw [drain]
  split <;> rename_i h' <;> rw [h] at h' <;> cases h'
  split
  · rfl
  · next ht => rw [hn] at ht; cases ht

theorem drain_of_woken {time : Nat} (h : pool.round turn = .quiet last next) (ht : next.firstTime? = some time)
    (landings : List (Landing α)) :
    pool.drain turn landings = .waiting last time fun () => (next.wakeAt time).drain (.idle time) landings := by
  rw [drain]
  split <;> rename_i h' <;> rw [h] at h' <;> cases h'
  split
  · next hn => rw [ht] at hn; cases hn
  · next hn =>
    rw [ht] at hn
    cases hn
    rfl

end Drain

end Pool

end StateBench

import StateBench.Proofs.Activity.Silent
import StateBench.Proofs.FanOut.Rounds

/-!
# Containers without what passes to executors

A container goes through the same rounds whether or not its units tell what passed to an executor: the events of a turn
are never looked at. So leaving out the events of its units leaves out those of the container, and nothing else
(`Pool.drain_silent`, `silent_fanOut_congr`).
-/

namespace StateBench

variable {α : Type}

/-! ## Pools -/

/-- The unit with the events of the turns ahead left out. -/
def Flight.silent (flight : Flight α) : Flight α := { flight with rest := fun () => (flight.rest ()).silent }

/-- The pool with the events of its units left out. -/
def Pool.silent (pool : Pool α) : Pool α where
  queue := pool.queue.map Flight.silent
  waiting := pool.waiting.map Flight.silent
  backlog := pool.backlog.map fun unit => (unit.1, unit.2.silent)

/-- The round without its events. -/
def Round.silent : Round α → Round α
  | .landed turn landing pool => .landed turn.silent landing pool.silent
  | .tired turn pool => .tired turn.silent pool.silent
  | .quiet turn pool => .quiet turn.silent pool.silent

namespace Pool

theorem start_silent (limit : Nat) (jobs : List (Activity α)) (now : Nat) :
    start limit (jobs.map Activity.silent) now = (start limit jobs now).silent := by
  simp only [start, silent, List.zipIdx_map, List.map_map, ← List.map_take, ← List.map_drop, List.map_nil]
  rfl

theorem launchNext_silent (pool : Pool α) (now : Nat) : pool.silent.launchNext now = (pool.launchNext now).silent := by
  rw [launchNext_eq, launchNext_eq]
  simp only [silent, List.map_append, List.map_map, ← List.map_take, ← List.map_drop]
  rfl

theorem addWaiting_silent (flight : Flight α) (flights : List (Flight α)) :
    addWaiting flight.silent (flights.map Flight.silent) = (addWaiting flight flights).map Flight.silent := by
  fun_induction addWaiting flight flights with
  | case1 => rfl
  | case2 first flights h ih =>
    rw [List.map_cons, List.map_cons, addWaiting, if_pos (show first.silent.time ≤ flight.silent.time from h), ih]
  | case3 first flights h =>
    rw [List.map_cons, addWaiting, if_neg (show ¬ first.silent.time ≤ flight.silent.time from h)]
    rfl

theorem putBack_silent (pool : Pool α) (asksAgain : Bool) (flight : Flight α) :
    pool.silent.putBack asksAgain flight.silent = (pool.putBack asksAgain flight).silent := by
  cases asksAgain with
  | true => simp [putBack, silent]
  | false => simp [putBack, silent, addWaiting_silent]

theorem firstTime?_silent (pool : Pool α) : pool.silent.firstTime? = pool.firstTime? := by
  unfold firstTime? silent
  cases pool.waiting <;> rfl

theorem wakeAt_silent (pool : Pool α) (time : Nat) : pool.silent.wakeAt time = (pool.wakeAt time).silent := by
  simp only [wakeAt, silent, List.takeWhile_map, List.dropWhile_map, List.map_append]
  rfl

/-! ## Rounds -/

theorem giveTurns_silent (turns patience : Nat) (turn : Turn) (pool : Pool α) :
    giveTurns turns patience turn.silent pool.silent = (giveTurns turns patience turn pool).silent := by
  fun_induction giveTurns turns patience turn pool with
  | case1 => rw [giveTurns]; rfl
  | case2 turns turn pool hp =>
    rw [giveTurns]
    · rfl
    · exact hp
  | case3 turns patience turn pool hq =>
    have hs : pool.silent.queue = [] := by rw [silent, hq]; rfl
    rw [giveTurns, hs]
    rfl
  | case4 turns patience turn pool flight queue hq own result hr =>
    have hs : pool.silent.queue = flight.silent :: queue.map Flight.silent := by rw [silent, hq]; rfl
    have hf : flight.silent.rest () = .ended own.silent result := congrArg Course.silent hr
    rw [giveTurns, hs]
    simp only [hf]
    rfl
  | case5 turns patience turn pool flight queue hq own time rest hr ahead ih =>
    have hs : pool.silent.queue = flight.silent :: queue.map Flight.silent := by rw [silent, hq]; rfl
    have hf : flight.silent.rest () = .paused own.silent time fun () => (rest ()).silent := congrArg Course.silent hr
    rw [giveTurns, hs]
    simp only [hf]
    rw [← ih, ← putBack_silent]
    rfl

theorem round_silent (turn : Turn) (pool : Pool α) : pool.silent.round turn.silent = (pool.round turn).silent := by
  have hs : pool.silent.size = pool.size := by simp [size, silent]
  have hq : pool.silent.queue.isEmpty = pool.queue.isEmpty := by simp [silent]
  unfold round
  rw [hs, hq]
  split
  · rfl
  · exact giveTurns_silent ..

/-! ## Draining -/

/-- A container does the same with units whose events are left out. -/
theorem drain_silent (pool : Pool α) (turn : Turn) (landings : List (Landing α)) :
    pool.silent.drain turn.silent landings = (pool.drain turn landings).silent := by
  fun_induction Pool.drain pool turn landings with
  | case1 pool turn landings last landing next hround failure hf =>
    have hr := round_silent turn pool
    rw [hround] at hr
    rw [drain_of_failed hr hf]
    rfl
  | case2 pool turn landings last landing next hround value hv ih =>
    have hr := round_silent turn pool
    rw [hround] at hr
    rw [drain_of_landed hr hv, launchNext_silent]
    exact ih
  | case3 pool turn landings last next hround ih =>
    have hr := round_silent turn pool
    rw [hround] at hr
    rw [drain_of_tired hr]
    exact congrArg (fun course => Course.paused last.silent last.time fun () => course) ih
  | case4 pool turn landings last next hround hn =>
    have hr := round_silent turn pool
    rw [hround] at hr
    rw [drain_of_quiet hr (next.firstTime?_silent.trans hn)]
    rfl
  | case5 pool turn landings last next hround time hn ih =>
    have hr := round_silent turn pool
    rw [hround] at hr
    rw [drain_of_woken hr (next.firstTime?_silent.trans hn), Course.silent_waiting, wakeAt_silent, ← ih]
    rfl

end Pool

/-! ## Containers -/

theorem silent_runJobs (limit : Nat) (jobs : List (Activity α)) :
    (runJobs limit jobs).silent = runJobs limit (jobs.map Activity.silent) := by
  funext now
  show ((Pool.start limit jobs now).drain (.idle now) []).silent = _
  rw [← Pool.drain_silent, Turn.silent_idle, ← Pool.start_silent]
  rfl

/-- Containers are the same but for their events if their units are. -/
theorem silent_fanOut_congr (container : StatePath) (limit : Nat) {units others : List (FanUnit Activity)}
    (names : units.map (·.name) = others.map (·.name))
    (jobs : units.map (·.job.silent) = others.map (·.job.silent)) :
    (fanOut container limit units).silent = (fanOut container limit others).silent := by
  have hr : (runJobs limit (units.map (·.job))).silent = (runJobs limit (others.map (·.job))).silent := by
    rw [silent_runJobs, silent_runJobs, List.map_map, List.map_map]
    exact congrArg (runJobs limit) jobs
  unfold fanOut
  rw [names]
  exact Activity.silent_bind_congr hr fun outcome => rfl

end StateBench

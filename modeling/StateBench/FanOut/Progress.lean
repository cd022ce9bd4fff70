import StateBench.FanOut.Pool

/-!
# Progress of pools

Every round is a step towards the end of all units. A unit that is started leaves the backlog, and a round after which
none is started gives a turn or, where no unit is in the queue, ends the waiting of one.

* `Pool.landed_lt`, `Pool.tired_lt`, `Pool.quiet_lt`: the pool after each kind of round is smaller.
-/

namespace StateBench

/-! ## Turns ahead -/

namespace Flight

variable {α : Type}

/-- The number of turns that some units have not had yet. -/
def totalAhead : List (Flight α) → Nat
  | [] => 0
  | flight :: flights => flight.turnsAhead + totalAhead flights

theorem totalAhead_append (first second : List (Flight α)) :
    totalAhead (first ++ second) = totalAhead first + totalAhead second := by
  induction first with
  | nil => simp [totalAhead]
  | cons flight flights ih => simp only [List.cons_append, totalAhead, ih]; omega

theorem totalAhead_addWaiting (flight : Flight α) (flights : List (Flight α)) :
    totalAhead (Pool.addWaiting flight flights) = totalAhead flights + flight.turnsAhead := by
  fun_induction Pool.addWaiting flight flights with
  | case1 => simp [totalAhead]
  | case2 first flights _ ih => simp only [totalAhead, ih]; omega
  | case3 first flights => simp only [totalAhead]; omega

end Flight

/-- The pool after a round. -/
def Round.pool {α : Type} : Round α → Pool α
  | .landed _ _ pool => pool
  | .tired _ pool => pool
  | .quiet _ pool => pool

namespace Pool

variable {α : Type}

/-- The number of turns that the units under way have not had yet. -/
def turnsAhead (pool : Pool α) : Nat := Flight.totalAhead pool.queue + Flight.totalAhead pool.waiting

/-- An upper bound of the rounds that the units under way can still take. -/
def roundsAhead (pool : Pool α) : Nat := 2 * pool.turnsAhead + if pool.queue.isEmpty then 1 else 0

theorem turnsAhead_putBack (pool : Pool α) (asksAgain : Bool) (flight : Flight α) :
    (pool.putBack asksAgain flight).turnsAhead = pool.turnsAhead + flight.turnsAhead := by
  unfold putBack
  split <;> simp only [turnsAhead, Flight.totalAhead_append, Flight.totalAhead_addWaiting, Flight.totalAhead] <;> omega

theorem backlog_putBack (pool : Pool α) (asksAgain : Bool) (flight : Flight α) :
    (pool.putBack asksAgain flight).backlog = pool.backlog := by
  unfold putBack
  split <;> rfl

theorem backlog_giveTurns (turns patience : Nat) (turn : Turn) (pool : Pool α) :
    (giveTurns turns patience turn pool).pool.backlog = pool.backlog := by
  fun_induction giveTurns turns patience turn pool with
  | case1 => rfl
  | case2 => rfl
  | case3 => rfl
  | case4 => rfl
  | case5 turns patience turn pool flight queue hq own time rest hr ahead ih => rw [ih, backlog_putBack]

/-- No turn is made up in a round, and a round with a unit in the queue gives one. -/
theorem turnsAhead_giveTurns (turns patience : Nat) (turn : Turn) (pool : Pool α) :
    (giveTurns turns patience turn pool).pool.turnsAhead ≤ pool.turnsAhead ∧
      (0 < turns → 0 < patience → pool.queue ≠ [] →
        (giveTurns turns patience turn pool).pool.turnsAhead < pool.turnsAhead) := by
  fun_induction giveTurns turns patience turn pool with
  | case1 => exact ⟨Nat.le_refl _, fun h => absurd h (Nat.lt_irrefl 0)⟩
  | case2 => exact ⟨Nat.le_refl _, fun _ h => absurd h (Nat.lt_irrefl 0)⟩
  | case3 turns patience turn pool hq => exact ⟨Nat.le_refl _, fun _ _ h => absurd hq h⟩
  | case4 turns patience turn pool flight queue hq own result hr =>
    have : ({ pool with queue } : Pool α).turnsAhead < pool.turnsAhead := by
      simp only [turnsAhead, hq, Flight.totalAhead, Flight.turnsAhead, hr, Course.length]; omega
    exact ⟨Nat.le_of_lt this, fun _ _ _ => this⟩
  | case5 turns patience turn pool flight queue hq own time rest hr ahead ih =>
    have : (({ pool with queue } : Pool α).putBack own.asksAgain ahead).turnsAhead < pool.turnsAhead := by
      rw [turnsAhead_putBack]
      simp only [turnsAhead, hq, ahead, Flight.totalAhead, Flight.turnsAhead, hr, Course.length]; omega
    have hlt := Nat.lt_of_le_of_lt ih.1 this
    exact ⟨Nat.le_of_lt hlt, fun _ _ _ => hlt⟩

theorem backlog_round {pool : Pool α} {turn : Turn} {round : Round α} (h : pool.round turn = round) :
    round.pool.backlog = pool.backlog := by
  rw [← h, Pool.round]
  split
  · rfl
  · exact backlog_giveTurns ..

theorem round_of_empty {pool : Pool α} (h : pool.queue = []) (turn : Turn) : pool.round turn = .quiet turn pool := by
  simp [round, h]

theorem turnsAhead_round_lt {pool : Pool α} (h : pool.queue ≠ []) (turn : Turn) :
    (pool.round turn).pool.turnsAhead < pool.turnsAhead := by
  have hs : 0 < pool.size := Nat.add_pos_left (List.length_pos_iff.2 h) _
  rw [round, if_neg (by simpa using h)]
  exact (turnsAhead_giveTurns ..).2 hs (by decide) h

theorem roundsAhead_lt_of_turnsAhead_lt {pool other : Pool α} (h : other.turnsAhead < pool.turnsAhead) :
    other.roundsAhead < pool.roundsAhead := by
  unfold roundsAhead
  split <;> split <;> omega

theorem turnsAhead_wakeAt (pool : Pool α) (time : Nat) : (pool.wakeAt time).turnsAhead = pool.turnsAhead := by
  have h := congrArg Flight.totalAhead (List.takeWhile_append_dropWhile (p := (·.time = time)) (l := pool.waiting))
  rw [Flight.totalAhead_append] at h
  simp only [turnsAhead, wakeAt, Flight.totalAhead_append]
  omega

theorem queue_wakeAt_ne_nil {pool : Pool α} {time : Nat} (h : pool.firstTime? = some time) :
    (pool.wakeAt time).queue ≠ [] := by
  unfold firstTime? at h
  cases hw : pool.waiting with
  | nil => rw [hw] at h; cases h
  | cons flight flights =>
    rw [hw] at h
    have ht : flight.time = time := Option.some.inj h
    simp [wakeAt, hw, ht]

/-! ### After a round -/

theorem landed_lt {pool next : Pool α} {turn last : Turn} {landing : Landing α}
    (h : pool.round turn = .landed last landing next) (now : Nat) :
    Prod.Lex (· < ·) (· < ·) ((next.launchNext now).backlog.length, (next.launchNext now).roundsAhead)
      (pool.backlog.length, pool.roundsAhead) := by
  have hq : pool.queue ≠ [] := fun hq => by rw [round_of_empty hq] at h; cases h
  have hb := backlog_round h
  have ht := turnsAhead_round_lt hq turn
  rw [h] at ht
  unfold launchNext
  split
  · rw [← hb]
    exact .right _ (roundsAhead_lt_of_turnsAhead_lt ht)
  · next hn =>
    rw [← hb, show (Round.landed last landing next).pool.backlog = _ from hn]
    exact .left _ _ (Nat.lt_succ_self _)

theorem tired_lt {pool next : Pool α} {turn last : Turn} (h : pool.round turn = .tired last next) :
    Prod.Lex (· < ·) (· < ·) (next.backlog.length, next.roundsAhead) (pool.backlog.length, pool.roundsAhead) := by
  have hq : pool.queue ≠ [] := fun hq => by rw [round_of_empty hq] at h; cases h
  have hb := backlog_round h
  have ht := turnsAhead_round_lt hq turn
  rw [h] at ht
  rw [← hb]
  exact .right _ (roundsAhead_lt_of_turnsAhead_lt ht)

theorem quiet_lt {pool next : Pool α} {turn last : Turn} {time : Nat} (h : pool.round turn = .quiet last next)
    (hf : next.firstTime? = some time) :
    Prod.Lex (· < ·) (· < ·) ((next.wakeAt time).backlog.length, (next.wakeAt time).roundsAhead)
      (pool.backlog.length, pool.roundsAhead) := by
  have hb := backlog_round h
  rw [← hb]
  refine .right _ ?_
  by_cases hq : pool.queue = []
  · rw [round_of_empty hq] at h
    cases h
    have hw : (pool.wakeAt time).queue.isEmpty = false := by simpa using queue_wakeAt_ne_nil hf
    simp only [roundsAhead, turnsAhead_wakeAt, hw, hq, List.isEmpty_nil]
    simp
  · have ht := turnsAhead_round_lt hq turn
    rw [h] at ht
    exact roundsAhead_lt_of_turnsAhead_lt (by rw [turnsAhead_wakeAt]; exact ht)

end Pool

end StateBench

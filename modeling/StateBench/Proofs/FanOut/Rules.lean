import StateBench.Proofs.FanOut.History

/-!
# The rules of a container

What happens in a container follows rules (`Act.Follows`): units start in their order where there is room, as many as
may be are under way whenever the container waits, and nothing happens after a failure. The books of a pool say which
units have started, landed and had turns (`Pool.Books`). A pool that agrees with them goes on by the rules
(`follows_waits`, `follows_turn`, `follows_lands`, `orderly_nextStarts`), and agrees with them again.
-/

namespace StateBench

variable {α : Type}

/-! ## Rules -/

/-- What may happen after some acts in a container with `n` units, of which at most `limit` are under way. -/
inductive Act.Follows (limit n : Nat) (past : History α) : Act α → Prop
  /-- The next unit starts, if there is room for it. -/
  | starts (more : past.started.length < n) (room : past.started.length < past.landed.length + limit) :
      Follows limit n past (.starts past.started.length)
  /-- While the container waits, as many units are under way as may be: those that have started and not ended. -/
  | waits {underWay : List Nat} (count : underWay.length = min limit (n - past.landed.length))
      (units : (past.landed ++ underWay).Perm past.started) : Follows limit n past (.waits underWay)
  /-- A unit under way has a turn while the container waits. Its first one is after those of the units before it. -/
  | turn {index : Nat} {own : Turn} (started : index ∈ past.started) (unended : index ∉ past.landed)
      (earlier : ∀ other < index, other ∈ past.turned)
      (count : past.started.length = past.landed.length + min limit (n - past.landed.length)) :
      Follows limit n past (.turn index own)
  /-- A unit under way has ended. -/
  | lands {index : Nat} {result : Except Failure α} (started : index ∈ past.started) (unended : index ∉ past.landed) :
      Follows limit n past (.lands index result)

/-- Some acts happen after others as they may, none of them after a failure. -/
def History.Orderly (limit n : Nat) : (past acts : History α) → Prop
  | _, [] => True
  | past, act :: acts => (past.failures = [] ∧ act.Follows limit n past) ∧ Orderly limit n (past ++ [act]) acts

namespace History.Orderly

variable {limit n : Nat} {past acts more : History α}

theorem append_iff :
    Orderly limit n past (acts ++ more) ↔ Orderly limit n past acts ∧ Orderly limit n (past ++ acts) more := by
  induction acts generalizing past with
  | nil => simp [Orderly]
  | cons act acts ih => simp only [List.cons_append, Orderly, ih, List.append_assoc, List.nil_append, and_assoc]

theorem follows (h : Orderly limit n past acts) {before after : History α} {act : Act α}
    (ha : acts = before ++ act :: after) :
    (past ++ before).failures = [] ∧ act.Follows limit n (past ++ before) := by
  rw [ha, append_iff] at h
  exact h.2.1

/-- Units start in their order as long as there is room. -/
theorem startsOf {indices later : List Nat} (going : past.failures = [])
    (starts : past.started ++ (indices ++ later) = List.range n)
    (room : past.started.length + indices.length ≤ past.landed.length + limit) :
    Orderly limit n past (startsOf indices) := by
  induction indices generalizing past with
  | nil => trivial
  | cons index indices ih =>
    have hlength : past.started.length + (indices.length + later.length + 1) = n := by
      simpa using congrArg List.length starts
    rw [List.length_cons] at room
    have hindex : (List.range n)[past.started.length]? = some index := by
      rw [← starts]
      simp
    rw [List.getElem?_range (by omega), Option.some.injEq] at hindex
    refine ⟨⟨going, ?_⟩, ih (by simp [going]) (by simpa using starts) (by simp; omega)⟩
    rw [← hindex]
    exact .starts (by omega) (by omega)

end History.Orderly

/-! ## Books -/

/-- The units that have had turns are the first ones, and the others under way stand in the queue in their order. -/
structure Pool.FirstTurns (n : Nat) (past : History α) (pool : Pool α) (count : Nat) : Prop where
  turned : ∀ index, index ∈ past.turned ↔ index < count
  waiting : ∀ flight ∈ pool.waiting, flight.index < count
  ahead : (pool.queue.filter (count ≤ ·.index)).map (·.index) ++ pool.backlog.map (·.1) = List.range' count (n - count)

/-- Some acts tell the turns of a course of the job at an index, but for those ahead. -/
def History.OnCourse (jobs : List (Activity α)) (past : History α) (index : Nat) (ahead : List Turn) : Prop :=
  ∃ job start, jobs[index]? = some job ∧ past.turnsOf index ++ ahead = (job start).turns

/-- The units have had the turns that some acts tell: those that have landed all turns of their courses, those under way
the ones up to where they are, and those in the backlog none. -/
structure Pool.OnCourse (jobs : List (Activity α)) (past : History α) (pool : Pool α) : Prop where
  landed : ∀ index ∈ past.landed, past.OnCourse jobs index []
  underWay : ∀ flight ∈ pool.flights, past.OnCourse jobs flight.index (flight.rest ()).turns
  backlog : ∀ unit ∈ pool.backlog, jobs[unit.1]? = some unit.2 ∧ past.turnsOf unit.1 = []

/-- A pool is as it has to be after some acts: the units that have not started are in the backlog, in their order, and
those that have started and not landed are under way. -/
structure Pool.Books (jobs : List (Activity α)) (past : History α) (pool : Pool α) : Prop where
  starts : past.started ++ pool.backlog.map (·.1) = List.range jobs.length
  units : (past.landed ++ pool.flights.map (·.index)).Perm past.started
  turns : ∃ count, pool.FirstTurns jobs.length past count
  course : pool.OnCourse jobs past

/-- A pool after some acts without a failure, with as many units under way as may be. -/
structure Pool.Keeps (limit : Nat) (jobs : List (Activity α)) (past : History α) (pool : Pool α) : Prop
    extends pool.Books jobs past where
  going : past.failures = []
  full : pool.size = min limit (pool.size + pool.backlog.length)

namespace Pool

variable {limit n : Nat} {past : History α} {pool : Pool α}

/-! ### First turns -/

namespace FirstTurns

variable {count : Nat} (h : pool.FirstTurns n past count)
include h

/-- Acts other than turns change nothing. -/
theorem append {acts : History α} (ha : acts.turned = []) : pool.FirstTurns n (past ++ acts) count where
  turned index := by rw [History.turned_append, ha, List.append_nil, h.turned]
  waiting := h.waiting
  ahead := h.ahead

/-- The unit in front has a turn. It is one that has had turns, or the first of the others. -/
theorem take {flight : Flight α} {queue : List (Flight α)} (hq : pool.queue = flight :: queue) (own : Turn) :
    (∀ earlier < flight.index, earlier ∈ past.turned) ∧ ∃ later, flight.index < later ∧
      ({ pool with queue } : Pool α).FirstTurns n (past ++ [.turn flight.index own]) later := by
  have hturned (index : Nat) :
      index ∈ History.turned (past ++ [.turn flight.index own]) ↔ index < count ∨ index = flight.index := by
    simp [h.turned]
  have hahead := h.ahead
  rw [hq] at hahead
  rcases Nat.lt_or_ge flight.index count with hlt | hge
  · refine ⟨fun earlier he => (h.turned earlier).2 (Nat.lt_trans he hlt), count, hlt, fun index => ?_, h.waiting, ?_⟩
    · rw [hturned]
      omega
    · rwa [List.filter_cons_of_neg (by simpa using hlt)] at hahead
  · -- Of the units without a turn the first one is in front.
    rw [List.filter_cons_of_pos (by simpa using hge), List.map_cons, List.cons_append] at hahead
    obtain ⟨m, hm⟩ : ∃ m, n - count = m + 1 := by
      refine Nat.exists_eq_succ_of_ne_zero fun hz => ?_
      rw [hz] at hahead
      cases hahead
    rw [hm, List.range'_succ, List.cons.injEq] at hahead
    obtain ⟨hindex, hrest⟩ := hahead
    have hfilter : queue.filter (count + 1 ≤ ·.index) = queue.filter (count ≤ ·.index) := by
      refine List.filter_congr fun other ho => ?_
      rw [decide_eq_decide]
      refine ⟨fun hle => by omega, fun hle => ?_⟩
      have hmem : other.index ∈ List.range' (count + 1) m := by
        rw [← hrest]
        exact List.mem_append_left _ (List.mem_map_of_mem (List.mem_filter.2 ⟨ho, by simpa using hle⟩))
      exact (List.mem_range'_1.1 hmem).1
    refine ⟨fun earlier he => (h.turned earlier).2 (by omega), count + 1, by omega, fun index => ?_,
      fun other ho => Nat.lt_succ_of_lt (h.waiting other ho), ?_⟩
    · rw [hturned]
      omega
    · show (queue.filter (count + 1 ≤ ·.index)).map (·.index) ++ _ = _
      rw [hfilter, hrest]
      congr 1
      omega

/-- A unit that has had turns is put back anywhere. -/
theorem putBack {flight : Flight α} (hlt : flight.index < count) (asksAgain : Bool) :
    (pool.putBack asksAgain flight).FirstTurns n past count := by
  unfold Pool.putBack
  split
  · refine ⟨h.turned, h.waiting, ?_⟩
    have hnot : ¬ count ≤ flight.index := Nat.not_le.2 hlt
    simpa [hnot] using h.ahead
  · refine ⟨h.turned, fun other ho => ?_, h.ahead⟩
    rcases List.mem_cons.1 ((addWaiting_perm flight pool.waiting).mem_iff.1 ho) with rfl | ho
    · exact hlt
    · exact h.waiting other ho

/-- The next unit that starts stands behind those without a turn. -/
theorem launchNext (now : Nat) : (pool.launchNext now).FirstTurns n past count := by
  unfold Pool.launchNext
  split
  · exact h
  · next unit backlog hb =>
    have hahead := h.ahead
    rw [hb] at hahead
    refine ⟨h.turned, h.waiting, ?_⟩
    have hmem : unit.1 ∈ List.range' count (n - count) := by
      rw [← hahead]
      exact List.mem_append_right _ List.mem_cons_self
    have hge : count ≤ (launch now unit).index := (List.mem_range'_1.1 hmem).1
    have hfilter : [launch now unit].filter (count ≤ ·.index) = [launch now unit] :=
      List.filter_cons_of_pos (by simpa using hge)
    show ((pool.queue ++ [launch now unit]).filter _).map _ ++ _ = _
    rw [List.filter_append, hfilter, List.map_append, List.append_assoc]
    exact hahead

/-- The units that wait have had turns. -/
theorem wakeAt (time : Nat) : (pool.wakeAt time).FirstTurns n past count where
  turned := h.turned
  waiting flight hf := h.waiting flight ((List.dropWhile_sublist _).mem hf)
  ahead := by
    have hnone : (pool.waiting.takeWhile (·.time = time)).filter (count ≤ ·.index) = [] := by
      refine List.filter_eq_nil_iff.2 fun flight hf => ?_
      have hlt := h.waiting flight ((List.takeWhile_sublist _).mem hf)
      simpa using hlt
    show ((pool.queue ++ pool.waiting.takeWhile _).filter _).map _ ++ _ = _
    rw [List.filter_append, hnone, List.append_nil]
    exact h.ahead

end FirstTurns

/-! ### Courses -/

namespace OnCourse

variable {jobs : List (Activity α)} (h : pool.OnCourse jobs past)
include h

/-- Acts other than turns and landings change nothing. -/
theorem append {acts : History α} (turns : ∀ index, acts.turnsOf index = []) (landed : acts.landed = []) :
    pool.OnCourse jobs (past ++ acts) where
  landed index hl := by
    rw [History.landed_append, landed, List.append_nil] at hl
    rw [History.OnCourse, History.turnsOf_append, turns, List.append_nil]
    exact h.landed index hl
  underWay flight hf := by
    rw [History.OnCourse, History.turnsOf_append, turns, List.append_nil]
    exact h.underWay flight hf
  backlog unit hu := by
    rw [History.turnsOf_append, turns, List.append_nil]
    exact h.backlog unit hu

/-- The end of a unit is taken when it has had all its turns. -/
theorem land {index : Nat} (hi : past.OnCourse jobs index []) (result : Except Failure α) :
    pool.OnCourse jobs (past ++ [.lands index result]) where
  landed other ho := by
    have hlanded : other ∈ past.landed ∨ other = index := by simpa using ho
    rcases hlanded with hl | rfl
    · simpa [History.OnCourse] using h.landed other hl
    · simpa [History.OnCourse] using hi
  underWay := by simpa [History.OnCourse] using h.underWay
  backlog := by simpa using h.backlog

theorem putBack {flight : Flight α} (hf : past.OnCourse jobs flight.index (flight.rest ()).turns) (asksAgain : Bool) :
    (pool.putBack asksAgain flight).OnCourse jobs past where
  landed := h.landed
  underWay other ho := by
    rcases List.mem_cons.1 ((flights_putBack pool asksAgain flight).mem_iff.1 ho) with rfl | ho
    · exact hf
    · exact h.underWay other ho
  backlog unit hu := by
    rw [backlog_putBack] at hu
    exact h.backlog unit hu

/-- The next unit starts with all its turns ahead. -/
theorem launchNext (now : Nat) : (pool.launchNext now).OnCourse jobs past where
  landed := h.landed
  underWay flight hf := by
    rcases List.mem_append.1 ((flights_launchNext pool now).mem_iff.1 hf) with hf | hf
    · obtain ⟨unit, hu, rfl⟩ := List.mem_map.1 hf
      obtain ⟨hj, hnone⟩ := h.backlog unit (List.mem_of_mem_take hu)
      refine ⟨unit.2, now, hj, ?_⟩
      show past.turnsOf unit.1 ++ _ = _
      rw [hnone]
      rfl
    · exact h.underWay flight hf
  backlog unit hu := by
    rw [backlog_launchNext] at hu
    exact h.backlog unit (List.mem_of_mem_drop hu)

theorem wakeAt (time : Nat) : (pool.wakeAt time).OnCourse jobs past where
  landed := h.landed
  underWay flight hf := h.underWay flight (flights_wakeAt pool time ▸ hf)
  backlog := h.backlog

end OnCourse

/-! ### All units -/

namespace Books

variable {jobs : List (Activity α)} (h : pool.Books jobs past)
include h

theorem nodup : (past.started ++ pool.backlog.map (·.1)).Nodup := h.starts ▸ List.nodup_range

theorem nodup_units : (past.landed ++ pool.flights.map (·.index)).Nodup := h.units.nodup_iff.2 h.nodup.of_append_left

theorem length_started : past.started.length = past.landed.length + pool.size := by
  rw [← h.units.length_eq, List.length_append, List.length_map, length_flights]

theorem length_units : past.started.length + pool.backlog.length = jobs.length := by
  simpa using congrArg List.length h.starts

/-- A unit under way has started and not landed, and is not in the backlog. -/
theorem underWay {flight : Flight α} (hf : flight ∈ pool.flights) :
    flight.index ∈ past.started ∧ flight.index ∉ past.landed ∧ ∀ unit ∈ pool.backlog, unit.1 ≠ flight.index := by
  have hm : flight.index ∈ pool.flights.map (·.index) := List.mem_map_of_mem hf
  have hs : flight.index ∈ past.started := h.units.mem_iff.1 (List.mem_append_right _ hm)
  refine ⟨hs, fun hl => (List.nodup_append.1 h.nodup_units).2.2 _ hl _ hm rfl, fun unit hu => ?_⟩
  exact ((List.nodup_append.1 h.nodup).2.2 _ hs _ (List.mem_map_of_mem hu)).symm

/-- The units behind the one in front are others. -/
theorem index_ne {flight : Flight α} {queue : List (Flight α)} (hq : pool.queue = flight :: queue) :
    ∀ other ∈ queue ++ pool.waiting, other.index ≠ flight.index := by
  intro other ho heq
  have hn : (pool.flights.map (·.index)).Nodup := h.nodup_units.of_append_right
  rw [flights, hq, List.cons_append, List.map_cons, List.nodup_cons] at hn
  exact hn.1 (heq ▸ List.mem_map_of_mem ho)

/-- When no unit is under way and none is left, all have started and landed. -/
theorem of_empty (hf : pool.flights = []) (hb : pool.backlog = []) :
    past.started = List.range jobs.length ∧ past.landed.Perm (List.range jobs.length) := by
  have hs : past.started = List.range jobs.length := by simpa [hb] using h.starts
  refine ⟨hs, ?_⟩
  rw [← hs]
  simpa [hf] using h.units

/-- A unit that has started has had turns of a course of its job, and all of them if it has landed. -/
theorem turnsOf {index : Nat} {job : Activity α} (hj : jobs[index]? = some job) (hs : index ∈ past.started) :
    ∃ start, past.turnsOf index <+: (job start).turns ∧
      (index ∈ past.landed → past.turnsOf index = (job start).turns) := by
  rcases List.mem_append.1 (h.units.mem_iff.2 hs) with hl | hf
  · obtain ⟨other, start, ho, hturns⟩ := h.course.landed index hl
    obtain rfl : job = other := Option.some.inj (hj.symm.trans ho)
    rw [List.append_nil] at hturns
    exact ⟨start, hturns ▸ List.prefix_refl _, fun _ => hturns⟩
  · obtain ⟨flight, hm, rfl⟩ := List.mem_map.1 hf
    obtain ⟨other, start, ho, hturns⟩ := h.course.underWay flight hm
    obtain rfl : job = other := Option.some.inj (hj.symm.trans ho)
    exact ⟨start, ⟨_, hturns⟩, fun hl => absurd hl (h.underWay hm).2.1⟩

/-- A wait changes nothing. -/
theorem wait (underWay : List Nat) : pool.Books jobs (past ++ [.waits underWay]) where
  starts := by simpa using h.starts
  units := by simpa using h.units
  turns := by
    obtain ⟨count, hc⟩ := h.turns
    exact ⟨count, hc.append rfl⟩
  course := h.course.append (fun _ => rfl) rfl

theorem wakeAt (time : Nat) : (pool.wakeAt time).Books jobs past where
  starts := h.starts
  units := by
    rw [flights_wakeAt]
    exact h.units
  turns := by
    obtain ⟨count, hc⟩ := h.turns
    exact ⟨count, hc.wakeAt time⟩
  course := h.course.wakeAt time

section Turns

variable {flight : Flight α} {queue : List (Flight α)} (hq : pool.queue = flight :: queue) (own : Turn)
include hq

/-- The unit in front may have a turn. -/
theorem follows_turn (full : pool.size = min limit (pool.size + pool.backlog.length)) :
    (Act.turn flight.index own).Follows limit jobs.length past := by
  obtain ⟨started, unended, -⟩ := h.underWay (mem_flights_of_queue hq).1
  obtain ⟨count, hc⟩ := h.turns
  have hstarted := h.length_started
  have hunits := h.length_units
  exact .turn started unended (hc.take hq own).1 (by omega)

/-- After its turn the unit in front may have ended. -/
theorem follows_lands (result : Except Failure α) :
    (Act.lands flight.index result).Follows limit n (past ++ [.turn flight.index own]) := by
  obtain ⟨started, unended, -⟩ := h.underWay (mem_flights_of_queue hq).1
  exact .lands (by simpa using started) (by simpa using unended)

/-- The turn of the unit in front is one of its course, and leaves the others where they are. -/
theorem take {ahead : List Turn} (hr : (flight.rest ()).turns = own :: ahead) :
    ({ pool with queue } : Pool α).OnCourse jobs (past ++ [.turn flight.index own]) ∧
      History.OnCourse jobs (past ++ [.turn flight.index own]) flight.index ahead := by
  obtain ⟨-, hlanded, hbacklog⟩ := h.underWay (mem_flights_of_queue hq).1
  have hturns {index : Nat} (hne : index ≠ flight.index) :
      History.turnsOf index (past ++ [.turn flight.index own]) = past.turnsOf index := by simp [hne.symm]
  refine ⟨⟨fun index hl => ?_, fun other ho => ?_, fun unit hu => ?_⟩, ?_⟩
  · have hl : index ∈ past.landed := by simpa using hl
    have hne : index ≠ flight.index := fun hi => hlanded (hi ▸ hl)
    rw [History.OnCourse, hturns hne]
    exact h.course.landed index hl
  · rw [History.OnCourse, hturns (h.index_ne hq other ho)]
    exact h.course.underWay other ((mem_flights_of_queue hq).2 other ho)
  · rw [hturns (hbacklog unit hu)]
    exact h.course.backlog unit hu
  · have hcourse := h.course.underWay flight (mem_flights_of_queue hq).1
    rw [hr] at hcourse
    simpa [History.OnCourse] using hcourse

/-- The unit in front has a turn in which it does not end. -/
theorem pause {ahead : Flight α} {time : Nat} (ha : ahead.index = flight.index)
    (hr : flight.rest () = .paused own time ahead.rest) (asksAgain : Bool) :
    (({ pool with queue } : Pool α).putBack asksAgain ahead).Books jobs (past ++ [.turn flight.index own]) where
  starts := by
    rw [backlog_putBack]
    simpa using h.starts
  units := by
    have hflights : ((({ pool with queue } : Pool α).putBack asksAgain ahead).flights.map (·.index)).Perm
        (pool.flights.map (·.index)) := by
      refine ((flights_putBack _ asksAgain ahead).map _).trans ?_
      rw [List.map_cons, ha, flights, flights, hq]
      exact .refl _
    simpa using (hflights.append_left past.landed).trans h.units
  turns := by
    obtain ⟨count, hc⟩ := h.turns
    obtain ⟨-, later, hlt, hl⟩ := hc.take hq own
    exact ⟨later, hl.putBack (ha ▸ hlt) asksAgain⟩
  course := by
    obtain ⟨hothers, hown⟩ := h.take hq own (congrArg Course.turns hr)
    exact hothers.putBack (ha ▸ hown) asksAgain

/-- The unit in front has its last turn, and its end is taken. -/
theorem land (result : Except Failure α) (hr : flight.rest () = .ended own result) :
    ({ pool with queue } : Pool α).Books jobs ((past ++ [.turn flight.index own]) ++ [.lands flight.index result]) where
  starts := by simpa using h.starts
  units := by
    have hu := h.units
    rw [flights, hq, List.cons_append, List.map_cons] at hu
    simpa [flights] using hu
  turns := by
    obtain ⟨count, hc⟩ := h.turns
    obtain ⟨-, later, -, hl⟩ := hc.take hq own
    exact ⟨later, hl.append rfl⟩
  course := by
    obtain ⟨hothers, hown⟩ := h.take hq own (congrArg Course.turns hr)
    exact hothers.land hown result

end Turns

/-! ### What happens next -/

/-- While the container waits, as many units are under way as may be. -/
theorem follows_waits (full : pool.size = min limit (pool.size + pool.backlog.length)) :
    (Act.waits (pool.flights.map (·.index))).Follows limit jobs.length past := by
  have hstarted := h.length_started
  have hunits := h.length_units
  refine .waits ?_ h.units
  rw [List.length_map, length_flights]
  omega

/-- The next unit may start if there is room. -/
theorem orderly_nextStarts (going : past.failures = []) (room : pool.size < limit) :
    History.Orderly limit jobs.length past pool.nextStarts := by
  have hstarted := h.length_started
  have hlength : ((pool.backlog.take 1).map (·.1)).length ≤ 1 := by
    rw [List.length_map]
    exact List.length_take_le 1 _
  have hstarts : past.started ++ ((pool.backlog.take 1).map (·.1) ++ (pool.backlog.drop 1).map (·.1)) =
      List.range jobs.length := by
    rw [← List.map_append, List.take_append_drop]
    exact h.starts
  exact .startsOf going hstarts (by omega)

/-- The next unit starts, if there is one. -/
theorem launchNext (now : Nat) : (pool.launchNext now).Books jobs (past ++ pool.nextStarts) where
  starts := by
    rw [← h.starts, backlog_launchNext, nextStarts, History.started_append, History.started_startsOf,
      List.append_assoc, ← List.map_append, List.take_append_drop]
  units := by
    rw [History.landed_append, nextStarts, History.landed_startsOf, List.append_nil, History.started_append]
    have hflights : ((pool.launchNext now).flights.map (·.index)).Perm
        ((pool.backlog.take 1).map (·.1) ++ pool.flights.map (·.index)) := by
      refine ((flights_launchNext pool now).map (·.index)).trans (.of_eq ?_)
      rw [List.map_append, List.map_map]
      rfl
    rw [History.started_startsOf]
    refine (hflights.append_left _).trans (List.perm_append_comm_assoc _ _ _ |>.trans ?_)
    exact (h.units.append_left _).trans List.perm_append_comm
  turns := by
    obtain ⟨count, hc⟩ := h.turns
    exact ⟨count, (hc.launchNext now).append (History.turned_startsOf _)⟩
  course := (h.course.launchNext now).append (fun _ => History.turnsOf_startsOf ..) (History.landed_startsOf _)

end Books

end Pool

end StateBench

import StateBench.Proofs.Evaluation.Parts
import StateBench.Proofs.FanOut.Rules

/-!
# The order of what happens in a container

A container starts with books that agree with its pool, and each round keeps them (`Pool.Keeps.round`). So its history
goes by the rules, to the end of all its units or to the first failure that is taken (`Scope.order_of_runUnits`).
-/

namespace StateBench

variable {α : Type}

/-! ## Rounds -/

/-- A round keeps the books of its container. It ends with a unit that has landed, so that one more may be under way, or
with as many as may be. -/
def Round.Keeps (limit : Nat) (jobs : List (Activity α)) (past : History α) : Round α → Prop
  | .landed _ landing next => next.Books jobs past ∧ next.size + 1 = min limit (next.size + 1 + next.backlog.length) ∧
      ∃ before : History α, past = before ++ [.lands landing.index landing.result] ∧ before.failures = []
  | .tired _ next => next.Keeps limit jobs past
  | .quiet _ next => next.Keeps limit jobs past

namespace Pool.Keeps

variable {limit : Nat} {jobs : List (Activity α)} {past : History α} {pool : Pool α}

theorem giveTurns (turns patience : Nat) (turn : Turn) (h : pool.Keeps limit jobs past) :
    History.Orderly limit jobs.length past (turnActs turns patience pool) ∧
      (Pool.giveTurns turns patience turn pool).Keeps limit jobs (past ++ turnActs turns patience pool) := by
  fun_induction Pool.giveTurns turns patience turn pool generalizing past with
  | case1 patience turn pool =>
    rw [turnActs, List.append_nil]
    exact ⟨trivial, h⟩
  | case2 turns turn pool =>
    have hacts : turnActs turns 0 pool = [] := by cases turns <;> rfl
    rw [hacts, List.append_nil]
    exact ⟨trivial, h⟩
  | case3 turns patience turn pool hq =>
    have hacts : turnActs (turns + 1) (patience + 1) pool = [] := by simp [turnActs, hq]
    rw [hacts, List.append_nil]
    exact ⟨trivial, h⟩
  | case4 turns patience turn pool flight queue hq own result hr =>
    have hacts : turnActs (turns + 1) (patience + 1) pool =
        [.turn flight.index own, .lands flight.index result] := by simp [turnActs, hq, hr]
    have hgoing : History.failures (past ++ [.turn flight.index own]) = [] := by simp [h.going]
    have hbooks := h.land hq own result hr
    rw [List.append_assoc] at hbooks
    rw [hacts]
    refine ⟨⟨⟨h.going, h.follows_turn hq own h.full⟩, ⟨hgoing, h.follows_lands hq own result⟩, trivial⟩, hbooks, ?_,
      past ++ [.turn flight.index own], by simp, hgoing⟩
    have hfull := h.full
    simp only [size, hq, List.length_cons] at hfull ⊢
    omega
  | case5 turns patience turn pool flight queue hq own time rest hr ahead =>
    rename_i ih
    have hindex : ahead.index = flight.index := rfl
    have hacts : turnActs (turns + 1) (patience + 1) pool = .turn flight.index own ::
        turnActs turns (if own.asksAgain then patience else patience + 1)
          (({ pool with queue } : Pool α).putBack own.asksAgain ahead) := by simp [turnActs, hq, hr, ahead]
    have hsize : (({ pool with queue } : Pool α).putBack own.asksAgain ahead).size = pool.size := by
      have hlength := (flights_putBack { pool with queue } own.asksAgain ahead).length_eq
      rw [length_flights, List.length_cons, length_flights] at hlength
      simp only [size, hq, List.length_cons] at hlength ⊢
      omega
    have hkeeps : (({ pool with queue } : Pool α).putBack own.asksAgain ahead).Keeps limit jobs
        (past ++ [.turn flight.index own]) := by
      refine ⟨h.pause hq own hindex hr own.asksAgain, by simp [h.going], ?_⟩
      rw [hsize, backlog_putBack]
      exact h.full
    obtain ⟨horderly, hround⟩ := ih hkeeps
    rw [hacts]
    refine ⟨⟨⟨h.going, h.follows_turn hq own h.full⟩, horderly⟩, ?_⟩
    rwa [List.append_assoc] at hround

/-- A round goes on in order from a pool with as many units under way as may be. -/
theorem round (turn : Turn) {round : Round α} (hround : pool.round turn = round) (h : pool.Keeps limit jobs past) :
    History.Orderly limit jobs.length past pool.roundActs ∧ round.Keeps limit jobs (past ++ pool.roundActs) := by
  have hwaits := h.follows_waits h.full
  have hkeeps : pool.Keeps limit jobs (past ++ [.waits (pool.flights.map (·.index))]) :=
    ⟨h.wait _, by simp [h.going], h.full⟩
  rw [← hround, Pool.round, roundActs]
  split
  · exact ⟨⟨⟨h.going, hwaits⟩, trivial⟩, hkeeps⟩
  · obtain ⟨horderly, hr⟩ := hkeeps.giveTurns pool.size 2 turn
    rw [List.append_assoc] at hr
    exact ⟨⟨⟨h.going, hwaits⟩, horderly⟩, hr⟩

/-- The first time that is waited for comes. -/
theorem wakeAt (h : pool.Keeps limit jobs past) (time : Nat) : (pool.wakeAt time).Keeps limit jobs past where
  toBooks := h.toBooks.wakeAt time
  going := h.going
  full := by
    rw [← length_flights, flights_wakeAt, length_flights]
    exact h.full

/-- After a unit has landed the next one starts. -/
theorem launchNext (books : pool.Books jobs past) (going : past.failures = [])
    (room : pool.size + 1 = min limit (pool.size + 1 + pool.backlog.length)) (now : Nat) :
    History.Orderly limit jobs.length past pool.nextStarts ∧
      (pool.launchNext now).Keeps limit jobs (past ++ pool.nextStarts) := by
  refine ⟨books.orderly_nextStarts going (by omega), books.launchNext now, ?_, ?_⟩
  · rw [History.failures_append, going, nextStarts, History.failures_startsOf, List.append_nil]
  · rw [launchNext_eq]
    simp only [size, List.length_append, List.length_map, List.length_take, List.length_drop] at room ⊢
    omega

end Pool.Keeps

/-! ## Histories -/

/-- How the history of a container with `n` units ends: with all units started and landed, or with a failure. -/
def Outcome.Closes (n : Nat) (acts : History α) : Outcome α → Prop
  | .completed _ => acts.failures = [] ∧ acts.started = List.range n ∧ acts.landed.Perm (List.range n)
  | .stopped _ failed failure => ∃ before : History α, acts = before ++ [.lands failed.index (.error failure)]

/-- Some acts lead on in order to the end of a container. -/
structure History.Concludes (limit : Nat) (jobs : List (Activity α)) (past acts : History α) (outcome : Outcome α) :
    Prop where
  orderly : Orderly limit jobs.length past acts
  books : ∃ last : Pool α, last.Books jobs (past ++ acts)
  closes : outcome.Closes jobs.length (past ++ acts)

theorem History.Concludes.after {limit : Nat} {jobs : List (Activity α)} {past first acts : History α}
    {outcome : Outcome α} (h : Concludes limit jobs (past ++ first) acts outcome)
    (orderly : Orderly limit jobs.length past first) : Concludes limit jobs past (first ++ acts) outcome where
  orderly := Orderly.append_iff.2 ⟨orderly, h.orderly⟩
  books := by
    rw [← List.append_assoc]
    exact h.books
  closes := by
    rw [← List.append_assoc]
    exact h.closes

namespace Pool.Keeps

variable {limit : Nat} {jobs : List (Activity α)} {past : History α} {pool : Pool α}

/-- The history of a container goes on in order from a pool with as many units under way as may be. -/
theorem drain (positive : 1 ≤ limit) (turn : Turn) (landings : List (Landing α)) (h : pool.Keeps limit jobs past) :
    ∃ outcome, (pool.drain turn landings).toRun.result = .ok outcome ∧
      History.Concludes limit jobs past (pool.history turn) outcome := by
  fun_induction Pool.drain pool turn landings generalizing past with
  | case1 pool turn landings last landing next hround failure hf =>
    obtain ⟨horderly, books, -, before, hpast, -⟩ := h.round turn hround
    rw [history_of_failed hround hf]
    exact ⟨_, rfl, horderly, ⟨next, books⟩, before, hf ▸ hpast⟩
  | case2 pool turn landings last landing next hround value hv ih =>
    obtain ⟨horderly, books, room, before, hpast, hbefore⟩ := h.round turn hround
    have hgoing : History.failures (past ++ pool.roundActs) = [] := by simp [hpast, hbefore, hv]
    obtain ⟨hstarts, hnext⟩ := launchNext books hgoing room last.time
    obtain ⟨outcome, hresult, hconcludes⟩ := ih hnext
    rw [history_of_landed hround hv]
    exact ⟨outcome, hresult, (hconcludes.after hstarts).after horderly⟩
  | case3 pool turn landings last next hround ih =>
    obtain ⟨horderly, hnext⟩ := h.round turn hround
    obtain ⟨outcome, hresult, hconcludes⟩ := ih hnext
    rw [history_of_tired hround]
    exact ⟨outcome, hresult, hconcludes.after horderly⟩
  | case4 pool turn landings last next hround ht =>
    obtain ⟨horderly, hnext⟩ := h.round turn hround
    rw [history_of_quiet hround ht]
    have hwaiting : next.waiting = [] := by simpa [firstTime?] using ht
    have hempty : next.flights = [] := by rw [flights, queue_of_quiet hround, hwaiting]; rfl
    have hsize : next.size = 0 := by rw [← length_flights, hempty]; rfl
    -- As some unit may be under way and none is, none is left.
    have hbacklog : next.backlog = [] := by
      have hfull := hnext.full
      rw [hsize] at hfull
      exact List.eq_nil_of_length_eq_zero (by omega)
    exact ⟨_, rfl, horderly, ⟨next, hnext.toBooks⟩, hnext.going, hnext.of_empty hempty hbacklog⟩
  | case5 pool turn landings last next hround time ht ih =>
    obtain ⟨horderly, hnext⟩ := h.round turn hround
    obtain ⟨outcome, hresult, hconcludes⟩ := ih (hnext.wakeAt time)
    rw [history_of_woken hround ht, Course.toRun_waiting]
    exact ⟨outcome, hresult, hconcludes.after horderly⟩

end Pool.Keeps

/-! ## Containers -/

namespace Pool

variable (limit : Nat) (jobs : List (Activity α)) (now : Nat)

theorem indices_start :
    (start limit jobs now).queue.map (·.index) = (List.range jobs.length).take (max limit 1) ∧
      (start limit jobs now).backlog.map (·.1) = (List.range jobs.length).drop (max limit 1) := by
  rw [List.range_eq_range', ← List.zipIdx_map_snd 0 jobs, ← List.map_take, ← List.map_drop]
  simp only [start, ← List.map_take, ← List.map_drop, List.map_map]
  exact ⟨rfl, rfl⟩

/-- Before the first turn each unit is at the start of its course. -/
theorem OnCourse.start (indices : List Nat) : (Pool.start limit jobs now).OnCourse jobs (.startsOf indices) where
  landed index hl := by simp at hl
  underWay flight hf := by
    rw [flights, List.mem_append] at hf
    rcases hf with hf | hf
    · obtain ⟨unit, hu, rfl⟩ := List.mem_map.1 hf
      refine ⟨unit.2, now, getElem?_of_mem_backlog (List.mem_of_mem_take hu), ?_⟩
      rw [History.turnsOf_startsOf]
      rfl
    · cases hf
  backlog unit hu := ⟨getElem?_of_mem_backlog (List.mem_of_mem_drop hu), History.turnsOf_startsOf ..⟩

variable {limit}

/-- A container starts its first units in their order, as many as may be under way. -/
theorem Keeps.start (positive : 1 ≤ limit) :
    let acts : History α := .startsOf ((Pool.start limit jobs now).queue.map (·.index))
    History.Orderly limit jobs.length [] acts ∧ (Pool.start limit jobs now).Keeps limit jobs acts := by
  obtain ⟨hqueue, hbacklog⟩ := indices_start limit jobs now
  have hwaiting : (Pool.start limit jobs now).waiting = [] := rfl
  have hunits : (Pool.start limit jobs now).queue.map (·.index) ++ (Pool.start limit jobs now).backlog.map (·.1) =
      List.range jobs.length := by rw [hqueue, hbacklog, List.take_append_drop]
  have hlength := congrArg List.length hqueue
  have hleft := congrArg List.length hbacklog
  simp only [List.length_map, List.length_take, List.length_drop, List.length_range] at hlength hleft
  refine ⟨.startsOf rfl (by simpa using hunits) (by simp; omega),
    ⟨by simpa using hunits, ?_, ⟨0, ?_⟩, .start limit jobs now _⟩, by simp, ?_⟩
  · simp [flights, hwaiting]
  · refine ⟨by simp, fun flight hf => ?_, ?_⟩
    · rw [hwaiting] at hf
      cases hf
    · rw [Nat.sub_zero, ← List.range_eq_range', ← hunits, List.filter_eq_self.2 (by simp)]
  · rw [size, hwaiting, List.length_nil]
    omega

end Pool

theorem Settings.concurrencyFor_bounds (settings : Settings) (declared units : Nat) :
    1 ≤ settings.concurrencyFor declared units ∧ ∀ bound ∈ [declared, settings.maxConcurrency], bound ≠ 0 →
      settings.concurrencyFor declared units ≤ bound := by
  unfold concurrencyFor
  dsimp only
  refine ⟨by omega, fun bound hb hpositive => ?_⟩
  rw [List.mem_cons, List.mem_singleton] at hb
  rcases hb with rfl | rfl <;> split_ifs <;> omega

/-- What happens when some jobs are run goes by the rules, to the end of all of them or to a failure. -/
theorem concludes_runJobs {limit : Nat} (positive : 1 ≤ limit) (jobs : List (Activity α)) (now : Nat) :
    ∃ outcome, ((runJobs limit jobs).run now).result = .ok outcome ∧
      History.Concludes limit jobs [] (.ofJobs limit jobs now) outcome := by
  obtain ⟨hstarts, hkeeps⟩ := Pool.Keeps.start jobs now positive
  obtain ⟨outcome, hresult, hconcludes⟩ := hkeeps.drain positive (.idle now) []
  exact ⟨outcome, hresult, hconcludes.after hstarts⟩

/-- What is seen of a container is what is seen of its units. -/
theorem Scope.events_runUnits (scope : Scope) (path : StatePath) (declared : Nat) (units : List (FanUnit Activity))
    (now : Nat) :
    ((scope.evaluator.runUnits path declared units).run now).events =
      ((fanOut path (scope.settings.concurrencyFor declared units.length) units).run now).events := by
  refine (congrArg Run.events (Activity.run_bind ..)).trans ?_
  unfold Run.followedBy
  split
  · rfl
  · exact List.append_nil _

/-- What happens in a container goes by its rules. Its limit is at least one, and at most each bound that is set, be it
its own or that of the settings. Whenever it waits, as many units are under way as the limit and the units that have not
ended allow. They start in their order, and none of them twice. When a unit has failed nothing happens any more, neither
a start nor a turn, and nothing more is seen of the container. If it succeeds, all units have started and ended, each
once. The turns of a unit are those of its own course, and all of them if it has ended. -/
theorem Scope.order_of_runUnits (scope : Scope) (container : StatePath) (declared : Nat)
    (units : List (FanUnit Activity)) (now : Nat) :
    let limit := scope.settings.concurrencyFor declared units.length
    let acts : History Json := .ofJobs limit (units.map (·.job)) now
    let run := (scope.evaluator.runUnits container declared units).run now
    (1 ≤ limit ∧ ∀ bound ∈ [declared, scope.settings.maxConcurrency], bound ≠ 0 → limit ≤ bound) ∧
      run.events = acts.events ∧
      (∀ (before after : History Json) act, acts = before ++ act :: after →
        before.failures = [] ∧ act.Follows limit units.length before) ∧
      (∀ output, run.result = .ok output →
        acts.failures = [] ∧ acts.started = List.range units.length ∧ acts.landed.Perm (List.range units.length)) ∧
      (∀ failure, run.result = .error failure →
        ∃ (before : History Json) (index : Nat) (inner : Failure), acts = before ++ [.lands index (.error inner)]) ∧
      ∀ (index : Nat) unit, units[index]? = some unit → index ∈ acts.started →
        ∃ start, acts.turnsOf index <+: (unit.job start).turns ∧
          (index ∈ acts.landed → acts.turnsOf index = (unit.job start).turns) := by
  intro limit acts run
  have hbounds := scope.settings.concurrencyFor_bounds declared units.length
  obtain ⟨outcome, hresult, hconcludes⟩ := concludes_runJobs hbounds.1 (units.map (·.job)) now
  obtain ⟨horderly, ⟨last, books⟩, hcloses⟩ := hconcludes
  rw [List.length_map] at horderly hcloses
  have hfan : (fanOut container limit units).run now = _ := run_fanOut_of_runJobs hresult
  rw [events_runJobs] at hfan
  refine ⟨hbounds, ?_, fun before after act ha => horderly.follows ha, fun output ho => ?_, fun failure hf => ?_,
    fun index unit hu hs => ?_⟩
  · exact (Scope.events_runUnits ..).trans (congrArg Run.events hfan)
  · obtain ⟨outputs, -, ho⟩ := Scope.ok_of_runUnits ho
    cases outcome with
    | completed landings => exact hcloses
    | stopped landings failed inner =>
      rw [hfan] at ho
      cases ho
  · have hf := Scope.error_of_runUnits hf
    cases outcome with
    | completed landings =>
      rw [hfan] at hf
      cases hf
    | stopped landings failed inner =>
      obtain ⟨before, hbefore⟩ := hcloses
      exact ⟨before, failed.index, inner, hbefore⟩
  · have hj : (units.map (·.job))[index]? = some unit.job := by rw [List.getElem?_map, hu]; rfl
    exact books.turnsOf hj hs

end StateBench

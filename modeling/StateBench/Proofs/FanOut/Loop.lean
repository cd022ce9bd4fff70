import Mathlib.Logic.Relation
import StateBench.Proofs.Activity.Runs
import StateBench.Proofs.FanOut.Rounds

/-!
# The loop of a container

A container goes from round to round. `Loop.Step` is what it does in and after one round, `Loop.Ends` how it comes to
its end, and a run of it is a sequence of such steps (`toRun_drain`, `run_fanOut`).

In every loop that a container gets to, each unit is in one place: it has landed, is under way or waits in the backlog
(`Loop.Sound`). The steps keep that (`Sound.step`), so

* when a container completes, each of its units has landed once, as a run of its own (`Sound.indices_of_completed`);
* when it is stopped, the unit that failed and those that had landed are different ones (`Sound.nodup_of_stopped`).
-/

namespace StateBench

variable {α : Type}

/-- Where the loop of a container has got to. -/
structure Loop (α : Type) where
  pool : Pool α
  now : Nat
  /-- The units that have succeeded, the latest first. -/
  landings : List (Landing α)

namespace Loop

/-! ## Steps -/

/-- One round of a container that does not end with it. -/
inductive Step : Loop α → Loop α → Prop
  /-- A unit has succeeded, and the next one starts. -/
  | landed {pool next : Pool α} {turn last : Turn} {landing : Landing α} {value : α} {landings : List (Landing α)}
      (round : pool.round turn = .landed last landing next) (ok : landing.result = .ok value) :
      Step ⟨pool, turn.time, landings⟩ ⟨next.launchNext turn.time, turn.time, landing :: landings⟩
  /-- Others have their turns. -/
  | tired {pool next : Pool α} {turn last : Turn} {landings : List (Landing α)}
      (round : pool.round turn = .tired last next) : Step ⟨pool, turn.time, landings⟩ ⟨next, turn.time, landings⟩
  /-- The first time that a unit waits for has come. -/
  | woken {pool next : Pool α} {turn last : Turn} {time : Nat} {landings : List (Landing α)}
      (round : pool.round turn = .quiet last next) (first : next.firstTime? = some time) :
      Step ⟨pool, turn.time, landings⟩ ⟨next.wakeAt time, time, landings⟩

/-- The loops that a container gets to from a loop. -/
abbrev Reaches : Loop α → Loop α → Prop := Relation.ReflTransGen Step

/-- The round with which a container ends. -/
inductive Ends : Loop α → Outcome α → Prop
  /-- No unit is left. -/
  | completed {pool next : Pool α} {turn last : Turn} {landings : List (Landing α)}
      (round : pool.round turn = .quiet last next) (first : next.firstTime? = none) :
      Ends ⟨pool, turn.time, landings⟩ (.completed landings)
  /-- A unit has failed. -/
  | stopped {pool next : Pool α} {turn last : Turn} {landing : Landing α} {failure : Failure}
      {landings : List (Landing α)} (round : pool.round turn = .landed last landing next)
      (failed : landing.result = .error failure) : Ends ⟨pool, turn.time, landings⟩ (.stopped landings landing failure)

/-- The loop in which a container starts. -/
def start (limit : Nat) (jobs : List (Activity α)) (now : Nat) : Loop α := ⟨Pool.start limit jobs now, now, []⟩

/-- A container goes through loops to an end, and looks for no mocks itself. -/
theorem toRun_drain (pool : Pool α) (turn : Turn) (landings : List (Landing α)) :
    ∃ stop outcome, Reaches ⟨pool, turn.time, landings⟩ stop ∧ Ends stop outcome ∧
      (pool.drain turn landings).toRun.result = .ok outcome ∧
      (pool.drain turn landings).toRun.lookups = turn.lookups.reverse := by
  fun_induction Pool.drain pool turn landings with
  | case1 pool turn landings last landing next h failure hf =>
    have hl := (Pool.turn_round h).2
    exact ⟨_, _, .refl, .stopped h hf, rfl, congrArg List.reverse hl⟩
  | case2 pool turn landings last landing next h value hv ih =>
    obtain ⟨ht, hl⟩ := Pool.turn_round h
    change last.time = turn.time at ht
    obtain ⟨stop, outcome, hr, he, hres, hlook⟩ := ih
    rw [ht] at hr
    exact ⟨stop, outcome, .head (.landed h hv) hr, he, hres, hlook.trans (congrArg List.reverse hl)⟩
  | case3 pool turn landings last next h ih =>
    obtain ⟨ht, hl⟩ := Pool.turn_round h
    change last.time = turn.time at ht
    obtain ⟨stop, outcome, hr, he, hres, hlook⟩ := ih
    change Reaches ⟨next, last.time, landings⟩ stop at hr
    rw [ht] at hr
    refine ⟨stop, outcome, .head (.tired h) hr, he, hres, ?_⟩
    show last.lookups.reverse ++ _ = _
    rw [hlook]
    simp [Turn.idle, ← hl, Round.turn]
  | case4 pool turn landings last next h ht =>
    have hl := (Pool.turn_round h).2
    exact ⟨_, _, .refl, .completed h ht, rfl, congrArg List.reverse hl⟩
  | case5 pool turn landings last next h time ht ih =>
    have hl := (Pool.turn_round h).2
    obtain ⟨stop, outcome, hr, he, hres, hlook⟩ := ih
    rw [Course.toRun_waiting]
    refine ⟨stop, outcome, .head (.woken h ht) hr, he, hres, ?_⟩
    show last.lookups.reverse ++ _ = _
    rw [hlook]
    simp [Turn.idle, ← hl, Round.turn]

/-! ## What every loop keeps -/

end Loop

/-- On the way from a loop a unit is started at a time: there it stands in the queue without having had a turn. -/
def Loop.Launches (origin : Loop α) (index : Nat) (job : Activity α) (start : Nat) : Prop :=
  ∃ loop, origin.Reaches loop ∧ Pool.launch start (index, job) ∈ loop.pool.queue

/-- A landing that one of some jobs comes to on its own, from the time at which it is started. -/
def Landing.IsOf (origin : Loop α) (jobs : List (Activity α)) (landing : Landing α) : Prop :=
  ∃ job start, jobs[landing.index]? = some job ∧ origin.Launches landing.index job start ∧
    landing = .ofJob landing.index job start

namespace Loop

/-- The units that have landed or are under way, with what they come to. -/
def units (loop : Loop α) : List (Landing α) := loop.landings ++ loop.pool.destinies

/-- The units of a loop are those of a container, each in one place. The container started in the loop that is the
origin. -/
structure Sound (origin : Loop α) (jobs : List (Activity α)) (loop : Loop α) : Prop where
  indices : (loop.landings.map (·.index) ++ loop.pool.indices).Perm (List.range jobs.length)
  own : ∀ landing ∈ loop.units, landing.IsOf origin jobs
  backlog : ∀ unit ∈ loop.pool.backlog, jobs[unit.1]? = some unit.2
  succeeded : ∀ landing ∈ loop.landings, ∃ value, landing.result = .ok value
  /-- As long as there is a backlog, a unit is under way. -/
  busy : loop.pool.destinies = [] → loop.pool.backlog = []

namespace Sound

variable {origin : Loop α} {jobs : List (Activity α)} {pool next : Pool α} {landings : List (Landing α)} {now : Nat}

/-- A pool with the same units under way and the same backlog is as sound. -/
theorem of_perm (h : Sound origin jobs ⟨pool, now, landings⟩) (units : next.destinies.Perm pool.destinies)
    (backlog : next.backlog = pool.backlog) (later : Nat) : Sound origin jobs ⟨next, later, landings⟩ where
  indices := by
    refine List.Perm.trans (List.Perm.append_left _ ?_) h.indices
    rw [Pool.indices, Pool.indices, backlog]
    exact (units.map _).append_right _
  own landing hl := h.own landing ((units.append_left landings).mem_iff.1 hl)
  backlog unit hu := h.backlog unit (backlog ▸ hu)
  succeeded := h.succeeded
  busy hn := by
    show next.backlog = []
    rw [backlog]
    exact h.busy (List.nil_perm.1 (hn ▸ units))

/-- The next unit starts after one has landed. -/
theorem land (h : Sound origin jobs ⟨pool, now, landings⟩) {landing : Landing α} {value : α}
    (units : (landing :: next.destinies).Perm pool.destinies) (backlog : next.backlog = pool.backlog)
    (ok : landing.result = .ok value)
    (reaches : origin.Reaches ⟨next.launchNext now, now, landing :: landings⟩) :
    Sound origin jobs ⟨next.launchNext now, now, landing :: landings⟩ where
  indices := by
    refine List.Perm.trans ?_ h.indices
    refine ((Pool.indices_launchNext next now).append_left _).trans ?_
    show (landing.index :: (landings.map _ ++ next.indices)).Perm _
    refine List.perm_middle.symm.trans (List.Perm.append_left _ ?_)
    rw [Pool.indices, Pool.indices, backlog]
    exact (units.map _).append_right _
  own other ho := by
    have hm := (((next.destinies_launchNext now).append_left landings).cons landing).mem_iff.1 ho
    simp only [List.mem_cons, List.mem_append, List.mem_map] at hm
    rcases hm with rfl | hm | ⟨unit, hu, rfl⟩ | hm
    · exact h.own other (List.mem_append_right _ (units.mem_iff.1 List.mem_cons_self))
    · exact h.own other (List.mem_append_left _ hm)
    · exact ⟨unit.2, now, h.backlog unit (backlog ▸ List.mem_of_mem_take hu),
        ⟨_, reaches, Pool.launch_mem_launchNext hu now⟩, rfl⟩
    · exact h.own other (List.mem_append_right _ (units.mem_iff.1 (List.mem_cons_of_mem _ hm)))
  backlog unit hu := by
    rw [Pool.backlog_launchNext, backlog] at hu
    exact h.backlog unit (List.mem_of_mem_drop hu)
  succeeded other ho := by
    rcases List.mem_cons.1 ho with rfl | ho
    · exact ⟨value, ok⟩
    · exact h.succeeded other ho
  busy hn := by
    have hp := next.destinies_launchNext now
    rw [hn, List.nil_perm, List.append_eq_nil_iff, List.map_eq_nil_iff, List.take_eq_nil_iff] at hp
    rw [Pool.backlog_launchNext]
    rcases hp.1 with h1 | h1
    · cases h1
    · rw [h1, List.drop_nil]

/-- A step of the loop keeps its units. -/
theorem step {loop other : Loop α} (h : Sound origin jobs loop) (hs : Step loop other)
    (reaches : origin.Reaches other) : Sound origin jobs other := by
  cases hs with
  | landed round ok =>
    exact h.land (Pool.destinies_round round) (Pool.backlog_round round) ok reaches
  | tired round =>
    exact h.of_perm (Pool.destinies_round round) (Pool.backlog_round round) _
  | woken round first =>
    rename_i pool next turn last time landings
    have hw : (next.wakeAt time).destinies.Perm pool.destinies := by
      rw [Pool.destinies_wakeAt]
      exact Pool.destinies_round round
    exact h.of_perm hw (Pool.backlog_round round) _

/-- A loop has its units all the way. -/
theorem of_reaches {loop : Loop α} (h : Sound origin jobs origin) (hr : Reaches origin loop) :
    Sound origin jobs loop := by
  induction hr with
  | refl => exact h
  | tail hr hs ih => exact ih.step hs (hr.tail hs)

/-- What the units of a container come to that are started first. -/
theorem destinies_start (limit : Nat) (jobs : List (Activity α)) (now : Nat) :
    (Pool.start limit jobs now).destinies =
      (jobs.zipIdx.take (max limit 1)).map fun unit => .ofJob unit.2 unit.1 now := by
  simp only [Pool.start, Pool.destinies_eq, List.map_nil, List.append_nil, ← List.map_take, List.map_map]
  rfl

theorem backlog_start (limit : Nat) (jobs : List (Activity α)) (now : Nat) :
    (Pool.start limit jobs now).backlog = (jobs.zipIdx.drop (max limit 1)).map fun unit => (unit.2, unit.1) := by
  simp only [Pool.start, ← List.map_drop]

/-- A container starts with all its units. -/
theorem start (limit : Nat) (jobs : List (Activity α)) (now : Nat) :
    Sound (start limit jobs now) jobs (start limit jobs now) where
  indices := by
    show (Pool.start limit jobs now).indices.Perm _
    rw [Pool.indices, destinies_start, backlog_start, List.map_map, List.map_map, List.range_eq_range',
      ← List.zipIdx_map_snd 0 jobs]
    show ((jobs.zipIdx.take _).map Prod.snd ++ (jobs.zipIdx.drop _).map Prod.snd).Perm _
    rw [← List.map_append, List.take_append_drop]
  own landing hl := by
    change landing ∈ (Pool.start limit jobs now).destinies at hl
    rw [destinies_start] at hl
    obtain ⟨unit, hu, rfl⟩ := List.mem_map.1 hl
    refine ⟨unit.1, now, List.mk_mem_zipIdx_iff_getElem?.1 (List.mem_of_mem_take hu), ⟨_, .refl, ?_⟩, rfl⟩
    show _ ∈ (List.take _ (jobs.zipIdx.map _)).map _
    rw [← List.map_take, List.map_map]
    exact List.mem_map_of_mem hu
  backlog unit hu := by
    change unit ∈ (Pool.start limit jobs now).backlog at hu
    rw [backlog_start] at hu
    obtain ⟨pair, hp, rfl⟩ := List.mem_map.1 hu
    exact List.mk_mem_zipIdx_iff_getElem?.1 (List.mem_of_mem_drop hp)
  succeeded landing hl := by cases hl
  busy hn := by
    have ht := (destinies_start limit jobs now).symm.trans hn
    rw [List.map_eq_nil_iff, List.take_eq_nil_iff] at ht
    refine (backlog_start limit jobs now).trans ?_
    rcases ht with h0 | h0
    · omega
    · rw [h0, List.drop_nil, List.map_nil]

/-! ## The end -/

/-- When a container completes, each of its units has landed once. -/
theorem indices_of_completed {stop : Loop α} (h : Sound origin jobs stop) (he : Ends stop (.completed landings)) :
    (landings.map (·.index)).Perm (List.range jobs.length) := by
  cases he with
  | completed round first =>
    rename_i pool next turn last
    have hp : pool.destinies = [] := Pool.destinies_of_quiet round first
    have hb : pool.backlog = [] := h.busy hp
    have hi := h.indices
    simp only [Pool.indices, hp, hb, List.map_nil, List.append_nil] at hi
    exact hi

/-- What a container has taken when it ends are runs of its units, which have succeeded. -/
theorem own_of_ends {stop : Loop α} {outcome : Outcome α} (h : Sound origin jobs stop) (he : Ends stop outcome) :
    ∀ landing ∈ outcome.taken, landing.IsOf origin jobs ∧ ∃ value, landing.result = .ok value := by
  have ht : outcome.taken = stop.landings := by cases he <;> rfl
  rw [ht]
  exact fun landing hl => ⟨h.own landing (List.mem_append_left _ hl), h.succeeded landing hl⟩

/-- The unit that stops a container failed as it was bound to, and it and those that had landed are different ones. -/
theorem nodup_of_stopped {stop : Loop α} {failed : Landing α} {failure : Failure} (h : Sound origin jobs stop)
    (he : Ends stop (.stopped landings failed failure)) :
    failed.IsOf origin jobs ∧ failed.result = .error failure ∧ ((failed :: landings).map (·.index)).Nodup := by
  cases he with
  | stopped round hf =>
    rename_i pool next turn last
    have hd : (failed :: next.destinies).Perm pool.destinies := Pool.destinies_round round
    have hm : failed ∈ pool.destinies := hd.mem_iff.1 List.mem_cons_self
    refine ⟨h.own failed (List.mem_append_right _ hm), hf, ?_⟩
    have hn : (landings.map (·.index) ++ pool.indices).Nodup := h.indices.nodup_iff.2 List.nodup_range
    rw [Pool.indices, ← List.append_assoc, ← List.map_append] at hn
    have hp := ((hd.append_left landings).map (·.index)).nodup_iff.2 (List.nodup_append.1 hn).1
    have hs : (failed :: landings).Sublist ((failed :: landings) ++ next.destinies) := List.sublist_append_left ..
    exact (hs.map _).nodup ((List.perm_middle.map _).nodup_iff.1 hp)

end Sound

end Loop

end StateBench

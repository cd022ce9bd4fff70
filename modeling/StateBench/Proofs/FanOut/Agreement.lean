import Mathlib.Data.List.Forall2
import StateBench.Proofs.Activity.Agreement
import StateBench.Proofs.FanOut.Traces
import StateBench.Proofs.Results

/-!
# Containers that agree until a lookup strays

Two containers whose units agree until a lookup strays go through the same rounds: in each of them the same unit has its
turn and does the same in it, or else the lookup of the first one strays in this turn. So the containers agree as their
units do (`agree_fanOut`).
-/

namespace StateBench

variable {α : Type} {strays : MockLookup → Prop}

/-! ## Pools -/

/-- The units are under way alike until a lookup strays. -/
structure Flight.AgreeUntil (strays : MockLookup → Prop) (flight other : Flight α) : Prop where
  index : flight.index = other.index
  lookups : flight.lookups = other.lookups
  time : flight.time = other.time
  rest : (flight.rest ()).AgreeUntil strays (other.rest ())

/-- The pools have units that agree in the same places. -/
structure Pool.AgreeUntil (strays : MockLookup → Prop) (pool other : Pool α) : Prop where
  queue : List.Forall₂ (Flight.AgreeUntil strays) pool.queue other.queue
  waiting : List.Forall₂ (Flight.AgreeUntil strays) pool.waiting other.waiting
  backlog : List.Forall₂ (fun first second => first.1 = second.1 ∧ first.2.AgreeUntil strays second.2) pool.backlog
    other.backlog

/-- The rounds end alike, or in the first one a lookup has strayed. -/
inductive Round.AgreeUntil (strays : MockLookup → Prop) : Round α → Round α → Prop
  | strayed {round other : Round α} (strayed : round.turn.Strays strays) : AgreeUntil strays round other
  | landed (turn : Turn) (landing : Landing α) {pool other : Pool α} (pools : pool.AgreeUntil strays other) :
      AgreeUntil strays (.landed turn landing pool) (.landed turn landing other)
  | tired (turn : Turn) {pool other : Pool α} (pools : pool.AgreeUntil strays other) :
      AgreeUntil strays (.tired turn pool) (.tired turn other)
  | quiet (turn : Turn) {pool other : Pool α} (pools : pool.AgreeUntil strays other) :
      AgreeUntil strays (.quiet turn pool) (.quiet turn other)

namespace Pool.AgreeUntil

variable {pool other : Pool α}

theorem launch {first second : Nat × Activity α} (h : first.1 = second.1 ∧ first.2.AgreeUntil strays second.2)
    (now : Nat) : (Pool.launch now first).AgreeUntil strays (Pool.launch now second) := ⟨h.1, rfl, rfl, h.2 now⟩

theorem start {jobs others : List (Activity α)} (h : List.Forall₂ (Activity.AgreeUntil strays) jobs others)
    (limit now : Nat) : (Pool.start limit jobs now).AgreeUntil strays (Pool.start limit others now) := by
  have hunits := forall₂_zipIdx h 0
  have htake := List.forall₂_take (max limit 1) hunits
  refine ⟨?_, .nil, List.forall₂_drop (max limit 1) hunits⟩
  exact List.forall₂_map_left_iff.2 (List.forall₂_map_right_iff.2 (htake.imp fun _ _ hu => launch hu now))

theorem launchNext (h : pool.AgreeUntil strays other) (now : Nat) :
    (pool.launchNext now).AgreeUntil strays (other.launchNext now) := by
  have htake := List.forall₂_take 1 h.backlog
  rw [Pool.launchNext_eq, Pool.launchNext_eq]
  refine ⟨List.rel_append h.queue ?_, h.waiting, List.forall₂_drop 1 h.backlog⟩
  exact List.forall₂_map_left_iff.2 (List.forall₂_map_right_iff.2 (htake.imp fun _ _ hu => launch hu now))

theorem addWaiting {flight second : Flight α} (hf : flight.AgreeUntil strays second) {flights others : List (Flight α)}
    (h : List.Forall₂ (Flight.AgreeUntil strays) flights others) :
    List.Forall₂ (Flight.AgreeUntil strays) (Pool.addWaiting flight flights) (Pool.addWaiting second others) := by
  induction h with
  | nil => exact .cons hf .nil
  | cons hfirst hrest ih =>
    unfold Pool.addWaiting
    rw [hfirst.time, hf.time]
    split
    · exact .cons hfirst ih
    · exact .cons hf (.cons hfirst hrest)

theorem putBack (h : pool.AgreeUntil strays other) {flight second : Flight α} (hf : flight.AgreeUntil strays second)
    (asksAgain : Bool) : (pool.putBack asksAgain flight).AgreeUntil strays (other.putBack asksAgain second) := by
  unfold Pool.putBack
  split
  · exact ⟨List.rel_append h.queue (.cons hf .nil), h.waiting, h.backlog⟩
  · exact ⟨h.queue, addWaiting hf h.waiting, h.backlog⟩

theorem firstTime? (h : pool.AgreeUntil strays other) : pool.firstTime? = other.firstTime? := by
  have hhead : ∀ {flights others : List (Flight α)}, List.Forall₂ (Flight.AgreeUntil strays) flights others →
      flights.head?.map (·.time) = others.head?.map (·.time) := by
    intro flights others hall
    cases hall with
    | nil => rfl
    | cons hfirst _ => exact congrArg some hfirst.time
  exact hhead h.waiting

theorem wakeAt (h : pool.AgreeUntil strays other) (time : Nat) :
    (pool.wakeAt time).AgreeUntil strays (other.wakeAt time) := by
  have hwaiting : ∀ {flights others : List (Flight α)}, List.Forall₂ (Flight.AgreeUntil strays) flights others →
      List.Forall₂ (Flight.AgreeUntil strays) (flights.takeWhile (·.time = time)) (others.takeWhile (·.time = time)) ∧
        List.Forall₂ (Flight.AgreeUntil strays) (flights.dropWhile (·.time = time))
          (others.dropWhile (·.time = time)) := by
    intro flights others hall
    induction hall with
    | nil => exact ⟨.nil, .nil⟩
    | cons hfirst hrest ih =>
      rw [List.takeWhile_cons, List.takeWhile_cons, List.dropWhile_cons, List.dropWhile_cons, hfirst.time]
      split
      · exact ⟨.cons hfirst ih.1, ih.2⟩
      · exact ⟨.nil, .cons hfirst hrest⟩
  obtain ⟨htake, hdrop⟩ := hwaiting h.waiting
  exact ⟨List.rel_append h.queue htake, hdrop, h.backlog⟩

/-! ## Rounds -/

theorem giveTurns (h : pool.AgreeUntil strays other) (turns patience : Nat) (turn : Turn) :
    (Pool.giveTurns turns patience turn pool).AgreeUntil strays (Pool.giveTurns turns patience turn other) := by
  revert other
  fun_induction Pool.giveTurns turns patience turn pool with
  | case1 =>
    intro other h
    rw [Pool.giveTurns]
    exact .tired _ h
  | case2 turns turn pool hp =>
    intro other h
    rw [Pool.giveTurns]
    · exact .tired _ h
    · exact hp
  | case3 turns patience turn pool hq =>
    intro other h
    have hqueue := h.queue
    rw [hq] at hqueue
    have ho : other.queue = [] := List.forall₂_nil_left_iff.1 hqueue
    rw [Pool.giveTurns, ho]
    exact .quiet _ h
  | case4 turns patience turn pool flight queue hq own result hr =>
    intro other h
    have hqueue := h.queue
    rw [hq] at hqueue
    obtain ⟨second, others, hflight, hrest, ho⟩ := List.forall₂_cons_left_iff.1 hqueue
    have hcourse := hflight.rest
    rw [Pool.giveTurns, ho]
    simp only
    generalize second.rest () = course at hcourse ⊢
    rw [hr] at hcourse
    cases hcourse with
    | strayed strayed => exact .strayed (strayed.mono fun event he => List.mem_append_left _ he)
    | ended =>
      rw [hflight.index, hflight.lookups]
      exact .landed _ _ ⟨hrest, h.waiting, h.backlog⟩
  | case5 turns patience turn pool flight queue hq own time rest hr ahead =>
    rename_i ih
    intro other h
    have hqueue := h.queue
    rw [hq] at hqueue
    obtain ⟨second, others, hflight, hrest, ho⟩ := List.forall₂_cons_left_iff.1 hqueue
    have hcourse := hflight.rest
    rw [Pool.giveTurns.eq_3, ho]
    simp only
    generalize second.rest () = course at hcourse ⊢
    rw [hr] at hcourse
    cases hcourse with
    | strayed strayed =>
      -- The turn in which the lookup strays is part of the round.
      have hturn : (turn.withUnit own).Strays strays := strayed.mono fun event he => List.mem_append_left _ he
      exact .strayed (hturn.mono fun event he => mem_giveTurns he)
    | paused rests =>
      have hpool : ({ pool with queue } : Pool α).AgreeUntil strays { other with queue := others } :=
        ⟨hrest, h.waiting, h.backlog⟩
      refine ih (hpool.putBack ?_ own.asksAgain)
      rw [← hflight.index, ← hflight.lookups]
      exact ⟨rfl, rfl, rfl, rests⟩

theorem round {turn : Turn} {round : Round α} (hround : pool.round turn = round) (h : pool.AgreeUntil strays other) :
    ∃ second, other.round turn = second ∧ round.AgreeUntil strays second := by
  subst hround
  refine ⟨_, rfl, ?_⟩
  have hempty : pool.queue.isEmpty = other.queue.isEmpty := by
    rw [Bool.eq_iff_iff, List.isEmpty_iff_length_eq_zero, List.isEmpty_iff_length_eq_zero, h.queue.length_eq]
  have hsize : pool.size = other.size := by rw [size, size, h.queue.length_eq, h.waiting.length_eq]
  unfold Pool.round
  rw [hempty, hsize]
  split
  · exact .quiet turn h
  · exact h.giveTurns _ _ turn

/-! ## Draining -/

/-- Containers come to their ends alike until a lookup strays. -/
theorem drain (h : pool.AgreeUntil strays other) (turn : Turn) (landings : List (Landing α)) :
    (pool.drain turn landings).AgreeUntil strays (other.drain turn landings) := by
  fun_induction Pool.drain pool turn landings generalizing other with
  | case1 pool turn landings last landing next hround failure hf =>
    obtain ⟨second, ho, hr⟩ := h.round hround
    cases hr with
    | strayed strayed => exact .strayed strayed
    | landed _ _ pools =>
      rw [drain_of_failed ho hf]
      exact .refl _
  | case2 pool turn landings last landing next hround value hv ih =>
    obtain ⟨second, ho, hr⟩ := h.round hround
    cases hr with
    | strayed strayed => exact .strayed (strayed.mono fun event he => mem_first_drain he _)
    | landed _ _ pools =>
      rw [drain_of_landed ho hv]
      exact ih (pools.launchNext _)
  | case3 pool turn landings last next hround ih =>
    obtain ⟨second, ho, hr⟩ := h.round hround
    cases hr with
    | strayed strayed => exact .strayed strayed
    | tired _ pools =>
      rw [drain_of_tired ho]
      exact .paused (ih pools)
  | case4 pool turn landings last next hround hn =>
    obtain ⟨second, ho, hr⟩ := h.round hround
    cases hr with
    | strayed strayed => exact .strayed strayed
    | quiet _ pools =>
      rw [drain_of_quiet ho (pools.firstTime?.symm.trans hn)]
      exact .refl _
  | case5 pool turn landings last next hround time hn ih =>
    obtain ⟨second, ho, hr⟩ := h.round hround
    cases hr with
    | strayed strayed =>
      refine .strayed ?_
      rw [Course.first_waiting]
      exact strayed
    | quiet _ pools =>
      rw [drain_of_woken ho (pools.firstTime?.symm.trans hn)]
      exact .waiting (ih (pools.wakeAt time))

end Pool.AgreeUntil

/-! ## Containers -/

theorem agree_runJobs {jobs others : List (Activity α)} (h : List.Forall₂ (Activity.AgreeUntil strays) jobs others)
    (limit : Nat) : (runJobs limit jobs).AgreeUntil strays (runJobs limit others) := fun now =>
  (Pool.AgreeUntil.start h limit now).drain (.idle now) []

/-- Containers agree until a lookup strays if their units do. -/
theorem agree_fanOut (container : StatePath) (limit : Nat) {units others : List (FanUnit Activity)}
    (h : List.Forall₂ (fun first second => first.name = second.name ∧ first.job.AgreeUntil strays second.job) units
      others) : (fanOut container limit units).AgreeUntil strays (fanOut container limit others) := by
  have hnames : units.map (·.name) = others.map (·.name) := map_eq_of_forall₂ (h.imp fun _ _ hu => hu.1)
  have hjobs : List.Forall₂ (Activity.AgreeUntil strays) (units.map (·.job)) (others.map (·.job)) :=
    List.forall₂_map_left_iff.2 (List.forall₂_map_right_iff.2 (h.imp fun _ _ hu => hu.2))
  unfold fanOut
  rw [hnames]
  exact (agree_runJobs hjobs limit).bind fun outcome => .refl _

end StateBench

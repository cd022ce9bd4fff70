import StateBench.Proofs.Activity.Succeeding
import StateBench.Proofs.FanOut.Gathering

/-!
# Containers that are the same where one succeeds

When a container completes, all units that were under way have succeeded (`Pool.succeed_of_completed`). Units that are
not admitted yet have no part in a round, so pools with other backlogs go through the same rounds
(`Pool.round_withBacklog`). A container with other units that are the same where its own succeed therefore goes through
the same rounds as well, if it completes: each unit that it admits is one of those that succeed
(`Pool.drain_withBacklog`). So containers succeed alike if their units do (`succeedsAs_fanOut`).
-/

namespace StateBench

variable {α : Type}

/-! ## Other backlogs -/

namespace Pool

/-- The pool with other units that are not admitted yet. -/
def withBacklog (pool : Pool α) (backlog : List (Nat × Activity α)) : Pool α := { pool with backlog }

end Pool

/-- The round with other units that are not admitted yet. -/
def Round.withBacklog (backlog : List (Nat × Activity α)) : Round α → Round α
  | .landed turn landing pool => .landed turn landing (pool.withBacklog backlog)
  | .tired turn pool => .tired turn (pool.withBacklog backlog)
  | .quiet turn pool => .quiet turn (pool.withBacklog backlog)

namespace Pool

variable {pool : Pool α} {backlog : List (Nat × Activity α)}

theorem putBack_withBacklog (pool : Pool α) (backlog : List (Nat × Activity α)) (asksAgain : Bool)
    (flight : Flight α) :
    (pool.withBacklog backlog).putBack asksAgain flight = (pool.putBack asksAgain flight).withBacklog backlog := by
  cases asksAgain <;> rfl

theorem giveTurns_withBacklog (turns patience : Nat) (turn : Turn) (pool : Pool α)
    (backlog : List (Nat × Activity α)) :
    giveTurns turns patience turn (pool.withBacklog backlog) =
      (giveTurns turns patience turn pool).withBacklog backlog := by
  fun_induction giveTurns turns patience turn pool with
  | case1 =>
    rw [giveTurns]
    rfl
  | case2 turns turn pool hp =>
    rw [giveTurns]
    · rfl
    · exact hp
  | case3 turns patience turn pool hq =>
    have hqueue : (pool.withBacklog backlog).queue = [] := hq
    rw [giveTurns, hqueue]
    rfl
  | case4 turns patience turn pool flight queue hq own result hr =>
    have hqueue : (pool.withBacklog backlog).queue = flight :: queue := hq
    rw [giveTurns, hqueue]
    simp only [hr]
    rfl
  | case5 turns patience turn pool flight queue hq own time rest hr ahead ih =>
    have hqueue : (pool.withBacklog backlog).queue = flight :: queue := hq
    rw [giveTurns.eq_3, hqueue]
    simp only [hr]
    rw [← ih, ← putBack_withBacklog]
    rfl

/-- A round does not depend on the units that are not admitted yet. -/
theorem round_withBacklog {turn : Turn} {round : Round α} (h : pool.round turn = round)
    (backlog : List (Nat × Activity α)) : (pool.withBacklog backlog).round turn = round.withBacklog backlog := by
  subst h
  unfold Pool.round
  show (if pool.queue.isEmpty then _ else giveTurns pool.size 2 turn (pool.withBacklog backlog)) = _
  rw [giveTurns_withBacklog]
  split <;> rfl

theorem wakeAt_withBacklog (pool : Pool α) (backlog : List (Nat × Activity α)) (time : Nat) :
    (pool.withBacklog backlog).wakeAt time = (pool.wakeAt time).withBacklog backlog := rfl

/-! ## Pools that complete -/

/-- When a container completes, all units that were under way have succeeded. -/
theorem succeed_of_completed {turn : Turn} {landings all : List (Landing α)}
    (h : (pool.drain turn landings).toRun.result = .ok (.completed all)) :
    ∀ landing ∈ pool.destinies, ∃ value, landing.result = .ok value := by
  fun_induction Pool.drain pool turn landings with
  | case1 pool turn landings last landing next hround failure hf => cases h
  | case2 pool turn landings last landing next hround value hv ih =>
    have hunits : (landing :: next.destinies).Perm pool.destinies := destinies_round hround
    intro other ho
    rcases List.mem_cons.1 (hunits.mem_iff.2 ho) with rfl | hnext
    · exact ⟨value, hv⟩
    · exact ih h other ((next.destinies_launchNext last.time).mem_iff.2 (List.mem_append_right _ hnext))
  | case3 pool turn landings last next hround ih =>
    have hunits : next.destinies.Perm pool.destinies := destinies_round hround
    exact fun other ho => ih h other (hunits.mem_iff.2 ho)
  | case4 pool turn landings last next hround hn =>
    rw [destinies_of_quiet hround hn]
    intro other ho
    cases ho
  | case5 pool turn landings last next hround time hn ih =>
    rw [Course.toRun_waiting] at h
    have hunits : next.destinies.Perm pool.destinies := destinies_round hround
    rw [destinies_wakeAt] at ih
    exact fun other ho => ih h other (hunits.mem_iff.2 ho)

/-! ## Units that take the places of others -/

/-- A unit and one that takes its place. -/
def Replaces (first second : Nat × Activity α) : Prop := first.1 = second.1 ∧ first.2.SucceedsAs second.2

/-- Units that succeed are launched as those that take their places. -/
theorem launch_of_replaces {units others : List (Nat × Activity α)} (h : List.Forall₂ Replaces units others) {now : Nat}
    (succeed : ∀ unit ∈ units, ∃ value, (unit.2.run now).result = .ok value) :
    units.map (launch now) = others.map (launch now) := by
  refine map_eq_of_forall₂ ((forall₂_of_mem h).imp ?_)
  rintro first second ⟨hm, hindex, hjob⟩
  obtain ⟨value, hv⟩ := succeed first hm
  rw [launch, launch, hindex, hjob now value hv]

/-- A unit that is admitted and succeeds is admitted as the one that takes its place. -/
theorem launchNext_withBacklog {now : Nat} (h : List.Forall₂ Replaces pool.backlog backlog)
    (succeed : ∀ landing ∈ (pool.launchNext now).destinies, ∃ value, landing.result = .ok value) :
    (pool.withBacklog backlog).launchNext now = (pool.launchNext now).withBacklog (backlog.drop 1) := by
  have hlaunch : (pool.backlog.take 1).map (launch now) = (backlog.take 1).map (launch now) := by
    refine launch_of_replaces (List.forall₂_take 1 h) fun unit hu => ?_
    exact succeed _ (List.mem_map_of_mem (List.mem_append_left _ (launch_mem_launchNext hu now)))
  rw [launchNext_eq, launchNext_eq, hlaunch]
  rfl

/-- A container that completes goes through the same course if units that take the place of others are admitted. -/
theorem drain_withBacklog {turn : Turn} {landings all : List (Landing α)}
    (h : List.Forall₂ Replaces pool.backlog backlog)
    (completed : (pool.drain turn landings).toRun.result = .ok (.completed all)) :
    (pool.withBacklog backlog).drain turn landings = pool.drain turn landings := by
  fun_induction Pool.drain pool turn landings generalizing backlog with
  | case1 pool turn landings last landing next hround failure hf => cases completed
  | case2 pool turn landings last landing next hround value hv ih =>
    have hb : next.backlog = pool.backlog := backlog_round hround
    rw [← hb] at h
    -- The unit that is admitted now succeeds, as the container completes with it.
    rw [drain_of_landed (round_withBacklog hround backlog) hv,
      launchNext_withBacklog h (succeed_of_completed completed)]
    refine ih ?_ completed
    rw [backlog_launchNext]
    exact List.forall₂_drop 1 h
  | case3 pool turn landings last next hround ih =>
    have hb : next.backlog = pool.backlog := backlog_round hround
    rw [← hb] at h
    rw [drain_of_tired (round_withBacklog hround backlog), ih h completed]
  | case4 pool turn landings last next hround hn =>
    exact drain_of_quiet (round_withBacklog hround backlog) hn landings
  | case5 pool turn landings last next hround time hn ih =>
    have hb : next.backlog = pool.backlog := backlog_round hround
    rw [← hb] at h
    rw [Course.toRun_waiting] at completed
    have hrest := ih h completed
    rw [drain_of_woken (round_withBacklog hround backlog) hn, wakeAt_withBacklog, hrest]

/-- A container that completes has started with units that can be replaced. -/
theorem start_of_replaces {jobs others : List (Activity α)} (h : List.Forall₂ Activity.SucceedsAs jobs others)
    {limit now : Nat}
    (succeed : ∀ landing ∈ (Pool.start limit jobs now).destinies, ∃ value, landing.result = .ok value) :
    ∃ backlog, List.Forall₂ Replaces (Pool.start limit jobs now).backlog backlog ∧
      Pool.start limit others now = (Pool.start limit jobs now).withBacklog backlog := by
  have hunits : List.Forall₂ Replaces (jobs.zipIdx.map fun pair => (pair.2, pair.1))
      (others.zipIdx.map fun pair => (pair.2, pair.1)) := forall₂_zipIdx h 0
  refine ⟨_, List.forall₂_drop (max limit 1) hunits, ?_⟩
  have hqueue : (Pool.start limit jobs now).queue = (Pool.start limit others now).queue := by
    refine launch_of_replaces (List.forall₂_take (max limit 1) hunits) fun unit hu => ?_
    exact succeed _ (List.mem_map_of_mem (List.mem_append_left _ (List.mem_map_of_mem hu)))
  rw [withBacklog, hqueue]
  rfl

end Pool

/-! ## Containers -/

theorem runJobs_of_completed {jobs others : List (Activity α)} (h : List.Forall₂ Activity.SucceedsAs jobs others)
    {limit now : Nat} {all : List (Landing α)}
    (completed : ((runJobs limit jobs).run now).result = .ok (.completed all)) :
    runJobs limit jobs now = runJobs limit others now := by
  obtain ⟨backlog, hb, hstart⟩ := Pool.start_of_replaces h (Pool.succeed_of_completed completed)
  rw [runJobs, runJobs, hstart, Pool.drain_withBacklog hb completed]

/-- Containers succeed alike if their units do. -/
theorem succeedsAs_fanOut (container : StatePath) (limit : Nat) {units others : List (FanUnit Activity)}
    (h : List.Forall₂ (fun first second => first.name = second.name ∧ first.job.SucceedsAs second.job) units others) :
    (fanOut container limit units).SucceedsAs (fanOut container limit others) := by
  intro now outputs hr
  have hnames : units.map (·.name) = others.map (·.name) := map_eq_of_forall₂ (h.imp fun _ _ hu => hu.1)
  have hjobs : List.Forall₂ Activity.SucceedsAs (units.map (·.job)) (others.map (·.job)) :=
    List.forall₂_map_left_iff.2 (List.forall₂_map_right_iff.2 (h.imp fun _ _ hu => hu.2))
  obtain ⟨-, outcome, -, -, hres, -⟩ := run_runJobs limit (units.map (·.job)) now
  rw [run_fanOut_of_runJobs hres] at hr
  cases outcome with
  | stopped landings failed failure => cases hr
  | completed all =>
    unfold fanOut
    rw [hnames]
    exact congrArg (Course.goOn · _) (runJobs_of_completed hjobs hres)

end StateBench

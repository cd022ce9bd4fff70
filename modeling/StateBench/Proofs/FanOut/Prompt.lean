import StateBench.Proofs.FanOut.Traces

/-!
# Containers in which nothing is waited for

If the units of a container end in their first turns, they land one after the other in the turn in which the container
starts, and a unit that is stopped by the failure of another one has had no turn. So all that is seen of the container
is on the record, whether it succeeds or not, unless an answer is waited for (`prompt_fanOut`).
-/

namespace StateBench

variable {α : Type} {waits : Invocation → Prop}

/-! ## Pools -/

namespace Pool

/-- The units that are in the queue have not had a turn, and they and those in the backlog end in their first turns, or
else wait for an answer. -/
structure Prompt (waits : Invocation → Prop) (pool : Pool α) : Prop where
  fresh : ∀ flight ∈ pool.queue, flight.lookups = [] ∧ (flight.rest ()).Prompt waits
  waiting : pool.waiting = []
  backlog : ∀ unit ∈ pool.backlog, unit.2.Prompt waits

/-- In a round an answer was waited for, or a unit has landed with all its lookups, or nothing was done. -/
def Came (waits : Invocation → Prop) (pool : Pool α) (turn : Turn) : Round α → Prop
  | .landed last landing next => last.Waits waits ∨ next.Prompt waits ∧
      ∀ sought, Event.lookup sought ∈ last.events → Event.lookup sought ∈ turn.events ∨ sought ∈ landing.lookups
  | .tired last _ => last.Waits waits
  | .quiet last next => last.Waits waits ∨ last = turn ∧ next = pool

namespace Came

variable {pool : Pool α} {turn : Turn}

theorem of_waits {round : Round α} (h : round.turn.Waits waits) : Came waits pool turn round := by
  cases round with
  | landed => exact .inl h
  | tired => exact h
  | quiet => exact .inl h

end Came

namespace Prompt

variable {pool next : Pool α} {turn last : Turn} {landing : Landing α} {landings : List (Landing α)}

theorem start {jobs : List (Activity α)} (h : ∀ job ∈ jobs, job.Prompt waits) (limit now : Nat) :
    (Pool.start limit jobs now).Prompt waits := by
  have hunit : ∀ unit ∈ jobs.zipIdx.map fun pair => (pair.2, pair.1), unit.2.Prompt waits := by
    intro unit hm
    exact h unit.2 (List.mem_of_getElem? (getElem?_of_mem_backlog hm))
  refine ⟨fun flight hm => ?_, rfl, fun unit hm => hunit unit (List.mem_of_mem_drop hm)⟩
  obtain ⟨unit, hu, rfl⟩ := List.mem_map.1 hm
  exact ⟨rfl, hunit unit (List.mem_of_mem_take hu) now⟩

theorem launchNext (h : pool.Prompt waits) (now : Nat) : (pool.launchNext now).Prompt waits := by
  rw [launchNext_eq]
  refine ⟨fun flight hm => ?_, h.waiting, fun unit hu => h.backlog unit (List.mem_of_mem_drop hu)⟩
  rcases List.mem_append.1 hm with hm | hm
  · exact h.fresh flight hm
  · obtain ⟨unit, hu, rfl⟩ := List.mem_map.1 hm
    exact ⟨rfl, h.backlog unit (List.mem_of_mem_take hu) now⟩

/-- In a round an answer is waited for, or the first unit lands with its lookups, if there is a unit. -/
theorem round {round : Round α} (hround : pool.round turn = round) (h : pool.Prompt waits) :
    Came waits pool turn round := by
  subst hround
  cases hq : pool.queue with
  | nil =>
    rw [round_of_empty hq]
    exact .inr ⟨rfl, rfl⟩
  | cons flight queue =>
    obtain ⟨hlookups, hprompt⟩ := h.fresh flight (hq ▸ List.mem_cons_self)
    have hsize : pool.size = (queue.length + pool.waiting.length) + 1 := by
      rw [size, hq, List.length_cons]
      omega
    have hround : pool.round turn = giveTurns ((queue.length + pool.waiting.length) + 1) 2 turn pool := by
      rw [Pool.round, hq, if_neg (by simp), hsize]
    rw [hround]
    unfold giveTurns
    simp only [hq]
    rcases hprompt with hw | ⟨own, result, hr, hcomplete⟩
    · cases hr : flight.rest () with
      | ended own result =>
        rw [hr] at hw
        exact .inl (hw.mono fun event he => List.mem_append_left _ he)
      | paused own time rest =>
        rw [hr] at hw
        exact .of_waits (hw.mono fun event he => mem_giveTurns (List.mem_append_left _ he))
    · rw [hr]
      refine .inr ⟨⟨fun other ho => h.fresh other (hq ▸ List.mem_cons_of_mem _ ho), h.waiting, h.backlog⟩, ?_⟩
      intro sought hs
      rcases List.mem_append.1 hs with hs | hs
      · right
        rw [hlookups, List.append_nil]
        exact List.mem_reverse.2 (hcomplete sought hs)
      · exact .inl hs

/-- The units of a pool land one after the other in the turn in which it starts, or else an answer is waited for. -/
theorem drain (h : pool.Prompt waits)
    (ht : ∀ sought, Event.lookup sought ∈ turn.events → ∃ landing ∈ landings, sought ∈ landing.lookups) :
    (pool.drain turn landings).first.Waits waits ∨
      ∃ last outcome, pool.drain turn landings = .ended last (.ok outcome) ∧
        ∀ sought, Event.lookup sought ∈ last.events → ∃ landing ∈ outcome.ended, sought ∈ landing.lookups := by
  fun_induction Pool.drain pool turn landings with
  | case1 pool turn landings last landing next hround failure hf =>
    rcases h.round hround with hw | ⟨-, hl⟩
    · exact .inl hw
    · refine .inr ⟨_, _, rfl, fun sought hs => ?_⟩
      rcases hl sought hs with hs | hs
      · obtain ⟨other, ho, hs⟩ := ht sought hs
        exact ⟨other, List.mem_cons_of_mem _ ho, hs⟩
      · exact ⟨landing, List.mem_cons_self, hs⟩
  | case2 pool turn landings last landing next hround value hv ih =>
    rcases h.round hround with hw | ⟨hnext, hl⟩
    · exact .inl (hw.mono fun event he => mem_first_drain he _)
    · refine ih (hnext.launchNext _) fun sought hs => ?_
      rcases hl sought hs with hs | hs
      · obtain ⟨other, ho, hs⟩ := ht sought hs
        exact ⟨other, List.mem_cons_of_mem _ ho, hs⟩
      · exact ⟨landing, List.mem_cons_self, hs⟩
  | case3 pool turn landings last next hround ih => exact .inl (h.round hround)
  | case4 pool turn landings last next hround hn =>
    rcases h.round hround with hw | ⟨rfl, -⟩
    · exact .inl hw
    · exact .inr ⟨_, _, rfl, ht⟩
  | case5 pool turn landings last next hround time hn ih =>
    rcases h.round hround with hw | ⟨-, rfl⟩
    · left
      rw [Course.first_waiting]
      exact hw
    · rw [firstTime?, h.waiting] at hn
      cases hn

end Prompt

end Pool

/-! ## Containers -/

/-- Where units end in their first turns unless they wait for answers, so does their container. -/
theorem prompt_fanOut (container : StatePath) (limit : Nat) {units : List (FanUnit Activity)}
    (h : ∀ unit ∈ units, unit.job.Prompt waits) : (fanOut container limit units).Prompt waits := by
  intro now
  have hpool := Pool.Prompt.start (List.forall_mem_map.2 h) limit now
  have hturn : ∀ sought, Event.lookup sought ∈ (Turn.idle now).events →
      ∃ landing ∈ ([] : List (Landing Json)), sought ∈ landing.lookups := fun sought hs => nomatch hs
  let next (outcome : Outcome Json) : Activity (List Json) := do
    Activity.note outcome.lookups
    .done (outcome.result container (units.map (·.name)))
  show ((runJobs limit (units.map (·.job)) now).goOn fun outcome => (next outcome).startIn).Prompt waits
  rcases hpool.drain hturn with hw | ⟨last, outcome, hd, hl⟩
  · exact .inl (hw.mono fun event he => Course.mem_first_goOn he next)
  · have hjobs : runJobs limit (units.map (·.job)) now = .ended last (.ok outcome) := hd
    rw [hjobs]
    refine .inr ⟨_, _, rfl, fun sought hs => ?_⟩
    obtain ⟨landing, hm, hs⟩ := hl sought hs
    refine List.mem_append_left _ (List.mem_reverse.2 ?_)
    exact List.mem_flatMap.2 ⟨landing, Landing.mem_inOrder.2 hm, hs⟩

end StateBench

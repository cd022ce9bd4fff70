import StateBench.Proofs.FanOut.Gathering
import StateBench.Proofs.Evaluation.Related
import StateBench.Tally

/-!
# Containers whose units end at once

An activity that ends in the turn in which it starts comes to the same at all times: it comes to a tally
(`Activity.Instantly`). If all units of a container are of this kind, they land in their order, each before the next one
gets its first turn, and the first that fails is the first in the order. So the container ends at once as well, and
comes to the tally of its units in turn, whatever the bound is (`instantly_fanOut`).
-/

namespace StateBench

variable {α β : Type}

/-- The activity ends in the turn in which it starts, and always comes to a tally. -/
def Activity.Instantly (activity : Activity α) (tally : Tally α) : Prop :=
  ∀ now, ∃ events, activity now = .ended ⟨now, events, tally.lookups.reverse, false⟩ tally.result

namespace Activity.Instantly

/-! ## Activities -/

theorem done (result : Except Failure α) : (Activity.done result).Instantly (.done result) := fun _ => ⟨[], rfl⟩

theorem look (lookup : MockLookup) : (Activity.look lookup).Instantly ⟨.ok (), [lookup]⟩ := fun _ => ⟨[_], rfl⟩

theorem note (lookups : List MockLookup) : (Activity.note lookups).Instantly ⟨.ok (), lookups⟩ := fun _ => ⟨[], rfl⟩

theorem bind {first : Activity α} {tally : Tally α} {second : α → Activity β} {next : α → Tally β}
    (h : first.Instantly tally) (hn : ∀ value, (second value).Instantly (next value)) :
    (first >>= second).Instantly (tally >>= next) := by
  intro now
  obtain ⟨events, he⟩ := h now
  show ∃ events, (first now).goOn (fun value => (second value).startIn) = _
  rw [he]
  cases hr : tally.result with
  | error failure =>
    rw [Tally.bind_error hr]
    exact ⟨events, rfl⟩
  | ok value =>
    rw [Tally.bind_ok hr]
    obtain ⟨later, hl⟩ := hn value now
    exact ⟨later ++ events, by simp [Course.goOn, startIn, hl, Course.startingIn, Turn.merge]⟩

theorem loop {σ : Type} {step : σ → Activity (σ ⊕ α)} {next : σ → Tally (σ ⊕ α)} (h : ∀ s, (step s).Instantly (next s))
    (exhausted : σ → Failure) (left : Nat) (state : σ) :
    (Activity.loop step exhausted left state).Instantly (Tally.loop next exhausted left state) := by
  induction left generalizing state with
  | zero => exact done _
  | succ left ih =>
    rw [loop_succ]
    refine bind (h state) fun result => ?_
    cases result with
    | inl state => exact ih state
    | inr value => exact done (.ok value)

/-- What lands of a unit that ends at once is its tally. -/
theorem landing {activity : Activity α} {tally : Tally α} (h : activity.Instantly tally) (index now : Nat) :
    Landing.ofJob index activity now = ⟨index, tally.lookups, tally.result⟩ := by
  obtain ⟨events, he⟩ := h now
  simp [Landing.ofJob, Activity.run, he, Course.toRun]

end Activity.Instantly

/-! ## Landing one after the other -/

/-- How units come to an end that land one after the other. -/
def Outcome.inTurn (landings : List (Landing α)) : List (Landing α) → Outcome α
  | [] => .completed landings
  | landing :: rest =>
    match landing.result with
    | .error failure => .stopped landings landing failure
    | .ok _ => inTurn (landing :: landings) rest

namespace Pool

/-- A pool with the first of some units in the queue, and the others in the backlog. -/
def ofUnits (bound now : Nat) (units : List (Nat × Activity α)) : Pool α :=
  ⟨(units.take bound).map (launch now), [], units.drop bound⟩

/-- The place of a unit that has landed is taken by the next one. -/
theorem launchNext_ofUnits (bound now : Nat) (units : List (Nat × Activity α)) :
    (⟨(units.take bound).map (launch now), [], units.drop bound⟩ : Pool α).launchNext now =
      ofUnits (bound + 1) now units := by
  unfold launchNext ofUnits
  split
  · next h =>
    have hl : units.length ≤ bound := List.drop_eq_nil_iff.1 h
    have hl' : units.length ≤ bound + 1 := Nat.le_succ_of_le hl
    rw [List.take_of_length_le hl, List.take_of_length_le hl', List.drop_of_length_le hl, List.drop_of_length_le hl']
  · next unit rest h =>
    change units.drop bound = unit :: rest at h
    have hu : units[bound]? = some unit := by rw [← List.head?_drop, h]; rfl
    have hr : units.drop (bound + 1) = rest := by rw [← List.tail_drop, h]; rfl
    simp [List.take_add_one, hu, hr]

/-- A round in which the first unit of the queue ends. -/
theorem round_of_ended {pool : Pool α} {flight : Flight α} {queue : List (Flight α)} {own : Turn}
    {result : Except Failure α} (hq : pool.queue = flight :: queue) (hr : flight.rest () = .ended own result)
    (turn : Turn) :
    pool.round turn = .landed (turn.withUnit own) ⟨flight.index, (own.lookups ++ flight.lookups).reverse, result⟩
      { pool with queue } := by
  have hs : pool.size = (queue.length + pool.waiting.length) + 1 := by
    rw [size, hq, List.length_cons]
    omega
  rw [round, hs, giveTurns]
  simp [hq, hr]

/-- Units that end at once land one after the other in one turn of their container. -/
theorem drain_ofUnits (bound : Nat) {units : List (Nat × Activity α)}
    (hu : ∀ unit ∈ units, ∃ tally, unit.2.Instantly tally) (turn : Turn) (landings : List (Landing α)) :
    ∃ events, (ofUnits (bound + 1) turn.time units).drain turn landings =
      .ended { turn with events } (.ok (.inTurn landings (units.map fun unit => .ofJob unit.1 unit.2 turn.time))) := by
  induction units generalizing turn landings with
  | nil =>
    have hq : (ofUnits (bound + 1) turn.time ([] : List (Nat × Activity α))).queue = [] := by simp [ofUnits]
    exact ⟨turn.events, drain_of_quiet (round_of_empty hq turn) (by simp [ofUnits, firstTime?]) _⟩
  | cons unit units ih =>
    obtain ⟨tally, ht⟩ := hu unit List.mem_cons_self
    obtain ⟨events, he⟩ := ht turn.time
    have hl := ht.landing unit.1 turn.time
    -- The unit in front ends in its first turn, and lands before any other gets one.
    let last : Turn := { turn with events := events ++ turn.events }
    have hr : (ofUnits (bound + 1) turn.time (unit :: units)).round turn =
        .landed last (.ofJob unit.1 unit.2 turn.time)
          ⟨(units.take bound).map (launch turn.time), [], units.drop bound⟩ := by
      have hq : (ofUnits (bound + 1) turn.time (unit :: units)).queue =
          launch turn.time unit :: (units.take bound).map (launch turn.time) := rfl
      rw [round_of_ended hq he turn, hl]
      simp [launch, Turn.withUnit, last, ofUnits]
    cases hres : tally.result with
    | error failure =>
      have hf : (Landing.ofJob unit.1 unit.2 turn.time).result = .error failure := by rw [hl, hres]
      rw [drain_of_failed hr hf]
      exact ⟨events ++ turn.events, by simp only [List.map_cons, Outcome.inTurn, hf, last]⟩
    | ok value =>
      have hv : (Landing.ofJob unit.1 unit.2 turn.time).result = .ok value := by rw [hl, hres]
      obtain ⟨later, ih⟩ := ih (fun other ho => hu other (List.mem_cons_of_mem _ ho)) last
        (.ofJob unit.1 unit.2 turn.time :: landings)
      rw [drain_of_landed hr hv, launchNext_ofUnits, ih]
      exact ⟨later, by simp only [List.map_cons, Outcome.inTurn, hv, last]⟩

end Pool

/-- Jobs that end at once are run at once, one after the other. -/
theorem runJobs_instant (limit : Nat) {jobs : List (Activity α)} (hj : ∀ job ∈ jobs, ∃ tally, job.Instantly tally)
    (now : Nat) :
    ∃ events, runJobs limit jobs now = .ended ⟨now, events, [], false⟩
      (.ok (.inTurn [] (jobs.zipIdx.map fun unit => .ofJob unit.2 unit.1 now))) := by
  have hu : ∀ unit ∈ jobs.zipIdx.map fun unit => (unit.2, unit.1), ∃ tally, unit.2.Instantly tally := by
    intro unit hm
    exact hj unit.2 (List.mem_of_getElem? (getElem?_of_mem_backlog hm))
  obtain ⟨events, he⟩ := Pool.drain_ofUnits (max limit 1 - 1) hu (.idle now) []
  rw [Nat.sub_add_cancel (Nat.le_max_right limit 1), List.map_map] at he
  exact ⟨events, he⟩

/-! ## Tallies in turn -/

/-- The landings of units in turn, from an index on. -/
def Tally.landings (first : Nat) (units : List (FanUnit Tally)) : List (Landing Json) :=
  (units.zipIdx first).map fun (unit, index) => ⟨index, unit.job.lookups, unit.job.result⟩

section InTurn

variable {container : StatePath} {names : List String} {before : List (Landing Json)}

theorem indices_snoc (hi : before.map (·.index) = List.range before.length) (landing : Landing Json)
    (hl : landing.index = before.length) :
    (before ++ [landing]).map (·.index) = List.range (before ++ [landing]).length := by
  simp [hi, hl, List.range_succ]

theorem inOrder_of_indices (hi : before.map (·.index) = List.range before.length) :
    Landing.inOrder before.reverse = before := Landing.inOrder_reverse (hi ▸ List.pairwise_lt_range)

/-- The unit after those that have landed adds its output to the partial results. -/
theorem partialResults_snoc (hi : before.map (·.index) = List.range before.length) {name : String} {rest : List String}
    (hn : names.drop before.length = name :: rest) {landing : Landing Json} (hl : landing.index = before.length)
    {output : Json} (ho : landing.result = .ok output) :
    partialResults container names (before ++ [landing]).reverse =
      partialResults container names before.reverse ++ [⟨container, name, output⟩] := by
  have hg : names[before.length]? = some name := by rw [← List.head?_drop, hn]; rfl
  unfold partialResults
  rw [inOrder_of_indices hi, inOrder_of_indices (indices_snoc hi _ hl), List.filterMap_append]
  simp [hl, hg, Landing.output?, ho, Except.toOption]

/-- Units that land one after the other come to their tally in turn. -/
theorem outcome_inTurn (units : List (FanUnit Tally)) (before : List (Landing Json)) (past : List PartialResult)
    (hi : before.map (·.index) = List.range before.length) (hn : names.drop before.length = units.map (·.name))
    (hp : partialResults container names before.reverse = past)
    (ho : before.filterMap Landing.output? = past.map (·.output)) :
    let outcome := Outcome.inTurn before.reverse (Tally.landings before.length units)
    outcome.result container names = (Tally.inTurn container past units).result ∧
      outcome.lookups = before.flatMap (·.lookups) ++ (Tally.inTurn container past units).lookups := by
  induction units generalizing before past with
  | nil =>
    refine ⟨?_, ?_⟩
    · show Except.ok ((Landing.inOrder before.reverse).filterMap Landing.output?) = _
      rw [inOrder_of_indices hi, ho]
      rfl
    · show (Landing.inOrder before.reverse).flatMap (·.lookups) = _
      rw [inOrder_of_indices hi]
      exact (List.append_nil _).symm
  | cons unit units ih =>
    let landing : Landing Json := ⟨before.length, unit.job.lookups, unit.job.result⟩
    have hl : Tally.landings before.length (unit :: units) = landing :: Tally.landings (before.length + 1) units := rfl
    have hs := indices_snoc hi landing rfl
    rw [hl]
    cases hr : unit.job.result with
    | error failure =>
      simp only [Outcome.inTurn, Tally.inTurn, landing, hr]
      refine ⟨?_, ?_⟩
      · rw [Outcome.result, hp]
      · show (Landing.inOrder (_ :: before.reverse)).flatMap (·.lookups) = _
        rw [← List.reverse_concat, inOrder_of_indices (indices_snoc hi _ rfl)]
        simp
    | ok output =>
      have hd : names.drop (before ++ [landing]).length = units.map (·.name) := by
        rw [List.length_append, List.length_singleton, ← List.tail_drop, hn]
        rfl
      have hq : partialResults container names (before ++ [landing]).reverse =
          past ++ [⟨container, unit.name, output⟩] := by
        rw [partialResults_snoc hi hn rfl hr, hp]
      have ih := ih (before ++ [landing]) (past ++ [⟨container, unit.name, output⟩]) hs hd hq
        (by simp [ho, landing, hr, Landing.output?, Except.toOption])
      simp only [List.reverse_append, List.reverse_singleton, List.singleton_append, List.length_append,
        List.length_singleton, List.flatMap_append] at ih
      simp only [Outcome.inTurn, Tally.inTurn, hr, landing] at ih ⊢
      refine ⟨ih.1, ih.2.trans ?_⟩
      simp

/-- What a container comes to whose units land one after the other. -/
theorem outcome_tally (container : StatePath) {units : List (FanUnit Tally)} (hn : names = units.map (·.name)) :
    let outcome := Outcome.inTurn [] (Tally.landings 0 units)
    outcome.result container names = (Tally.inTurn container [] units).result ∧
      outcome.lookups = (Tally.inTurn container [] units).lookups :=
  outcome_inTurn units [] [] rfl hn (by simp [partialResults, Landing.inOrder]) rfl

end InTurn

/-! ## Containers -/

/-- Units that end at once land as their tallies do. -/
theorem landings_of_related {units : List (FanUnit Activity)} {tallies : List (FanUnit Tally)}
    (h : UnitsRelated @Activity.Instantly units tallies) (first now : Nat) :
    ((units.map (·.job)).zipIdx first).map (fun unit => Landing.ofJob unit.2 unit.1 now) =
      Tally.landings first tallies := by
  induction h generalizing first with
  | nil => rfl
  | @cons unit tally units tallies hu _ ih =>
    show Landing.ofJob first unit.job now :: _ = ⟨first, tally.job.lookups, tally.job.result⟩ :: _
    rw [hu.2.landing first now]
    exact congrArg _ (ih (first + 1))

/-- A container whose units end at once comes at once to their tally in turn, whatever the bound is. -/
theorem instantly_fanOut (container : StatePath) (limit : Nat) {units : List (FanUnit Activity)}
    {tallies : List (FanUnit Tally)} (h : UnitsRelated @Activity.Instantly units tallies) :
    (fanOut container limit units).Instantly (Tally.inTurn container [] tallies) := by
  let outcome := Outcome.inTurn [] (Tally.landings 0 tallies)
  have hr : (runJobs limit (units.map (·.job))).Instantly ⟨.ok outcome, []⟩ := by
    intro now
    have hj : ∀ job ∈ units.map (·.job), ∃ tally, job.Instantly tally := by
      intro job hm
      obtain ⟨unit, hu, rfl⟩ := List.mem_map.1 hm
      obtain ⟨tally, -, ht⟩ := h.of_mem hu
      exact ⟨tally.job, ht⟩
    obtain ⟨events, he⟩ := runJobs_instant limit hj now
    rw [landings_of_related h] at he
    exact ⟨events, he⟩
  obtain ⟨hres, hlook⟩ := outcome_tally container h.names
  have he : Tally.inTurn container [] tallies = ((⟨.ok outcome, []⟩ : Tally (Outcome Json)) >>= fun outcome =>
      (⟨.ok (), outcome.lookups⟩ : Tally Unit) >>= fun _ =>
        Tally.done (outcome.result container (units.map (·.name)))) := by
    rw [Tally.bind_ok rfl, Tally.bind_ok rfl]
    show _ = (⟨outcome.result container _, [] ++ (outcome.lookups ++ [])⟩ : Tally (List Json))
    rw [List.nil_append, List.append_nil, hres, hlook]
  rw [he]
  exact hr.bind fun outcome => (Activity.Instantly.note outcome.lookups).bind fun _ => .done _

end StateBench

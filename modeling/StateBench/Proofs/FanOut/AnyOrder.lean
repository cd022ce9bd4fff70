import StateBench.Proofs.FanOut.Instant

/-!
# Containers whose units end in any order

Whether an activity succeeds, and with what, may be settled in advance by a tally, whatever time it takes
(`Activity.SettledBy`). A container of such units is settled by the tally of its units in turn (`settledBy_fanOut`): if
all tallies succeed, the container cannot be stopped, and its landings are put in the order of the units; if one fails,
the container cannot complete.
-/

namespace StateBench

variable {α β : Type}

/-- The activity succeeds just if the tally does, and then comes to the same. -/
structure Activity.SettledBy (activity : Activity α) (tally : Tally α) : Prop where
  succeeds : ∀ {value : α}, tally.result = .ok value → ∀ now,
    (activity.run now).result = .ok value ∧ (activity.run now).lookups = tally.lookups
  fails : ∀ {failure : Failure}, tally.result = .error failure →
    ∀ now, ∃ other, (activity.run now).result = .error other

namespace Activity.SettledBy

/-! ## Activities -/

theorem done (result : Except Failure α) : (Activity.done result).SettledBy (.done result) where
  succeeds h _ := ⟨h, rfl⟩
  fails h _ := ⟨_, h⟩

theorem look (lookup : MockLookup) : (Activity.look lookup).SettledBy ⟨.ok (), [lookup]⟩ where
  succeeds h _ := ⟨h, rfl⟩
  fails h := by cases h

theorem note (lookups : List MockLookup) : (Activity.note lookups).SettledBy ⟨.ok (), lookups⟩ where
  succeeds h _ := by
    rw [run_note]
    exact ⟨h, rfl⟩
  fails h := by cases h

theorem bind {first : Activity α} {tally : Tally α} {second : α → Activity β} {next : α → Tally β}
    (h : first.SettledBy tally) (hn : ∀ value, (second value).SettledBy (next value)) :
    (first >>= second).SettledBy (tally >>= next) := by
  cases ht : tally.result with
  | error failure =>
    rw [Tally.bind_error ht]
    refine ⟨fun hv => (nomatch hv), fun _ now => ?_⟩
    obtain ⟨other, ho⟩ := h.fails ht now
    exact ⟨other, by rw [run_bind, Run.followedBy_error ho]⟩
  | ok value =>
    rw [Tally.bind_ok ht]
    refine ⟨fun hv now => ?_, fun hf now => ?_⟩
    · obtain ⟨hr, hl⟩ := h.succeeds ht now
      obtain ⟨hr', hl'⟩ := (hn value).succeeds hv (first.run now).finish
      rw [run_bind, Run.followedBy_ok hr]
      exact ⟨hr', by rw [hl, hl']⟩
    · obtain ⟨hr, -⟩ := h.succeeds ht now
      obtain ⟨other, ho⟩ := (hn value).fails hf (first.run now).finish
      exact ⟨other, by rw [run_bind, Run.followedBy_ok hr]; exact ho⟩

theorem loop {σ : Type} {step : σ → Activity (σ ⊕ α)} {next : σ → Tally (σ ⊕ α)} (h : ∀ s, (step s).SettledBy (next s))
    (exhausted : σ → Failure) (left : Nat) (state : σ) :
    (Activity.loop step exhausted left state).SettledBy (Tally.loop next exhausted left state) := by
  induction left generalizing state with
  | zero => exact done _
  | succ left ih =>
    rw [loop_succ]
    refine bind (h state) fun result => ?_
    cases result with
    | inl state => exact ih state
    | inr value => exact done (.ok value)

end Activity.SettledBy

/-! ## Units in turn -/

namespace Outcome

/-- Units that all succeed complete their container. -/
theorem inTurn_of_ok {landings rest : List (Landing α)} (h : ∀ landing ∈ rest, ∃ value, landing.result = .ok value) :
    inTurn landings rest = .completed (rest.reverse ++ landings) := by
  induction rest generalizing landings with
  | nil => rfl
  | cons landing rest ih =>
    obtain ⟨value, hv⟩ := h landing List.mem_cons_self
    simp only [inTurn, hv, ih fun other ho => h other (List.mem_cons_of_mem _ ho), List.reverse_cons, List.append_assoc,
      List.singleton_append]

/-- A unit that fails stops its container. -/
theorem inTurn_of_error {landings rest : List (Landing α)} {landing : Landing α} (hm : landing ∈ rest)
    {failure : Failure} (hf : landing.result = .error failure) :
    ∃ before failed other, inTurn landings rest = .stopped before failed other := by
  induction rest generalizing landings with
  | nil => cases hm
  | cons first rest ih =>
    cases hr : first.result with
    | error other => exact ⟨landings, first, other, by simp only [inTurn, hr]⟩
    | ok value =>
      have hm : landing ∈ rest := by
        rcases List.mem_cons.1 hm with rfl | hm
        · rw [hf] at hr
          cases hr
        · exact hm
      simp only [inTurn, hr]
      exact ih hm

end Outcome

/-! ## Containers -/

namespace UnitsRelated

variable {units : List (FanUnit Activity)} {tallies : List (FanUnit Tally)}
  (h : UnitsRelated @Activity.SettledBy units tallies) {origin : Loop Json} {landings : List (Landing Json)}
include h

/-- What lands of a unit is settled by its tally. -/
theorem settled {landing : Landing Json} (hl : landing.IsOf origin (units.map (·.job))) :
    ∃ tally, tallies[landing.index]? = some tally ∧
      (∀ {value}, tally.job.result = .ok value → landing = ⟨landing.index, tally.job.lookups, tally.job.result⟩) ∧
      (∀ {failure}, tally.job.result = .error failure → ∃ other, landing.result = .error other) := by
  obtain ⟨job, start, hj, -, hl⟩ := hl
  rw [List.getElem?_map, Option.map_eq_some_iff] at hj
  obtain ⟨unit, hu, rfl⟩ := hj
  obtain ⟨tally, ht, hs⟩ := h.getElem? hu
  have hr : landing.result = (unit.job.run start).result := by rw [hl]; rfl
  refine ⟨tally, ht, fun hv => ?_, fun hf => hr ▸ hs.fails hf start⟩
  obtain ⟨hres, hlook⟩ := hs.succeeds hv start
  rw [hv, ← hres, ← hlook]
  exact hl

/-- If each unit has landed once and succeeded, the landings in order are the tallies in order. -/
theorem inOrder_eq (hi : (landings.map (·.index)).Perm (List.range units.length))
    (hl : ∀ landing ∈ landings, landing.IsOf origin (units.map (·.job)) ∧ ∃ value, landing.result = .ok value) :
    Landing.inOrder landings = Tally.landings 0 tallies := by
  have hn : (Landing.inOrder landings).map (·.index) = List.range tallies.length :=
    Landing.indices_inOrder (h.length_eq ▸ hi)
  have hlen : (Landing.inOrder landings).length = tallies.length := by simpa using congrArg List.length hn
  refine List.ext_getElem (by simpa [Tally.landings] using hlen) fun i hi₁ _ => ?_
  have hb : i < tallies.length := hlen ▸ hi₁
  have hidx : (Landing.inOrder landings)[i].index = i := by
    have := congrArg (·[i]?) hn
    simpa [hi₁, hb] using this
  obtain ⟨hof, value, hv⟩ := hl _ (Landing.mem_inOrder.1 (List.getElem_mem hi₁))
  obtain ⟨tally, ht, hok, herr⟩ := h.settled hof
  rw [hidx] at ht
  have hexp : (Tally.landings 0 tallies)[i] = ⟨i, tally.job.lookups, tally.job.result⟩ := by
    simp [Tally.landings, (List.getElem?_eq_some_iff.1 ht).2]
  rw [hexp]
  cases hr : tally.job.result with
  | ok output => rw [hok hr, hidx, hr]
  | error failure =>
    obtain ⟨other, ho⟩ := herr hr
    rw [hv] at ho
    cases ho

/-- A container that completes has landed what its tallies in turn come to. -/
theorem inTurn_of_completed {stop : Loop Json} (sound : origin.Sound (units.map (·.job)) stop)
    (he : stop.Ends (.completed landings)) :
    Outcome.inTurn [] (Tally.landings 0 tallies) = .completed (Landing.inOrder landings).reverse := by
  have own := sound.own_of_ends he
  have ho : Landing.inOrder landings = Tally.landings 0 tallies :=
    h.inOrder_eq (by simpa using sound.indices_of_completed he) own
  have hs : Outcome.inTurn [] (Landing.inOrder landings) = .completed ((Landing.inOrder landings).reverse ++ []) :=
    Outcome.inTurn_of_ok fun landing hm => (own landing (Landing.mem_inOrder.1 hm)).2
  rw [← ho, hs, List.append_nil]

/-- If a container is stopped, so are its tallies in turn, though maybe by another one. -/
theorem inTurn_of_stopped {stop : Loop Json} {failed : Landing Json} {failure : Failure}
    (sound : origin.Sound (units.map (·.job)) stop) (he : stop.Ends (.stopped landings failed failure)) :
    ∃ before first last, Outcome.inTurn [] (Tally.landings 0 tallies) = .stopped before first last := by
  obtain ⟨hof, hf, -⟩ := sound.nodup_of_stopped he
  obtain ⟨tally, ht, hok, -⟩ := h.settled hof
  have hm : (⟨failed.index, tally.job.lookups, tally.job.result⟩ : Landing Json) ∈ Tally.landings 0 tallies :=
    List.mem_map.2 ⟨(tally, failed.index), List.mk_mem_zipIdx_iff_getElem?.2 ht, rfl⟩
  cases hr : tally.job.result with
  | ok value =>
    rw [hok hr, hr] at hf
    cases hf
  | error other => exact Outcome.inTurn_of_error hm hr

/-- However the container of some units ends, either it comes to what its tallies in turn come to, or both fail. -/
theorem outcome_settled {stop : Loop Json} {outcome : Outcome Json}
    (sound : origin.Sound (units.map (·.job)) stop) (he : stop.Ends outcome) (container : StatePath)
    (names : List String) :
    let expected := Outcome.inTurn [] (Tally.landings 0 tallies)
    (outcome.result container names = expected.result container names ∧ outcome.lookups = expected.lookups) ∨
      ∃ failure other, outcome.result container names = .error failure ∧
        expected.result container names = .error other := by
  intro expected
  cases outcome with
  | completed landings =>
    have hs : expected = .completed (Landing.inOrder landings).reverse := h.inTurn_of_completed sound he
    -- Putting landings in order once more changes nothing.
    have hp : Landing.inOrder (Landing.inOrder landings).reverse = Landing.inOrder landings := by
      apply Landing.inOrder_reverse
      rw [Landing.indices_inOrder (sound.indices_of_completed he)]
      exact List.pairwise_lt_range
    left
    rw [hs]
    constructor
    · rw [Outcome.result, Outcome.result, hp]
    · rw [Outcome.lookups, Outcome.lookups, Outcome.ended, Outcome.ended, hp]
  | stopped landings failed failure =>
    obtain ⟨before, first, last, hs⟩ := h.inTurn_of_stopped sound he
    right
    rw [show expected = _ from hs]
    exact ⟨_, _, rfl, rfl⟩

end UnitsRelated

/-- A container whose units are settled is settled by their tally in turn, whatever the bound is. -/
theorem settledBy_fanOut (container : StatePath) (limit : Nat) {units : List (FanUnit Activity)}
    {tallies : List (FanUnit Tally)} (h : UnitsRelated @Activity.SettledBy units tallies) :
    (fanOut container limit units).SettledBy (Tally.inTurn container [] tallies) := by
  obtain ⟨hres, hlook⟩ := outcome_tally container h.names
  refine ⟨fun {value} hv now => ?_, fun {failure} hf now => ?_⟩
  all_goals
    obtain ⟨stop, outcome, hr, he, hrun, hrunl⟩ := run_fanOut container limit units now
    have hs := h.outcome_settled ((Loop.Sound.start _ _ _).of_reaches hr) he container (units.map (·.name))
    rw [hrun]
  · rcases hs with ⟨hsr, hsl⟩ | ⟨failure, other, -, ho⟩
    · rw [hrunl, hsr, hsl, hres, hlook]
      exact ⟨hv, rfl⟩
    · rw [hres, hv] at ho
      cases ho
  · rcases hs with ⟨hsr, -⟩ | ⟨other, -, ho, -⟩
    · exact ⟨failure, by rw [hsr, hres, hf]⟩
    · exact ⟨other, ho⟩

end StateBench

import Mathlib.Data.List.Nodup
import StateBench.Proofs.FanOut.Loop
import StateBench.Proofs.Results

/-!
# What a container gathers

The landings of a container are put in the order of their units, in whatever order they came (`indices_inOrder`,
`inOrder_eq_filterMap`). What the container comes to, and the lookups in it, are those of the units that have landed
(`run_fanOut`). If it succeeds, each unit has one output at its place, which the unit came to on its own
(`outputs_of_fanOut`).
-/

namespace StateBench

variable {α : Type}

namespace Landing

/-! ## Landings in order -/

theorem inOrder_perm (landings : List (Landing α)) : (inOrder landings).Perm landings := List.mergeSort_perm ..

theorem mem_inOrder {landings : List (Landing α)} {landing : Landing α} :
    landing ∈ inOrder landings ↔ landing ∈ landings := List.mem_mergeSort

theorem pairwise_inOrder (landings : List (Landing α)) :
    (inOrder landings).Pairwise fun first second => first.index ≤ second.index := by
  have h : (inOrder landings).Pairwise fun first second => decide (first.index ≤ second.index) = true :=
    List.pairwise_mergeSort (fun a b c hab hbc => by simp only [decide_eq_true_eq] at *; omega)
      (fun a b => by simp only [Bool.or_eq_true, decide_eq_true_eq]; omega) landings
  exact h.imp of_decide_eq_true

/-- Landings of all units stand in the order of the units. -/
theorem indices_inOrder {landings : List (Landing α)} {n : Nat}
    (h : (landings.map (·.index)).Perm (List.range n)) : (inOrder landings).map (·.index) = List.range n := by
  refine List.Perm.eq_of_pairwise (fun a b _ _ => Nat.le_antisymm) ?_ List.pairwise_le_range
    (((inOrder_perm landings).map _).trans h)
  exact List.pairwise_map.2 (pairwise_inOrder landings)

/-- The landing of a unit, where no unit has two. -/
theorem find?_eq_some_iff {landings : List (Landing α)} (nodup : (landings.map (·.index)).Nodup)
    {landing : Landing α} {index : Nat} :
    landings.find? (·.index = index) = some landing ↔ landing ∈ landings ∧ landing.index = index := by
  refine ⟨fun h => ⟨List.mem_of_find?_eq_some h, by simpa using List.find?_some h⟩, fun ⟨hm, hi⟩ => ?_⟩
  have hs : (landings.find? (·.index = index)).isSome := List.find?_isSome.2 ⟨landing, hm, by simpa using hi⟩
  obtain ⟨other, ho⟩ := Option.isSome_iff_exists.1 hs
  have hoi : other.index = index := by simpa using List.find?_some ho
  rw [ho, List.inj_on_of_nodup_map nodup (List.mem_of_find?_eq_some ho) hm (hoi.trans hi.symm)]

/-- Landings of different units stand in the order of the units, those of units without a landing being left out. -/
theorem inOrder_eq_filterMap {landings : List (Landing α)} {n : Nat} (nodup : (landings.map (·.index)).Nodup)
    (lt : ∀ landing ∈ landings, landing.index < n) :
    inOrder landings = (List.range n).filterMap fun index => landings.find? (·.index = index) := by
  have hp : ((List.range n).filterMap fun index => landings.find? (·.index = index)).Pairwise
      fun first second => first.index < second.index := by
    refine List.pairwise_filterMap.2 (List.pairwise_lt_range.imp fun hlt first h₁ second h₂ => ?_)
    rw [((find?_eq_some_iff nodup).1 h₁).2, ((find?_eq_some_iff nodup).1 h₂).2]
    exact hlt
  refine List.Perm.eq_of_pairwise ?_
    (pairwise_inOrder landings) (hp.imp Nat.le_of_lt) ((inOrder_perm landings).trans ?_)
  · intro first second h₁ h₂ h₁₂ h₂₁
    obtain ⟨index, -, hs⟩ := List.mem_filterMap.1 h₂
    exact List.inj_on_of_nodup_map nodup (mem_inOrder.1 h₁) ((find?_eq_some_iff nodup).1 hs).1
      (Nat.le_antisymm h₁₂ h₂₁)
  · refine (List.perm_ext_iff_of_nodup (List.Nodup.of_map _ nodup) (hp.imp fun h he => by simp [he] at h)).2 ?_
    intro landing
    simp only [List.mem_filterMap, List.mem_range, find?_eq_some_iff nodup]
    exact ⟨fun hm => ⟨landing.index, lt landing hm, hm, rfl⟩, fun ⟨_, _, hm, _⟩ => hm⟩

/-- Landings that came in the order of their units stand in it. -/
theorem inOrder_reverse {landings : List (Landing α)} (h : (landings.map (·.index)).Pairwise (· < ·)) :
    inOrder landings.reverse = landings := by
  rw [List.pairwise_map] at h
  refine List.Perm.eq_of_pairwise ?_
    (pairwise_inOrder _) (h.imp Nat.le_of_lt) ((inOrder_perm _).trans (List.reverse_perm _))
  intro first second h₁ h₂ h₁₂ h₂₁
  have hn : (landings.map (·.index)).Nodup := List.pairwise_map.2 (h.imp Nat.ne_of_lt)
  exact List.inj_on_of_nodup_map hn (List.mem_reverse.1 (mem_inOrder.1 h₁)) h₂ (Nat.le_antisymm h₁₂ h₂₁)

end Landing

/-! ## The run of a container -/

/-- The jobs of a container are run to an end of its loop. -/
theorem run_runJobs (limit : Nat) (jobs : List (Activity α)) (now : Nat) :
    ∃ stop outcome, (Loop.start limit jobs now).Reaches stop ∧ stop.Ends outcome ∧
      ((runJobs limit jobs).run now).result = .ok outcome ∧ ((runJobs limit jobs).run now).lookups = [] :=
  Loop.toRun_drain (Pool.start limit jobs now) (.idle now) []

/-- When its jobs have been run, a container puts their lookups on the record and comes to its result. -/
theorem run_fanOut_of_runJobs {container : StatePath} {limit : Nat} {units : List (FanUnit Activity)} {now : Nat}
    {outcome : Outcome Json} (h : ((runJobs limit (units.map (·.job))).run now).result = .ok outcome) :
    (fanOut container limit units).run now =
      ⟨outcome.result container (units.map (·.name)), ((runJobs limit (units.map (·.job))).run now).finish,
        ((runJobs limit (units.map (·.job))).run now).events,
        ((runJobs limit (units.map (·.job))).run now).lookups ++ outcome.lookups⟩ := by
  rw [fanOut, Activity.run_bind, Run.followedBy_ok h, Activity.run_bind, Activity.run_note]
  simp [Run.followedBy]

/-- What a container comes to is what its units have come to at the end of its loop. -/
theorem run_fanOut (container : StatePath) (limit : Nat) (units : List (FanUnit Activity)) (now : Nat) :
    ∃ stop outcome, (Loop.start limit (units.map (·.job)) now).Reaches stop ∧ stop.Ends outcome ∧
      ((fanOut container limit units).run now).result = outcome.result container (units.map (·.name)) ∧
      ((fanOut container limit units).run now).lookups = outcome.lookups := by
  obtain ⟨stop, outcome, hr, he, hres, hlook⟩ := run_runJobs limit (units.map (·.job)) now
  refine ⟨stop, outcome, hr, he, ?_⟩
  rw [run_fanOut_of_runJobs hres, hlook]
  exact ⟨rfl, rfl⟩

/-- Landings of all units that have succeeded give one output for each unit, in the order of the units. -/
theorem Landing.getElem?_outputs {landings : List (Landing α)} {n : Nat}
    (indices : (landings.map (·.index)).Perm (List.range n))
    (succeeded : ∀ landing ∈ landings, ∃ value, landing.result = .ok value) :
    ((inOrder landings).filterMap output?).length = n ∧
      ∀ index < n, ∃ landing ∈ landings, ∃ output, landing.index = index ∧ landing.result = .ok output ∧
        ((inOrder landings).filterMap output?)[index]? = some output := by
  have houtputs : List.Forall₂ (fun landing output => landing.output? = some output) (inOrder landings)
      ((inOrder landings).filterMap output?) := by
    refine forall₂_filterMap fun landing hm => ?_
    obtain ⟨value, hv⟩ := succeeded landing (mem_inOrder.1 hm)
    rw [output?, hv]
    rfl
  have hindices : (inOrder landings).map (·.index) = List.range n := indices_inOrder indices
  have hlength : (inOrder landings).length = n := by simpa using congrArg List.length hindices
  refine ⟨houtputs.length_eq.symm.trans hlength, fun index hlt => ?_⟩
  have hi : ((inOrder landings).map (·.index))[index]? = some index := by
    rw [hindices, List.getElem?_range hlt]
  rw [List.getElem?_map, Option.map_eq_some_iff] at hi
  obtain ⟨landing, hl, hindex⟩ := hi
  obtain ⟨output, ho, hout⟩ := getElem?_of_forall₂ houtputs.flip hl
  have hm : landing ∈ landings := mem_inOrder.1 (List.mem_of_getElem? hl)
  obtain ⟨value, hv⟩ := succeeded landing hm
  rw [output?, hv] at hout
  have hvalue : value = output := Option.some.inj hout
  exact ⟨landing, hm, output, hindex, hvalue ▸ hv, ho⟩

/-- A container that succeeds gives one output for each unit, in the order of the units: the unit came to it on its own,
from the time at which the container started it. -/
theorem outputs_of_fanOut {container : StatePath} {limit now : Nat} {units : List (FanUnit Activity)}
    {outputs : List Json} (h : ((fanOut container limit units).run now).result = .ok outputs) :
    outputs.length = units.length ∧ ∀ (index : Nat) unit, units[index]? = some unit →
      ∃ start output, (Loop.start limit (units.map (·.job)) now).Launches index unit.job start ∧
        (unit.job.run start).result = .ok output ∧ outputs[index]? = some output := by
  obtain ⟨stop, outcome, reaches, ends, hres, -⟩ := run_fanOut container limit units now
  rw [h] at hres
  cases outcome with
  | stopped landings failed failure => cases hres
  | completed landings =>
    cases hres
    have sound := (Loop.Sound.start limit (units.map (·.job)) now).of_reaches reaches
    have own := sound.own_of_ends ends
    obtain ⟨hlength, houtputs⟩ := Landing.getElem?_outputs (sound.indices_of_completed ends) fun landing hl =>
      (own landing hl).2
    rw [List.length_map] at hlength houtputs
    refine ⟨hlength, fun index unit hu => ?_⟩
    obtain ⟨landing, hl, output, rfl, hresult, ho⟩ := houtputs index (List.getElem?_eq_some_iff.1 hu).1
    obtain ⟨⟨job, start, hjob, launches, hlanding⟩, -⟩ := own landing hl
    have hunit : unit.job = job := by simpa [hu] using hjob
    rw [hlanding] at hresult
    exact ⟨start, output, hunit ▸ launches, hunit ▸ hresult, ho⟩

end StateBench

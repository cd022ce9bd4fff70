import Mathlib
import StateBench.Proofs.Evaluation.Chains
import StateBench.Proofs.Machine.Cycles

/-!
# States that are visited again

A walk goes along successors except where it leaves a Choice. As no state of a loaded graph comes back to itself along
successors (`Graph.LoadedFrom.acyclic`), what a walk visits without a Choice in between are different states: it comes
to a state again only if it was at a Choice meanwhile, and a stretch without one is no longer than the graph has states
(`Walk.stretch`). So a walk runs out of steps only in a graph with a Choice, or with more states than it may visit
(`Machine.revisits_of_load`).
-/

namespace StateBench

variable {scope : Scope} {doc : Json} {g : Graph}

/-! ## Loaded graphs -/

namespace Graph.LoadedFrom

/-- A graph inside one that is loaded is loaded. -/
theorem of_at_any {address : Address} {inner : Graph} (h : g.LoadedFrom doc) (hat : g.At address inner) :
    ∃ innerDoc, inner.LoadedFrom innerDoc := by
  induction hat generalizing doc with
  | here => exact ⟨doc, h⟩
  | inside state graph _ ih =>
    obtain ⟨fields, -, -, hall⟩ := h.states
    obtain ⟨field, -, -, hl⟩ := mem_of_forall₂ hall state
    obtain ⟨innerDoc, -, hinner⟩ := getElem?_of_forall₂ hl.graphs graph
    exact ih hinner

/-- In a loaded graph no state comes back to itself along successors. -/
theorem acyclic (h : g.LoadedFrom doc) (name : String) : ¬ Relation.TransGen (State.GoesTo g.states) name name := by
  obtain ⟨decl, owner, -, hb⟩ := h
  rw [ofDecl_eq] at hb
  obtain ⟨states, -, hc⟩ := ok_of_bind hb
  obtain ⟨rfl, -⟩ := checkLinks_ok hc
  exact State.not_transGen_of_cycle?_eq_none (cycle?_of_checkLinks_ok hc) name

end Graph.LoadedFrom

/-- A state that hands over to another one is a Choice, or that one is its successor. -/
theorem State.HandsOver.next_eq {γ : Type} {s : State γ} {name : String} (h : s.HandsOver (some name))
    (hs : s.type ≠ .choice) : s.next = some name := by
  suffices hn : ∀ next, s.HandsOver next → next = some name → s.next = some name from hn _ h rfl
  rintro next (⟨kind, -⟩ | _ | _) hn
  · exact absurd (congrArg Kind.type kind) hs
  · cases hn
  · exact hn

/-! ## Stops of a walk -/

namespace Walk

variable {start : String} {place : Place} {input : Json} {now : Nat} {first last stop other : Stop}

theorem left_add_taken (h : Walk scope g start place input now stop) :
    stop.left + stop.taken = scope.settings.maxSteps := by
  induction h with
  | start state => rfl
  | next walk next ih =>
    cases next with
    | intro more _ _ _ =>
      simp only at ih ⊢
      omega

/-- A walk has one stop after so many others. -/
theorem unique (hf : Walk scope g start place input now stop) (hl : Walk scope g start place input now other)
    (h : stop.taken = other.taken) : stop = other := by
  induction hf generalizing other with
  | start state =>
    cases hl with
    | start state' =>
      obtain rfl := Option.some.inj (state.symm.trans state')
      rfl
    | next walk next =>
      cases next
      cases h
  | next walk next ih =>
    cases next with
    | intro more succeeds hnext state =>
      cases hl with
      | start => cases h
      | next walk' next' =>
        cases next' with
        | intro more' succeeds' hnext' state' =>
          obtain rfl := ih walk' (Nat.succ.inj h)
          obtain rfl := Except.ok.inj (succeeds.symm.trans succeeds')
          obtain rfl := Option.some.inj (hnext.symm.trans hnext')
          obtain rfl := Option.some.inj (state.symm.trans state')
          obtain rfl := Nat.succ.inj (more.symm.trans more')
          rfl

/-- Before a stop come as many as were taken. -/
theorem exists_taken (h : Walk scope g start place input now stop) {count : Nat} (hc : count ≤ stop.taken) :
    ∃ other, Walk scope g start place input now other ∧ other.taken = count := by
  induction h with
  | start state => exact ⟨_, .start state, (Nat.le_zero.1 hc).symm⟩
  | @next stop other walk next ih =>
    rcases Nat.lt_or_ge count other.taken with hlt | hge
    · refine ih ?_
      cases next
      exact Nat.le_of_lt_succ hlt
    · exact ⟨other, .next walk next, Nat.le_antisymm hge hc⟩

/-- Between two stops of a walk there is a Choice, the first one included. -/
def ChoiceBetween (scope : Scope) (g : Graph) (start : String) (place : Place) (input : Json) (now : Nat)
    (first last : Stop) : Prop :=
  ∃ choice, Walk scope g start place input now choice ∧ first.taken ≤ choice.taken ∧ choice.taken < last.taken ∧
    choice.state.type = .choice

/-- Without a Choice in between, a walk goes along successors from one stop to another. -/
theorem isChain_of_noChoice (hf : Walk scope g start place input now first)
    (hl : Walk scope g start place input now last) (hle : first.taken ≤ last.taken)
    (hno : ¬ ChoiceBetween scope g start place input now first last) :
    ∃ before, (before ++ [last.state.name]).IsChain (State.GoesTo g.states) ∧
      before.length + first.taken = last.taken ∧ (first.taken < last.taken → first.state.name ∈ before) ∧
      ∀ name ∈ before ++ [last.state.name], (g.get? name).isSome := by
  induction hl with
  | start state =>
    have hzero : first.taken = 0 := Nat.le_zero.1 hle
    exact ⟨[], .singleton _, by simp [hzero], fun hlt => absurd hlt (Nat.not_lt_zero _), by
      simpa [Graph.name_of_get? state] using Option.isSome_of_mem state⟩
  | @next stop other walk next ih =>
    have hother : g.get? other.state.name = some other.state := (walk.next next).state.2
    have htaken : other.taken = stop.taken + 1 := by
      cases next
      rfl
    rcases Nat.lt_or_ge first.taken other.taken with hlt | hge
    · -- The stop before is not a Choice, so the walk goes from it to its successor.
      have hprior : first.taken ≤ stop.taken := by omega
      have hchoice : stop.state.type ≠ .choice := fun ht => hno ⟨stop, walk, hprior, by omega, ht⟩
      have hgoes : State.GoesTo g.states stop.state.name other.state.name := by
        refine ⟨stop.state, walk.state.2, ?_⟩
        cases next with
        | intro _ succeeds hnext state =>
          rw [Graph.name_of_get? state]
          exact (hnext ▸ Stop.handsOver succeeds).next_eq hchoice
      obtain ⟨before, hchain, hlength, hfirst, hdeclared⟩ := ih hprior fun ⟨choice, hw, hge, hlt', ht⟩ =>
        hno ⟨choice, hw, hge, by omega, ht⟩
      refine ⟨before ++ [stop.state.name], ?_, ?_, fun _ => ?_, fun name hn => ?_⟩
      · rw [List.append_assoc]
        exact List.isChain_append_cons_cons.2 ⟨hchain, hgoes, .singleton _⟩
      · rw [List.length_append, List.length_singleton]
        omega
      · rcases Nat.lt_or_ge first.taken stop.taken with h | h
        · exact List.mem_append_left _ (hfirst h)
        · rw [hf.unique walk (by omega)]
          exact List.mem_append_right _ List.mem_cons_self
      · rcases List.mem_append.1 hn with hn | hn
        · exact hdeclared name hn
        · obtain rfl := List.mem_singleton.1 hn
          exact Option.isSome_of_mem hother
    · exact ⟨[], .singleton _, by simp; omega, fun h => absurd h (by omega), by
        simpa using Option.isSome_of_mem hother⟩

/-- A stretch of a walk without a Choice comes to no state twice, and is shorter than the graph has states. -/
theorem stretch (acyclic : ∀ name, ¬ Relation.TransGen (State.GoesTo g.states) name name)
    (hf : Walk scope g start place input now first) (hl : Walk scope g start place input now last)
    (hle : first.taken ≤ last.taken) (hno : ¬ ChoiceBetween scope g start place input now first last) :
    (first.taken < last.taken → first.state.name ≠ last.state.name) ∧ last.taken < first.taken + g.states.length := by
  obtain ⟨before, hchain, hlength, hfirst, hdeclared⟩ := isChain_of_noChoice hf hl hle hno
  have hnodup : (before ++ [last.state.name]).Nodup := by
    refine (State.pairwise_of_isChain hchain).imp ?_
    rintro name _ hback rfl
    exact acyclic name hback
  constructor
  · intro hlt heq
    exact (List.nodup_append.1 hnodup).2.2 _ (hfirst hlt) _ List.mem_cons_self heq
  · have hsubset : before ++ [last.state.name] ⊆ g.states.map (·.name) := by
      intro name hn
      obtain ⟨s, hs⟩ := Option.isSome_iff_exists.1 (hdeclared name hn)
      rw [← Graph.name_of_get? hs]
      exact List.mem_map_of_mem (Graph.mem_of_get? hs)
    have hcount := (hnodup.subperm hsubset).length_le
    rw [List.length_append, List.length_singleton, List.length_map] at hcount
    omega

/-! ## Steps of a walk -/

/-- The steps that a walk adds from a stop on are those of its stops. -/
theorem steps_of_loop (hl : g.Linked) (hw : Walk scope g start place input now stop) (steps : List Step)
    {result : WalkResult}
    (h : ((Stop.loop scope g stop.place stop.left (stop.position steps)).run stop.time).result = .ok result) :
    ∃ later, result.steps = steps.reverse ++ later ∧ ∀ index step, later[index]? = some step →
      ∃ other, Walk scope g start place input now other ∧ other.taken = stop.taken + index ∧
        step.path = other.path ∧ step.type = other.state.type := by
  obtain ⟨hplace, hs⟩ := hw.state
  -- A step that goes on leads to the next stop, which has one step less left.
  induction hn : stop.left generalizing stop steps with
  | zero =>
    rw [hn, Stop.loop, Activity.loop_zero] at h
    cases h
  | succ left ih =>
    rw [hn, Stop.run_loop_succ steps hl hs] at h
    cases ho : ((stop.activity scope).run stop.time).result with
    | error failure =>
      rw [Run.followedBy_error ho] at h
      cases h
    | ok out =>
      rw [Run.followedBy_ok ho, Stop.following] at h
      cases hnext : out.next with
      | none =>
        rw [hnext] at h
        cases h
        refine ⟨_, List.reverse_cons, fun index step hstep => ?_⟩
        cases index with
        | zero =>
          cases hstep
          exact ⟨stop, hw, rfl, rfl, rfl⟩
        | succ index => cases hstep
      | some name =>
        rw [hnext] at h
        obtain ⟨s, hg⟩ := Option.isSome_iff_exists.1
          (hl.targets stop.state (Graph.mem_of_get? hs) name (Stop.mem_targets ho hnext))
        obtain rfl := Graph.name_of_get? hg
        have hw' := hw.next (.intro hn ho hnext hg)
        obtain ⟨later, hsteps, hlater⟩ := ih hw' _ h hw'.state.1 hw'.state.2 rfl
        refine ⟨⟨stop.path, stop.state.type, some s.name⟩ :: later, ?_, fun index step hstep => ?_⟩
        · rw [hsteps, List.reverse_cons, List.append_assoc]
          rfl
        · cases index with
          | zero =>
            cases hstep
            exact ⟨stop, hw, rfl, rfl, rfl⟩
          | succ index =>
            obtain ⟨other, ho, htaken, hpath, htype⟩ := hlater index step hstep
            exact ⟨other, ho, by simp only at htaken; omega, hpath, htype⟩

/-- The steps of a walk that succeeds are those of its stops, in their order. -/
theorem steps (hl : g.Linked) (hs : (g.get? start).isSome) {result : WalkResult}
    (h : ((scope.walkGraph g start place input).run now).result = .ok result) {index : Nat} {step : Step}
    (hstep : result.steps[index]? = some step) :
    ∃ stop, Walk scope g start place input now stop ∧ stop.taken = index ∧ step.path = stop.path ∧
      step.type = stop.state.type := by
  obtain ⟨s, hg⟩ := Option.isSome_iff_exists.1 hs
  obtain rfl := Graph.name_of_get? hg
  rw [Scope.walkGraph, Stop.walkGraph_eq_loop hs] at h
  obtain ⟨later, hsteps, hlater⟩ := steps_of_loop hl (.start hg) [] h
  rw [List.reverse_nil, List.nil_append] at hsteps
  obtain ⟨stop, hw, htaken, hpath, htype⟩ := hlater index step (hsteps ▸ hstep)
  exact ⟨stop, hw, by simpa using htaken, hpath, htype⟩

end Walk

/-! ## Loaded machines -/

/-- A walk through a graph of a loaded machine that comes to a state a second time has been at a Choice meanwhile, the
first time included, and so have the steps that it reports. From one Choice to the next it makes at most as many steps
as the graph has states. If there is no Choice in the graph and its states are not more than a walk may visit, the walk
always has a step left: it fails only if a state on it does. -/
theorem Machine.revisits_of_load {definition : Json} {m : Machine} (load : Machine.load definition = .ok m)
    {address : Address} {g : Graph} (hat : m.root.At address g) {start : String} (hs : (g.get? start).isSome)
    (scope : Scope) (place : Place) (input : Json) (now : Nat) :
    let run := (scope.walkGraph g start place input).run now
    let Visits := Walk scope g start place input now
    (∀ first last, Visits first → Visits last → first.taken < last.taken → first.state.name = last.state.name →
      ∃ choice, Visits choice ∧ first.taken ≤ choice.taken ∧ choice.taken < last.taken ∧
        choice.state.type = .choice) ∧
    (∀ result, run.result = .ok result → ∀ (i j : Nat) (first last : Step), i < j →
      result.steps[i]? = some first → result.steps[j]? = some last → first.path = last.path →
        ∃ (k : Nat) (choice : Step), i ≤ k ∧ k < j ∧ result.steps[k]? = some choice ∧ choice.type = .choice) ∧
    (∀ first last, Visits first → Visits last → first.state.type = .choice → last.state.type = .choice →
      (∀ between, Visits between → first.taken < between.taken → between.taken < last.taken →
        between.state.type ≠ .choice) →
      last.taken ≤ first.taken + g.states.length) ∧
    ((∀ s ∈ g.states, s.type ≠ .choice) → g.states.length ≤ scope.settings.maxSteps →
      (∀ stop, Visits stop → 0 < stop.left) ∧
      ∀ failure, run.result = .error failure →
        ∃ stop, Visits stop ∧ ((stop.activity scope).run stop.time).result = .error failure) := by
  intro run Visits
  have hlinked : g.Linked := ((Machine.sound_of_load load).of_at hat).linked
  have hacyclic : ∀ name, ¬ Relation.TransGen (State.GoesTo g.states) name name := by
    obtain ⟨doc, -, hroot⟩ := Machine.loadedFrom_of_load load
    obtain ⟨innerDoc, hloaded⟩ := hroot.of_at_any hat
    exact hloaded.acyclic
  have hrevisit : ∀ first last, Visits first → Visits last → first.taken < last.taken →
      first.state.name = last.state.name → Walk.ChoiceBetween scope g start place input now first last := by
    intro first last hf hl hlt heq
    by_contra hno
    exact (Walk.stretch hacyclic hf hl hlt.le hno).1 hlt heq
  refine ⟨hrevisit, fun result hresult i j first last hij hi hj hpath => ?_, fun first last hf hl _ _ hno => ?_,
    fun hnone hcount => ?_⟩
  · obtain ⟨stop, hw, rfl, hp, -⟩ := Walk.steps hlinked hs hresult hi
    obtain ⟨other, hw', rfl, hp', -⟩ := Walk.steps hlinked hs hresult hj
    have hname : stop.state.name = other.state.name := by
      rw [hp, hp'] at hpath
      exact List.singleton_inj.1 (List.append_inj_right' hpath rfl)
    obtain ⟨choice, hc, hge, hlt, htype⟩ := hrevisit stop other hw hw' hij hname
    obtain ⟨hj', -⟩ := List.getElem?_eq_some_iff.1 hj
    have hk : result.steps[choice.taken]? = some result.steps[choice.taken] :=
      List.getElem?_eq_getElem (by omega)
    obtain ⟨same, hsame, htaken, -, htype'⟩ := Walk.steps hlinked hs hresult hk
    rw [Walk.unique hsame hc htaken] at htype'
    exact ⟨choice.taken, _, hge, hlt, hk, htype'.trans htype⟩
  · rcases Nat.lt_or_ge first.taken last.taken with hlt | hge
    · -- The stretch starts at the stop after the first Choice.
      have hnext : first.taken + 1 ≤ last.taken := hlt
      obtain ⟨second, hsecond, htaken⟩ := hl.exists_taken hnext
      have hstretch := Walk.stretch hacyclic hsecond hl (by omega) fun ⟨choice, hc, hge, hlt', ht⟩ =>
        hno choice hc (by omega) hlt' ht
      omega
    · omega
  · have hleft : ∀ stop, Visits stop → 0 < stop.left := by
      intro stop hw
      obtain ⟨first, hf, hzero⟩ := hw.exists_taken (Nat.zero_le _)
      have hstretch := Walk.stretch hacyclic hf hw (by omega) fun ⟨choice, hc, _, _, ht⟩ =>
        hnone choice.state (Graph.mem_of_get? hc.state.2) ht
      have htotal := hw.left_add_taken
      omega
    refine ⟨hleft, fun failure hfailure => ?_⟩
    obtain ⟨last, hw, ⟨-, hf⟩ | ⟨hzero, -⟩⟩ := Walk.stop_of_error hlinked hs hfailure
    · exact ⟨last, hw, hf⟩
    · exact absurd (hleft last hw) (by omega)

/-- The walk of a graph that goes back to its start has left a Choice before it is there again. -/
theorem revisits_of_load_markEach :
    Machine.load markEach = .ok markMachine ∧ markMachine.root.At [("Each", 0)] markGraph ∧
      (markGraph.get? "Check").isSome ∧
      let scope : Scope := ⟨.empty, none, .standard, .null⟩
      ∃ result, ((scope.walkGraph markGraph "Check" ⟨["Each"], [0, 0], true⟩ (.record [])).run 0).result = .ok result ∧
        result.steps.map (·.path) = [["Each", "Check"], ["Each", "Mark"], ["Each", "Check"], ["Each", "Done"]] ∧
        ∃ (k : Nat) (choice : Step), k < 2 ∧ result.steps[k]? = some choice ∧ choice.type = .choice := by
  have hat : markMachine.root.At [("Each", 0)] markGraph := .inside (s := markState) List.mem_cons_self rfl .here
  have hs : (markGraph.get? "Check").isSome := rfl
  obtain ⟨-, hsteps, -⟩ := Machine.revisits_of_load load_markEach hat hs ⟨.empty, none, .standard, .null⟩
    ⟨["Each"], [0, 0], true⟩ (.record []) 0
  have hrun : (((⟨.empty, none, .standard, .null⟩ : Scope).walkGraph markGraph "Check" ⟨["Each"], [0, 0], true⟩
      (.record [])).run 0).result.map (fun result => result.steps.map (·.path)) =
        .ok [["Each", "Check"], ["Each", "Mark"], ["Each", "Check"], ["Each", "Done"]] := by cbv
  obtain ⟨result, hresult, hpaths⟩ := ok_of_map hrun
  have hpath {index : Nat} {path : StatePath} (h : (result.steps.map (·.path))[index]? = some path) :
      ∃ step, result.steps[index]? = some step ∧ step.path = path := by
    rwa [List.getElem?_map, Option.map_eq_some_iff] at h
  obtain ⟨first, hfirst, hf⟩ : ∃ step, result.steps[0]? = some step ∧ step.path = ["Each", "Check"] :=
    hpath (by rw [hpaths]; rfl)
  obtain ⟨last, hlast, hl⟩ : ∃ step, result.steps[2]? = some step ∧ step.path = ["Each", "Check"] :=
    hpath (by rw [hpaths]; rfl)
  obtain ⟨k, choice, -, hk, hchoice⟩ := hsteps result hresult 0 2 first last (by decide) hfirst hlast (hf.trans hl.symm)
  exact ⟨load_markEach, hat, hs, result, hresult, hpaths, k, choice, hk, hchoice⟩

end StateBench

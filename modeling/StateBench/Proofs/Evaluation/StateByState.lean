import Mathlib
import StateBench.Proofs.Evaluation.Chains
import StateBench.Proofs.Evaluation.Continued

/-!
# Walks state by state

Instead of walking through a graph, one can evaluate one state alone, then the one that it names with its output, and so
on, with one record of applied mocks (`Standing.Next`). A walk comes to what these evaluations come to
(`Machine.walk_stateByState`): it ends like them if they end within the steps that it may take, it fails like the first
of them that fails, and otherwise it fails because it has no steps left.
-/

namespace StateBench

/-- The record with some more uses. -/
def AppliedMocks.recordAll (applied : AppliedMocks) (uses : List MockUse) : AppliedMocks := uses.foldl record applied

/-- Where the evaluation of one state after the other has got to. -/
structure Standing where
  /-- The number of states that were evaluated before. -/
  visited : Nat
  /-- The name of the state that comes next. -/
  state : String
  input : Json
  time : Nat
  steps : List Step
  applied : AppliedMocks

namespace Standing

section Definitions

variable (scope : Scope) (g : Graph) (container : StatePath) (standing : Standing)

/-- The evaluation of a state alone, after the states before it. -/
def call (s : State Graph) : Run WalkResult :=
  ((scope.after standing.visited).evaluator.runSingle container s standing.input).run standing.time

/-- The record with the mocks that are applied in a run. -/
def recorded (run : Run WalkResult) : AppliedMocks := standing.applied.recordAll (scope.mocks.uses run.lookups)

/-- The next state is evaluated and names the one after it. -/
inductive Next : Standing → Standing → Prop
  | intro {standing : Standing} {s : State Graph} {result : WalkResult} {name : String}
      (state : g.get? standing.state = some s) (succeeds : (standing.call scope container s).result = .ok result)
      (next : result.next = some name) :
      Next standing ⟨standing.visited + 1, name, result.output, (standing.call scope container s).finish,
        standing.steps ++ result.steps, standing.recorded scope (standing.call scope container s)⟩

/-- The next state is evaluated and names none after it: what has come of all of them, and the mocks applied. -/
inductive Completes : WalkResult → AppliedMocks → Prop
  | intro {s : State Graph} {result : WalkResult} (state : g.get? standing.state = some s)
      (succeeds : (standing.call scope container s).result = .ok result) (last : result.next = none) :
      Completes ⟨result.output, none, standing.steps ++ result.steps⟩
        (standing.recorded scope (standing.call scope container s))

/-- The evaluation of the next state fails. -/
def Fails (failure : Failure) : Prop :=
  ∃ s, g.get? standing.state = some s ∧ (standing.call scope container s).result = .error failure

/-- One standing comes from another by states that are evaluated one after the other. -/
def Reaches : Standing → Standing → Prop := Relation.ReflTransGen (Next scope g container)

/-- The failure of a walk that has no steps left for the next state. -/
def outOfSteps : Failure :=
  .of Failure.runtime ("exceeded maximum step count (" ++ toString scope.settings.maxSteps ++ ")")
    (container ++ [standing.state])

/-- The walk that goes on here, with so many steps left. -/
def walkOn (left : Nat) : Run WalkResult :=
  (Stop.loop scope g ⟨container, [], false⟩ left
    ⟨standing.state, standing.input, standing.visited, standing.steps.reverse⟩).run standing.time

/-- The next state as a stop of that walk. -/
def stop (s : State Graph) : Stop :=
  ⟨⟨container, [], false⟩, s, standing.visited, 0, standing.input, standing.time⟩

end Definitions

variable {scope : Scope} {g : Graph} {container : StatePath} {standing next last : Standing} {s : State Graph}

/-! ## Single states -/

/-- What the evaluation of a state alone has in common with that of a stop of the walk. -/
theorem call_eq (scope : Scope) (container : StatePath) (standing : Standing) (s : State Graph) :
    let run := ((standing.stop container s).activity scope).run standing.time
    let single := standing.call scope container s
    single.result = run.result.map (fun out => ⟨out.output, out.next, [⟨container ++ [s.name], s.type, out.next⟩]⟩) ∧
      single.finish = run.finish ∧ single.lookups = run.lookups := by
  intro run single
  let alone := ((scope.after standing.visited).evaluator.runState ⟨container, [], false⟩ 0
    ((scope.after standing.visited).evaluator.walkable s) standing.input).run standing.time
  have hsingle : single = alone.followedBy fun out =>
      ⟨.ok ⟨out.output, out.next, [⟨container ++ [s.name], s.type, out.next⟩]⟩, alone.finish, [], []⟩ :=
    Activity.run_bind ..
  have hrun : run.result = alone.result ∧ run.finish = alone.finish ∧ run.lookups = alone.lookups :=
    Activity.run_of_silent_eq (scope.silent_runState_after container false standing.visited s standing.input)
      standing.time
  rw [hsingle, hrun.1, hrun.2.1, hrun.2.2]
  cases ha : alone.result with
  | error failure =>
    rw [Run.followedBy_error ha]
    exact ⟨rfl, rfl, rfl⟩
  | ok out =>
    rw [Run.followedBy_ok ha]
    exact ⟨rfl, rfl, List.append_nil _⟩

/-- A state alone takes one step. -/
theorem length_of_call {result : WalkResult} (h : (standing.call scope container s).result = .ok result) :
    result.steps.length = 1 := by
  rw [(call_eq scope container standing s).1] at h
  obtain ⟨out, -, rfl⟩ := ok_of_map h
  rfl

/-! ## Successions of states -/

namespace Next

/-- The next state decides where an evaluation gets to. -/
theorem unique (h : standing.Next scope g container next) (other : standing.Next scope g container last) :
    next = last := by
  rcases h with ⟨state, succeeds, hnext⟩
  rcases other with ⟨state', succeeds', hnext'⟩
  obtain rfl := Option.some.inj (state.symm.trans state')
  obtain rfl := Except.ok.inj (succeeds.symm.trans succeeds')
  obtain rfl := Option.some.inj (hnext.symm.trans hnext')
  rfl

theorem not_fails (h : standing.Next scope g container next) (failure : Failure) :
    ¬ standing.Fails scope g container failure := by
  rcases h with ⟨state, succeeds, -⟩
  rintro ⟨s', state', fails⟩
  obtain rfl := Option.some.inj (state.symm.trans state')
  rw [succeeds] at fails
  cases fails

theorem not_completes (h : standing.Next scope g container next) (walk : WalkResult) (record : AppliedMocks) :
    ¬ standing.Completes scope g container walk record := by
  rcases h with ⟨state, succeeds, hnext⟩
  rintro ⟨state', succeeds', last⟩
  obtain rfl := Option.some.inj (state.symm.trans state')
  obtain rfl := Except.ok.inj (succeeds.symm.trans succeeds')
  rw [hnext] at last
  cases last

theorem visited (h : standing.Next scope g container next) : next.visited = standing.visited + 1 := by
  cases h
  rfl

theorem length_steps (h : standing.Next scope g container next) :
    next.steps.length = standing.steps.length + 1 := by
  rcases h with ⟨-, succeeds, -⟩
  rw [List.length_append, length_of_call succeeds]

end Next

namespace Completes

variable {walk other : WalkResult} {record final : AppliedMocks}

theorem unique (h : standing.Completes scope g container walk record)
    (h' : standing.Completes scope g container other final) : walk = other ∧ record = final := by
  rcases h with ⟨state, succeeds, -⟩
  rcases h' with ⟨state', succeeds', -⟩
  obtain rfl := Option.some.inj (state.symm.trans state')
  obtain rfl := Except.ok.inj (succeeds.symm.trans succeeds')
  exact ⟨rfl, rfl⟩

theorem not_fails (h : standing.Completes scope g container walk record) (failure : Failure) :
    ¬ standing.Fails scope g container failure := by
  rcases h with ⟨state, succeeds, -⟩
  rintro ⟨s', state', fails⟩
  obtain rfl := Option.some.inj (state.symm.trans state')
  rw [succeeds] at fails
  cases fails

theorem length_steps (h : standing.Completes scope g container walk record) :
    walk.steps.length = standing.steps.length + 1 := by
  rcases h with ⟨-, succeeds, -⟩
  rw [List.length_append, length_of_call succeeds]

end Completes

theorem Fails.unique {failure other : Failure} (h : standing.Fails scope g container failure)
    (h' : standing.Fails scope g container other) : failure = other := by
  obtain ⟨s, state, fails⟩ := h
  obtain ⟨s', state', fails'⟩ := h'
  obtain rfl := Option.some.inj (state.symm.trans state')
  exact Except.error.inj (fails.symm.trans fails')

/-- In a linked graph the next state is evaluated to one of three ends. -/
theorem fails_or_completes_or_next (scope : Scope) (container : StatePath) (hl : g.Linked)
    (hs : (g.get? standing.state).isSome) :
    (∃ failure, standing.Fails scope g container failure) ∨
      (∃ walk record, standing.Completes scope g container walk record) ∨
      ∃ next, standing.Next scope g container next ∧ (g.get? next.state).isSome := by
  obtain ⟨s, state⟩ := Option.isSome_iff_exists.1 hs
  cases hc : (standing.call scope container s).result with
  | error failure => exact .inl ⟨failure, s, state, hc⟩
  | ok result =>
    cases hnext : result.next with
    | none => exact .inr (.inl ⟨_, _, .intro state hc hnext⟩)
    | some name =>
      refine .inr (.inr ⟨_, .intro state hc hnext, ?_⟩)
      rw [(call_eq scope container standing s).1] at hc
      obtain ⟨out, ho, rfl⟩ := ok_of_map hc
      have ht : name ∈ (standing.stop container s).state.targets := Stop.mem_targets ho hnext
      exact hl.targets s (Graph.mem_of_get? state) name ht

namespace Reaches

/-- Before the last standing come the others, one state after the other. -/
theorem iff_eq_or_next :
    standing.Reaches scope g container last ↔
      standing = last ∨ ∃ next, standing.Next scope g container next ∧ next.Reaches scope g container last :=
  Relation.ReflTransGen.cases_head_iff

/-- What is to hold of a later standing, and does not hold here, is to hold later from the next standing on. -/
theorem exists_iff_next {holds : Standing → Prop} (h : standing.Next scope g container next) (hn : ¬ holds standing) :
    (∃ last, standing.Reaches scope g container last ∧ holds last) ↔
      ∃ last, next.Reaches scope g container last ∧ holds last := by
  constructor
  · rintro ⟨last, hr, hlast⟩
    rcases iff_eq_or_next.1 hr with rfl | ⟨other, ho, hr⟩
    · exact absurd hlast hn
    · exact ⟨last, h.unique ho ▸ hr, hlast⟩
  · rintro ⟨last, hr, hlast⟩
    exact ⟨last, iff_eq_or_next.2 (.inr ⟨next, h, hr⟩), hlast⟩

/-- Where there is no next standing, what is to hold later has to hold here. -/
theorem exists_iff_self {holds : Standing → Prop} (h : ∀ next, ¬ standing.Next scope g container next) :
    (∃ last, standing.Reaches scope g container last ∧ holds last) ↔ holds standing := by
  constructor
  · rintro ⟨last, hr, hlast⟩
    rcases iff_eq_or_next.1 hr with rfl | ⟨next, hn, -⟩
    · exact hlast
    · exact absurd hn (h next)
  · exact fun hs => ⟨standing, .refl, hs⟩

/-- As many steps are taken as states are visited. -/
theorem length_steps (h : standing.Reaches scope g container last) :
    last.steps.length + standing.visited = standing.steps.length + last.visited := by
  induction h with
  | refl => rfl
  | tail _ next ih =>
    have hv := next.visited
    have hs := next.length_steps
    omega

theorem visited_le (h : standing.Reaches scope g container last) : standing.visited ≤ last.visited := by
  induction h with
  | refl => exact Nat.le_refl _
  | tail _ next ih =>
    have hv := next.visited
    omega

theorem eq_of_visited (h : standing.Reaches scope g container last) (hv : last.visited = standing.visited) :
    standing = last := by
  rcases iff_eq_or_next.1 h with rfl | ⟨next, hn, hr⟩
  · rfl
  · have hle := visited_le hr
    have hvisited := hn.visited
    omega

end Reaches

/-! ## The walk from a standing -/

/-- The record after one run and then another is that after both. -/
theorem recorded_append (standing : Standing) (first second : Run WalkResult) {both : Run WalkResult}
    (h : both.lookups = first.lookups ++ second.lookups) :
    standing.recorded scope both =
      (standing.recorded scope first).recordAll (scope.mocks.uses second.lookups) := by
  unfold recorded MockRegistry.uses AppliedMocks.recordAll
  rw [h, List.filterMap_append, List.foldl_append]

theorem walkOn_zero (standing : Standing) :
    (standing.walkOn scope g container 0).result = .error (standing.outOfSteps scope container) := by
  rw [walkOn, Stop.loop, Activity.loop_zero]
  rfl

section Linked

variable (hl : g.Linked) (left : Nat)
include hl

/-- The walk goes on with the run of the next state. -/
theorem walkOn_succ (state : g.get? standing.state = some s) :
    let run := ((standing.stop container s).activity scope).run standing.time
    standing.walkOn scope g container (left + 1) = run.followedBy fun out =>
      match (standing.stop container s).following standing.steps.reverse s.type out with
      | .inl position => (Stop.loop scope g ⟨container, [], false⟩ left position).run run.finish
      | .inr result => ⟨.ok result, run.finish, [], []⟩ := by
  have hname : s.name = standing.state := Graph.name_of_get? state
  have hs : g.get? (standing.stop container s).state.name = some (standing.stop container s).state := hname ▸ state
  rw [walkOn, ← hname]
  exact Stop.run_loop_succ standing.steps.reverse hl hs left

theorem walkOn_of_fails {failure : Failure} (h : standing.Fails scope g container failure) :
    (standing.walkOn scope g container (left + 1)).result = .error failure := by
  obtain ⟨s, state, hf⟩ := h
  rw [(call_eq scope container standing s).1] at hf
  rw [walkOn_succ hl left state]
  cases ho : (((standing.stop container s).activity scope).run standing.time).result with
  | error own =>
    rw [ho] at hf
    cases hf
    rw [Run.followedBy_error ho]
  | ok out =>
    rw [ho] at hf
    cases hf

theorem walkOn_of_completes {walk : WalkResult} {record : AppliedMocks}
    (h : standing.Completes scope g container walk record) :
    (standing.walkOn scope g container (left + 1)).result = .ok walk ∧
      standing.recorded scope (standing.walkOn scope g container (left + 1)) = record := by
  rcases h with ⟨state, succeeds, last⟩
  rename_i s result
  obtain ⟨hresult, -, hlookups⟩ := call_eq scope container standing s
  rw [hresult] at succeeds
  obtain ⟨out, ho, rfl⟩ := ok_of_map succeeds
  have hnone : out.next = none := last
  rw [walkOn_succ hl left state, Run.followedBy_ok ho, Stop.following, hnone]
  constructor
  · simp [Stop.path, Place.pathOf, stop]
  · unfold recorded
    simp [hlookups]

theorem walkOn_of_next (h : standing.Next scope g container next) :
    (standing.walkOn scope g container (left + 1)).result = (next.walkOn scope g container left).result ∧
      standing.recorded scope (standing.walkOn scope g container (left + 1)) =
        next.recorded scope (next.walkOn scope g container left) := by
  rcases h with ⟨state, succeeds, hnext⟩
  rename_i s result name
  obtain ⟨hresult, hfinish, hlookups⟩ := call_eq scope container standing s
  rw [hresult] at succeeds
  obtain ⟨out, ho, rfl⟩ := ok_of_map succeeds
  have hsome : out.next = some name := hnext
  -- The position that follows the stop is that of the next standing.
  have hrest : (Stop.loop scope g ⟨container, [], false⟩ left ⟨name, out.output, (standing.stop container s).taken + 1,
      ⟨(standing.stop container s).path, s.type, some name⟩ :: standing.steps.reverse⟩).run
        (((standing.stop container s).activity scope).run standing.time).finish =
      walkOn scope g container ⟨standing.visited + 1, name, out.output, (standing.call scope container s).finish,
        standing.steps ++ [⟨container ++ [s.name], s.type, some name⟩],
        standing.recorded scope (standing.call scope container s)⟩ left := by
    rw [walkOn, hfinish, List.reverse_append]
    rfl
  rw [walkOn_succ hl left state, Run.followedBy_ok ho, Stop.following, hsome]
  simp only [hrest, true_and]
  exact recorded_append standing (standing.call scope container s) _ (congrArg (· ++ _) hlookups.symm)

end Linked

/-- A walk that goes on from a standing ends like the evaluation of one state after the other. -/
theorem walkOn_ok_iff (hl : g.Linked) (hs : (g.get? standing.state).isSome) (left : Nat) (walk : WalkResult)
    (record : AppliedMocks) :
    ((standing.walkOn scope g container left).result = .ok walk ∧
        standing.recorded scope (standing.walkOn scope g container left) = record) ↔
      ∃ last, standing.Reaches scope g container last ∧
        last.visited < standing.visited + left ∧ last.Completes scope g container walk record := by
  induction left generalizing standing with
  | zero =>
    rw [walkOn_zero]
    constructor
    · rintro ⟨h, -⟩
      cases h
    · rintro ⟨last, hr, hlt, -⟩
      have hle := hr.visited_le
      omega
  | succ left ih =>
    rcases fails_or_completes_or_next scope container hl hs with ⟨failure, hf⟩ | ⟨own, applied, hc⟩ | ⟨next, hn, hnext⟩
    · rw [walkOn_of_fails hl left hf, Reaches.exists_iff_self fun next hn => hn.not_fails failure hf]
      constructor
      · rintro ⟨h, -⟩
        cases h
      · rintro ⟨-, hc⟩
        exact absurd hf (hc.not_fails failure)
    · obtain ⟨hresult, hrecord⟩ := walkOn_of_completes hl left hc
      rw [hresult, hrecord, Reaches.exists_iff_self fun next hn => hn.not_completes own applied hc]
      constructor
      · rintro ⟨h, rfl⟩
        obtain rfl := Except.ok.inj h
        exact ⟨by omega, hc⟩
      · rintro ⟨-, hc'⟩
        obtain ⟨rfl, rfl⟩ := hc.unique hc'
        exact ⟨rfl, rfl⟩
    · obtain ⟨hresult, hrecord⟩ := walkOn_of_next hl left hn
      have hbound : next.visited + left = standing.visited + (left + 1) := by
        rw [hn.visited]
        omega
      rw [hresult, hrecord, ih hnext, hbound]
      exact (Reaches.exists_iff_next hn fun h => hn.not_completes walk record h.2).symm

/-- A walk that goes on from a standing fails like the first state that fails, or because it has no steps left. -/
theorem walkOn_error_iff (hl : g.Linked) (hs : (g.get? standing.state).isSome) (left : Nat) (failure : Failure) :
    (standing.walkOn scope g container left).result = .error failure ↔
      (∃ last, standing.Reaches scope g container last ∧
        last.visited < standing.visited + left ∧ last.Fails scope g container failure) ∨
      ∃ last, standing.Reaches scope g container last ∧
        last.visited = standing.visited + left ∧ failure = last.outOfSteps scope container := by
  induction left generalizing standing with
  | zero =>
    rw [walkOn_zero]
    constructor
    · intro h
      exact .inr ⟨standing, .refl, rfl, (Except.error.inj h).symm⟩
    · rintro (⟨last, hr, hlt, -⟩ | ⟨last, hr, hv, rfl⟩)
      · have hle := hr.visited_le
        omega
      · rw [hr.eq_of_visited hv]
  | succ left ih =>
    rcases fails_or_completes_or_next scope container hl hs with ⟨own, hf⟩ | ⟨walk, record, hc⟩ | ⟨next, hn, hnext⟩
    · have stuck (other : Standing) : ¬ standing.Next scope g container other := fun hn => hn.not_fails own hf
      rw [walkOn_of_fails hl left hf, Reaches.exists_iff_self stuck, Reaches.exists_iff_self stuck]
      constructor
      · intro h
        obtain rfl := Except.error.inj h
        exact .inl ⟨by omega, hf⟩
      · rintro (⟨-, hf'⟩ | ⟨hv, -⟩)
        · rw [hf.unique hf']
        · omega
    · have stuck (other : Standing) : ¬ standing.Next scope g container other := fun hn =>
        hn.not_completes walk record hc
      rw [(walkOn_of_completes hl left hc).1, Reaches.exists_iff_self stuck, Reaches.exists_iff_self stuck]
      constructor
      · intro h
        cases h
      · rintro (⟨-, hf⟩ | ⟨hv, -⟩)
        · exact absurd hf (hc.not_fails failure)
        · omega
    · have hbound : next.visited + left = standing.visited + (left + 1) := by
        rw [hn.visited]
        omega
      rw [(walkOn_of_next hl left hn).1, ih hnext, hbound,
        Reaches.exists_iff_next hn fun h => hn.not_fails failure h.2]
      rw [Reaches.exists_iff_next hn fun h => absurd h.1 (by omega)]

end Standing

/-! ## Walks -/

/-- A walk through a graph of a loaded machine, outside all Maps, succeeds with so many steps if and only if they are
within the bound and so many evaluations of one state after the other succeed, of which the last is the first that
names no next state, with the same output, steps and record. It fails with what the first of them that fails fails with,
if that is within the bound, or because the bound is reached and there is a next state. -/
theorem Machine.walk_stateByState {definition : Json} {m : Machine} (load : Machine.load definition = .ok m)
    {address : Address} {g : Graph} (hat : m.root.At address g) {start : String} (hs : (g.get? start).isSome)
    (scope : Scope) (container : StatePath) (input : Json) (now : Nat) (applied : AppliedMocks) :
    let run := (scope.walkGraph g start ⟨container, [], false⟩ input).run now
    let origin : Standing := ⟨0, start, input, now, [], applied⟩
    (∀ count walk record,
      (run.result = .ok walk ∧ walk.steps.length = count ∧ applied.recordAll (scope.mocks.uses run.lookups) = record) ↔
        count ≤ scope.settings.maxSteps ∧ ∃ last, origin.Reaches scope g container last ∧ last.visited + 1 = count ∧
          last.Completes scope g container walk record) ∧
      ∀ failure, run.result = .error failure ↔
        (∃ last, origin.Reaches scope g container last ∧ last.visited < scope.settings.maxSteps ∧
          last.Fails scope g container failure) ∨
        ∃ last, origin.Reaches scope g container last ∧ last.visited = scope.settings.maxSteps ∧
          failure = last.outOfSteps scope container := by
  intro run origin
  have hl : g.Linked := ((Machine.sound_of_load load).of_at hat).linked
  have hrun : run = origin.walkOn scope g container scope.settings.maxSteps := by
    show (scope.walkGraph g start ⟨container, [], false⟩ input).run now = _
    rw [Scope.walkGraph, Stop.walkGraph_eq_loop hs]
    rfl
  have hbound : origin.visited + scope.settings.maxSteps = scope.settings.maxSteps := Nat.zero_add _
  constructor
  · intro count walk record
    have hok : (run.result = .ok walk ∧ origin.recorded scope run = record) ↔ _ :=
      hrun ▸ Standing.walkOn_ok_iff hl hs scope.settings.maxSteps walk record
    rw [hbound] at hok
    -- The number of steps is that of the states that were evaluated.
    have hcount {last : Standing} (hr : origin.Reaches scope g container last)
        (hc : last.Completes scope g container walk record) : walk.steps.length = last.visited + 1 := by
      have hsteps : last.steps.length + 0 = 0 + last.visited := hr.length_steps
      rw [hc.length_steps]
      omega
    constructor
    · rintro ⟨hwalk, rfl, hrecord⟩
      obtain ⟨last, hr, hlt, hc⟩ := hok.1 ⟨hwalk, hrecord⟩
      have hlength := hcount hr hc
      exact ⟨by omega, last, hr, hlength.symm, hc⟩
    · rintro ⟨hle, last, hr, rfl, hc⟩
      obtain ⟨hwalk, hrecord⟩ := hok.2 ⟨last, hr, by omega, hc⟩
      exact ⟨hwalk, hcount hr hc, hrecord⟩
  · intro failure
    rw [hrun, Standing.walkOn_error_iff hl hs, hbound]

/-- The walk of a graph that goes back to its start is that of four states, one after the other. -/
theorem walk_stateByState_markEach :
    Machine.load markEach = .ok markMachine ∧ markMachine.root.At [("Each", 0)] markGraph ∧
      (markGraph.get? "Check").isSome ∧
      let scope : Scope := ⟨.empty, none, .standard, .null⟩
      let origin : Standing := ⟨0, "Check", .record [], 0, [], .empty⟩
      ∃ last walk record, origin.Reaches scope markGraph ["Each"] last ∧ last.visited + 1 = 4 ∧
        last.Completes scope markGraph ["Each"] walk record ∧
        ((scope.walkGraph markGraph "Check" ⟨["Each"], [], false⟩ (.record [])).run 0).result = .ok walk := by
  have hat : markMachine.root.At [("Each", 0)] markGraph := .inside (s := markState) List.mem_cons_self rfl .here
  have hs : (markGraph.get? "Check").isSome := rfl
  obtain ⟨hok, -⟩ := Machine.walk_stateByState load_markEach hat hs ⟨.empty, none, .standard, .null⟩ ["Each"]
    (.record []) 0 .empty
  have hrun : (((⟨.empty, none, .standard, .null⟩ : Scope).walkGraph markGraph "Check" ⟨["Each"], [], false⟩
      (.record [])).run 0).result.map (fun walk => walk.steps.length) = .ok 4 := by cbv
  obtain ⟨walk, hwalk, hlength⟩ := ok_of_map hrun
  obtain ⟨-, last, hr, hvisited, hc⟩ := (hok 4 walk _).1 ⟨hwalk, hlength, rfl⟩
  exact ⟨load_markEach, hat, hs, last, walk, _, hr, hvisited, hc, hwalk⟩

end StateBench

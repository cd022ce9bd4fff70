import Mathlib
import StateBench.Proofs.Evaluation.Recursion

/-!
# Evaluations come to an end

What is called in an evaluation is called from a stop of a walk or from the loop of a container (`Activation.Calls`): a
stop leads to the next one, or opens the loop of its units; a loop goes to its next round, and starts units at the first
stops of their walks. Each call is smaller than what calls it (`Activation.measure_lt`): it is in a graph that is nested
less deeply, or else there are fewer states left to the walk, or else fewer units have not ended yet, or else fewer
rounds are ahead of these. So calls are well-founded, whatever loops there are in the graphs, and evaluations are the
one solution of the recursion that they are (`Scope.evaluation_total`).
-/

namespace StateBench

/-! ## Nesting -/

/-- How many graphs are inside each other in the graph, at most. -/
def Graph.depth : Graph → Nat := fold fun _ states => ((states.flatMap (·.kind.graphs)).map (· + 1)).foldr max 0

/-- A graph inside another one is nested less deeply. -/
theorem Graph.depth_lt {g inner : Graph} {s : State Graph} (hs : s ∈ g.states) (hi : inner ∈ s.kind.graphs) :
    inner.depth < g.depth := by
  have hmem : inner.depth + 1 ∈
      ((g.states.map (·.mapGraphs depth)).flatMap fun s => s.kind.graphs).map (· + 1) := by
    refine List.mem_map_of_mem (List.mem_flatMap.2 ⟨s.mapGraphs depth, List.mem_map_of_mem hs, ?_⟩)
    show inner.depth ∈ (s.kind.mapGraphs depth).graphs
    rw [Kind.graphs_mapGraphs]
    exact List.mem_map_of_mem hi
  have hle := List.le_max_of_le' 0 hmem (Nat.le_refl _)
  rw [show g.depth = _ from fold_eq _ g]
  exact hle

/-! ## Containers -/

namespace Loop

variable {α : Type} {loop next : Loop α}

/-- The units of the container that have not ended yet. -/
def unended (loop : Loop α) : Nat := loop.pool.indices.length

theorem unended_eq (loop : Loop α) : loop.unended = loop.pool.destinies.length + loop.pool.backlog.length := by
  rw [unended, Pool.indices, List.length_append, List.length_map, List.length_map]

/-- After a round, fewer units have not ended, or fewer rounds are ahead of them. -/
theorem Step.unended_or_roundsAhead_lt (h : loop.Step next) :
    next.unended < loop.unended ∨ next.unended = loop.unended ∧ next.pool.roundsAhead < loop.pool.roundsAhead := by
  cases h with
  | @landed pool after turn last landing value landings round ok =>
    -- The unit that has landed is no longer among the others.
    have hd : after.destinies.length + 1 = pool.destinies.length := (Pool.destinies_round round).length_eq
    have hb : after.backlog = pool.backlog := Pool.backlog_round round
    have hl : (after.launchNext turn.time).indices.length = after.indices.length :=
      (after.indices_launchNext turn.time).length_eq
    have ha := unended_eq ⟨after, turn.time, landings⟩
    have hp := unended_eq ⟨pool, turn.time, landings⟩
    unfold unended at ha hp ⊢
    simp only [hb] at ha hp ⊢
    omega
  | @tired pool after turn last landings round =>
    have hd : after.destinies.length = pool.destinies.length := (Pool.destinies_round round).length_eq
    have hb : after.backlog = pool.backlog := Pool.backlog_round round
    have hlt := Pool.tired_lt round
    rw [Prod.lex_def, hb] at hlt
    rw [unended_eq, unended_eq]
    simp only [hb, hd, true_and] at hlt ⊢
    omega
  | @woken pool after turn last time landings round first =>
    have hd : after.destinies.length = pool.destinies.length := (Pool.destinies_round round).length_eq
    have hb : after.backlog = pool.backlog := Pool.backlog_round round
    have hwake : (after.wakeAt time).backlog = pool.backlog := hb
    have hlt := Pool.quiet_lt round first
    rw [Prod.lex_def, hwake] at hlt
    rw [unended_eq, unended_eq]
    simp only [Pool.destinies_wakeAt, hwake, hd, true_and] at hlt ⊢
    omega

end Loop

/-! ## Calls -/

/-- What is called in an evaluation. -/
inductive Activation where
  /-- A walk through a graph comes to a stop. -/
  | atStop (g : Graph) (stop : Stop)
  /-- The loop of a container in a graph runs its units; so many states are left to the walk around it. -/
  | inLoop (g : Graph) (left : Nat) (walks : List UnitWalk)
      (inside : ∀ walk ∈ walks, ∃ s ∈ g.states, walk.graph ∈ s.kind.graphs) (loop : Loop Json)

namespace Activation

/-- What is called from where. -/
inductive Calls (scope : Scope) : Activation → Activation → Prop
  /-- A walk goes on from a stop to the next. -/
  | next {g : Graph} {stop other : Stop} (next : stop.Next scope g other) :
      Calls scope (.atStop g stop) (.atStop g other)
  /-- A container sets up its units. -/
  | opens {g : Graph} {stop : Stop} {left declared : Nat} {walks : List UnitWalk} (state : stop.state ∈ g.states)
      (more : stop.left = left + 1) (setsUp : SetsUp scope stop declared walks) :
      Calls scope (.atStop g stop)
        (.inLoop g left walks (fun _ hw => ⟨stop.state, state, (setsUp.mem_graphs hw).1⟩)
          (stop.opening scope declared walks))
  /-- A container goes to its next round. -/
  | round {g : Graph} {left : Nat} {walks : List UnitWalk}
      {inside : ∀ walk ∈ walks, ∃ s ∈ g.states, walk.graph ∈ s.kind.graphs} {loop other : Loop Json}
      (step : loop.Step other) : Calls scope (.inLoop g left walks inside loop) (.inLoop g left walks inside other)
  /-- A unit that is started walks its graph. -/
  | starts {g : Graph} {left index start : Nat} {walks : List UnitWalk} {walk : UnitWalk}
      {inside : ∀ walk ∈ walks, ∃ s ∈ g.states, walk.graph ∈ s.kind.graphs} {loop : Loop Json} {s : State Graph}
      (unit : walks[index]? = some walk) (launch : Pool.launch start (index, walk.job scope) ∈ loop.pool.queue)
      (first : walk.graph.get? walk.graph.startAt = some s) :
      Calls scope (.inLoop g left walks inside loop)
        (.atStop walk.graph ⟨walk.place, s, 0, scope.settings.maxSteps, walk.input, start⟩)

/-- How deeply graphs are nested in that of the call, the states that are left to the walk, the units that have not
ended yet, and the rounds ahead of them; what comes first counts first. -/
def measure : Activation → ℕ ×ₗ ℕ ×ₗ ℕ ×ₗ ℕ
  | .atStop g stop => toLex (g.depth, toLex (stop.left, toLex (0, 0)))
  | .inLoop g left _ _ loop => toLex (g.depth, toLex (left, toLex (loop.unended, loop.pool.roundsAhead)))

/-- What is called is smaller. -/
theorem measure_lt {scope : Scope} {call other : Activation} (h : Calls scope call other) :
    other.measure < call.measure := by
  cases h with
  | next next =>
    cases next with
    | intro more _ _ _ =>
      simp only [measure, Prod.Lex.toLex_lt_toLex, true_and]
      omega
  | opens _ more _ =>
    simp only [measure, Prod.Lex.toLex_lt_toLex, true_and]
    omega
  | round step =>
    have hstep := step.unended_or_roundsAhead_lt
    simp only [measure, Prod.Lex.toLex_lt_toLex, true_and]
    omega
  | @starts g left _ _ walks walk inside _ _ unit _ _ =>
    obtain ⟨s, hs, hi⟩ := inside walk (List.mem_of_getElem? unit)
    have hdepth := Graph.depth_lt hs hi
    simp only [measure, Prod.Lex.toLex_lt_toLex]
    exact .inl hdepth

/-- No chain of calls goes on for ever. -/
theorem wellFounded_calls (scope : Scope) : WellFounded fun other call => Calls scope call other :=
  Subrelation.wf measure_lt (InvImage.wf measure wellFounded_lt)

end Activation

namespace Scope

/-- A task is over when its patience is, whatever its executor does. -/
theorem finish_runTask_le (scope : Scope) (visit : Visit) (task : TaskSpec) (input : Json) (now : Nat) :
    ((scope.runTask visit task input).run now).finish ≤ now + task.patience scope.settings := by
  have hcourse (invocation : Invocation) (delay : Nat) (events : List Event) (result : Except Failure Json) :
      (taskCourse invocation delay events result).toRun.finish = invocation.time + delay := by
    unfold taskCourse
    split <;> rfl
  unfold runTask
  cases scope.executor with
  | none => exact Nat.le_add_right now _
  | some executor =>
    show (taskCourse _ _ _ _).toRun.finish ≤ _
    rw [hcourse]
    exact Nat.add_le_add_left (Nat.min_le_right _ _) now

/-- Evaluations come to an end, whatever the graphs, the input and the mocks are, as each task does: walks, states and
containers that call each other, without a bound on how often, are a total function, and that of evaluations. What is
called is in a graph that is nested less deeply, or there are fewer states left to its walk, or fewer units that have
not ended, or fewer rounds ahead of these. -/
theorem evaluation_total (scope : Scope) :
    (∃ calls : Recursion, calls.Solves scope ∧ (∀ other : Recursion, other.Solves scope → other = calls) ∧
      ∀ g start place input, calls.walk g place ⟨start, input, 0, []⟩ = scope.walkGraph g start place input) ∧
      (∀ call other, Activation.Calls scope call other → other.measure < call.measure) ∧
      (WellFounded fun other call => Activation.Calls scope call other) ∧
      (∀ loop : Loop Json, ∃ last outcome, loop.Reaches last ∧ last.Ends outcome) ∧
      ∀ visit task input now,
        ((scope.runTask visit task input).run now).finish ≤ now + task.patience scope.settings := by
  refine ⟨⟨.ofScope scope, Recursion.solves_ofScope scope, fun other h => Recursion.solves_iff.1 h,
    Recursion.walk_ofScope⟩, fun call other => Activation.measure_lt, Activation.wellFounded_calls scope,
    fun loop => ?_, finish_runTask_le scope⟩
  obtain ⟨last, outcome, reaches, ends, -⟩ := Loop.toRun_drain loop.pool (.idle loop.now) loop.landings
  exact ⟨last, outcome, reaches, ends⟩

end Scope

end StateBench

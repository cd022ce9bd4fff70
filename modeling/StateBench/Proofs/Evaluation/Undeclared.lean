import StateBench.Proofs.Evaluation.Explained
import StateBench.Proofs.Machine.Bounds

/-!
# Names that no state has

A walk checks that its start and each state that it goes on to are states of its graph, and fails if they are not. In a
sound graph it never comes to such a name: whatever it would fail with there (`Lost`), it is the same walk, and so are
the walks of all graphs in it (`Graph.Sound.walkGraphOr_eq`).
-/

namespace StateBench

/-- What walks fail with at names that no state has: where they are, and where a state leads them. -/
structure Lost where
  here : Place → String → Failure
  /-- The state that leads on is given, and the name that it gives. -/
  next : Place → String → String → Failure

/-- What walks do fail with. -/
def Lost.undeclared : Lost where
  here place name :=
    .of Failure.runtime ("state '" ++ name ++ "' is not declared in this graph") (place.pathOf name)
  next place state name :=
    .of Failure.runtime ("next state '" ++ name ++ "' is not declared in this graph") (place.pathOf state)

namespace Evaluator

/-! ## Walks that fail otherwise -/

section Or

variable {m : Type → Type} [Monad m] (ev : Evaluator m) (lost : Lost)

/-- Where a walk goes after a state. -/
def goOnOr (states : List (State (Walker m))) (place : Place) (position : Position) (type : StateType)
    (out : StateOutput) : m (Position ⊕ WalkResult) :=
  let steps := ⟨place.pathOf position.state, type, out.next⟩ :: position.steps
  match out.next with
  | none => return .inr ⟨out.output, none, steps.reverse⟩
  | some next =>
    if (State.named? states next).isSome then return .inl ⟨next, out.output, position.taken + 1, steps⟩
    else ev.done (.error (lost.next place position.state next))

/-- One step of a walk. -/
def walkStepOr (states : List (State (Walker m))) (place : Place) (position : Position) :
    m (Position ⊕ WalkResult) :=
  match State.named? states position.state with
  | none => ev.done (.error (lost.here place position.state))
  | some s => do
    let out ← ev.runState place position.taken s position.input
    ev.goOnOr lost states place position s.type out

/-- Walks some states from the one with a name. -/
def walkOr (states : List (State (Walker m))) (start : String) (place : Place) (input : Json) : m WalkResult :=
  if (State.named? states start).isSome then
    ev.loop (ev.walkStepOr lost states place) (ev.tooManySteps place) ev.settings.maxSteps ⟨start, input, 0, []⟩
  else ev.done (.error (lost.here place start))

/-- A graph as something that can be walked. -/
def walkerOr (g : Graph) : Walker m :=
  g.fold fun startAt states => ⟨startAt, fun place input => do
    let result ← ev.walkOr lost states startAt place input
    return result.output⟩

theorem walkerOr_eq (g : Graph) :
    ev.walkerOr lost g = ⟨g.startAt, fun place input => do
      let result ← ev.walkOr lost (g.states.map (·.mapGraphs (ev.walkerOr lost))) g.startAt place input
      return result.output⟩ := by
  unfold walkerOr
  rw [Graph.fold_eq]

/-- Walks a graph from the state with a name. -/
def walkGraphOr (g : Graph) (start : String) (place : Place) (input : Json) : m WalkResult :=
  ev.walkOr lost (g.states.map (·.mapGraphs (ev.walkerOr lost))) start place input

/-- Walks that fail with what they do fail with are the walks themselves. -/
theorem walkGraphOr_undeclared : ev.walkGraphOr .undeclared = ev.walkGraph := rfl

end Or

end Evaluator

/-! ## Walks of sound graphs -/

namespace Graph.Sound

variable (scope : Scope) {g : Graph} (lost : Lost)

/-- A step from a state of a linked graph is the same, and leads to such a state again. -/
theorem walkStepOr_eq (hl : g.Linked) (place : Place) {position : Position} (hs : (g.get? position.state).isSome) :
    let states := g.states.map scope.evaluator.walkable
    scope.evaluator.walkStep states place position = scope.evaluator.walkStepOr lost states place position ∧
      ∀ now next, ((scope.evaluator.walkStep states place position).run now).result = .ok (.inl next) →
        (g.get? next.state).isSome := by
  intro states
  obtain ⟨s, hg⟩ := Option.isSome_iff_exists.1 hs
  -- The state hands over to one of its targets, which are all declared.
  have declared {now : Nat} {out : StateOutput} {next : String}
      (ho : ((scope.evaluator.runState place position.taken (scope.evaluator.walkable s) position.input).run
        now).result = .ok out) (hn : out.next = some next) : (State.named? states next).isSome := by
    let stop : Stop := ⟨place, s, position.taken, 0, position.input, now⟩
    have ht : next ∈ stop.state.targets := Stop.mem_targets ho hn
    rw [Stop.named?_walkable, Option.isSome_map]
    exact hl.targets s (mem_of_get? hg) next ht
  have hstep : scope.evaluator.walkStep states place position =
      scope.evaluator.runState place position.taken (scope.evaluator.walkable s) position.input >>= fun out =>
        scope.evaluator.goOn states place position (scope.evaluator.walkable s).type out := by
    unfold Evaluator.walkStep
    rw [Stop.named?_walkable, hg]
    rfl
  have hstepOr : scope.evaluator.walkStepOr lost states place position =
      scope.evaluator.runState place position.taken (scope.evaluator.walkable s) position.input >>= fun out =>
        scope.evaluator.goOnOr lost states place position (scope.evaluator.walkable s).type out := by
    unfold Evaluator.walkStepOr
    rw [Stop.named?_walkable, hg]
    rfl
  rw [hstep, hstepOr]
  constructor
  · refine Activity.bind_congr_of_run fun now out ho => ?_
    unfold Evaluator.goOn Evaluator.goOnOr
    cases hn : out.next with
    | none => rfl
    | some next => simp only [declared ho hn, if_true]
  · intro now next hr
    obtain ⟨out, ho, hgo, -⟩ := Activity.run_bind_ok hr
    unfold Evaluator.goOn at hgo
    cases hn : out.next with
    | none =>
      rw [hn] at hgo
      cases hgo
    | some name =>
      have hd := declared ho hn
      simp only [hn, hd, if_true] at hgo
      cases hgo
      rw [Stop.named?_walkable, Option.isSome_map] at hd
      exact hd

theorem walkOr_eq (hl : g.Linked) {start : String} (hs : (g.get? start).isSome) (place : Place) (input : Json) :
    scope.evaluator.walk (g.states.map scope.evaluator.walkable) start place input =
      scope.evaluator.walkOr lost (g.states.map scope.evaluator.walkable) start place input := by
  unfold Evaluator.walk Evaluator.walkOr
  rw [Stop.named?_walkable, Option.isSome_map, if_pos hs, if_pos hs]
  have same (position : Position) (hp : (g.get? position.state).isSome) := walkStepOr_eq scope lost hl place hp
  exact Activity.loop_congr_of_run (fun position hp => (same position hp).1) (fun position hp => (same position hp).2)
    _ _ hs

/-- The states of a graph are the same to a walk if the graphs in them are walked alike. -/
theorem map_walkerOr
    (h : ∀ s ∈ g.states, ∀ inner ∈ s.kind.graphs, scope.evaluator.walkerOr lost inner = scope.evaluator.walker inner) :
    g.states.map (·.mapGraphs (scope.evaluator.walkerOr lost)) = g.states.map scope.evaluator.walkable := by
  refine List.map_congr_left fun s hs => ?_
  have hk : s.kind.mapGraphs (scope.evaluator.walkerOr lost) = s.kind.mapGraphs scope.evaluator.walker :=
    Kind.mapGraphs_congr (h s hs)
  exact congrArg (fun kind => { scope.evaluator.walkable s with kind }) hk

theorem walkerOr_eq (hg : g.Sound) : scope.evaluator.walkerOr lost g = scope.evaluator.walker g := by
  induction g using Graph.induction with
  | step g ih =>
    have hstates := map_walkerOr scope lost fun s hs inner hi => ih s hs inner hi (hg.within hs hi)
    rw [Evaluator.walkerOr_eq, Evaluator.walker_eq, hstates]
    simp only [walkOr_eq scope lost hg.linked hg.linked.start]

/-- A walk from a state of a sound graph never comes to a name that no state has, and no walk of a graph in it does:
whatever they would fail with there, the walk is the same. -/
theorem walkGraphOr_eq (hg : g.Sound) {start : String} (hs : (g.get? start).isSome) (place : Place) (input : Json) :
    scope.evaluator.walkGraphOr lost g start place input = scope.evaluator.walkGraph g start place input := by
  have hstates := map_walkerOr scope lost fun s hm inner hi => walkerOr_eq scope lost (hg.within hm hi)
  unfold Evaluator.walkGraphOr
  rw [hstates, ← walkOr_eq scope lost hg.linked hs]
  rfl

end Graph.Sound

end StateBench

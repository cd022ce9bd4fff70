import StateBench.Proofs.Activity.Laws
import StateBench.Proofs.Activity.Runs
import StateBench.Proofs.Evaluation.Explained
import StateBench.Proofs.Machine.Bounds

/-!
# Evaluations as a recursion

Walks, states and containers call each other: a walk evaluates its next state and goes on, a state that is a container
runs its units, and a unit walks a graph in it. `Recursion.Solves` says what each of them does by calling the others,
and nothing about how often it may; the settings bound the states of a walk by the number that it has visited.

There is just one way of walking and running units that does this, and it is that of evaluations
(`Recursion.solves_iff`). The graphs in a graph are smaller than it, a walk has fewer states left after each of them,
and a container fewer units, or fewer turns of those under way.
-/

namespace StateBench

/-- A way of walking graphs from a position, and of running the units of containers. -/
@[ext]
structure Recursion where
  walk : Graph → Place → Position → Activity WalkResult
  drain : Pool Json → Turn → List (Landing Json) → Course (Outcome Json)

namespace Recursion

variable {scope : Scope}

/-! ## The calls -/

section Calls

variable (scope : Scope) (calls : Recursion)

/-- A container runs its units. -/
def fanOut (container : StatePath) (limit : Nat) (units : List (FanUnit Activity)) : Activity (List Json) := do
  let outcome ← (fun now => calls.drain (.start limit (units.map (·.job)) now) (.idle now) [] :
    Activity (Outcome Json))
  Activity.note outcome.lookups
  .done (outcome.result container (units.map (·.name)))

def evaluator : Evaluator Activity := { scope.evaluator with fanOut := calls.fanOut }

/-- A unit walks a graph from its start. -/
def walker (g : Graph) : Walker Activity := ⟨g.startAt, fun place input => do
  let result ← calls.walk g place ⟨g.startAt, input, 0, []⟩
  return result.output⟩

/-- A walk goes on after a state, or ends. -/
def goOn (g : Graph) (place : Place) (position : Position) (type : StateType) (out : StateOutput) :
    Activity WalkResult :=
  let path := place.pathOf position.state
  let steps := ⟨path, type, out.next⟩ :: position.steps
  match out.next with
  | none => return ⟨out.output, none, steps.reverse⟩
  | some next =>
    if (g.get? next).isSome then calls.walk g place ⟨next, out.output, position.taken + 1, steps⟩
    else scope.evaluator.fail Failure.runtime ("next state '" ++ next ++ "' is not declared in this graph") path

/-- A walk evaluates the next state, if it may, and goes on. -/
def walkStep (g : Graph) (place : Place) (position : Position) : Activity WalkResult :=
  match g.get? position.state with
  | none => scope.evaluator.undeclared place position.state
  | some s =>
    if scope.settings.maxSteps ≤ position.taken then .done (.error (scope.evaluator.tooManySteps place position))
    else do
      let out ← (calls.evaluator scope).runState place position.taken (s.mapGraphs calls.walker) position.input
      calls.goOn scope g place position s.type out

/-- A container takes the next round, and goes on. -/
def drainStep (pool : Pool Json) (turn : Turn) (landings : List (Landing Json)) : Course (Outcome Json) :=
  match pool.round turn with
  | .landed turn landing next =>
    match landing.result with
    | .error failure => .ended turn (.ok (.stopped landings landing failure))
    | .ok _ => calls.drain (next.launchNext turn.time) turn (landing :: landings)
  | .tired turn next => .paused turn turn.time fun () => calls.drain next (.idle turn.time) landings
  | .quiet turn next =>
    match next.firstTime? with
    | none => .ended turn (.ok (.completed landings))
    | some time => .waiting turn time fun () => calls.drain (next.wakeAt time) (.idle time) landings

/-- Each does what it does by calling the others. -/
structure Solves : Prop where
  walk : ∀ g place position, calls.walk g place position = calls.walkStep scope g place position
  drain : ∀ pool turn landings, calls.drain pool turn landings = calls.drainStep pool turn landings

end Calls

/-- The walks of evaluations, from any position, and the way in which they run units. -/
def ofScope (scope : Scope) : Recursion where
  walk g place position :=
    if (g.get? position.state).isSome then Stop.loop scope g place (scope.settings.maxSteps - position.taken) position
    else scope.evaluator.undeclared place position.state
  drain := Pool.drain

theorem walk_ofScope {scope : Scope} (g : Graph) (start : String) (place : Place) (input : Json) :
    (ofScope scope).walk g place ⟨start, input, 0, []⟩ = scope.walkGraph g start place input := by
  show _ = scope.evaluator.walkGraph g start place input
  unfold ofScope Evaluator.walkGraph Evaluator.walk
  simp only [Stop.named?_walkable, Option.isSome_map]
  rfl

theorem evaluator_ofScope (scope : Scope) : (ofScope scope).evaluator scope = scope.evaluator := rfl

theorem walker_ofScope (scope : Scope) : (ofScope scope).walker = scope.evaluator.walker := by
  funext g
  rw [Evaluator.walker_eq, walker]
  simp only [walk_ofScope]
  rfl

/-! ## There is a solution -/

/-- A walk takes a step from a declared state, and goes on with one step less left. -/
theorem loop_succ_eq {g : Graph} {s : State Graph} {place : Place} {position : Position} {left : Nat}
    (hs : g.get? position.state = some s) (hleft : scope.settings.maxSteps - position.taken = left + 1) :
    Stop.loop scope g place (left + 1) position =
      scope.evaluator.runState place position.taken (scope.evaluator.walkable s) position.input >>= fun out =>
        (ofScope scope).goOn scope g place position s.type out := by
  rw [Stop.loop, Activity.loop_succ, Evaluator.walkStep, Stop.named?_walkable, hs]
  simp only [Option.map_some, bind_assoc]
  refine bind_congr fun out => ?_
  have htype : (scope.evaluator.walkable s).type = s.type := State.type_mapGraphs ..
  unfold Evaluator.goOn goOn
  simp only [Stop.named?_walkable, Option.isSome_map, htype]
  cases out.next with
  | none => rw [pure_bind]
  | some next =>
    have hlater : scope.settings.maxSteps - (position.taken + 1) = left := by omega
    by_cases hn : (g.get? next).isSome
    · simp only [hn, if_true, pure_bind, ofScope, hlater]
      rfl
    · simp only [hn]
      rfl

/-- Evaluations do what they do by calling each other. -/
theorem solves_ofScope (scope : Scope) : (ofScope scope).Solves scope where
  walk g place position := by
    rw [walkStep, evaluator_ofScope, walker_ofScope]
    cases hs : g.get? position.state with
    | none => simp [ofScope, hs]
    | some s =>
      simp only [ofScope, hs, Option.isSome_some, if_true]
      cases hleft : scope.settings.maxSteps - position.taken with
      | zero =>
        rw [if_pos (by omega)]
        rfl
      | succ left =>
        rw [if_neg (by omega)]
        exact loop_succ_eq hs hleft
  drain pool turn landings := by
    show pool.drain turn landings = _
    rw [drainStep]
    cases hround : pool.round turn with
    | landed last landing next =>
      dsimp only
      cases hr : landing.result with
      | error failure => exact Pool.drain_of_failed hround hr landings
      | ok value => exact Pool.drain_of_landed hround hr landings
    | tired last next => exact Pool.drain_of_tired hround landings
    | quiet last next =>
      dsimp only
      cases ht : next.firstTime? with
      | none => exact Pool.drain_of_quiet hround ht landings
      | some time => exact Pool.drain_of_woken hround ht landings

/-! ## There is no other -/

section Unique

variable {calls : Recursion} (h : calls.Solves scope)
include h

/-- Units are run as they are in evaluations: each round leaves fewer of them, or fewer of their turns. -/
theorem Solves.drain_eq (pool : Pool Json) (turn : Turn) (landings : List (Landing Json)) :
    calls.drain pool turn landings = pool.drain turn landings := by
  fun_induction Pool.drain pool turn landings with
  | case1 pool turn landings last landing next hround failure hf => rw [h.drain, drainStep, hround]; simp only [hf]
  | case2 pool turn landings last landing next hround value hv ih =>
    rw [h.drain, drainStep, hround]
    simp only [hv]
    exact ih
  | case3 pool turn landings last next hround ih =>
    rw [h.drain, drainStep, hround]
    exact congrArg (fun course => Course.paused last last.time fun () => course) ih
  | case4 pool turn landings last next hround hn =>
    rw [h.drain, drainStep, hround]
    simp only [hn]
  | case5 pool turn landings last next hround time hn ih =>
    rw [h.drain, drainStep, hround]
    simp only [hn]
    exact congrArg (fun course => Course.waiting last time fun () => course) ih

theorem Solves.evaluator_eq : calls.evaluator scope = scope.evaluator := by
  have hd : calls.drain = Pool.drain := funext fun pool => funext fun turn => funext (h.drain_eq pool turn)
  have hf : calls.fanOut = StateBench.fanOut := by
    funext container limit units
    unfold fanOut
    rw [hd]
    rfl
  rw [evaluator, hf]
  rfl

/-- Graphs are walked as they are in evaluations: the graphs in them are smaller, and each state leaves fewer steps. -/
theorem Solves.walk_eq (g : Graph) (place : Place) (position : Position) :
    calls.walk g place position = (ofScope scope).walk g place position := by
  induction g using Graph.induction generalizing place position with
  | step g ih =>
    have hwalker {s : State Graph} (hs : s ∈ g.states) :
        s.mapGraphs calls.walker = s.mapGraphs (ofScope scope).walker := by
      refine congrArg (fun kind => { s with kind }) (Kind.mapGraphs_congr fun inner hi => ?_)
      unfold walker
      simp only [ih s hs inner hi]
    -- The walk has fewer states left at each position that it goes on from.
    induction hleft : scope.settings.maxSteps - position.taken generalizing position with
    | zero =>
      rw [h.walk, (solves_ofScope scope).walk, walkStep, walkStep]
      cases g.get? position.state with
      | none => rfl
      | some s => simp only [if_pos (show scope.settings.maxSteps ≤ position.taken by omega)]
    | succ left later =>
      have hgoOn (type : StateType) (out : StateOutput) :
          calls.goOn scope g place position type out = (ofScope scope).goOn scope g place position type out := by
        unfold goOn
        cases out.next with
        | none => rfl
        | some next =>
          have hlater : scope.settings.maxSteps - (position.taken + 1) = left := by omega
          simp only [later ⟨next, out.output, position.taken + 1,
            ⟨place.pathOf position.state, type, some next⟩ :: position.steps⟩ hlater]
      rw [h.walk, (solves_ofScope scope).walk, walkStep, walkStep, h.evaluator_eq, evaluator_ofScope]
      cases hs : g.get? position.state with
      | none => rfl
      | some s => simp only [hwalker (Graph.mem_of_get? hs), hgoOn]

end Unique

/-- Evaluations are the only solution. -/
theorem solves_iff {calls : Recursion} : calls.Solves scope ↔ calls = ofScope scope := by
  constructor
  · intro h
    apply Recursion.ext
    · exact funext fun g => funext fun place => funext (h.walk_eq g place)
    · exact funext fun pool => funext fun turn => funext (h.drain_eq pool turn)
  · rintro rfl
    exact solves_ofScope scope

end Recursion

end StateBench

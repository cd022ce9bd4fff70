import Mathlib.Data.List.Basic
import StateBench.Bench

/-!
# Machines without bounds

A machine is taken without the bounds that its Maps set on the number of units at a time (`Machine.unbounded`). The
states of a machine and their paths are not told apart by bounds, so the same jobs are asked for with and without them
(`jobFor_unbounded`).
-/

namespace StateBench

variable {γ δ ε : Type}

/-- What a state does, without a bound on the units of a Map. -/
def Kind.withoutBound : Kind γ → Kind γ
  | .map spec iterator => .map { spec with maxConcurrency := 0 } iterator
  | kind => kind

def State.withoutBound (s : State γ) : State γ := { s with kind := s.kind.withoutBound }

/-- The graph without bounds in it. -/
def Graph.unbounded : Graph → Graph := Graph.fold fun startAt states => ⟨startAt, states.map State.withoutBound⟩

def State.unbounded (s : State Graph) : State Graph := (s.mapGraphs Graph.unbounded).withoutBound

def Machine.unbounded (m : Machine) : Machine := ⟨m.comment, m.root.unbounded⟩

def Target.unbounded (t : Target) : Target := ⟨t.path, t.graph.unbounded, t.state.unbounded⟩

def Bench.Job.unbounded (job : Bench.Job) : Bench.Job := { job with target := job.target.unbounded }

/-- Two definitions that differ at most in the bounds of their Maps. -/
def SameButBounds (first second : Json) : Prop :=
  (Machine.load first).map Machine.unbounded = (Machine.load second).map Machine.unbounded

/-! ## States -/

namespace Kind

@[simp]
theorem type_withoutBound (kind : Kind γ) : kind.withoutBound.type = kind.type := by cases kind <;> rfl

@[simp]
theorem graphs_withoutBound (kind : Kind γ) : kind.withoutBound.graphs = kind.graphs := by cases kind <;> rfl

theorem mapGraphs_congr {f g : γ → δ} {kind : Kind γ} (h : ∀ inner ∈ kind.graphs, f inner = g inner) :
    kind.mapGraphs f = kind.mapGraphs g := by
  cases kind with
  | map spec iterator => exact congrArg (Kind.map spec) (h iterator List.mem_cons_self)
  | parallel branches => exact congrArg Kind.parallel (List.map_congr_left h)
  | _ => rfl

/-- The bound of a Map goes when the graphs in it are replaced. -/
theorem mapGraphs_withoutBound (f : γ → δ) (g : δ → ε) (kind : Kind γ) :
    (kind.mapGraphs f).withoutBound.mapGraphs g = (kind.mapGraphs fun inner => g (f inner)).withoutBound := by
  cases kind with
  | parallel branches => exact congrArg Kind.parallel List.map_map
  | _ => rfl

end Kind

namespace State

@[simp]
theorem type_withoutBound (s : State γ) : s.withoutBound.type = s.type := s.kind.type_withoutBound

@[simp]
theorem type_unbounded (s : State Graph) : s.unbounded.type = s.type :=
  (type_withoutBound _).trans (type_mapGraphs Graph.unbounded s)

/-- The graphs in a state without bounds are those in the state, without bounds. -/
theorem graphs_unbounded (s : State Graph) : s.unbounded.kind.graphs = s.kind.graphs.map Graph.unbounded :=
  (Kind.graphs_withoutBound _).trans (Kind.graphs_mapGraphs Graph.unbounded s.kind)

end State

/-! ## Paths -/

namespace Graph

theorem unbounded_eq (g : Graph) : g.unbounded = ⟨g.startAt, g.states.map State.unbounded⟩ := by
  unfold unbounded
  rw [fold_eq, List.map_map]
  rfl

theorem get?_unbounded (g : Graph) (name : String) : g.unbounded.get? name = (g.get? name).map State.unbounded := by
  rw [unbounded_eq]
  exact State.named?_map State.unbounded (fun _ => rfl) g.states name

theorem inner?_unbounded (s : State Graph) (child : String) :
    inner? s.unbounded child = (inner? s child).map unbounded := by
  unfold inner? State.unbounded State.withoutBound State.mapGraphs
  cases s.kind with
  | parallel branches =>
    simp only [Kind.mapGraphs, Kind.withoutBound, List.find?_map]
    refine congrArg (Option.map unbounded) (congrArg (List.find? · branches) (funext fun branch => ?_))
    rw [Function.comp_apply, get?_unbounded, Option.isSome_map]
  | _ => rfl

/-- A path leads to the same state with and without bounds. -/
theorem locate?_unbounded (path : StatePath) (g : Graph) :
    locate? path g.unbounded = (locate? path g).map fun (g, s) => (g.unbounded, s.unbounded) := by
  fun_induction locate? path g with
  | case1 g => rfl
  | case2 name g =>
    rw [locate?, get?_unbounded, Option.map_map, Option.map_map]
    rfl
  | case3 name child rest g ih =>
    rw [locate?, get?_unbounded]
    cases g.get? name with
    | none => rfl
    | some s =>
      show (inner? s.unbounded child).bind _ = ((inner? s child).bind _).map _
      rw [inner?_unbounded]
      cases inner? s child with
      | none => rfl
      | some inner => exact ih inner

theorem pathsBelow_unbounded (g : Graph) (owner : StatePath) : g.unbounded.pathsBelow owner = g.pathsBelow owner := by
  induction g using Graph.induction generalizing owner with
  | step g ih =>
    rw [pathsBelow_eq, pathsBelow_eq g, unbounded_eq, List.flatMap_map]
    refine List.flatMap_congr fun s hs => ?_
    rw [State.graphs_unbounded, List.flatMap_map]
    exact congrArg _ (List.flatMap_congr fun inner hi => ih s hs inner hi _)

end Graph

/-! ## Jobs -/

/-- A name stands for the same state with and without bounds. -/
theorem Machine.resolve_unbounded (m : Machine) (name : String) :
    m.unbounded.resolve name = (m.resolve name).map Target.unbounded := by
  have hp : m.unbounded.resolvePath name = m.resolvePath name := by
    rw [resolvePath, resolvePath, paths, paths, unbounded, Graph.pathsBelow_unbounded]
  unfold resolve
  rw [hp]
  cases m.resolvePath name with
  | error rejection => rfl
  | ok path =>
    have hl : Graph.locate? path m.unbounded.root = _ := Graph.locate?_unbounded path m.root
    simp only [bind, Except.bind, hl]
    cases Graph.locate? path m.root <;> rfl

namespace MockRegistry

theorem add_unbounded (m : Machine) (registry : MockRegistry) (binding : MockBinding) :
    add m.unbounded registry binding = add m registry binding := by
  unfold add resolve
  rw [Machine.resolve_unbounded]
  cases m.resolve binding.stateName with
  | error rejection => rfl
  | ok target =>
    simp only [Except.map, Except.mapError, bind, Except.bind, Target.unbounded, State.type_unbounded]

theorem register_unbounded (m : Machine) (bindings : List MockBinding) :
    register m.unbounded bindings = register m bindings := by
  have ha : add m.unbounded = add m := funext fun registry => funext fun binding => add_unbounded m registry binding
  rw [register, register, ha]

end MockRegistry

namespace Bench

/-- The job in a machine without bounds is the job without bounds. -/
theorem jobFor_unbounded (m : Machine) (request : Request) :
    jobFor m.unbounded request = (jobFor m request).map Job.unbounded := by
  unfold jobFor
  rw [Machine.resolve_unbounded]
  cases m.resolve request.stateName with
  | error rejection => rfl
  | ok target =>
    simp only [Except.map, bind, Except.bind, MockRegistry.register_unbounded]
    cases request.bindings with
    | error rejection => rfl
    | ok bindings =>
      dsimp only
      cases MockRegistry.register m bindings <;> rfl

/-- Of definitions that differ only in their bounds, the jobs that are asked for differ only in them. -/
theorem prepare_of_sameButBounds {definition : Json} {request : Request}
    (h : SameButBounds definition request.definition) :
    (prepare { request with definition }).map Job.unbounded = (prepare request).map Job.unbounded := by
  have hj (request : Request) : (prepare request).map Job.unbounded =
      ((Machine.load request.definition).map Machine.unbounded).mapError (fun e => .malformedDefinition e.message) >>=
        (jobFor · request) := by
    unfold prepare
    cases Machine.load request.definition with
    | error e => rfl
    | ok machine => exact (jobFor_unbounded machine request).symm
  rw [hj, hj request, h]
  rfl

end Bench

end StateBench

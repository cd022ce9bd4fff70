import StateBench.Machine
import StateBench.Rejection

/-!
# Paths of states

The path of a state is the list of the names of the states around it, from the outside, and its own. Written with points
between the names it is the state's qualified name. A request names a state by its qualified name or, if no other state
has the same, by its own name.
-/

namespace StateBench

/-- The names of the states around a state, from the outside, and its own. -/
abbrev StatePath := List String

namespace StatePath

/-- The qualified name. -/
def dotted (path : StatePath) : String := ".".intercalate path

/-- The state's own name. -/
def leaf (path : StatePath) : String := path.getLast?.getD ""

end StatePath

namespace Graph

/-- The paths of the states of a graph, each before those of the states in it, given the path of the graph's owner. -/
def pathsBelow (g : Graph) : StatePath → List StatePath :=
  g.fold fun _ states owner =>
    states.flatMap fun s => (owner ++ [s.name]) :: s.kind.graphs.flatMap (· (owner ++ [s.name]))

theorem pathsBelow_eq (g : Graph) (owner : StatePath) :
    g.pathsBelow owner = g.states.flatMap fun s =>
      (owner ++ [s.name]) :: s.kind.graphs.flatMap (·.pathsBelow (owner ++ [s.name])) := by
  unfold pathsBelow
  rw [fold_eq, List.flatMap_map]
  refine congrArg (g.states.flatMap ·) (funext fun s => ?_)
  show _ :: (s.kind.mapGraphs _).graphs.flatMap _ = _
  rw [Kind.graphs_mapGraphs, List.flatMap_map]
  rfl

/-- The graph inside a state in which a path goes on. -/
def inner? (s : State Graph) (child : String) : Option Graph :=
  match s.kind with
  | .map _ iterator => some iterator
  | .parallel branches => branches.find? fun branch => (branch.get? child).isSome
  | _ => none

/-- The state at a path, and the graph that declares it. -/
def locate? : StatePath → Graph → Option (Graph × State Graph)
  | [], _ => none
  | [name], g => (g.get? name).map (g, ·)
  | name :: child :: rest, g => do
    let s ← g.get? name
    let inner ← inner? s child
    locate? (child :: rest) inner

end Graph

/-- A state that a request is about. -/
structure Target where
  path : StatePath
  /-- The graph that declares the state. -/
  graph : Graph
  state : State Graph

namespace Target

/-- The names of the states around the state. -/
def ancestors (t : Target) : StatePath := t.path.dropLast

end Target

namespace Machine

/-- The paths of all states. -/
def paths (m : Machine) : List StatePath := m.root.pathsBelow []

/-- The state with a qualified name. -/
def find? (m : Machine) (name : String) : Option (State Graph) := do
  let path ← m.paths.find? (·.dotted = name)
  let (_, state) ← Graph.locate? path m.root
  return state

/-- The path that a name stands for: a qualified name, or else the own name of just one state. -/
def resolvePath (m : Machine) (name : String) : Except Rejection StatePath :=
  match m.paths.find? (·.dotted = name) with
  | some path => .ok path
  | none =>
    match m.paths.filter (·.leaf = name) with
    | [] => .error (.stateNotFound name)
    | [path] => .ok path
    | paths => .error (.ambiguousName name (paths.map StatePath.dotted))

/-- The state that a name stands for. -/
def resolve (m : Machine) (name : String) : Except Rejection Target := do
  let path ← m.resolvePath name
  match Graph.locate? path m.root with
  | some (graph, state) => return ⟨path, graph, state⟩
  | none => throw (.stateNotFound name)

end Machine

end StateBench

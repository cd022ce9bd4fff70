import StateBench.DataFlow
import StateBench.Document
import StateBench.Rule

/-!
# State machines

A machine is a graph of states, some of which own further graphs: a Map walks its iterator for every item, a Parallel
walks all its branches. A state is told apart from all others by its path, the names of the states around it and its
own.

* `Graph.fold` computes a value from the inside of a graph outwards (`Graph.fold_eq`);
* `Graph.induction` is the induction that goes with it.
-/

namespace StateBench

/-- What a Task asks its executor to do. -/
structure TaskSpec where
  resource : String
  timeoutSeconds : Option Nat
  heartbeatSeconds : Option Nat
  deriving DecidableEq, Repr

/-- How a Map makes its units. -/
structure MapSpec where
  itemsPath : String
  /-- A template for the input of a unit; without one it is the item. -/
  itemSelector : Option Json
  /-- The most units at a time; zero is no bound. -/
  maxConcurrency : Nat
  deriving Repr

inductive WaitSpec where
  | seconds (n : Nat)
  | timestamp (text : String)
  | secondsPath (path : String)
  | timestampPath (path : String)
  deriving DecidableEq, Repr

/-- What a Fail reports; a path goes before a text. -/
structure FailSpec where
  error : Option String
  cause : Option String
  errorPath : Option String
  causePath : Option String
  deriving DecidableEq, Repr

structure Catcher where
  errorEquals : List String
  next : String
  deriving DecidableEq, Repr

/-- What a state does; graphs in it are given by something else. -/
inductive Kind (γ : Type) where
  | task (spec : TaskSpec)
  | choice (choices : List Choice) (fallback : Option String)
  | map (spec : MapSpec) (iterator : γ)
  | parallel (branches : List γ)
  | pass (result : Option Json)
  | wait (spec : WaitSpec)
  | succeed
  | fail (spec : FailSpec)
  deriving Repr

namespace Kind

variable {γ δ : Type}

def type : Kind γ → StateType
  | .task _ => .task
  | .choice .. => .choice
  | .map .. => .map
  | .parallel _ => .parallel
  | .pass _ => .pass
  | .wait _ => .wait
  | .succeed => .succeed
  | .fail _ => .fail

/-- The graphs in a state, in the order of their declaration. -/
def graphs : Kind γ → List γ
  | .map _ iterator => [iterator]
  | .parallel branches => branches
  | _ => []

def mapGraphs (f : γ → δ) : Kind γ → Kind δ
  | .task spec => .task spec
  | .choice choices fallback => .choice choices fallback
  | .map spec iterator => .map spec (f iterator)
  | .parallel branches => .parallel (branches.map f)
  | .pass result => .pass result
  | .wait spec => .wait spec
  | .succeed => .succeed
  | .fail spec => .fail spec

@[simp]
theorem type_mapGraphs (f : γ → δ) (kind : Kind γ) : (kind.mapGraphs f).type = kind.type := by cases kind <;> rfl

@[simp]
theorem graphs_mapGraphs (f : γ → δ) (kind : Kind γ) : (kind.mapGraphs f).graphs = kind.graphs.map f := by
  cases kind <;> rfl

end Kind

/-- A state; graphs in it are given by something else. -/
structure State (γ : Type) where
  name : String
  kind : Kind γ
  /-- The state that always follows. None ends the walk, except for a Choice, which goes on by its rules. -/
  next : Option String
  flow : DataFlow
  /-- The retriers, which are carried along and have no effect. -/
  retry : List Json
  /-- The catchers, which have to name states and have no other effect. -/
  catchers : List Catcher
  deriving Repr

namespace State

variable {γ δ : Type}

def type (s : State γ) : StateType := s.kind.type

def mapGraphs (f : γ → δ) (s : State γ) : State δ := { s with kind := s.kind.mapGraphs f }

@[simp]
theorem type_mapGraphs (f : γ → δ) (s : State γ) : (s.mapGraphs f).type = s.type := Kind.type_mapGraphs f s.kind

end State

/-- A graph of states and the state it starts at. -/
structure Graph where
  startAt : String
  states : List (State Graph)

/-- The state with a name, among states of one graph. -/
def State.named? {γ : Type} (states : List (State γ)) (name : String) : Option (State γ) :=
  states.find? (·.name = name)

/-- The state with a name stays the same one where states keep their names. -/
theorem State.named?_map {γ δ : Type} (f : State γ → State δ) (hf : ∀ s, (f s).name = s.name) (states : List (State γ))
    (name : String) : named? (states.map f) name = (named? states name).map f := by
  rw [named?, List.find?_map]
  refine congrArg (Option.map f) (congrArg (List.find? · states) (funext fun s => ?_))
  rw [Function.comp_apply, hf]

theorem State.named?_mapGraphs {γ δ : Type} (f : γ → δ) (states : List (State γ)) (name : String) :
    named? (states.map (·.mapGraphs f)) name = (named? states name).map (·.mapGraphs f) :=
  named?_map (·.mapGraphs f) (fun _ => rfl) states name

namespace Graph

def get? (g : Graph) (name : String) : Option (State Graph) := State.named? g.states name

/-! ## Folding -/

section Fold

variable {α : Type} (f : String → List (State α) → α)

mutual
/-- The value of a graph, given the values of the graphs in it. -/
def fold : Graph → α
  | ⟨startAt, states⟩ => f startAt (foldStates states)

def foldStates : List (State Graph) → List (State α)
  | [] => []
  | s :: rest => foldState s :: foldStates rest

def foldState : State Graph → State α
  | ⟨name, kind, next, flow, retry, catchers⟩ => ⟨name, foldKind kind, next, flow, retry, catchers⟩

def foldKind : Kind Graph → Kind α
  | .task spec => .task spec
  | .choice choices fallback => .choice choices fallback
  | .map spec iterator => .map spec (fold iterator)
  | .parallel branches => .parallel (foldGraphs branches)
  | .pass result => .pass result
  | .wait spec => .wait spec
  | .succeed => .succeed
  | .fail spec => .fail spec

def foldGraphs : List Graph → List α
  | [] => []
  | g :: rest => fold g :: foldGraphs rest
end

theorem foldGraphs_eq : ∀ gs : List Graph, foldGraphs f gs = gs.map (fold f)
  | [] => by rw [foldGraphs, List.map_nil]
  | g :: gs => by rw [foldGraphs, foldGraphs_eq gs, List.map_cons]

theorem foldKind_eq (kind : Kind Graph) : foldKind f kind = kind.mapGraphs (fold f) := by
  cases kind <;> simp [foldKind, foldGraphs_eq, Kind.mapGraphs]

theorem foldStates_eq : ∀ ss : List (State Graph), foldStates f ss = ss.map (·.mapGraphs (fold f))
  | [] => by rw [foldStates, List.map_nil]
  | ⟨_, _, _, _, _, _⟩ :: ss => by
    rw [foldStates, foldStates_eq ss, foldState, foldKind_eq, List.map_cons]
    rfl

/-- The value of a graph is `f` of its start and its states, each graph in them replaced by its value. -/
theorem fold_eq (g : Graph) : fold f g = f g.startAt (g.states.map (·.mapGraphs (fold f))) := by
  cases g
  rw [fold, foldStates_eq]

end Fold

/-! ## Induction -/

theorem sizeOf_lt_of_mem_graphs {kind : Kind Graph} {g : Graph} (h : g ∈ kind.graphs) : sizeOf g < sizeOf kind := by
  cases kind with
  | map spec iterator =>
    rw [List.mem_singleton.1 h, Kind.map.sizeOf_spec]
    omega
  | parallel branches =>
    have := List.sizeOf_lt_of_mem (show g ∈ branches from h)
    rw [Kind.parallel.sizeOf_spec]
    omega
  | _ => cases h

theorem sizeOf_kind_lt (s : State Graph) : sizeOf s.kind < sizeOf s := by
  cases s
  simp only [State.mk.sizeOf_spec]
  omega

/-- A graph inside a state of a graph is smaller than that graph. -/
theorem sizeOf_inner_lt {g inner : Graph} {s : State Graph} (hs : s ∈ g.states) (h : inner ∈ s.kind.graphs) :
    sizeOf inner < sizeOf g := by
  have h₁ := sizeOf_lt_of_mem_graphs h
  have h₂ := sizeOf_kind_lt s
  have h₃ := List.sizeOf_lt_of_mem hs
  cases g
  simp at h₃ ⊢; omega

/-- What passes from the graphs in a graph to the graph holds of every graph. -/
theorem induction {motive : Graph → Prop}
    (step : ∀ g : Graph, (∀ s ∈ g.states, ∀ inner ∈ s.kind.graphs, motive inner) → motive g) (g : Graph) : motive g :=
  step g fun _ hs inner h =>
    have := sizeOf_inner_lt hs h
    induction step inner
termination_by sizeOf g

end Graph

/-- A machine that has been loaded. -/
structure Machine where
  comment : Option String
  root : Graph

end StateBench

import StateBench.Machine.Index

/-!
# Mocks

A mock binds a state to an output or to a failure that takes the place of what the state does. The state is named as a
request names it; the binding is kept under the state's qualified name and reported under the name that was given.

`MockRegistry.register` accepts bindings for Task, Map and Parallel states, and failures for Fail states. Of two
bindings for one state the later stays.
-/

namespace StateBench

/-- What a mocked state comes to. -/
inductive MockOutcome where
  | output (value : Json)
  | failure (error cause : String)
  deriving Repr

structure MockBinding where
  stateName : String
  outcome : MockOutcome
  deriving Repr

/-- Why a mock cannot be used. -/
inductive MockFault where
  | noSuchState
  | failWithOutput
  | typeWithoutMocks (type : StateType)
  deriving DecidableEq, Repr

def MockFault.message : MockFault → String
  | .noSuchState => "no such state in the definition"
  | .failWithOutput => "Fail states can only be mocked with an error"
  | .typeWithoutMocks type => type.name ++ " states do not accept mocks"

/-- The accepted bindings: under a qualified name the name that was given and the outcome. -/
structure MockRegistry where
  bindings : Fields (String × MockOutcome)

/-- Whether states of a type accept an outcome. -/
def MockOutcome.checkFor (outcome : MockOutcome) (type : StateType) : Except MockFault Unit :=
  match type, outcome with
  | .task, _ | .map, _ | .parallel, _ => .ok ()
  | .fail, .failure .. => .ok ()
  | .fail, .output _ => .error .failWithOutput
  | type, _ => .error (.typeWithoutMocks type)

namespace MockRegistry

def empty : MockRegistry := ⟨[]⟩

def isEmpty (registry : MockRegistry) : Bool := registry.bindings.isEmpty

/-- The state that a binding is for. -/
def resolve (m : Machine) (name : String) : Except Rejection Target :=
  (m.resolve name).mapError fun
    | .stateNotFound name => .invalidMock name MockFault.noSuchState.message
    | rejection => rejection

/-- The registry with one more binding. -/
def add (m : Machine) (registry : MockRegistry) (binding : MockBinding) : Except Rejection MockRegistry := do
  let target ← resolve m binding.stateName
  (binding.outcome.checkFor target.state.type).mapError fun fault => .invalidMock binding.stateName fault.message
  return ⟨Fields.insert (StatePath.dotted target.path) (binding.stateName, binding.outcome) registry.bindings⟩

/-- The registry of some bindings; the first that is not accepted is reported. -/
def register (m : Machine) (bindings : List MockBinding) : Except Rejection MockRegistry :=
  bindings.foldlM (add m) empty

/-- The binding for the state at a path: the name it was given under and its outcome. -/
def find? (registry : MockRegistry) (path : StatePath) : Option (String × MockOutcome) :=
  Fields.find? path.dotted registry.bindings

end MockRegistry

end StateBench

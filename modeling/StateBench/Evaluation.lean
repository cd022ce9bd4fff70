import StateBench.Engine
import StateBench.Json.Printer
import StateBench.Mock
import StateBench.Rule.Truth
import StateBench.Settings

/-!
# Evaluating states

A state turns its input into an output and names the state that follows. A walk goes from state to state through one
graph; a Map or a Parallel walks the graphs in it side by side. A mock takes the place of what a Task, a Map, a Parallel
or a Fail does, not of the processing of its input and its output.

* `Evaluator.runState` evaluates one state, given how to walk the graphs in it;
* `Evaluator.walk` goes through a graph, at most so many states long, step by step (`Evaluator.walkStep`);
* `Evaluator.walker` walks a graph from its start, its meaning being that of the graphs in it (`Graph.fold_eq`).
-/

namespace StateBench

/-- An engine and what does not change during an evaluation. -/
structure Evaluator (m : Type → Type) extends Engine m where
  mocks : MockRegistry
  settings : Settings
  /-- The input of the request, which every state can refer to. -/
  executionInput : Json

/-- Where a walk takes place. -/
structure Place where
  /-- The path of the state that owns the graph; the root graph has no owner. -/
  container : StatePath
  trail : List Nat
  /-- Whether the walk belongs to a unit of a Map. -/
  inMap : Bool

/-- The path of a state at a place. -/
def Place.pathOf (place : Place) (name : String) : StatePath := place.container ++ [name]

/-- A graph as something that can be walked from its start to its end. -/
structure Walker (m : Type → Type) where
  startAt : String
  walk : Place → Json → m Json

/-- What comes of evaluating a state. -/
structure StateOutput where
  output : Json
  next : Option String
  deriving Repr

/-- A visited state and the one that follows. -/
structure Step where
  path : StatePath
  type : StateType
  next : Option String
  deriving DecidableEq, Repr

/-- Where a walk has got to. -/
structure Position where
  /-- The name of the state that comes next. -/
  state : String
  input : Json
  /-- The number of states that were visited before. -/
  taken : Nat
  /-- The steps to here, the latest first. -/
  steps : List Step

/-- What comes of a walk. -/
structure WalkResult where
  output : Json
  /-- The state at which a walk would go on; there is one only if a single state was evaluated. -/
  next : Option String
  steps : List Step
  deriving Repr

/-- The document that a state can refer to besides its input. -/
def contextDocument (executionInput : Json) (stateName : String) (item : Option (Nat × Json)) : Json :=
  let map := item.map fun (index, value) =>
    ("Map", Json.record [("Item", Json.record [("Index", .int index), ("Value", value)])])
  .record ([("Execution", .record [("Input", executionInput)]), ("State", .record [("Name", .string stateName)])]
    ++ map.toList)

/-- How a message speaks of a value that is no array. -/
def Json.kindName : Json → String
  | .null => "null"
  | .bool _ => "a boolean"
  | .number _ => "a number"
  | .string _ => "a string"
  | .array _ => "an array"
  | .object _ => "an object"

/-- What a state sees of its input: a Task, a Pass and a Parallel through their parameters, and a Fail all of it. -/
def State.seen {γ : Type} (s : State γ) (input context : Json) : Except AccessError Json :=
  match s.kind with
  | .task _ | .pass _ | .parallel _ => s.flow.effectiveInput input context
  | .fail _ => .ok input
  | _ => s.flow.selectInput input context

theorem State.seen_mapGraphs {γ δ : Type} (f : γ → δ) (s : State γ) (input context : Json) :
    (s.mapGraphs f).seen input context = s.seen input context := by
  unfold seen mapGraphs
  cases s.kind <;> rfl

/-! ## Waits, fails and units -/

/-- Checks that the duration of a Wait is there; nothing is waited for. -/
def WaitSpec.check (input context : Json) (spec : WaitSpec) : Except String Unit :=
  let check (what path wanted : String) (isGood : Json → Bool) : Except String Unit :=
    match RefPath.lookup path input context with
    | .error e => .error e.message
    | .ok none => .error (what ++ " '" ++ path ++ "' selected nothing")
    | .ok (some value) => if isGood value then .ok () else .error (what ++ " '" ++ path ++ "' is not " ++ wanted)
  match spec with
  | .seconds _ => .ok ()
  | .timestamp _ => .ok ()
  | .secondsPath path => check "SecondsPath" path "a non-negative integer" (·.nat?.isSome)
  | .timestampPath path =>
    check "TimestampPath" path "an RFC 3339 timestamp" fun v => (v.string?.bind Timestamp.read?).isSome

/-- A text of a Fail: what a path leads to, another value than a text by its own text, or else the text itself. -/
def failText (path text : Option String) (input context : Json) : Except AccessError String :=
  match path with
  | some p => do
    match ← RefPath.select p input context with
    | .string s => return s
    | value => return value.compact
  | none => .ok (text.getD "")

/-- The cause of the failure of a Map whose items are no array. -/
def MapSpec.notArray (spec : MapSpec) (value : Json) : String :=
  "ItemsPath '" ++ spec.itemsPath ++ "' selected " ++ value.kindName ++ " instead of an array"

/-- The place of a unit of a container that is visited. -/
def unitPlace (visit : Visit) (inMap : Bool) (index : Nat) : Place := ⟨visit.path, visit.trail ++ [index], inMap⟩

namespace Walker

variable {m : Type → Type}

/-- The units of a Map with the given inputs. -/
def mapUnits (iterator : Walker m) (visit : Visit) (inputs : List Json) : List (FanUnit m) :=
  inputs.zipIdx.map fun (input, index) => ⟨toString index, iterator.walk (unitPlace visit true index) input⟩

/-- The units of a Parallel, all with the same input. -/
def branchUnits (branches : List (Walker m)) (visit : Visit) (inMap : Bool) (input : Json) : List (FanUnit m) :=
  branches.zipIdx.map fun (branch, index) => ⟨branch.startAt, branch.walk (unitPlace visit inMap index) input⟩

end Walker

namespace Evaluator

variable {m : Type → Type} [Monad m] {α : Type} (ev : Evaluator m)

def fail (error cause : String) (origin : StatePath) : m α := ev.done (.error (.of error cause origin))

/-- Fails where data was not as it has to be. -/
def orRuntime (origin : StatePath) (result : Except AccessError α) : m α :=
  ev.done (result.mapError fun e => .of Failure.runtime e.message origin)

/-- The context of a state. -/
def context (stateName : String) : Json := contextDocument ev.executionInput stateName none

/-! ## Mocks -/

/-- Looks for the mock of a state. -/
def lookForMock (path : StatePath) (inMap : Bool) : m (Option MockOutcome) := do
  ev.look ⟨path, inMap⟩
  return (ev.mocks.find? path).map (·.2)

/-- What the mock of a state comes to or, if there is none, what the state does. -/
def mockedOr (path : StatePath) (inMap : Bool) (activity : m Json) : m Json := do
  match ← ev.lookForMock path inMap with
  | some (.output value) => return value
  | some (.failure error cause) => ev.fail error cause path
  | none => activity

/-! ## Choices and fails -/

/-- The state that a Choice goes on to. -/
def choose (path : StatePath) (choices : List Choice) (fallback : Option String) (input context : Json) : m String := do
  match ← ev.orRuntime path (Choice.first? input context choices) with
  | some next => return next
  | none =>
    match fallback with
    | some next => return next
    | none => ev.fail Failure.noChoiceMatched "no choice rule matched and no Default is declared" path

/-- What a Fail does: it fails in any case. -/
def runFail (path : StatePath) (spec : FailSpec) (input context : Json) : m α := do
  let error ← ev.orRuntime path (failText spec.errorPath spec.error input context)
  let cause ← ev.orRuntime path (failText spec.causePath spec.cause input context)
  ev.fail error cause path

/-! ## Containers -/

/-- The items of a Map. -/
def mapItems (path : StatePath) (spec : MapSpec) (input context : Json) : m (List Json) := do
  match ← ev.orRuntime path (RefPath.select spec.itemsPath input context) with
  | .array items => return items
  | value => ev.fail Failure.runtime (spec.notArray value) path

/-- The input of the unit for an item. -/
def unitInput (name : String) (spec : MapSpec) (input : Json) (index : Nat) (item : Json) : Except AccessError Json :=
  match spec.itemSelector with
  | none => .ok item
  | some selector => Template.render input (contextDocument ev.executionInput name (some (index, item))) selector

/-- The inputs of the units for some items. -/
def unitInputs (name : String) (spec : MapSpec) (input : Json) (items : List Json) : Except AccessError (List Json) :=
  items.zipIdx.mapM fun (item, index) => ev.unitInput name spec input index item

/-- What a container does with its units. -/
def runUnits (path : StatePath) (declared : Nat) (units : List (FanUnit m)) : m Json := do
  let outputs ← ev.fanOut path (ev.settings.concurrencyFor declared units.length) units
  return .array outputs

/-- What a Map does: its graph is walked for every item. -/
def runMap (visit : Visit) (name : String) (spec : MapSpec) (iterator : Walker m) (input : Json) : m Json := do
  let items ← ev.mapItems visit.path spec input (ev.context name)
  let inputs ← ev.orRuntime visit.path (ev.unitInputs name spec input items)
  ev.runUnits visit.path spec.maxConcurrency (iterator.mapUnits visit inputs)

/-- What a Parallel does: all its graphs are walked with the same input. -/
def runParallel (visit : Visit) (inMap : Bool) (branches : List (Walker m)) (input : Json) : m Json :=
  ev.runUnits visit.path 0 (Walker.branchUnits branches visit inMap input)

/-! ## States -/

/-- The output of a state for what it or its mock comes to. -/
def finish {γ : Type} (path : StatePath) (s : State γ) (input : Json) (activity : m Json) : m StateOutput := do
  let result ← activity
  let output ← ev.orRuntime path (s.flow.output input result (ev.context s.name))
  return ⟨output, s.next⟩

/-- The output of a state that has no result of its own. -/
def passOn {γ : Type} (path : StatePath) (s : State γ) (seen : Json) (next : Option String) : m StateOutput := do
  let output ← ev.orRuntime path (s.flow.selectOutput seen (ev.context s.name))
  return ⟨output, next⟩

/-- What a Task, a Pass, a Map or a Parallel comes to, given what it sees. -/
def produce (place : Place) (taken : Nat) (s : State (Walker m)) (seen : Json) : m Json :=
  let path := place.pathOf s.name
  let visit : Visit := ⟨path, place.trail ++ [taken]⟩
  match s.kind with
  | .task spec => ev.mockedOr path place.inMap (ev.runTask visit spec seen)
  | .map spec iterator => ev.mockedOr path place.inMap (ev.runMap visit s.name spec iterator seen)
  | .parallel branches => ev.mockedOr path place.inMap (ev.runParallel visit place.inMap branches seen)
  | .pass result => return result.getD seen
  | _ => return seen

/-- Evaluates a state, the number of states before it in the walk being given. -/
def runState (place : Place) (taken : Nat) (s : State (Walker m)) (input : Json) : m StateOutput := do
  let path := place.pathOf s.name
  let context := ev.context s.name
  let seen ← ev.orRuntime path (s.seen input context)
  match s.kind with
  | .wait spec =>
    match spec.check seen context with
    | .error cause => ev.fail Failure.runtime cause path
    | .ok () => ev.passOn path s seen s.next
  | .succeed => ev.passOn path s seen none
  | .fail spec =>
    match ← ev.lookForMock path place.inMap with
    | some (.failure error cause) => ev.fail error cause path
    | _ => ev.runFail path spec input context
  | .choice choices fallback =>
    let next ← ev.choose path choices fallback seen context
    ev.passOn path s seen (some next)
  | _ => ev.finish path s input (ev.produce place taken s seen)

/-! ## Walks -/

/-- The failure of a walk that comes to a name that no state of the graph has. -/
def undeclared (place : Place) (name : String) : m α :=
  ev.fail Failure.runtime ("state '" ++ name ++ "' is not declared in this graph") (place.pathOf name)

/-- Where a walk goes after a state: to the next one, or to the end. -/
def goOn (states : List (State (Walker m))) (place : Place) (position : Position) (type : StateType)
    (out : StateOutput) : m (Position ⊕ WalkResult) :=
  let path := place.pathOf position.state
  let steps := ⟨path, type, out.next⟩ :: position.steps
  match out.next with
  | none => return .inr ⟨out.output, none, steps.reverse⟩
  | some next =>
    if (State.named? states next).isSome then return .inl ⟨next, out.output, position.taken + 1, steps⟩
    else ev.fail Failure.runtime ("next state '" ++ next ++ "' is not declared in this graph") path

/-- One step of a walk. -/
def walkStep (states : List (State (Walker m))) (place : Place) (position : Position) : m (Position ⊕ WalkResult) :=
  match State.named? states position.state with
  | none => ev.undeclared place position.state
  | some s => do
    let out ← ev.runState place position.taken s position.input
    ev.goOn states place position s.type out

/-- The failure of a walk that has no steps left. -/
def tooManySteps (place : Place) (position : Position) : Failure :=
  .of Failure.runtime ("exceeded maximum step count (" ++ toString ev.settings.maxSteps ++ ")")
    (place.pathOf position.state)

/-- Walks some states from the one with a name, at most so many as the settings say. -/
def walk (states : List (State (Walker m))) (start : String) (place : Place) (input : Json) : m WalkResult :=
  if (State.named? states start).isSome then
    ev.loop (ev.walkStep states place) (ev.tooManySteps place) ev.settings.maxSteps ⟨start, input, 0, []⟩
  else ev.undeclared place start

/-- A graph as something that can be walked. -/
def walker (g : Graph) : Walker m :=
  g.fold fun startAt states => ⟨startAt, fun place input => do
    let result ← ev.walk states startAt place input
    return result.output⟩

/-- The state, the graphs in it being such as can be walked. -/
def walkable (s : State Graph) : State (Walker m) := s.mapGraphs ev.walker

/-- A graph is walked by going through its states, and that gives the output of the last one. -/
theorem walker_eq (g : Graph) :
    ev.walker g = ⟨g.startAt, fun place input => do
      let result ← ev.walk (g.states.map ev.walkable) g.startAt place input
      return result.output⟩ := by
  unfold walker
  rw [Graph.fold_eq]
  rfl

theorem startAt_walker (g : Graph) : (ev.walker g).startAt = g.startAt := by rw [walker_eq]

/-- Walks a graph from the state with a name. -/
def walkGraph (g : Graph) (start : String) (place : Place) (input : Json) : m WalkResult :=
  ev.walk (g.states.map ev.walkable) start place input

/-- Evaluates one state of a graph. -/
def runSingle (container : StatePath) (s : State Graph) (input : Json) : m WalkResult := do
  let out ← ev.runState ⟨container, [], false⟩ 0 (ev.walkable s) input
  return ⟨out.output, out.next, [⟨container ++ [s.name], s.type, out.next⟩]⟩

end Evaluator

end StateBench

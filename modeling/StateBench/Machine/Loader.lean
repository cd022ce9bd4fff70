import StateBench.Document.Reader
import StateBench.Machine.Checks
import StateBench.Rule.Reader

/-!
# Loading machines

A definition document becomes a machine by reading what its states hold and checking the links. The states of a graph
are built in their order, each before its links are checked, and the first fault is reported with the qualified name of
its state.
-/

namespace StateBench

/-- What is wrong with a state. -/
inductive StateFault where
  | missingResource
  | missingChoices
  | noChoices
  | rule (error : RuleError)
  | badMaxConcurrency
  | notPath (key : String) (value : Json)
  | notTemplate (key : String) (value : Json)
  | secondsNotCount
  | notTimestamp
  | noDuration
  | manyDurations
  | catchNotArray
  | catcherWithoutNext
  | sharedName (name : String)
  deriving Repr

def StateFault.message : StateFault → String
  | .missingResource => "Task state missing 'Resource'"
  | .missingChoices => "Choice state missing 'Choices' array"
  | .noChoices => "'Choices' must contain at least one rule"
  | .rule error => error.message
  | .badMaxConcurrency => "'MaxConcurrency' must be a non-negative integer that fits this platform"
  | .notPath key value => "'" ++ key ++ "' must be a path string, got " ++ value.compact
  | .notTemplate key value => "'" ++ key ++ "' must be a JSON object, got " ++ value.compact
  | .secondsNotCount => "'Seconds' must be a non-negative integer"
  | .notTimestamp => "'Timestamp' must be an RFC 3339 timestamp"
  | .noDuration => "Wait state needs one of Seconds, Timestamp, SecondsPath, TimestampPath"
  | .manyDurations => "Wait state declares more than one duration field"
  | .catchNotArray => "'Catch' must be an array"
  | .catcherWithoutNext => "catcher missing 'Next'"
  | .sharedName name => "state name '" ++ name ++ "' is declared in more than one branch"

/-- Why a definition declares no machine. States are given by their qualified names, and a graph by that of its owner.
-/
inductive LoadError where
  | document (error : DocumentError)
  | state (name : String) (fault : StateFault)
  | badStart (startAt owner : String)
  | badLink (name target : String)
  | cycle (names : List String)
  deriving Repr

def LoadError.message : LoadError → String
  | .document error => error.message
  | .state name fault => "state '" ++ name ++ "': " ++ fault.message
  | .badStart startAt owner =>
    "StartAt '" ++ startAt ++ "' in '" ++ (if owner = "" then "<root>" else owner) ++
      "' does not name a state in that graph"
  | .badLink name target => "state '" ++ name ++ "' references '" ++ target ++ "', which is not in the same graph"
  | .cycle names => "cycle of unconditional 'Next' links: " ++ " -> ".intercalate names

/-- The qualified name of a state of a graph, given that of the graph's owner; the root has the empty one. -/
def qualify (owner name : String) : String := if owner = "" then name else owner ++ "." ++ name

namespace StateDecl

variable {γ : Type}

/-! ## Fields -/

def text? (d : StateDecl γ) (key : String) : Option String := (d.field? key).bind Json.string?

def count? (d : StateDecl γ) (key : String) : Option Nat := (d.field? key).bind Json.nat?

/-- A path, if there is one. -/
def readPath (d : StateDecl γ) (key : String) : Except StateFault (Option String) :=
  match d.field? key with
  | none => .ok none
  | some (.string path) =>
    if RefPath.startsAsPath path then .ok (some path) else .error (.notPath key (.string path))
  | some value => .error (.notPath key value)

/-- A path for which null stands for none, and which is `$` if it is missing. -/
def readFlowPath (d : StateDecl γ) (key : String) : Except StateFault (Option String) :=
  match d.field? key with
  | some .null => .ok none
  | _ => (d.readPath key).map fun path => some (path.getD "$")

/-- A template, if there is one. -/
def readTemplate (d : StateDecl γ) (key : String) : Except StateFault (Option Json) :=
  match d.field? key with
  | none => .ok none
  | some (.object fields) => .ok (some (.object fields))
  | some value => .error (.notTemplate key value)

def readFlow (d : StateDecl γ) : Except StateFault DataFlow := do
  let inputPath ← d.readFlowPath "InputPath"
  let parameters ← d.readTemplate "Parameters"
  let resultSelector ← d.readTemplate "ResultSelector"
  let resultPath ← d.readFlowPath "ResultPath"
  let outputPath ← d.readFlowPath "OutputPath"
  return ⟨inputPath, parameters, resultSelector, resultPath, outputPath⟩

/-! ## Kinds -/

def readTask (d : StateDecl γ) : Except StateFault TaskSpec :=
  match d.text? "Resource" with
  | none => .error .missingResource
  | some resource => .ok ⟨resource, d.count? "TimeoutSeconds", d.count? "HeartbeatSeconds"⟩

def readChoices (d : StateDecl γ) : Except StateFault (List Choice) :=
  match (d.field? "Choices").bind Json.array? with
  | none => .error .missingChoices
  | some [] => .error .noChoices
  | some items => (items.mapM Choice.read).mapError .rule

/-- What a Map says of its units. `Parameters` is the older name of `ItemSelector`. -/
def readMap (d : StateDecl γ) : Except StateFault MapSpec := do
  let itemsPath ← d.readPath "ItemsPath"
  let maxConcurrency ← match d.field? "MaxConcurrency" with
    | none => pure 0
    | some value =>
      match value.nat? with
      | some n => pure n
      | none => throw .badMaxConcurrency
  return ⟨itemsPath.getD "$", (d.field? "ItemSelector").or (d.field? "Parameters"), maxConcurrency⟩

def readSeconds (d : StateDecl γ) : Except StateFault (Option WaitSpec) :=
  match d.field? "Seconds" with
  | none => .ok none
  | some value =>
    match value.nat? with
    | some n => .ok (some (.seconds n))
    | none => .error .secondsNotCount

def readTimestamp (d : StateDecl γ) : Except StateFault (Option WaitSpec) :=
  match d.field? "Timestamp" with
  | none => .ok none
  | some value =>
    match value.string? with
    | some text => if (Timestamp.read? text).isSome then .ok (some (.timestamp text)) else .error .notTimestamp
    | none => .error .notTimestamp

/-- The one duration of a Wait. -/
def readWait (d : StateDecl γ) : Except StateFault WaitSpec := do
  let seconds ← d.readSeconds
  let timestamp ← d.readTimestamp
  let secondsPath ← d.readPath "SecondsPath"
  let timestampPath ← d.readPath "TimestampPath"
  match seconds.toList ++ timestamp.toList ++ (secondsPath.map WaitSpec.secondsPath).toList ++
      (timestampPath.map WaitSpec.timestampPath).toList with
  | [] => throw .noDuration
  | [spec] => return spec
  | _ => throw .manyDurations

def readFail (d : StateDecl γ) : FailSpec :=
  ⟨d.text? "Error", d.text? "Cause", d.text? "ErrorPath", d.text? "CausePath"⟩

/-! ## Retriers and catchers -/

def readRetry (d : StateDecl γ) : List Json := ((d.field? "Retry").bind Json.array?).getD []

def readCatcher (j : Json) : Except StateFault Catcher :=
  match (j.field? "Next").bind Json.string? with
  | none => .error .catcherWithoutNext
  | some next => .ok ⟨(((j.field? "ErrorEquals").bind Json.array?).getD []).filterMap Json.string?, next⟩

def readCatch (d : StateDecl γ) : Except StateFault (List Catcher) :=
  match d.field? "Catch" with
  | none => .ok []
  | some value =>
    match value.array? with
    | none => .error .catchNotArray
    | some items => items.mapM readCatcher

end StateDecl

/-! ## States and graphs -/

/-- Builds a graph, given the qualified name of its owner. -/
abbrev GraphBuilder := String → Except LoadError Graph

namespace StateDecl

/-- What a state does; the graphs in it are built under its qualified name. -/
def buildKind (d : StateDecl GraphBuilder) (name : String) : Except LoadError (Kind Graph) :=
  match d.kind with
  | .task => (d.readTask.map Kind.task).mapError (.state name)
  | .choice => (d.readChoices.map (Kind.choice · (d.text? "Default"))).mapError (.state name)
  | .map iterator => do
    let spec ← d.readMap.mapError (.state name)
    let graph ← iterator name
    return .map spec graph
  | .parallel branches => do
    let graphs ← branches.mapM (· name)
    match Graph.sharedName? graphs with
    | some shared => throw (.state name (.sharedName shared))
    | none => return .parallel graphs
  | .pass => .ok (.pass (d.field? "Result"))
  | .wait => (d.readWait.map Kind.wait).mapError (.state name)
  | .succeed => .ok .succeed
  | .fail => .ok (.fail d.readFail)

/-- `Parameters` of a Map make its units and do not belong to its own processing. -/
def ownFlow (kind : Kind Graph) (flow : DataFlow) : DataFlow :=
  match kind with
  | .map .. => { flow with parameters := none }
  | _ => flow

/-- The state that a declaration states, given the qualified name of the graph's owner. -/
def build (d : StateDecl GraphBuilder) (owner : String) : Except LoadError (State Graph) := do
  let name := qualify owner d.name
  let flow ← d.readFlow.mapError (.state name)
  let kind ← d.buildKind name
  let catchers ← d.readCatch.mapError (.state name)
  return ⟨d.name, kind, d.next, ownFlow kind flow, d.readRetry, catchers⟩

end StateDecl

namespace Graph

/-- Checks the start and the links of a graph. -/
def checkLinks (owner : String) (g : Graph) : Except LoadError Graph :=
  if (g.get? g.startAt).isNone then .error (.badStart g.startAt owner)
  else
    match State.danglingLink? g.states with
    | some (name, target) => .error (.badLink (qualify owner name) target)
    | none =>
      match State.cycle? g.states with
      | some names => .error (.cycle (names.map (qualify owner)))
      | none => .ok g

/-- The graph that a declaration states. -/
def ofDecl (decl : GraphDecl) : GraphBuilder :=
  decl.fold fun startAt states owner => do
    let states ← states.mapM (·.build owner)
    checkLinks owner ⟨startAt, states⟩

end Graph

namespace Machine

def ofDocument (doc : Document) : Except LoadError Machine :=
  (Graph.ofDecl doc.graph "").map (⟨doc.comment, ·⟩)

/-- The machine that a definition declares; the definition may be given as its text. -/
def load (definition : Json) : Except LoadError Machine := do
  let doc ← (match definition with
    | .string text => Document.read text
    | j => Document.ofJson j).mapError .document
  ofDocument doc

end Machine

end StateBench

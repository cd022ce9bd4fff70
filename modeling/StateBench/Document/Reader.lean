import StateBench.Document
import StateBench.Json.Reader

/-!
# Reading definition documents

Only the shape is read here: names, types, transitions and nested graphs. States are read in ascending order of their
names, a state before the graphs in it, and the first fault is reported with the names of the states around it.
Whether transitions lead to states is not looked at.
-/

namespace StateBench

/-- What a graph itself can lack. -/
inductive HeaderFault where
  | missingField (name : String)
  | noStates
  deriving DecidableEq, Repr

/-- What is wrong with the declaration of a state. -/
inductive DeclFault where
  | notObject
  | missingType
  | unknownType (name : String)
  | nextNotString
  | endNotBool
  | transitionNotAllowed (type : StateType)
  | twoTransitions
  | noTransition
  | missingBranches
  | noBranches
  | missingProcessor
  /-- A graph of the state has a fault of its own. -/
  | header (fault : HeaderFault)
  deriving DecidableEq, Repr

/-- Why a document declares no graph: the graph itself is at fault, or the state at a path in it. -/
inductive GraphFault where
  | header (fault : HeaderFault)
  | state (path : List String) (fault : DeclFault)
  deriving DecidableEq, Repr

/-- Why something is no definition document. -/
inductive DocumentError where
  | notJson (error : ReadError)
  | notObject
  | graph (fault : GraphFault)
  deriving DecidableEq, Repr

def HeaderFault.message : HeaderFault → String
  | .missingField name => "definition missing required field: '" ++ name ++ "'"
  | .noStates => "invalid definition: 'States' must declare at least one state"

def DeclFault.message : DeclFault → String
  | .notObject => "state must be a JSON object"
  | .missingType => "missing 'Type' field"
  | .unknownType name => "unknown state type '" ++ name ++ "'"
  | .nextNotString => "'Next' must be a string"
  | .endNotBool => "'End' must be a boolean"
  | .transitionNotAllowed type => type.name ++ " states cannot declare 'Next' or 'End'"
  | .twoTransitions => "'Next' and 'End' are mutually exclusive"
  | .noTransition => "state must declare either 'Next' or 'End'"
  | .missingBranches => "Parallel state missing 'Branches' array"
  | .noBranches => "Parallel state must declare at least one branch"
  | .missingProcessor => "Map state missing 'ItemProcessor'"
  | .header fault => fault.message

namespace GraphFault

def message : GraphFault → String
  | .header fault => fault.message
  | .state path fault => "state '" ++ ".".intercalate path ++ "': " ++ fault.message

/-- A fault of a graph as a fault of the state that owns the graph. -/
def within (container : String) : GraphFault → GraphFault
  | .header fault => .state [container] (.header fault)
  | .state path fault => .state (container :: path) fault

end GraphFault

def DocumentError.message : DocumentError → String
  | .notJson error => "invalid definition: not valid JSON: " ++ error.message
  | .notObject => "invalid definition: definition must be a JSON object"
  | .graph fault => fault.message

/-! ## States -/

namespace StateDecl

/-- The keys of a state that are read here. -/
def structuralKeys : List String := ["Type", "Next", "End", "Comment", "Branches", "ItemProcessor", "Iterator"]

/-- The type and the transition of a state. -/
structure Head where
  type : StateType
  next : Option String
  isLast : Bool

def readType (fields : Fields Json) : Except DeclFault StateType :=
  match (Fields.find? "Type" fields).bind Json.string? with
  | none => .error .missingType
  | some name =>
    match StateType.ofName? name with
    | none => .error (.unknownType name)
    | some type => .ok type

def readNext (fields : Fields Json) : Except DeclFault (Option String) :=
  match Fields.find? "Next" fields with
  | none => .ok none
  | some (.string next) => .ok (some next)
  | some _ => .error .nextNotString

def readEnd (fields : Fields Json) : Except DeclFault Bool :=
  match Fields.find? "End" fields with
  | none => .ok false
  | some (.bool b) => .ok b
  | some _ => .error .endNotBool

/-- States that go on by their type declare no transition, all others exactly one. -/
def checkTransition (head : Head) : Except DeclFault Head :=
  match head.type.hasTransition, head.next.isSome, head.isLast with
  | false, false, false => .ok head
  | false, _, _ => .error (.transitionNotAllowed head.type)
  | true, true, true => .error .twoTransitions
  | true, false, false => .error .noTransition
  | true, _, _ => .ok head

def readHead (fields : Fields Json) : Except DeclFault Head := do
  let type ← readType fields
  let next ← readNext fields
  let isLast ← readEnd fields
  checkTransition ⟨type, next, isLast⟩

/-- A state with a head and its graphs. -/
def ofHead {γ : Type} (name : String) (fields : Fields Json) (head : Head) (kind : DeclKind γ) : StateDecl γ :=
  ⟨name, head.next, head.isLast, (Fields.find? "Comment" fields).bind Json.string?, kind,
    fields.filter fun field => !structuralKeys.contains field.1⟩

end StateDecl

/-! ## Graphs -/

theorem Json.sizeOf_or_field_lt {fields : Fields Json} {first second : String} {value : Json}
    (h : (Fields.find? first fields).or (Fields.find? second fields) = some value) : sizeOf value < sizeOf fields := by
  cases h₁ : Fields.find? first fields with
  | some v =>
    rw [h₁, Option.some_or] at h
    cases h
    exact Json.sizeOf_find?_lt h₁
  | none =>
    rw [h₁, Option.none_or] at h
    exact Json.sizeOf_find?_lt h

namespace GraphDecl

mutual
/-- The graph that a document declares. -/
def read (j : Json) : Except GraphFault GraphDecl :=
  match (j.field? "StartAt").bind Json.string? with
  | none => .error (.header (.missingField "StartAt"))
  | some startAt =>
    match _h : j.field? "States" with
    | some (.object []) => .error (.header .noStates)
    | some (.object fields) => (readStates fields).map (⟨startAt, ·⟩)
    | _ => .error (.header (.missingField "States"))
termination_by (sizeOf j, 0)
decreasing_by
  have := Json.sizeOf_field?_lt _h
  simp at this ⊢; omega

def readStates (fields : List (String × Json)) : Except GraphFault (List (StateDecl GraphDecl)) :=
  match fields with
  | [] => .ok []
  | (name, j) :: rest => do
    let state ← readState name j
    let states ← readStates rest
    return state :: states
termination_by (sizeOf fields, 0)

def readState (name : String) (j : Json) : Except GraphFault (StateDecl GraphDecl) :=
  match j with
  | .object fields => do
    let head ← (StateDecl.readHead fields).mapError (.state [name])
    let kind ← readKind name head.type fields
    return .ofHead name fields head kind
  | _ => .error (.state [name] .notObject)
termination_by (sizeOf j, 0)

/-- The graphs of a state. -/
def readKind (name : String) (type : StateType) (fields : Fields Json) : Except GraphFault (DeclKind GraphDecl) :=
  match type with
  | .task => .ok .task
  | .choice => .ok .choice
  | .pass => .ok .pass
  | .wait => .ok .wait
  | .succeed => .ok .succeed
  | .fail => .ok .fail
  | .parallel =>
    match _h : Fields.find? "Branches" fields with
    | some (.array []) => .error (.state [name] .noBranches)
    | some (.array items) => ((readAll items).map .parallel).mapError (·.within name)
    | _ => .error (.state [name] .missingBranches)
  | .map =>
    match _h : (Fields.find? "ItemProcessor" fields).or (Fields.find? "Iterator" fields) with
    | some processor => ((read processor).map .map).mapError (·.within name)
    | none => .error (.state [name] .missingProcessor)
termination_by (sizeOf fields, 1)
decreasing_by
  · have := Json.sizeOf_find?_lt _h
    simp at this ⊢; omega
  · exact Prod.Lex.left _ _ (Json.sizeOf_or_field_lt _h)

def readAll (items : List Json) : Except GraphFault (List GraphDecl) :=
  match items with
  | [] => .ok []
  | j :: rest => do
    let graph ← read j
    let graphs ← readAll rest
    return graph :: graphs
termination_by (sizeOf items, 0)
end

end GraphDecl

namespace Document

/-- The definition document that a document states. -/
def ofJson (j : Json) : Except DocumentError Document :=
  match j with
  | .object _ =>
    match GraphDecl.read j with
    | .error fault => .error (.graph fault)
    | .ok graph =>
      .ok ⟨(j.field? "Comment").bind Json.string?, (j.field? "Version").bind Json.string?,
        (j.field? "TimeoutSeconds").bind Json.nat?, graph⟩
  | _ => .error .notObject

/-- The definition document with the given text. -/
def read (text : String) : Except DocumentError Document := do
  let j ← (Json.read text).mapError .notJson
  ofJson j

end Document

end StateBench

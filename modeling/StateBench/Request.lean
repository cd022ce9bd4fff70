import StateBench.Json.Decode
import StateBench.Json.Reader
import StateBench.Mock
import StateBench.Text.Blank

/-!
# Requests

A request says which state of a definition to evaluate, on which input, with which mocks, and whether to stop after it.
On the wire the definition, the input and the outputs of mocks may be given as the texts of documents.

* `Request.decode`, `Request.toJson`: a request as a document, its values taken as they are;
* `Request.ofWire`: a request as it is sent, texts of documents being read;
* `Request.bindings`: the bindings of its mocks.
-/

namespace StateBench

/-- How far an evaluation goes. -/
inductive Mode where
  /-- Only the state itself is evaluated. -/
  | state
  /-- A walk goes from the state on through its graph. -/
  | subgraph
  deriving DecidableEq, Repr

structure MockError where
  error : String
  cause : String
  deriving DecidableEq, Repr

/-- A mock as a request states it. -/
structure MockConfiguration where
  stateName : String
  mockOutput : Option Json
  mockError : Option MockError
  deriving Repr

structure Request where
  definition : Json
  input : Json
  stateName : String
  mocks : List MockConfiguration
  mode : Mode
  deriving Repr

/-! ## Making requests -/

namespace MockConfiguration

def output (stateName : String) (value : Json) : MockConfiguration := ⟨stateName, some value, none⟩

def error (stateName error cause : String) : MockConfiguration := ⟨stateName, none, some ⟨error, cause⟩⟩

/-- The binding that a mock states; it states just one outcome. -/
def toBinding (mock : MockConfiguration) : Except Rejection MockBinding :=
  match mock.mockOutput, mock.mockError with
  | some value, none => .ok ⟨mock.stateName, .output value⟩
  | none, some e => .ok ⟨mock.stateName, .failure e.error e.cause⟩
  | some _, some _ => .error (.invalidMock mock.stateName "mockOutput and mockError are mutually exclusive")
  | none, none => .error (.invalidMock mock.stateName "one of mockOutput or mockError is required")

end MockConfiguration

namespace Request

/-- A request for one state, without mocks. -/
def forState (definition input : Json) (stateName : String) : Request := ⟨definition, input, stateName, [], .state⟩

def withMock (request : Request) (mock : MockConfiguration) : Request :=
  { request with mocks := request.mocks ++ [mock] }

def withMode (request : Request) (mode : Mode) : Request := { request with mode }

def bindings (request : Request) : Except Rejection (List MockBinding) :=
  request.mocks.mapM MockConfiguration.toBinding

end Request

/-! ## Documents of requests -/

namespace Mode

def name : Mode → String
  | .state => "state"
  | .subgraph => "subgraph"

def ofName (name : String) : Except DecodeError Mode :=
  match name with
  | "state" => .ok .state
  | "subgraph" => .ok .subgraph
  | _ => .error (.unknownVariant name "`state` or `subgraph`")

/-- A mode is its name, or an object with its name as the only key and null. -/
def decode (j : Json) : Except DecodeError Mode :=
  match j with
  | .string name => ofName name
  | .object [(name, value)] => do
    let mode ← ofName name
    match value with
    | .null => return mode
    | _ => throw (.wrongType value "unit")
  | .object _ => .error (.wrongValue j "map with a single key")
  | _ => .error (.wrongType j "string or map")

end Mode

namespace MockError

def shape : Decode.Shape := ⟨"MockError", 2⟩

def decode : Json → Except DecodeError MockError :=
  Decode.record shape
    (fun fields => do
      let cause ← Decode.optional Decode.text (Fields.find? "cause" fields)
      let error ← Decode.optional Decode.text (Fields.find? "error" fields)
      return ⟨← Decode.required "error" error, cause.getD ""⟩)
    (fun items => do
      let error ← Decode.text (← Decode.item shape items 0)
      let cause ← Decode.optional Decode.text items[1]?
      return ⟨error, cause.getD ""⟩)

def toJson (e : MockError) : Json := .record [("error", .string e.error), ("cause", .string e.cause)]

end MockError

namespace MockConfiguration

def shape : Decode.Shape := ⟨"MockConfiguration", 3⟩

/-- An output that is there and not null. -/
def givenOutput : Option Json → Option Json
  | some .null => none
  | value => value

def decode : Json → Except DecodeError MockConfiguration :=
  Decode.record shape
    (fun fields => do
      let mockError ← Decode.optional (Decode.nullable MockError.decode) (Fields.find? "mockError" fields)
      let mockOutput := givenOutput (Fields.find? "mockOutput" fields)
      let stateName ← Decode.optional Decode.text (Fields.find? "stateName" fields)
      return ⟨← Decode.required "stateName" stateName, mockOutput, mockError.join⟩)
    (fun items => do
      let stateName ← Decode.text (← Decode.item shape items 0)
      let mockOutput := givenOutput items[1]?
      let mockError ← Decode.optional (Decode.nullable MockError.decode) items[2]?
      return ⟨stateName, mockOutput, mockError.join⟩)

def toJson (mock : MockConfiguration) : Json :=
  .record ([("stateName", .string mock.stateName)] ++ (mock.mockOutput.map fun v => ("mockOutput", v)).toList ++
    (mock.mockError.map fun e => ("mockError", e.toJson)).toList)

end MockConfiguration

namespace Request

def shape : Decode.Shape := ⟨"EvaluationRequest", 5⟩

/-- The request that a document states, its values taken as they are. -/
def decode : Json → Except DecodeError Request :=
  Decode.record shape
    (fun fields => do
      let mocks ← Decode.optional (Decode.list MockConfiguration.decode) (Fields.find? "mockConfigurations" fields)
      let mode ← Decode.optional Mode.decode (Fields.find? "mode" fields)
      let stateName ← Decode.optional Decode.text (Fields.find? "stateName" fields)
      let definition ← Decode.required "definition" (Fields.find? "definition" fields)
      let stateName ← Decode.required "stateName" stateName
      return ⟨definition, (Fields.find? "input" fields).getD .emptyObject, stateName, mocks.getD [],
        mode.getD .state⟩)
    (fun items => do
      let definition ← Decode.item shape items 0
      let stateName ← Decode.text (← Decode.item shape items 2)
      let mocks ← Decode.optional (Decode.list MockConfiguration.decode) items[3]?
      let mode ← Decode.optional Mode.decode items[4]?
      return ⟨definition, items[1]?.getD .emptyObject, stateName, mocks.getD [], mode.getD .state⟩)

def toJson (request : Request) : Json :=
  .record [("definition", request.definition), ("input", request.input), ("stateName", .string request.stateName),
    ("mockConfigurations", .array (request.mocks.map MockConfiguration.toJson)), ("mode", .string request.mode.name)]

/-! ## Requests on the wire -/

/-- The document that a value on the wire stands for: a text stands for what it says. -/
def readDocument (j : Json) : Except ReadError Json :=
  match j with
  | .string text => Json.read text
  | _ => .ok j

/-- The message for a text that is no document. -/
def notDocument (name : String) (e : ReadError) : String :=
  name ++ " is not a valid serialized document: " ++ e.message

def readMock (mock : MockConfiguration) : Except Rejection MockConfiguration :=
  match mock.mockOutput with
  | none => .ok mock
  | some output =>
    match readDocument output with
    | .ok value => .ok { mock with mockOutput := some value }
    | .error e => .error (.invalidMock mock.stateName (notDocument "mockOutput" e))

/-- The request that is sent as a document. -/
def ofWire (j : Json) : Except Rejection Request := do
  let request ← (decode j).mapError fun e => .malformedRequest e.message
  if (Text.trim request.stateName.toList).isEmpty then throw (.malformedRequest "stateName must not be empty")
  let definition ← (readDocument request.definition).mapError fun e =>
    .malformedDefinition (notDocument "definition" e)
  let input ← (readDocument request.input).mapError fun e => .malformedRequest (notDocument "input" e)
  let mocks ← request.mocks.mapM readMock
  return { request with definition, input, mocks }

end Request

end StateBench

import StateBench.Template

/-!
# Input and output processing of a state

A state sees a part of its raw input, perhaps filled into a template. Its result, perhaps filled into another, is put
into the raw input, and a part of that is its output. A path that is none stands for null: for an empty object, or, for
the result, for leaving the raw input as it is.
-/

namespace StateBench

/-- The processing fields of a state. -/
structure DataFlow where
  inputPath : Option String
  parameters : Option Json
  resultSelector : Option Json
  resultPath : Option String
  outputPath : Option String
  deriving Repr, Inhabited

namespace DataFlow

/-- Everything goes through as it is, and the result is the output. -/
def standard : DataFlow := ⟨some "$", none, none, some "$", some "$"⟩

/-- The part of the raw input that the state sees. -/
def selectInput (flow : DataFlow) (raw context : Json) : Except AccessError Json :=
  match flow.inputPath with
  | none => .ok .emptyObject
  | some path => RefPath.select path raw context

/-- What the state works on. -/
def effectiveInput (flow : DataFlow) (raw context : Json) : Except AccessError Json := do
  let selected ← flow.selectInput raw context
  match flow.parameters with
  | some template => Template.render selected context template
  | none => return selected

/-- The part of the merged document that goes on. -/
def selectOutput (flow : DataFlow) (merged context : Json) : Except AccessError Json :=
  match flow.outputPath with
  | none => .ok .emptyObject
  | some path => if path = "$" then .ok merged else RefPath.select path merged context

/-- The output for a result. The result is put into the raw input, not into the effective one. -/
def output (flow : DataFlow) (raw result context : Json) : Except AccessError Json := do
  let result ← match flow.resultSelector with
    | some template => Template.render result context template
    | none => pure result
  let merged ← match flow.resultPath with
    | some path => RefPath.write raw path result
    | none => pure raw
  flow.selectOutput merged context

end DataFlow

end StateBench

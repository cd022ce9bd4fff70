import StateBench.Path.Access
import StateBench.Pattern
import StateBench.Rule
import StateBench.Timestamp

/-!
# The truth of choice rules

A comparison is false where one of its paths leads to nothing or one of its values is of another kind; only a text that
is no path is an error. Combinations look at their rules from the left and stop at the first that decides.
-/

namespace StateBench

/-- How two values of a kind are ordered; none if one is of another kind. -/
def ValueKind.order? (kind : ValueKind) (left right : Json) : Option Ordering :=
  match kind with
  | .string => do return compare (← left.string?) (← right.string?)
  | .numeric => do return compare (← left.number?).toDouble.order (← right.number?).toDouble.order
  | .boolean => do return compare (← left.bool?) (← right.bool?)
  | .timestamp => do
    return compare (← left.string?.bind Timestamp.read?).instant (← right.string?.bind Timestamp.read?).instant

/-- Whether an order of two values satisfies a relation. -/
def Relation.accepts : Relation → Ordering → Bool
  | .equals, o => o == .eq
  | .lessThan, o => o == .lt
  | .greaterThan, o => o == .gt
  | .lessThanEquals, o => o != .gt
  | .greaterThanEquals, o => o != .lt
  | .matches, _ => false

/-- Whether a relation of a kind holds between two values. -/
def Relation.holds (relation : Relation) (kind : ValueKind) (left right : Json) : Bool :=
  match relation with
  | .matches =>
    match left.string?, right.string? with
    | some text, some pattern => Pattern.isMatch pattern text
    | _, _ => false
  | _ => (kind.order? left right).any relation.accepts

/-- Whether what a path leads to passes a test. -/
def TypeTest.passes : TypeTest → Option Json → Bool
  | .isPresent, value => value.isSome
  | .isNull, some .null => true
  | .isNumeric, some (.number _) => true
  | .isString, some (.string _) => true
  | .isBoolean, some (.bool _) => true
  | .isTimestamp, some (.string text) => (Timestamp.read? text).isSome
  | _, _ => false

/-- The value of an operand, if there is one. -/
def Operand.value (input context : Json) : Operand → Except AccessError (Option Json)
  | .literal value => .ok (some value)
  | .path p => RefPath.lookup p input context

namespace Rule

mutual
/-- Whether a rule holds of an input and a context. -/
def holds (input context : Json) : Rule → Except AccessError Bool
  | .and rules => allHold input context rules
  | .or rules => someHolds input context rules
  | .not rule => (holds input context rule).map (!·)
  | .test subject typeTest expected =>
    (RefPath.lookup subject input context).map fun value => typeTest.passes value == expected
  | .compare subject kind relation operand => do
    match ← RefPath.lookup subject input context with
    | none => return false
    | some left =>
      match ← operand.value input context with
      | none => return false
      | some right => return relation.holds kind left right

/-- Whether all rules hold; those after the first that does not are not looked at. -/
def allHold (input context : Json) : List Rule → Except AccessError Bool
  | [] => .ok true
  | rule :: rules => do
    if ← holds input context rule then allHold input context rules else return false

/-- Whether some rule holds; those after the first that does are not looked at. -/
def someHolds (input context : Json) : List Rule → Except AccessError Bool
  | [] => .ok false
  | rule :: rules => do
    if ← holds input context rule then return true else someHolds input context rules
end

end Rule

/-- The state that the first choice whose rule holds leads to. -/
def Choice.first? (input context : Json) : List Choice → Except AccessError (Option String)
  | [] => .ok none
  | choice :: choices => do
    if ← choice.rule.holds input context then return some choice.next else first? input context choices

end StateBench

import StateBench.Json.Printer
import StateBench.Path
import StateBench.Rule
import StateBench.Timestamp

/-!
# Reading choice rules

An object with `And`, `Or` or `Not` is a combination, whatever else it holds; any other has a variable and one operator.
The name of an operator is a kind of values, a relation and, perhaps, `Path`.
-/

namespace StateBench

/-- Why a document is no rule, or no choice. -/
inductive RuleError where
  | notObject
  | missingNext
  | nestedNext (key : String)
  | notArray (key : String)
  | noRules (key : String)
  | missingVariable
  | variableNotPath (subject : String)
  | noOperator (subject : String)
  | manyOperators (subject first second : String)
  | notBoolean (key : String)
  | unknownOperator (key : String)
  | notPath (key : String)
  | wrongType (key : String) (operand : Json)
  deriving Repr

def RuleError.message : RuleError → String
  | .notObject => "choice rule must be a JSON object"
  | .missingNext => "choice rule missing 'Next'"
  | .nestedNext key => "nested rule under '" ++ key ++ "' cannot declare 'Next'"
  | .notArray key => "'" ++ key ++ "' must be an array of rules"
  | .noRules key => "'" ++ key ++ "' must contain at least one rule"
  | .missingVariable => "choice rule missing 'Variable'"
  | .variableNotPath subject => "'Variable' must be a path, got '" ++ subject ++ "'"
  | .noOperator subject => "choice rule on '" ++ subject ++ "' has no comparison operator"
  | .manyOperators subject first second =>
    "choice rule on '" ++ subject ++ "' has more than one operator ('" ++ first ++ "', '" ++ second ++ "')"
  | .notBoolean key => "'" ++ key ++ "' expects a boolean"
  | .unknownOperator key => "unknown comparison operator '" ++ key ++ "'"
  | .notPath key => "'" ++ key ++ "' expects a path string"
  | .wrongType key operand => "'" ++ key ++ "' has an operand of the wrong type: " ++ operand.compact

/-! ## Operators -/

def TypeTest.ofName? : String → Option TypeTest
  | "IsNull" => some .isNull
  | "IsPresent" => some .isPresent
  | "IsNumeric" => some .isNumeric
  | "IsString" => some .isString
  | "IsBoolean" => some .isBoolean
  | "IsTimestamp" => some .isTimestamp
  | _ => none

def Relation.ofName? : String → Option Relation
  | "Equals" => some .equals
  | "LessThan" => some .lessThan
  | "GreaterThan" => some .greaterThan
  | "LessThanEquals" => some .lessThanEquals
  | "GreaterThanEquals" => some .greaterThanEquals
  | "Matches" => some .matches
  | _ => none

/-- A comparison without its two sides. -/
structure Operator where
  kind : ValueKind
  relation : Relation
  /-- Whether the right side is a path. -/
  againstPath : Bool
  deriving DecidableEq, Repr

namespace Operator

/-- The text after a beginning. -/
def after? (beginning s : List Char) : Option (List Char) :=
  if beginning.isPrefixOf s then some (s.drop beginning.length) else none

/-- The text before an ending. -/
def before? (ending s : List Char) : Option (List Char) :=
  (after? ending.reverse s.reverse).map List.reverse

/-- The kind that a name starts with, and the rest of the name. -/
def kind? (name : List Char) : Option (ValueKind × List Char) :=
  (((after? "String".toList name).map (ValueKind.string, ·)).or
    ((after? "Numeric".toList name).map (ValueKind.numeric, ·))).or
  (((after? "Boolean".toList name).map (ValueKind.boolean, ·)).or
    ((after? "Timestamp".toList name).map (ValueKind.timestamp, ·)))

/-- Only texts match patterns, and only patterns in the rule itself; truth values are not ordered. -/
def isDefined (op : Operator) : Bool :=
  match op.kind, op.relation with
  | .string, .matches => !op.againstPath
  | _, .matches => false
  | .boolean, relation => relation = .equals
  | _, _ => true

/-- The operator with the given name. -/
def ofName? (name : String) : Option Operator := do
  let base := before? "Path".toList name.toList
  let (kind, rest) ← kind? (base.getD name.toList)
  let relation ← Relation.ofName? (String.ofList rest)
  let op : Operator := ⟨kind, relation, base.isSome⟩
  if op.isDefined then some op else none

end Operator

/-! ## Rules -/

/-- Whether a document is a value of a kind. -/
def ValueKind.admits (kind : ValueKind) (value : Json) : Bool :=
  match kind with
  | .string => value.string?.isSome
  | .numeric => value.number?.isSome
  | .boolean => value.bool?.isSome
  | .timestamp => (value.string?.bind Timestamp.read?).isSome

namespace Rule

/-- The keys of a rule that are no operators. -/
def plainKeys : List String := ["Variable", "Next", "Comment"]

/-- The operand of an operator. -/
def readOperand (key : String) (op : Operator) (operand : Json) : Except RuleError Operand :=
  if op.againstPath then
    match operand.string? with
    | some path => if RefPath.startsAsPath path then .ok (.path path) else .error (.notPath key)
    | none => .error (.notPath key)
  else if op.kind.admits operand then .ok (.literal operand)
  else .error (.wrongType key operand)

/-- A rule on one variable: a type test or a comparison. -/
def readCondition (subject key : String) (operand : Json) : Except RuleError Rule :=
  match TypeTest.ofName? key with
  | some typeTest =>
    match operand.bool? with
    | some expected => .ok (.test subject typeTest expected)
    | none => .error (.notBoolean key)
  | none =>
    match Operator.ofName? key with
    | some op => (readOperand key op operand).map (.compare subject op.kind op.relation)
    | none => .error (.unknownOperator key)

/-- A rule that is no combination. -/
def readSimple (fields : Fields Json) : Except RuleError Rule :=
  match (Fields.find? "Variable" fields).bind Json.string? with
  | none => .error .missingVariable
  | some subject =>
    if RefPath.startsAsPath subject then
      match fields.filter (fun field => !plainKeys.contains field.1) with
      | [] => .error (.noOperator subject)
      | [(key, operand)] => readCondition subject key operand
      | (first, _) :: (second, _) :: _ => .error (.manyOperators subject first second)
    else .error (.variableNotPath subject)

mutual
/-- The rule that a document states. -/
def read (j : Json) : Except RuleError Rule :=
  match j with
  | .object fields =>
    match _h : Fields.find? "And" fields with
    | some rules => (readList "And" rules).map .and
    | none =>
      match _h : Fields.find? "Or" fields with
      | some rules => (readList "Or" rules).map .or
      | none =>
        match _h : Fields.find? "Not" fields with
        | some inner =>
          if (inner.field? "Next").isSome then .error (.nestedNext "Not") else (read inner).map .not
        | none => readSimple fields
  | _ => .error .notObject
termination_by (sizeOf j, 0)
decreasing_by
  all_goals
    have := Json.sizeOf_find?_lt (by assumption)
    simp; omega

/-- The rules under `And` or `Or`. -/
def readList (key : String) (j : Json) : Except RuleError (List Rule) :=
  match j with
  | .array [] => .error (.noRules key)
  | .array items => readItems key items
  | _ => .error (.notArray key)
termination_by (sizeOf j, 1)

def readItems (key : String) (items : List Json) : Except RuleError (List Rule) :=
  match items with
  | [] => .ok []
  | item :: items => do
    if (item.field? "Next").isSome then throw (.nestedNext key)
    let rule ← read item
    let rules ← readItems key items
    return rule :: rules
termination_by (sizeOf items, 0)
end

end Rule

/-- The choice that a document states: a rule with `Next`. -/
def Choice.read (j : Json) : Except RuleError Choice :=
  match (j.field? "Next").bind Json.string? with
  | none => .error .missingNext
  | some next => (Rule.read j).map (⟨·, next⟩)

end StateBench

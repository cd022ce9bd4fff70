import StateBench.Json

/-!
# Choice rules

A rule is a truth value of two documents, the input and the context: a comparison of what a path leads to, a test of its
type, or a combination of rules.
-/

namespace StateBench

/-- The kind of values that a comparison is about. -/
inductive ValueKind where
  | string
  | numeric
  | boolean
  | timestamp
  deriving DecidableEq, Repr

inductive Relation where
  | equals
  | lessThan
  | greaterThan
  | lessThanEquals
  | greaterThanEquals
  /-- A text matches a pattern with wildcards. -/
  | matches
  deriving DecidableEq, Repr

/-- What a value is compared with. -/
inductive Operand where
  | literal (value : Json)
  | path (path : String)
  deriving Repr

inductive TypeTest where
  | isNull
  | isPresent
  | isNumeric
  | isString
  | isBoolean
  | isTimestamp
  deriving DecidableEq, Repr

inductive Rule where
  | and (rules : List Rule)
  | or (rules : List Rule)
  | not (rule : Rule)
  | compare (subject : String) (kind : ValueKind) (relation : Relation) (operand : Operand)
  | test (subject : String) (test : TypeTest) (expected : Bool)
  deriving Repr

/-- A rule and the state that it leads to. -/
structure Choice where
  rule : Rule
  next : String
  deriving Repr

end StateBench

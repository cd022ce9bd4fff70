import StateBench.Number.Decimal

/-!
# Numbers of a document

A number is a whole number kept exactly or a double. Which of the two it is shows in its text (`1` and `1.0`), but a
comparison turns both into doubles (`Number.toDouble`).
-/

namespace StateBench

inductive Number where
  /-- A whole number written without fraction and exponent, within 64 bits with or without a sign. -/
  | int (value : Int)
  | float (value : Double)
  deriving DecidableEq, Repr

namespace Number

/-- The double nearest to the number. -/
def toDouble : Number → Double
  | .int n => .ofInt n
  | .float x => x

/-- The number as a count: a whole number that is not negative, and no double. -/
def toNat? : Number → Option Nat
  | .int n => if n < 0 then none else some n.toNat
  | .float _ => none

def text : Number → String
  | .int n => toString n
  | .float x => x.text

end Number

end StateBench

/-!
# Decimal numerals for counts

A numeral is an optional plus sign and one or more digits, leading zeros allowed. A count is bounded by 64 bits.
-/

namespace StateBench

namespace Numeral

def bound : Nat := 0xFFFFFFFFFFFFFFFF

def digitValue? (c : Char) : Option Nat := if '0' ≤ c ∧ c ≤ '9' then some (c.toNat - '0'.toNat) else none

/-- Appends the digits to a number; none where a character is no digit. -/
def digitsFrom? (value : Nat) : List Char → Option Nat
  | [] => some value
  | c :: s => (digitValue? c).bind fun d => digitsFrom? (value * 10 + d) s

def digits? : List Char → Option Nat
  | [] => none
  | s => digitsFrom? 0 s

/-- The count that a numeral stands for; none where the text is no numeral or the count is out of bounds. -/
def read? (s : List Char) : Option Nat :=
  let digits := match s with
    | '+' :: rest => rest
    | _ => s
  (digits? digits).filter (· ≤ bound)

end Numeral

end StateBench

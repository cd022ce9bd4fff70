import StateBench.Number.Double

/-!
# Decimal digits of doubles

Writing takes the coarsest power of ten whose grid has a point that reads back as the double, which is the shortest
decimal, and of two such points the nearer (`Decimal.shortest`). Reading scales a 64-bit significand by a power of ten
that is itself a double (`Decimal.toDouble?`).
-/

namespace StateBench

/-- The decimal number `digits · 10 ^ exponent`. -/
structure Decimal where
  digits : Nat
  exponent : Int
  deriving DecidableEq, Repr

namespace Decimal

/-! ## Writing -/

/-- The numbers that round to a double, as counts of a quarter of the least positive double. -/
structure Basin where
  low : Nat
  value : Nat
  high : Nat
  /-- Whether the two ends round to the double as well: they do where its significand is even. -/
  closed : Bool

/-- The neighbour below a power of two is twice as near as the one above. -/
def basin (x : Double) : Basin :=
  let quarter := 1 <<< x.place
  let value := 4 * x.units
  let below := if x.significand = Double.leadingBit ∧ 0 < x.place then quarter else 2 * quarter
  ⟨value - below, value, value + 2 * quarter, x.significand % 2 == 0⟩

def Basin.contains (b : Basin) (scale point : Nat) : Bool :=
  if b.closed then b.low * scale ≤ point && point ≤ b.high * scale
  else b.low * scale < point && point < b.high * scale

/-- The point nearest to the double on the grid of `10 ^ exponent`, if it reads back; a tie goes to the even one. -/
def onGrid? (b : Basin) (exponent : Int) : Option Decimal :=
  let scale := Nat.pow 10 (-exponent).toNat
  let step := Nat.pow 10 exponent.toNat <<< 1076
  let below := b.value * scale / step
  let nearest := roundHalfEven (b.value * scale) step
  let other := if nearest = below then below + 1 else below
  if nearest ≠ 0 ∧ b.contains scale (nearest * step) then some ⟨nearest, exponent⟩
  else if other ≠ 0 ∧ b.contains scale (other * step) then some ⟨other, exponent⟩
  else none

/-- The shortest decimal that reads back as the magnitude of a double. -/
def shortest (x : Double) : Decimal :=
  if x.isZero then ⟨0, 0⟩
  else ((List.range 635).findSome? fun (i : Nat) => onGrid? (basin x) (309 - (i : Int))).getD ⟨0, 0⟩

/-! ## Layout -/

/-- The digits with the point at its place. -/
def positional (d : Decimal) : String :=
  let digits := toString d.digits
  let point := digits.length + d.exponent
  if 0 ≤ d.exponent then digits ++ String.ofList (List.replicate d.exponent.toNat '0') ++ ".0"
  else if 0 < point then
    String.ofList (digits.toList.take point.toNat) ++ "." ++ String.ofList (digits.toList.drop point.toNat)
  else "0." ++ String.ofList (List.replicate (-point).toNat '0') ++ digits

/-- One digit before the point, and the power of ten with its sign. -/
def scientific (d : Decimal) : String :=
  let digits := (toString d.digits).toList
  let power := d.exponent + digits.length - 1
  let fraction := if digits.length = 1 then "" else "." ++ String.ofList (digits.drop 1)
  let sign := if power < 0 then "-" else "+"
  String.ofList (digits.take 1) ++ fraction ++ "e" ++ sign ++ toString power.natAbs

/-- Numbers from `0.00001` up to below `10 ^ 16` are written positionally. -/
def text (d : Decimal) : String :=
  let point := (toString d.digits).length + d.exponent
  if -5 < point ∧ point ≤ 16 then d.positional else d.scientific

/-! ## Reading -/

/-- The double nearest to a power of ten. -/
def powerOfTen (n : Nat) : Double := Double.ofInt (Nat.pow 10 n)

/-- Dividing by `10 ^ n` goes in two steps where `10 ^ n` is no double; a 64-bit significand is zero after two. -/
def scaleDown (x : Double) (n : Nat) : Option Double :=
  if n ≤ 308 then x.div? (powerOfTen n)
  else if n ≤ 616 then (x.div? (powerOfTen 308)).bind (·.div? (powerOfTen (n - 308)))
  else some .zero

/-- The double that is read for a decimal; none if it is too large. The significand is rounded first and the scaled
value once more. -/
def toDouble? (d : Decimal) : Option Double :=
  let significand := Double.ofInt d.digits
  if d.exponent < 0 then scaleDown significand (-d.exponent).toNat
  else if d.exponent ≤ 308 then significand.mul? (powerOfTen d.exponent.toNat)
  else if significand.isZero then some significand
  else none

end Decimal

/-- The text of a double: its shortest decimal with its sign. -/
def Double.text (x : Double) : String :=
  (if x.negative then "-" else "") ++ (Decimal.shortest x).text

end StateBench

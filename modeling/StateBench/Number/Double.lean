/-!
# Finite double-precision numbers

A `Double` is a sign and the bit pattern of a finite magnitude, so that it can be reasoned about in whole numbers: the
magnitude is `units · 2 ^ (-1074)`, and ordering the patterns orders the magnitudes. Every operation is exact rational
arithmetic followed by one rounding to the nearest double, a half going to the even neighbour.

* `Double.ofRatio?` rounds a ratio, and has no answer where the result would leave the finite range;
* `Double.ofInt` rounds a whole number;
* `Double.order` is a whole number that is ordered as the doubles are, the two zeros being equal.
-/

namespace StateBench

/-- The bit pattern one past the largest finite magnitude. -/
def Double.bound : Nat := 0x7FF0000000000000

/-- A finite double-precision number. -/
structure Double where
  /-- Whether the sign bit is set; a zero has a sign too. -/
  negative : Bool
  /-- The bits below the sign: eleven of exponent, fifty-two of fraction. -/
  bits : Nat
  finite : bits < Double.bound := by decide
  deriving DecidableEq, Repr

/-- The whole number nearest to `n / d`, a half going to the even one. -/
def roundHalfEven (n d : Nat) : Nat :=
  let q := n / d
  let twice := 2 * (n % d)
  if d < twice || (twice == d && q % 2 == 1) then q + 1 else q

namespace Double

def zero : Double := ⟨false, 0, by decide⟩

/-- The largest finite magnitude. -/
def largest : Double := ⟨false, bound - 1, by decide⟩

def isZero (x : Double) : Bool := x.bits == 0

def neg (x : Double) : Double := { x with negative := !x.negative }

/-- The exponent field, which is zero for the numbers below the least normal one. -/
def exponentField (x : Double) : Nat := x.bits >>> 52

/-- The leading bit of the significand of a normal number. -/
def leadingBit : Nat := 1 <<< 52

/-- The significand as a whole number; a normal number has the leading bit that its pattern leaves out. -/
def significand (x : Double) : Nat :=
  if x.exponentField = 0 then x.bits else leadingBit + x.bits % leadingBit

/-- The place of the significand's last bit, counted up from `2 ^ (-1074)`. -/
def place (x : Double) : Nat := x.exponentField - 1

/-- The magnitude, as a count of the least positive double `2 ^ (-1074)`. -/
def units (x : Double) : Nat := x.significand <<< x.place

/-- The pattern of the double nearest to `num / den`; it may lie beyond the finite ones.

A quotient of more than 53 bits is cut to 53 by leaving out its low places; a carry out of the significand moves the
pattern to the next exponent by itself. -/
def roundBits (num den : Nat) : Nat :=
  let scaled := num <<< 1074
  let place := (scaled / den).log2 - 52
  (place <<< 52) + roundHalfEven scaled (den <<< place)

/-- The double nearest to `num / den` with the given sign, if that is finite. -/
def ofRatio? (negative : Bool) (num den : Nat) : Option Double :=
  if h : roundBits num den < bound then some ⟨negative, roundBits num den, h⟩ else none

/-- The double nearest to a whole number; one beyond the finite range goes to its end. -/
def ofInt (n : Int) : Double :=
  (ofRatio? (decide (n < 0)) n.natAbs 1).getD { largest with negative := decide (n < 0) }

/-- The rounded product, if it is finite. -/
def mul? (x y : Double) : Option Double :=
  ofRatio? (x.negative != y.negative) (x.units * y.units) (1 <<< (2 * 1074))

/-- The rounded quotient by a divisor that is not zero, if it is finite. -/
def div? (x y : Double) : Option Double :=
  ofRatio? (x.negative != y.negative) x.units y.units

/-- A whole number ordered as the doubles are: larger magnitudes have larger patterns. -/
def order (x : Double) : Int := if x.negative then -(x.bits : Int) else x.bits

end Double

end StateBench

import Mathlib.Algebra.Order.Ring.Nat
import StateBench.Number

/-!
# The double nearest to a whole number

The value of a double is a whole number of the least positive double (`Double.value`), and doubles are ordered by their
values (`Double.value_lt_iff`). The double for a whole number is the nearest one, a half going to the one with an even
last bit (`Double.isNearest_ofInt`): its significand is rounded among the multiples of its last place, and all doubles
from the leading power of two on are such multiples (`Double.units_nearest`). Rounding therefore keeps the order of
whole numbers, though not their being different (`Double.value_ofInt_mono`); up to `2 ^ 53` it changes nothing, and no
other whole number is rounded to one below that (`Double.value_ofInt_of_le`, `Double.value_ofInt_ne`).
-/

namespace StateBench

/-! ## Rounding -/

variable {n d : Nat}

/-- The rounded quotient is half a unit away at most, and half a unit only where it is even. -/
theorem roundHalfEven_spec (hd : 0 < d) :
    2 * n ≤ 2 * (roundHalfEven n d * d) + d ∧ 2 * (roundHalfEven n d * d) ≤ 2 * n + d ∧
      (2 * n = 2 * (roundHalfEven n d * d) + d ∨ 2 * (roundHalfEven n d * d) = 2 * n + d →
        roundHalfEven n d % 2 = 0) := by
  have hn : n / d * d + n % d = n := Nat.div_add_mod' n d
  have hlt : n % d < d := Nat.mod_lt n hd
  unfold roundHalfEven
  dsimp only
  generalize n / d = q at hn ⊢
  have hq : (q + 1) * d = q * d + d := Nat.succ_mul q d
  split
  · next h =>
    simp only [Bool.or_eq_true, Bool.and_eq_true, decide_eq_true_eq, beq_iff_eq] at h
    omega
  · next h =>
    simp only [Bool.or_eq_true, Bool.and_eq_true, decide_eq_true_eq, beq_iff_eq] at h
    omega

/-- No multiple of the divisor is nearer than the rounded one; one that is as near leaves it even. -/
theorem roundHalfEven_nearest (hd : 0 < d) (q : Nat) :
    ((roundHalfEven n d * d : Nat) - n : Int).natAbs ≤ ((q * d : Nat) - n : Int).natAbs ∧
      (((roundHalfEven n d * d : Nat) - n : Int).natAbs = ((q * d : Nat) - n : Int).natAbs →
        q * d = roundHalfEven n d * d ∨ roundHalfEven n d % 2 = 0) := by
  obtain ⟨hbelow, habove, heven⟩ := roundHalfEven_spec (n := n) hd
  generalize roundHalfEven n d = r at hbelow habove heven ⊢
  rcases Nat.lt_trichotomy q r with hlt | rfl | hlt
  · have hstep : (q + 1) * d ≤ r * d := Nat.mul_le_mul_right d hlt
    rw [Nat.succ_mul] at hstep
    omega
  · exact ⟨Nat.le_refl _, fun _ => .inl rfl⟩
  · have hstep : (r + 1) * d ≤ q * d := Nat.mul_le_mul_right d hlt
    rw [Nat.succ_mul] at hstep
    omega

/-- A multiple of the divisor needs no rounding. -/
theorem roundHalfEven_mul (q : Nat) (hd : 0 < d) : roundHalfEven (q * d) d * d = q * d := by
  have h := (roundHalfEven_nearest (n := q * d) hd q).1
  omega

namespace Double

variable {x y : Double}

/-! ## Values -/

/-- The value of a double, as a count of the least positive one. -/
def value (x : Double) : Int := if x.negative then -(x.units : Int) else x.units

theorem leadingBit_eq : leadingBit = 2 ^ 52 := Nat.one_shiftLeft 52

theorem exponentField_eq (x : Double) : x.exponentField = x.bits / 2 ^ 52 := Nat.shiftRight_eq_div_pow x.bits 52

theorem significand_lt (x : Double) : x.significand < 2 ^ 53 := by
  have hfield := x.exponentField_eq
  unfold significand
  rw [leadingBit_eq]
  split <;> omega

theorem normal (x : Double) : 2 ^ 52 ≤ x.significand ∨ x.place = 0 := by
  unfold significand place
  rw [leadingBit_eq]
  split
  · next h => exact .inr (by rw [h])
  · exact .inl (by omega)

/-- The pattern is the significand put in its place, where the leading bit counts up the exponent. -/
theorem bits_eq (x : Double) : x.bits = x.place * 2 ^ 52 + x.significand := by
  have hfield := x.exponentField_eq
  unfold place significand
  rw [leadingBit_eq]
  split <;> omega

theorem units_eq (x : Double) : x.units = x.significand * 2 ^ x.place := Nat.shiftLeft_eq x.significand x.place

/-- A significand in its place; one that is carried over stands for the same value. -/
theorem units_of_bits {m p : Nat} (hm : m ≤ 2 ^ 53) (hn : 2 ^ 52 ≤ m ∨ p = 0) (hb : x.bits = p * 2 ^ 52 + m) :
    x.units = m * 2 ^ p := by
  have hx := x.bits_eq
  have hlt := x.significand_lt
  have hnormal := x.normal
  rw [x.units_eq]
  rcases Nat.lt_or_eq_of_le hm with hm | rfl
  · obtain ⟨hs, hp⟩ : x.significand = m ∧ x.place = p := by omega
    rw [hs, hp]
  · obtain ⟨hs, hp⟩ : x.significand = 2 ^ 52 ∧ x.place = p + 1 := by omega
    rw [hs, hp, Nat.pow_succ]
    omega

/-- A double whose exponent is smaller lies below all significands with a leading bit in the place of the larger. -/
theorem units_lt_of_place_lt {p : Nat} (h : x.place < p) : x.units < 2 ^ 52 * 2 ^ p := by
  calc x.units = x.significand * 2 ^ x.place := x.units_eq
    _ < 2 ^ 53 * 2 ^ x.place := Nat.mul_lt_mul_of_pos_right x.significand_lt (Nat.two_pow_pos _)
    _ = 2 ^ 52 * 2 ^ (x.place + 1) := by rw [Nat.pow_succ]; omega
    _ ≤ 2 ^ 52 * 2 ^ p := Nat.mul_le_mul_left _ (Nat.pow_le_pow_right (by decide) h)

/-- Magnitudes are ordered as their patterns are. -/
theorem units_lt_of_bits_lt (h : x.bits < y.bits) : x.units < y.units := by
  have hx := x.bits_eq
  have hy := y.bits_eq
  have hlt := y.significand_lt
  have hnormal := x.normal
  rcases Nat.lt_or_ge x.place y.place with hp | hp
  · have hs : 2 ^ 52 ≤ y.significand := by
      have := y.normal
      omega
    calc x.units < 2 ^ 52 * 2 ^ y.place := units_lt_of_place_lt hp
      _ ≤ y.significand * 2 ^ y.place := Nat.mul_le_mul_right _ hs
      _ = y.units := y.units_eq.symm
  · obtain ⟨hp, hs⟩ : x.place = y.place ∧ x.significand < y.significand := by omega
    rw [x.units_eq, y.units_eq, hp]
    exact Nat.mul_lt_mul_of_pos_right hs (Nat.two_pow_pos _)

theorem units_eq_of_bits_eq (h : x.bits = y.bits) : x.units = y.units := by
  unfold units significand place exponentField
  rw [h]

theorem units_lt_iff : x.units < y.units ↔ x.bits < y.bits := by
  refine ⟨fun h => ?_, units_lt_of_bits_lt⟩
  rcases Nat.lt_trichotomy x.bits y.bits with hlt | heq | hlt
  · exact hlt
  · exact absurd h (by rw [units_eq_of_bits_eq heq]; omega)
  · exact absurd h (Nat.lt_asymm (units_lt_of_bits_lt hlt))

theorem units_zero_iff : x.units = 0 ↔ x.bits = 0 := by
  have h : zero.units < x.units ↔ zero.bits < x.bits := units_lt_iff
  have hunits : zero.units = 0 := by decide
  have hbits : zero.bits = 0 := rfl
  omega

/-- Doubles are ordered by their values. -/
theorem value_lt_iff : x.value < y.value ↔ x.order < y.order := by
  have hlt : x.units < y.units ↔ x.bits < y.bits := units_lt_iff
  have hgt : y.units < x.units ↔ y.bits < x.bits := units_lt_iff
  have hx : x.units = 0 ↔ x.bits = 0 := units_zero_iff
  have hy : y.units = 0 ↔ y.bits = 0 := units_zero_iff
  unfold value order
  split <;> split <;> omega

/-! ## The nearest double -/

/-- One, as a count of the least positive double. -/
def one : Nat := 1 <<< 1074

/-- The double nearest to a whole number: no other is nearer, and if another one is as near, its last bit is zero. -/
structure IsNearest (x : Double) (n : Int) : Prop where
  nearest : ∀ y : Double, (x.value - n * one).natAbs ≤ (y.value - n * one).natAbs
  even : ∀ y : Double, (x.value - n * one).natAbs = (y.value - n * one).natAbs → y.value = x.value ∨ x.bits % 2 = 0

/-- No magnitude is nearer to a number than the one that is rounded in the number's last place. -/
theorem units_nearest {k p : Nat} (hk : 2 ^ 52 * 2 ^ p ≤ k) (y : Double) :
    ((roundHalfEven k (2 ^ p) * 2 ^ p : Nat) - k : Int).natAbs ≤ ((y.units : Int) - k).natAbs ∧
      (((roundHalfEven k (2 ^ p) * 2 ^ p : Nat) - k : Int).natAbs = ((y.units : Int) - k).natAbs →
        y.units = roundHalfEven k (2 ^ p) * 2 ^ p ∨ roundHalfEven k (2 ^ p) % 2 = 0) := by
  rcases Nat.lt_or_ge y.place p with hp | hp
  · -- below the leading power of two, which is a multiple of the last place and not beyond the number
    have hunits : y.units < 2 ^ 52 * 2 ^ p := units_lt_of_place_lt hp
    have hlead := (roundHalfEven_nearest (n := k) (Nat.two_pow_pos p) (2 ^ 52)).1
    omega
  · have hunits : y.units = y.significand * 2 ^ (y.place - p) * 2 ^ p := by
      rw [Nat.mul_assoc, ← Nat.pow_add, Nat.sub_add_cancel hp, y.units_eq]
    rw [hunits]
    exact roundHalfEven_nearest (Nat.two_pow_pos p) _

theorem mul_one_shiftLeft (k s : Nat) : k * 1 <<< s = k <<< s := by
  rw [Nat.shiftLeft_eq, Nat.shiftLeft_eq, Nat.one_mul]

theorem le_shiftLeft {k : Nat} (hk : k ≠ 0) (s : Nat) : 2 ^ (k.log2 + s) ≤ k <<< s := by
  rw [Nat.shiftLeft_eq, Nat.pow_add]
  exact Nat.mul_le_mul_right _ (Nat.log2_self_le hk)

theorem shiftLeft_lt (k s : Nat) : k <<< s < 2 ^ (k.log2 + s + 1) := by
  rw [Nat.shiftLeft_eq, Nat.add_right_comm, Nat.pow_add]
  exact Nat.mul_lt_mul_of_pos_right Nat.lt_log2_self (Nat.two_pow_pos s)

theorem log2_shiftLeft {k : Nat} (hk : k ≠ 0) (s : Nat) : (k <<< s).log2 = k.log2 + s := by
  have hle := le_shiftLeft hk s
  have hne : k <<< s ≠ 0 := Nat.ne_of_gt (Nat.lt_of_lt_of_le (Nat.two_pow_pos _) hle)
  exact (Nat.log2_eq_iff hne).2 ⟨hle, shiftLeft_lt k s⟩

/-- The pattern for a whole number: a significand with a leading bit, rounded in the number's last place. -/
theorem roundBits_eq {k : Nat} (hk : k ≠ 0) :
    ∃ p, roundBits k 1 = p * 2 ^ 52 + roundHalfEven (k * one) (2 ^ p) ∧ p = k.log2 + 1022 ∧
      2 ^ 52 * 2 ^ p ≤ k * one ∧ k * one < 2 ^ 53 * 2 ^ p := by
  have hscaled : k * one = k <<< 1074 := mul_one_shiftLeft k 1074
  refine ⟨k.log2 + 1022, ?_, rfl, ?_, ?_⟩
  · rw [hscaled, roundBits, Nat.div_one, log2_shiftLeft hk, Nat.shiftLeft_eq (k.log2 + 1074 - 52), Nat.one_shiftLeft]
    rfl
  · rw [hscaled, ← Nat.pow_add, Nat.add_comm 52]
    exact le_shiftLeft hk 1074
  · rw [hscaled, ← Nat.pow_add, Nat.add_comm 53]
    exact shiftLeft_lt k 1074

/-- Rounded in its last place, a number has a significand with a leading bit, or is carried to the next power of two. -/
theorem roundHalfEven_bounds {k p : Nat} (hlow : 2 ^ 52 * 2 ^ p ≤ k) (hhigh : k < 2 ^ 53 * 2 ^ p) :
    2 ^ 52 ≤ roundHalfEven k (2 ^ p) ∧ roundHalfEven k (2 ^ p) ≤ 2 ^ 53 := by
  have hpos : 0 < 2 ^ p := Nat.two_pow_pos p
  obtain ⟨hbelow, habove, -⟩ := roundHalfEven_spec (n := k) hpos
  generalize roundHalfEven k (2 ^ p) = m at hbelow habove ⊢
  generalize 2 ^ p = d at hlow hhigh hpos hbelow habove
  constructor
  · by_contra hlt
    have hstep : (m + 1) * d ≤ 2 ^ 52 * d := Nat.mul_le_mul_right d (by omega)
    rw [Nat.succ_mul] at hstep
    omega
  · by_contra hlt
    have hstep : (2 ^ 53 + 1) * d ≤ m * d := Nat.mul_le_mul_right d (by omega)
    rw [Nat.succ_mul] at hstep
    omega

/-- The double for a whole number within the finite range. -/
structure Rounded (x : Double) (n : Int) (p : Nat) : Prop where
  negative : x.negative = decide (n < 0)
  units : x.units = roundHalfEven (n.natAbs * one) (2 ^ p) * 2 ^ p
  bits : x.bits % 2 = roundHalfEven (n.natAbs * one) (2 ^ p) % 2
  place : p = n.natAbs.log2 + 1022
  low : 2 ^ 52 * 2 ^ p ≤ n.natAbs * one

theorem rounded_ofInt {n : Int} (hn : n ≠ 0) (h : n.natAbs.log2 ≤ 1022) : ∃ p, (ofInt n).Rounded n p := by
  obtain ⟨p, hbits, hp, hlow, hhigh⟩ := roundBits_eq (k := n.natAbs) (by omega)
  obtain ⟨hleading, hcarry⟩ := roundHalfEven_bounds hlow hhigh
  have hfinite : roundBits n.natAbs 1 < bound := by
    rw [bound]
    omega
  have hofInt : ofInt n = ⟨decide (n < 0), roundBits n.natAbs 1, hfinite⟩ := by
    rw [ofInt, ofRatio?, dif_pos hfinite]
    rfl
  rw [hofInt]
  refine ⟨p, rfl, units_of_bits hcarry (.inl hleading) hbits, ?_, hp, hlow⟩
  show roundBits n.natAbs 1 % 2 = _
  rw [hbits]
  omega

theorem value_ofInt_zero : (ofInt 0).value = 0 := by decide

/-- How far a double is from a whole number depends on their magnitudes and on whether they have the same sign. -/
theorem natAbs_value_sub (x : Double) (n : Int) :
    (x.value - n * one).natAbs =
      if x.negative = decide (n < 0) then ((x.units : Int) - (n.natAbs * one : Nat)).natAbs
      else x.units + n.natAbs * one := by
  rw [value]
  by_cases hn : n < 0
  · have hmul : n * one = -((n.natAbs * one : Nat) : Int) := by
      rw [Int.natCast_mul, Int.ofNat_natAbs_of_nonpos (by omega), Int.neg_mul, Int.neg_neg]
    rw [hmul]
    generalize n.natAbs * one = w
    cases x.negative
    · simp [hn]
      omega
    · simp [hn]
      omega
  · have hmul : n * one = ((n.natAbs * one : Nat) : Int) := by
      rw [Int.natCast_mul, Int.natAbs_of_nonneg (by omega)]
    rw [hmul]
    generalize n.natAbs * one = w
    cases x.negative
    · simp [hn]
    · simp [hn]
      omega

/-- The double for a whole number is the nearest one. -/
theorem isNearest_ofInt {n : Int} (h : n.natAbs.log2 ≤ 1022) : (ofInt n).IsNearest n := by
  by_cases hn : n = 0
  · subst hn
    constructor
    · intro y
      simp [value_ofInt_zero]
    · intro y hd
      rw [value_ofInt_zero, Int.zero_mul] at hd
      exact .inl (by rw [value_ofInt_zero]; omega)
  · obtain ⟨p, hx⟩ := rounded_ofInt hn h
    have hunits (y : Double) := units_nearest hx.low y
    rw [← hx.units, ← hx.bits] at hunits
    -- zero has both signs, so it bounds the distance from a double with the other one
    obtain ⟨hzero, htie⟩ := hunits zero
    have hnone : zero.units = 0 := by decide
    rw [hnone] at hzero htie
    constructor
    · intro y
      rw [natAbs_value_sub, natAbs_value_sub, if_pos hx.negative]
      split
      · exact (hunits y).1
      · omega
    · intro y hd
      rw [natAbs_value_sub, natAbs_value_sub, if_pos hx.negative] at hd
      split at hd
      · next hsign =>
        refine ((hunits y).2 hd).imp (fun he => ?_) id
        rw [value, value, he, hsign, hx.negative]
      · refine (htie (by omega)).imp (fun he => ?_) id
        have hy : y.units = 0 := by omega
        rw [value, value, hy, ← he]
        simp

/-! ## Order and exactness -/

theorem one_pos : 0 < (one : Int) := by decide

/-- Rounding keeps the order of whole numbers. -/
theorem value_ofInt_mono {a b : Int} (ha : a.natAbs.log2 ≤ 1022) (hb : b.natAbs.log2 ≤ 1022) (h : a ≤ b) :
    (ofInt a).value ≤ (ofInt b).value := by
  rcases Int.lt_or_eq_of_le h with hlt | rfl
  · have hscaled : a * one < b * one := Int.mul_lt_mul_of_pos_right hlt one_pos
    have hfirst := (isNearest_ofInt ha).nearest (ofInt b)
    have hsecond := (isNearest_ofInt hb).nearest (ofInt a)
    omega
  · exact Int.le_refl _

theorem two_pow_dvd_shiftLeft {p e s : Nat} (h : p ≤ e + s) : 2 ^ p ∣ 2 ^ e * 1 <<< s := by
  rw [Nat.one_shiftLeft, ← Nat.pow_add]
  exact Nat.pow_dvd_pow 2 h

/-- A whole number with at most 53 bits before its trailing zeros is not rounded. -/
theorem value_ofInt_eq {n : Int} {m e : Nat} (h : n.natAbs.log2 ≤ 1022) (hm : m < 2 ^ 53) (hn : n.natAbs = m * 2 ^ e) :
    (ofInt n).value = n * one := by
  by_cases hzero : n = 0
  · rw [hzero, value_ofInt_zero, Int.zero_mul]
  · obtain ⟨p, hx⟩ := rounded_ofInt hzero h
    have hlog : n.natAbs.log2 < 53 + e := by
      rw [Nat.log2_lt (by omega), hn, Nat.pow_add]
      exact Nat.mul_lt_mul_of_pos_right hm (Nat.two_pow_pos e)
    have hdvd : 2 ^ p ∣ n.natAbs * one := by
      rw [hn, Nat.mul_assoc, hx.place]
      exact Nat.dvd_mul_left_of_dvd (two_pow_dvd_shiftLeft (by omega)) m
    obtain ⟨q, hq⟩ := exists_eq_mul_left_of_dvd hdvd
    have hunits : (ofInt n).units = n.natAbs * one := by
      rw [hx.units, hq, roundHalfEven_mul q (Nat.two_pow_pos p)]
    have hdistance := natAbs_value_sub (ofInt n) n
    rw [if_pos hx.negative, hunits, Int.sub_self, Int.natAbs_zero, Int.natAbs_eq_zero] at hdistance
    exact Int.eq_of_sub_eq_zero hdistance

theorem log2_le_of_lt {n : Int} {k : Nat} (h : n.natAbs < 2 ^ k) (hk : k ≤ 1023) : n.natAbs.log2 ≤ 1022 := by
  by_cases hzero : n.natAbs = 0
  · rw [hzero]
    decide
  · have hlog := (Nat.log2_lt hzero).2 h
    omega

theorem value_ofInt_of_le {n : Int} (h : n.natAbs ≤ 2 ^ 53) : (ofInt n).value = n * one := by
  have hlog : n.natAbs.log2 ≤ 1022 := log2_le_of_lt (k := 54) (by omega) (by decide)
  rcases Nat.lt_or_eq_of_le h with hlt | heq
  · exact value_ofInt_eq (m := n.natAbs) (e := 0) hlog hlt (Nat.mul_one _).symm
  · exact value_ofInt_eq (m := 1) (e := 53) hlog (by decide) (by rw [heq, Nat.one_mul])

/-- Below `2 ^ 53`, a whole number shares its nearest double with no other. -/
theorem value_ofInt_ne {a b : Int} (ha : a.natAbs < 2 ^ 53) (hb : b.natAbs.log2 ≤ 1022) (h : a ≠ b) :
    (ofInt a).value ≠ (ofInt b).value := by
  have hpos := one_pos
  rw [value_ofInt_of_le (Nat.le_of_lt ha)]
  rcases Int.lt_or_gt_of_ne h with hlt | hgt
  · have hnext : (a + 1).natAbs ≤ 2 ^ 53 := by omega
    have hle := value_ofInt_mono (log2_le_of_lt (k := 54) (by omega) (by decide)) hb hlt
    rw [value_ofInt_of_le hnext, Int.add_mul, Int.one_mul] at hle
    omega
  · have hprevious : (a - 1).natAbs ≤ 2 ^ 53 := by omega
    have hle := value_ofInt_mono hb (log2_le_of_lt (k := 54) (by omega) (by decide)) (Int.le_sub_one_of_lt hgt)
    rw [value_ofInt_of_le hprevious, Int.sub_mul, Int.one_mul] at hle
    omega

end Double

end StateBench

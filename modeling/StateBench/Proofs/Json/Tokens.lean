import Mathlib.Data.Nat.Digits.Defs
import StateBench.Json.Printer
import StateBench.Json.Reader

/-!
# Strings and whole numbers are read back

What is printed of a string or of a whole number of 64 bits is read as the same string or number, whatever comes after
it; after a number comes nothing, or a character that cannot belong to it (`Json.Follows`).

* `Json.readStringChar_escapeChar`: each character of a string by itself;
* `Json.stringReader_printed`: strings;
* `Json.takeDigits_digits`, `Json.numberReader_digits`: digits;
* `Json.valueReaderWith_int`: whole numbers with their sign.
-/

namespace StateBench

namespace Json

/-! ## Strings -/

theorem hexDigit?_hexDigit {n : Nat} (h : n < 16) : hexDigit? (hexDigit n) = some n := by
  revert n
  decide

theorem utf8Size_hexDigit {n : Nat} (h : n < 16) : (hexDigit n).utf8Size = 1 := by
  revert n
  decide

/-- The two low digits of a code unit below a hundred and twenty-eight. -/
theorem readEscapedUnit_control {n : Nat} (h : n < 0x80) (rest : List Char) :
    readEscapedUnit ('0' :: '0' :: hexDigit (n / 16) :: hexDigit (n % 16) :: rest) = .ok (Char.ofNat n, rest) := by
  have hhigh : n / 16 < 16 := by omega
  have hlow : n % 16 < 16 := by omega
  have hunit : readCodeUnit ('0' :: '0' :: hexDigit (n / 16) :: hexDigit (n % 16) :: rest) = .ok (n, rest) := by
    have hzero : hexDigit? '0' = some 0 := rfl
    have hsize : utf8Size (('0' :: '0' :: hexDigit (n / 16) :: hexDigit (n % 16) :: rest).take 4) = 4 := by
      simp only [utf8Size, List.take, List.map, utf8Size_hexDigit hhigh, utf8Size_hexDigit hlow]
      rfl
    rw [readCodeUnit, hsize, if_neg (by decide)]
    simp only [hzero, hexDigit?_hexDigit hhigh, hexDigit?_hexDigit hlow]
    have hn : ((0 * 16 + 0) * 16 + n / 16) * 16 + n % 16 = n := by omega
    rw [hn]
  rw [readEscapedUnit, hunit]
  show (if 0xDC00 ≤ n ∧ n ≤ 0xDFFF then _ else _) = _
  rw [if_neg (by omega), if_pos (by omega)]

/-- Each character of a string is read back as it is escaped. -/
theorem readStringChar_escapeChar (c : Char) (rest : List Char) :
    readStringChar (escapeChar c ++ rest) = .ok (some c, rest) := by
  unfold escapeChar
  -- the characters with an escape of their own
  iterate 7
    split
    · subst c
      rfl
  split
  · next hcontrol =>
    show (readEscapedUnit ('0' :: '0' :: hexDigit (c.toNat / 16) :: hexDigit (c.toNat % 16) :: rest)).map _ = _
    rw [readEscapedUnit_control (by omega), Char.ofNat_toNat]
    rfl
  · show readStringChar (c :: rest) = _
    unfold readStringChar
    split <;> simp_all

theorem length_escapeChar_pos (c : Char) : 0 < (escapeChar c).length := by
  unfold escapeChar
  repeat' split
  all_goals simp

/-- Each character takes one at least, and so does the quote after them. -/
theorem length_lt_escaped (chars rest : List Char) :
    chars.length + rest.length < (chars.foldr (fun c rest => escapeChar c ++ rest) ('"' :: rest)).length := by
  induction chars with
  | nil => simp
  | cons c chars ih =>
    have := length_escapeChar_pos c
    simp only [List.foldr_cons, List.length_append, List.length_cons] at ih ⊢
    omega

theorem readStringChars_escaped (chars : List Char) (rest : List Char) {n : Nat} (h : chars.length < n) :
    readStringChars n (chars.foldr (fun c rest => escapeChar c ++ rest) ('"' :: rest)) = .ok (chars, rest) := by
  induction chars generalizing n with
  | nil =>
    obtain ⟨n, rfl⟩ := Nat.exists_eq_add_of_lt h
    rfl
  | cons c chars ih =>
    obtain ⟨n, rfl⟩ := Nat.exists_eq_add_of_lt h
    rw [readStringChars, List.foldr_cons, readStringChar_escapeChar]
    show (readStringChars _ _ >>= _) = _
    rw [ih (by simp; omega)]
    rfl

/-- A string is read back after its opening quote. -/
theorem stringReader_printed (s : String) (rest : List Char) :
    stringReader (s.toList.foldr (fun c rest => escapeChar c ++ rest) ('"' :: rest)) = .ok (s, rest) := by
  have hlength := length_lt_escaped s.toList rest
  rw [stringReader, readStringChars_escaped _ _ (by omega)]
  show Except.ok (String.ofList s.toList, rest) = _
  rw [String.ofList_toList]

/-! ## Numbers -/

/-- What comes after a value: nothing, or what goes on after an item or a field. -/
def Follows (rest : List Char) : Prop := ∀ c ∈ rest.head?, c = ',' ∨ c = ']' ∨ c = '}'

theorem Follows.not_startsWithDigit {rest : List Char} (h : Follows rest) : startsWithDigit rest = false := by
  cases rest with
  | nil => rfl
  | cons c rest => rcases h c rfl with rfl | rfl | rfl <;> rfl

theorem digitValue?_of_isDigit {c : Char} (h : c.isDigit = true) :
    Numeral.digitValue? c = some (c.toNat - '0'.toNat) := by
  rw [Numeral.digitValue?, if_pos]
  simpa [Char.isDigit, Char.le_def] using h

/-- Digits are taken up to their end while their number is within the bound. -/
theorem takeDigits_digits {bound value : Nat} {digits rest : List Char} (hd : ∀ c ∈ digits, c.isDigit = true)
    (hb : Nat.ofDigitChars 10 digits value ≤ bound) (hr : startsWithDigit rest = false) :
    takeDigits bound value (digits ++ rest) = (Nat.ofDigitChars 10 digits value, digits.length, rest) := by
  induction digits generalizing value with
  | nil =>
    cases rest with
    | nil => rfl
    | cons c rest =>
      have hc : Numeral.digitValue? c = none := by simpa [startsWithDigit] using hr
      simp [takeDigits, hc]
  | cons c digits ih =>
    rw [Nat.ofDigitChars_cons, Nat.mul_comm] at hb
    have hle : value * 10 + (c.toNat - '0'.toNat) ≤ bound := by
      refine Nat.le_trans ?_ hb
      rw [Nat.ofDigitChars_eq_ofDigitChars_zero]
      exact Nat.le_trans (Nat.le_mul_of_pos_left _ (Nat.pow_pos (by decide))) (Nat.le_add_right _ _)
    rw [List.cons_append, takeDigits, digitValue?_of_isDigit (hd c List.mem_cons_self)]
    simp only [if_neg (Nat.not_lt.2 hle)]
    rw [ih (fun d hm => hd d (List.mem_cons_of_mem _ hm)) hb, Nat.ofDigitChars_cons, Nat.mul_comm]
    rfl

theorem skipDigits_of_not_digit {rest : List Char} (h : startsWithDigit rest = false) :
    skipDigits rest = (0, rest) := by
  cases rest with
  | nil => rfl
  | cons c rest =>
    have hc : Numeral.digitValue? c = none := by simpa [startsWithDigit] using h
    simp [skipDigits, hc]

/-- A number begins with zero only if that is its one digit. -/
theorem tail_of_toDigits_eq_zero_cons {n : Nat} {digits : List Char} (h : Nat.toDigits 10 n = '0' :: digits) :
    digits = [] := by
  induction n using Nat.strongRecOn generalizing digits with
  | _ n ih =>
    rw [Nat.toDigits_eq_if (by decide)] at h
    split at h
    · exact (List.cons.inj h).2.symm
    · next hn =>
      cases hd : Nat.toDigits 10 (n / 10) with
      | nil => exact absurd hd Nat.toDigits_ne_nil
      | cons c more =>
        rw [hd] at h
        obtain rfl : c = '0' := (List.cons.inj h).1
        obtain rfl := ih (n / 10) (by omega) hd
        have hzero : n / 10 = 0 := by
          rw [← Nat.ofDigitChars_ten_toDigits (n := n / 10), hd]
          rfl
        omega

/-- The digits of a number are read as that number. -/
theorem numberReader_digits (negative : Bool) {n : Nat} (hn : n ≤ significandBound) {rest : List Char}
    (h : Follows rest) : numberReader negative (Nat.toDigits 10 n ++ rest) = .ok (finishWhole negative n, rest) := by
  have hdigit : ∀ c ∈ Nat.toDigits 10 n, c.isDigit = true := fun c hc =>
    Nat.isDigit_of_mem_toDigits (by decide) (by decide) hc
  cases hd : Nat.toDigits 10 n with
  | nil => exact absurd hd Nat.toDigits_ne_nil
  | cons c digits =>
    rw [hd] at hdigit
    have hvalue : Nat.ofDigitChars 10 digits (c.toNat - '0'.toNat) = n := by
      rw [← Nat.ofDigitChars_ten_toDigits (n := n), hd, Nat.ofDigitChars_cons, Nat.mul_zero, Nat.zero_add]
    have hnd := h.not_startsWithDigit
    have htake : takeDigits significandBound (c.toNat - '0'.toNat) (digits ++ rest) = (_, digits.length, rest) :=
      takeDigits_digits (fun d hm => hdigit d (List.mem_cons_of_mem _ hm)) (hvalue ▸ hn) hnd
    have hlead : ¬ (c.toNat - '0'.toNat = 0 ∧ startsWithDigit (digits ++ rest) = true) := by
      rintro ⟨hzero, hs⟩
      have hge : 48 ≤ c.toNat := (Char.isDigit_iff_toNat.1 (hdigit c List.mem_cons_self)).1
      obtain rfl : c = '0' := Char.toNat_inj.1 (Nat.le_antisymm (Nat.sub_eq_zero_iff_le.1 hzero) hge)
      obtain rfl := tail_of_toDigits_eq_zero_cons hd
      rw [List.nil_append, hnd] at hs
      cases hs
    rw [List.cons_append, numberReader, digitValue?_of_isDigit (hdigit c List.mem_cons_self)]
    simp only [if_neg hlead, htake, hvalue, skipDigits_of_not_digit hnd]
    rcases rest with _ | ⟨d, rest⟩
    · rfl
    · rcases h d rfl with rfl | rfl | rfl <;> rfl

theorem skipBlanks_cons {c : Char} (h : isBlank c = false) (rest : List Char) : skipBlanks (c :: rest) = c :: rest :=
  List.dropWhile_cons_of_neg (by simp [h])

theorem isBlank_of_isDigit {c : Char} (h : c.isDigit = true) : isBlank c = false := by
  rw [Bool.eq_false_iff]
  intro hb
  simp only [isBlank, Bool.or_eq_true, decide_eq_true_eq] at hb
  rcases hb with ((rfl | rfl) | rfl) | rfl <;> cases h

theorem valueReaderWith_digit {c : Char} (h : c.isDigit = true) (inner : Option (Reader Json)) (rest : List Char) :
    valueReaderWith inner (c :: rest) = (numberReader false (c :: rest)).map fun (n, rest) => (.number n, rest) := by
  rw [valueReaderWith, skipBlanks_cons (isBlank_of_isDigit h)]
  dsimp only
  split
  case h_8 => rw [if_pos (by rw [digitValue?_of_isDigit h]; rfl)]
  all_goals cases h

theorem toList_text_of_nonneg {n : Int} (h : 0 ≤ n) : (Number.int n).text.toList = Nat.toDigits 10 n.natAbs := by
  show n.repr.toList = _
  rw [Int.repr_eq_if, if_pos h, Nat.repr_eq_ofList_toDigits, String.toList_ofList, show n.toNat = n.natAbs by omega]

theorem toList_text_of_neg {n : Int} (h : n < 0) : (Number.int n).text.toList = '-' :: Nat.toDigits 10 n.natAbs := by
  show n.repr.toList = _
  rw [Int.repr_eq_if, if_neg (by omega), Nat.repr_eq_ofList_toDigits, show (-n).toNat = n.natAbs by omega]
  simp [String.toList_append, String.toList_ofList]

theorem exists_digit_toDigits (n : Nat) : ∃ c digits, Nat.toDigits 10 n = c :: digits ∧ c.isDigit = true := by
  cases hd : Nat.toDigits 10 n with
  | nil => exact absurd hd Nat.toDigits_ne_nil
  | cons c digits =>
    have hc : c ∈ Nat.toDigits 10 n := hd ▸ List.mem_cons_self
    exact ⟨c, digits, rfl, Nat.isDigit_of_mem_toDigits (by decide) (by decide) hc⟩

/-- A whole number of 64 bits, with or without a sign, is read back. -/
theorem valueReaderWith_int {n : Int} (low : -0x8000000000000000 ≤ n) (high : n ≤ 0xFFFFFFFFFFFFFFFF)
    (inner : Option (Reader Json)) {rest : List Char} (h : Follows rest) :
    valueReaderWith inner ((Number.int n).text.toList ++ rest) = .ok (.int n, rest) := by
  have hbound : n.natAbs ≤ significandBound := by
    rw [significandBound]
    omega
  rcases lt_or_ge n 0 with hn | hn
  · have hfinish : finishWhole true n.natAbs = .int n := by
      rw [finishWhole, if_neg (by decide), if_neg (by omega), show -(n.natAbs : Int) = n by omega]
    rw [toList_text_of_neg hn]
    show (numberReader true (Nat.toDigits 10 n.natAbs ++ rest)).map _ = _
    rw [numberReader_digits true hbound h, hfinish]
    rfl
  · have hfinish : finishWhole false n.natAbs = .int n := by
      rw [finishWhole, if_pos (by decide), Int.natAbs_of_nonneg hn]
    obtain ⟨c, digits, hd, hc⟩ := exists_digit_toDigits n.natAbs
    rw [toList_text_of_nonneg hn, hd, List.cons_append, valueReaderWith_digit hc, ← List.cons_append, ← hd,
      numberReader_digits false hbound h, hfinish]
    rfl

end Json

end StateBench

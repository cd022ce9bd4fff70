import StateBench.Timestamp
import StateBench.Proofs.Results

/-!
# Timestamps with different offsets

A timestamp is the text of a clock, which ends after the fraction of a second, and the offset of that clock. An offset
begins with no digit and no point, so the text of a clock is read in the same way before every offset
(`Timestamp.readFraction?_append`). The instant is what the clock shows less the offset (`Timestamp.clock_of_instant?`),
so that timestamps with one text for the clock show one time on it (`Timestamp.exists_clock`).
-/

namespace StateBench

namespace Timestamp

variable {text s rest zone : List Char} {t : Timestamp}

/-- The time that the clock shows, counted as instants are. -/
def clock (t : Timestamp) : Int := t.instant + t.offset * nanosPerSecond

/-- The text does not go on with the fraction of a second. -/
def EndsClock (s : List Char) : Prop := ∀ c ∈ s.head?, c ≠ '.' ∧ isDigit c = false

theorem endsClock_of_readOffset? {offset : Int} (h : readOffset? zone = some offset) : EndsClock zone := by
  have hletter {c : Char} (hc : c = 'Z' ∨ c = 'z' ∨ c = '+' ∨ c = '-') : c ≠ '.' ∧ isDigit c = false := by
    rcases hc with rfl | rfl | rfl | rfl <;> decide
  unfold readOffset? at h
  split at h
  · simp [EndsClock, hletter]
  · simp [EndsClock, hletter]
  · next sign _ _ _ _ =>
    obtain ⟨hours, -, h⟩ := Option.bind_eq_some_iff.1 h
    obtain ⟨minutes, -, h⟩ := Option.bind_eq_some_iff.1 h
    have hsign : sign = '+' ∨ sign = '-' := by
      by_contra hne
      rw [not_or] at hne
      simp [hne] at h
    simp only [EndsClock, List.head?_cons, Option.mem_some_iff, forall_eq']
    exact hletter (.inr (.inr hsign))
  · cases h

/-- A fraction of a second is read in the same way before every text that it does not go on with. -/
theorem readFraction?_append {nanos : Nat} (h : readFraction? s = some (nanos, rest)) :
    ∃ fraction, s = fraction ++ rest ∧
      ∀ zone, EndsClock zone → readFraction? (fraction ++ zone) = some (nanos, zone) := by
  unfold readFraction? at h
  split at h
  · next s =>
    dsimp only at h
    split at h
    · cases h
    · next hne =>
      obtain ⟨_, hdigits, he⟩ := Option.map_eq_some_iff.1 h
      cases he
      have hall : ∀ c ∈ s.takeWhile isDigit, isDigit c = true := fun c hc => List.mem_takeWhile_imp hc
      refine ⟨'.' :: s.takeWhile isDigit, by simp, fun zone hzone => ?_⟩
      obtain ⟨htake, hdrop⟩ := takeWhile_append_of_head? hall fun c hc => (hzone c hc).2
      simp only [List.cons_append, readFraction?, htake, hdrop, hdigits, if_neg hne, Option.map_some]
  · cases h
    refine ⟨[], rfl, fun zone hzone => ?_⟩
    unfold readFraction?
    split
    · next he =>
      cases he
      exact absurd rfl (hzone '.' rfl).1
    · rfl

/-- The clock shows the instant with the offset added to it. -/
theorem clock_of_instant? {date : Date} {hour minute second nanos : Nat} {offset other first later : Int}
    (h : instant? date hour minute second nanos offset = some first)
    (ho : instant? date hour minute second nanos other = some later) :
    first + offset * nanosPerSecond = later + other * nanosPerSecond := by
  unfold instant? at h ho
  dsimp only at h ho
  split at h
  · next hs =>
    rw [if_pos hs] at ho
    cases h
    cases ho
    unfold nanosPerSecond
    omega
  · next hs =>
    rw [if_neg hs] at ho
    obtain ⟨-, he⟩ := Option.ite_none_right_eq_some.1 h
    obtain ⟨-, heo⟩ := Option.ite_none_right_eq_some.1 ho
    cases he
    cases heo
    unfold nanosPerSecond
    omega

/-- A timestamp is the text of a clock with an offset, and the clock shows the same time before every other offset. -/
theorem exists_clock (h : readChars? text = some t) :
    ∃ front zone, text = front ++ zone ∧ readOffset? zone = some t.offset ∧ ∀ other offset u,
      readOffset? other = some offset → readChars? (front ++ other) = some u →
        u.offset = offset ∧ u.clock = t.clock := by
  unfold readChars? at h
  split at h
  · next y₁ y₂ y₃ y₄ m₁ m₂ d₁ d₂ separator h₁ h₂ n₁ n₂ s₁ s₂ rest =>
    obtain ⟨year, hyear, h⟩ := Option.bind_eq_some_iff.1 h
    obtain ⟨month, hmonth, h⟩ := Option.bind_eq_some_iff.1 h
    obtain ⟨day, hday, h⟩ := Option.bind_eq_some_iff.1 h
    obtain ⟨date, hdate, h⟩ := Option.bind_eq_some_iff.1 h
    split at h
    · cases h
    · next hseparator =>
      obtain ⟨hour, hhour, h⟩ := Option.bind_eq_some_iff.1 h
      obtain ⟨minute, hminute, h⟩ := Option.bind_eq_some_iff.1 h
      obtain ⟨second, hsecond, h⟩ := Option.bind_eq_some_iff.1 h
      obtain ⟨⟨nanos, zone⟩, hnanos, h⟩ := Option.bind_eq_some_iff.1 h
      obtain ⟨offset, hoffset, h⟩ := Option.bind_eq_some_iff.1 h
      obtain ⟨instant, hinstant, h⟩ := Option.bind_eq_some_iff.1 h
      cases h
      obtain ⟨fraction, rfl, hfraction⟩ := readFraction?_append hnanos
      refine ⟨y₁ :: y₂ :: y₃ :: y₄ :: '-' :: m₁ :: m₂ :: '-' :: d₁ :: d₂ :: separator ::
        h₁ :: h₂ :: ':' :: n₁ :: n₂ :: ':' :: s₁ :: s₂ :: fraction, zone, by simp, hoffset, ?_⟩
      intro other offset' u ho hu
      simp only [List.cons_append, readChars?, hyear, hmonth, hday, hdate, hseparator, hhour, hminute, hsecond,
        hfraction other (endsClock_of_readOffset? ho), ho, Option.bind_some, bind] at hu
      obtain ⟨later, hlater, hu⟩ := Option.bind_eq_some_iff.1 hu
      cases hu
      exact ⟨rfl, clock_of_instant? hlater hinstant⟩
  · cases h

end Timestamp

end StateBench

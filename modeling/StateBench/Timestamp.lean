import StateBench.Number.Numeral

/-!
# RFC 3339 timestamps

A timestamp is an instant, counted in nanoseconds from the start of 1970 in UTC, with the offset of the clock that shows
it. Two timestamps are ordered by their instants alone.

`Timestamp.read?` takes a date, any one-byte character, a time, an optional fraction of a second and an offset. A
sixtieth second is read as the last nanosecond of the second before it, and only where that is the end of a month in
UTC.
-/

namespace StateBench

structure Timestamp where
  /-- Nanoseconds from 1970-01-01T00:00:00Z. -/
  instant : Int
  /-- Seconds by which the clock is ahead of UTC. -/
  offset : Int
  deriving DecidableEq, Repr

namespace Timestamp

def nanosPerSecond : Nat := 1000000000

def secondsPerDay : Nat := 86400

/-- Whole seconds from the start of 1970, downwards. -/
def seconds (t : Timestamp) : Int := t.instant / nanosPerSecond

/-- Nanoseconds after the whole second. -/
def nanos (t : Timestamp) : Int := t.instant % nanosPerSecond

/-! ## Calendar -/

def isLeapYear (year : Nat) : Bool := year % 4 = 0 && (year % 100 ≠ 0 || year % 400 = 0)

/-- The lengths of the months, January first. -/
def monthLengths (year : Nat) : List Nat :=
  [31, if isLeapYear year then 29 else 28, 31, 30, 31, 30, 31, 31, 30, 31, 30, 31]

/-- Days from the start of the year 0 to the start of a year; the year 0 is a leap year. -/
def daysBeforeYear (year : Nat) : Nat := 365 * year + (year + 3) / 4 - (year + 99) / 100 + (year + 399) / 400

/-- A day of the calendar. -/
structure Date where
  /-- Days from the start of 1970. -/
  number : Int
  firstOfMonth : Bool
  lastOfMonth : Bool

/-- The day with the given year, month and day of the month, if there is one. -/
def date? (year month day : Nat) : Option Date :=
  if month = 0 ∨ day = 0 then none
  else
    match (monthLengths year)[month - 1]? with
    | none => none
    | some length =>
      if length < day then none
      else
        let days := daysBeforeYear year + ((monthLengths year).take (month - 1)).foldl (· + ·) 0 + (day - 1)
        some ⟨(days : Int) - daysBeforeYear 1970, day == 1, day == length⟩

/-! ## Reading -/

/-- The number that some digits write, within bounds. -/
def number? (low high : Nat) (digits : List Char) : Option Nat :=
  (Numeral.digits? digits).filter fun n => low ≤ n && n ≤ high

def isDigit (c : Char) : Bool := (Numeral.digitValue? c).isSome

/-- An optional fraction of a second in nanoseconds; the digits after the ninth are dropped. -/
def readFraction? : List Char → Option (Nat × List Char)
  | '.' :: s =>
    let digits := s.takeWhile isDigit
    if digits.isEmpty then none
    else (Numeral.digits? ((digits ++ List.replicate 9 '0').take 9)).map (·, s.dropWhile isDigit)
  | s => some (0, s)

/-- The offset in seconds that ends a timestamp. -/
def readOffset? : List Char → Option Int
  | ['Z'] => some 0
  | ['z'] => some 0
  | [sign, h₁, h₂, ':', m₁, m₂] => do
    let hours ← number? 0 23 [h₁, h₂]
    let minutes ← number? 0 59 [m₁, m₂]
    let seconds : Int := hours * 3600 + minutes * 60
    if sign = '+' then some seconds else if sign = '-' then some (-seconds) else none
  | _ => none

/-- The instant of a time on a day; a sixtieth second has to end a month in UTC. -/
def instant? (date : Date) (hour minute second nanos : Nat) (offset : Int) : Option Int :=
  let time : Int := hour * 3600 + minute * 60 - offset
  let start := date.number * secondsPerDay + time
  if second < 60 then some ((start + second) * nanosPerSecond + nanos)
  else if (time + 60 = 0 ∧ date.firstOfMonth) ∨ (time + 60 = secondsPerDay ∧ date.lastOfMonth) then
    some ((start + 60) * nanosPerSecond - 1)
  else none

def readChars? : List Char → Option Timestamp
  | y₁ :: y₂ :: y₃ :: y₄ :: '-' :: m₁ :: m₂ :: '-' :: d₁ :: d₂ :: separator ::
      h₁ :: h₂ :: ':' :: n₁ :: n₂ :: ':' :: s₁ :: s₂ :: rest => do
    let year ← number? 0 9999 [y₁, y₂, y₃, y₄]
    let month ← number? 1 12 [m₁, m₂]
    let day ← number? 1 31 [d₁, d₂]
    let date ← date? year month day
    if 0x7F < separator.toNat then none
    else
      let hour ← number? 0 23 [h₁, h₂]
      let minute ← number? 0 59 [n₁, n₂]
      let second ← number? 0 60 [s₁, s₂]
      let (nanos, rest) ← readFraction? rest
      let offset ← readOffset? rest
      let instant ← instant? date hour minute second nanos offset
      some ⟨instant, offset⟩
  | _ => none

/-- The timestamp that a text writes. -/
def read? (text : String) : Option Timestamp := readChars? text.toList

end Timestamp

end StateBench

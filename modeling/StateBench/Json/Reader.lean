import StateBench.Json
import StateBench.Number.Numeral

/-!
# Reading the text of a document

A reader takes a text and gives a value with the text after it, or says where it stopped. Nesting is bounded, and each
list of items or fields ends because every element takes a character; both bounds are arguments of the recursion.

* `Json.valueReader` reads one value;
* `Json.readNested` reads a whole text with a bound on the nesting, `Json.read` with the bound for documents;
* a `ReadError` has a cause and its place, counted in lines and in bytes of the line.
-/

namespace StateBench

/-- Why a text is no document. -/
inductive ReadFault where
  | endOfValue
  | endOfList
  | endOfObject
  | endOfString
  | expectedColon
  | expectedListSeparator
  | expectedObjectSeparator
  | expectedWord
  | expectedValue
  | expectedKey
  | trailingComma
  | trailingCharacters
  | invalidNumber
  | numberOutOfRange
  | invalidEscape
  | loneSurrogate
  | unpairedSurrogate
  | controlCharacter
  | tooDeep
  deriving DecidableEq, Repr

def ReadFault.message : ReadFault → String
  | .endOfValue => "EOF while parsing a value"
  | .endOfList => "EOF while parsing a list"
  | .endOfObject => "EOF while parsing an object"
  | .endOfString => "EOF while parsing a string"
  | .expectedColon => "expected `:`"
  | .expectedListSeparator => "expected `,` or `]`"
  | .expectedObjectSeparator => "expected `,` or `\x7d`"
  | .expectedWord => "expected ident"
  | .expectedValue => "expected value"
  | .expectedKey => "key must be a string"
  | .trailingComma => "trailing comma"
  | .trailingCharacters => "trailing characters"
  | .invalidNumber => "invalid number"
  | .numberOutOfRange => "number out of range"
  | .invalidEscape => "invalid escape"
  | .loneSurrogate => "lone leading surrogate in hex escape"
  | .unpairedSurrogate => "unexpected end of hex escape"
  | .controlCharacter => "control character (\\u0000-\\u001F) found while parsing a string"
  | .tooDeep => "recursion limit exceeded"

/-- A cause, and the line and the column in bytes at which reading stopped. -/
structure ReadError where
  fault : ReadFault
  line : Nat
  column : Nat
  deriving DecidableEq, Repr

def ReadError.message (e : ReadError) : String :=
  e.fault.message ++ " at line " ++ toString e.line ++ " column " ++ toString e.column

namespace Json

/-- Where a reader stopped: what it had not taken yet, and how many bytes of that it had looked at. -/
structure Stop where
  fault : ReadFault
  rest : List Char
  seen : Nat

/-- Stopped before the rest. -/
def Stop.before (fault : ReadFault) (rest : List Char) : Stop := ⟨fault, rest, 0⟩

/-- Stopped at the first byte of the rest, or at the end. -/
def Stop.at (fault : ReadFault) (rest : List Char) : Stop := ⟨fault, rest, if rest.isEmpty then 0 else 1⟩

/-- Takes a value from the front of a text. -/
abbrev Reader (α : Type) := List Char → Except Stop (α × List Char)

def isBlank (c : Char) : Bool := c = ' ' || c = '\t' || c = '\n' || c = '\r'

def skipBlanks (s : List Char) : List Char := s.dropWhile isBlank

/-- Takes the rest of a word whose first letter has been taken. -/
def wordReader (value : Json) : List Char → Reader Json
  | [], s => .ok (value, s)
  | _ :: _, [] => .error (.before .endOfValue [])
  | w :: word, c :: s => if c = w then wordReader value word s else .error (.at .expectedWord (c :: s))

/-! ## Numbers -/

/-- The largest significand that is kept; the digits after it only move the decimal point. -/
def significandBound : Nat := 0xFFFFFFFFFFFFFFFF

/-- The largest exponent that is kept. -/
def exponentBound : Nat := 0x7FFFFFFF

/-- Appends digits to a number while it stays within a bound, and counts them. -/
def takeDigits (bound value : Nat) : List Char → Nat × Nat × List Char
  | [] => (value, 0, [])
  | c :: s =>
    match Numeral.digitValue? c with
    | none => (value, 0, c :: s)
    | some d =>
      if bound < value * 10 + d then (value, 0, c :: s)
      else
        let (value, count, rest) := takeDigits bound (value * 10 + d) s
        (value, count + 1, rest)

/-- Leaves out digits, and counts them. -/
def skipDigits : List Char → Nat × List Char
  | [] => (0, [])
  | c :: s =>
    match Numeral.digitValue? c with
    | none => (0, c :: s)
    | some _ => let (count, rest) := skipDigits s; (count + 1, rest)

def startsWithDigit : List Char → Bool
  | c :: _ => (Numeral.digitValue? c).isSome
  | [] => false

def startsExponent : List Char → Bool
  | c :: _ => c = 'e' || c = 'E'
  | [] => false

def signed (negative : Bool) (x : Double) : Number := .float (if negative then x.neg else x)

/-- A decimal number that ends here. -/
def finishDecimal (negative : Bool) (d : Decimal) (s : List Char) : Except Stop (Number × List Char) :=
  match d.toDouble? with
  | some x => .ok (signed negative x, s)
  | none => .error (.before .numberOutOfRange s)

/-- The exponent of a decimal number, from its letter on. -/
def readExponent (negative : Bool) (d : Decimal) (s : List Char) : Except Stop (Number × List Char) :=
  let s := s.drop 1
  let (down, s) := match s with
    | '+' :: r => (false, r)
    | '-' :: r => (true, r)
    | r => (false, r)
  match s with
  | [] => .error (.before .endOfValue [])
  | c :: r =>
    match Numeral.digitValue? c with
    | none => .error (.at .invalidNumber (c :: r))
    | some first =>
      let (power, _, rest) := takeDigits exponentBound first r
      if startsWithDigit rest then
        if d.digits ≠ 0 ∧ !down then .error (.at .numberOutOfRange rest)
        else .ok (signed negative .zero, (skipDigits rest).2)
      else finishDecimal negative { d with exponent := if down then d.exponent - power else d.exponent + power } rest

/-- What may follow the digits of a decimal number. -/
def readDecimalTail (negative : Bool) (d : Decimal) (s : List Char) : Except Stop (Number × List Char) :=
  if startsExponent s then readExponent negative d s else finishDecimal negative d s

/-- The fraction of a decimal number, from its point on. -/
def readFraction (negative : Bool) (d : Decimal) (s : List Char) : Except Stop (Number × List Char) :=
  let (digits, count, rest) := takeDigits significandBound d.digits (s.drop 1)
  let d' : Decimal := ⟨digits, d.exponent - count⟩
  if startsWithDigit rest then readDecimalTail negative d' (skipDigits rest).2
  else if count = 0 then .error (.at (if rest.isEmpty then .endOfValue else .invalidNumber) rest)
  else readDecimalTail negative d' rest

/-- A whole number that ends here. Zero with a sign is a double, and so is a negative number below 64 bits. -/
def finishWhole (negative : Bool) (n : Nat) : Number :=
  if !negative then .int n
  else if n = 0 ∨ 0x8000000000000000 < n then .float (Double.ofInt n).neg
  else .int (-n)

/-- The digits of a number after its sign. -/
def numberReader (negative : Bool) : Reader Number
  | [] => .error (.before .endOfValue [])
  | c :: s =>
    match Numeral.digitValue? c with
    | none => .error (.at .invalidNumber (c :: s))
    | some first =>
      if first = 0 ∧ startsWithDigit s then .error (.at .invalidNumber s)
      else
        let (n, _, rest) := takeDigits significandBound first s
        let (dropped, rest) := skipDigits rest
        match rest with
        | '.' :: _ => readFraction negative ⟨n, dropped⟩ rest
        | _ =>
          if startsExponent rest then readExponent negative ⟨n, dropped⟩ rest
          else if dropped = 0 then .ok (finishWhole negative n, rest)
          else finishDecimal negative ⟨n, dropped⟩ rest

/-! ## Strings -/

def hexDigit? (c : Char) : Option Nat :=
  if '0' ≤ c ∧ c ≤ '9' then some (c.toNat - '0'.toNat)
  else if 'a' ≤ c ∧ c ≤ 'f' then some (c.toNat - 'a'.toNat + 10)
  else if 'A' ≤ c ∧ c ≤ 'F' then some (c.toNat - 'A'.toNat + 10)
  else none

def utf8Size (s : List Char) : Nat := (s.map Char.utf8Size).foldl (· + ·) 0

/-- The four digits of an escaped code unit. -/
def readCodeUnit (s : List Char) : Except Stop (Nat × List Char) :=
  if utf8Size (s.take 4) < 4 then .error (.before .endOfString [])
  else
    match s with
    | a :: b :: c :: d :: rest =>
      match hexDigit? a, hexDigit? b, hexDigit? c, hexDigit? d with
      | some a, some b, some c, some d => .ok (((a * 16 + b) * 16 + c) * 16 + d, rest)
      | _, _, _, _ => .error ⟨.invalidEscape, s, 4⟩
    | _ => .error ⟨.invalidEscape, s, 4⟩

/-- Takes one expected character between the two halves of a pair of code units. -/
def takePairMark (mark : Char) : List Char → Except Stop (List Char)
  | [] => .error (.before .endOfString [])
  | c :: s => if c = mark then .ok s else .error (.at .unpairedSurrogate (c :: s))

/-- An escaped character after its `u`: one code unit, or a leading and a trailing one. -/
def readEscapedUnit (s : List Char) : Except Stop (Char × List Char) := do
  let (high, s) ← readCodeUnit s
  if 0xDC00 ≤ high ∧ high ≤ 0xDFFF then .error (.before .loneSurrogate s)
  else if high < 0xD800 ∨ 0xDBFF < high then .ok (Char.ofNat high, s)
  else
    let s ← takePairMark '\\' s
    let s ← takePairMark 'u' s
    let (low, s) ← readCodeUnit s
    if low < 0xDC00 ∨ 0xDFFF < low then .error (.before .loneSurrogate s)
    else .ok (Char.ofNat (0x10000 + (high - 0xD800) * 0x400 + (low - 0xDC00)), s)

/-- The character that follows a backslash, other than `u`. -/
def simpleEscape? : Char → Option Char
  | '"' => some '"'
  | '\\' => some '\\'
  | '/' => some '/'
  | 'b' => some '\x08'
  | 'f' => some '\x0c'
  | 'n' => some '\n'
  | 'r' => some '\r'
  | 't' => some '\t'
  | _ => none

/-- One character of a string, or none at the closing quote, which is taken. -/
def readStringChar : Reader (Option Char)
  | [] => .error (.before .endOfString [])
  | '"' :: s => .ok (none, s)
  | '\\' :: [] => .error (.before .endOfString [])
  | '\\' :: 'u' :: s => (readEscapedUnit s).map fun (c, rest) => (some c, rest)
  | '\\' :: c :: s =>
    match simpleEscape? c with
    | some c => .ok (some c, s)
    | none => .error (.at .invalidEscape (c :: s))
  | c :: s => if c.toNat < 0x20 then .error (.at .controlCharacter (c :: s)) else .ok (some c, s)

/-- The characters of a string up to its closing quote; each of them takes at least one of the text. -/
def readStringChars : Nat → List Char → Except Stop (List Char × List Char)
  | 0, s => .error (.before .endOfString s)
  | n + 1, s => do
    match ← readStringChar s with
    | (none, rest) => .ok ([], rest)
    | (some c, rest) =>
      let (cs, rest) ← readStringChars n rest
      .ok (c :: cs, rest)

/-- A string whose opening quote has been taken. -/
def stringReader : Reader String := fun s =>
  (readStringChars (s.length + 1) s).map fun (cs, rest) => (String.ofList cs, rest)

/-! ## Values -/

/-- The items after one of a list, up to the closing bracket. -/
def readMoreItems (element : Reader Json) : Nat → Reader (List Json)
  | 0, s => .error (.before .endOfList s)
  | n + 1, s =>
    match skipBlanks s with
    | [] => .error (.before .endOfList [])
    | ']' :: rest => .ok ([], rest)
    | ',' :: rest =>
      match skipBlanks rest with
      | [] => .error (.before .endOfValue [])
      | ']' :: r => .error (.at .trailingComma (']' :: r))
      | r => do
        let (item, r) ← element r
        let (items, r) ← readMoreItems element n r
        .ok (item :: items, r)
    | rest => .error (.at .expectedListSeparator rest)

/-- The items of a list whose opening bracket has been taken. -/
def itemsReader (element : Reader Json) : Reader (List Json) := fun s =>
  match skipBlanks s with
  | [] => .error (.before .endOfList [])
  | ']' :: rest => .ok ([], rest)
  | r => do
    let (item, r) ← element r
    let (items, r) ← readMoreItems element (r.length + 1) r
    .ok (item :: items, r)

/-- A field whose opening quote has been taken. -/
def fieldReader (element : Reader Json) : Reader (String × Json) := fun s => do
  let (key, s) ← stringReader s
  match skipBlanks s with
  | [] => .error (.before .endOfObject [])
  | ':' :: rest => do
    let (value, rest) ← element rest
    .ok ((key, value), rest)
  | rest => .error (.at .expectedColon rest)

/-- The fields after one of an object, up to the closing brace. -/
def readMoreFields (element : Reader Json) : Nat → Reader (List (String × Json))
  | 0, s => .error (.before .endOfObject s)
  | n + 1, s =>
    match skipBlanks s with
    | [] => .error (.before .endOfObject [])
    | '}' :: rest => .ok ([], rest)
    | ',' :: rest =>
      match skipBlanks rest with
      | [] => .error (.before .endOfValue [])
      | '}' :: r => .error (.at .trailingComma ('}' :: r))
      | '"' :: r => do
        let (field, r) ← fieldReader element r
        let (fields, r) ← readMoreFields element n r
        .ok (field :: fields, r)
      | r => .error (.at .expectedKey r)
    | rest => .error (.at .expectedObjectSeparator rest)

/-- The fields of an object whose opening brace has been taken. -/
def fieldsReader (element : Reader Json) : Reader (List (String × Json)) := fun s =>
  match skipBlanks s with
  | [] => .error (.before .endOfObject [])
  | '}' :: rest => .ok ([], rest)
  | '"' :: r => do
    let (field, r) ← fieldReader element r
    let (fields, r) ← readMoreFields element (r.length + 1) r
    .ok (field :: fields, r)
  | r => .error (.at .expectedKey r)

/-- A value, given a reader for the values inside it if there may be any. -/
def valueReaderWith (inner : Option (Reader Json)) : Reader Json := fun s =>
  match skipBlanks s with
  | [] => .error (.before .endOfValue [])
  | c :: r =>
    match c with
    | 'n' => wordReader .null ['u', 'l', 'l'] r
    | 't' => wordReader (.bool true) ['r', 'u', 'e'] r
    | 'f' => wordReader (.bool false) ['a', 'l', 's', 'e'] r
    | '"' => (stringReader r).map fun (s, rest) => (.string s, rest)
    | '-' => (numberReader true r).map fun (n, rest) => (.number n, rest)
    | '[' =>
      match inner with
      | none => .error (.at .tooDeep (c :: r))
      | some element => (itemsReader element r).map fun (items, rest) => (.array items, rest)
    | '{' =>
      match inner with
      | none => .error (.at .tooDeep (c :: r))
      | some element => (fieldsReader element r).map fun (fields, rest) => (.object (Fields.ofList fields), rest)
    | _ =>
      if (Numeral.digitValue? c).isSome then (numberReader false (c :: r)).map fun (n, rest) => (.number n, rest)
      else .error (.at .expectedValue (c :: r))

/-- A value with at most so many arrays and objects around one another. -/
def valueReader : Nat → Reader Json
  | 0 => valueReaderWith none
  | depth + 1 => valueReaderWith (some (valueReader depth))

/-! ## Whole texts -/

/-- The line and the column that a number of bytes of a text leads to. -/
def locate : (bytes line column : Nat) → List Char → Nat × Nat
  | _, line, column, [] => (line, column)
  | 0, line, column, _ => (line, column)
  | bytes + 1, line, column, c :: s =>
    if c = '\n' then locate bytes (line + 1) 0 s
    else locate (bytes + 1 - c.utf8Size) line (column + min (bytes + 1) c.utf8Size) s

def Stop.toError (text : List Char) (stop : Stop) : ReadError :=
  let (line, column) := locate (utf8Size text - utf8Size stop.rest + stop.seen) 1 0 text
  ⟨stop.fault, line, column⟩

/-- The document with the given text, blanks around it allowed, and at most so deeply nested. -/
def readNested (depth : Nat) (text : String) : Except ReadError Json :=
  let s := text.toList
  match valueReader depth s with
  | .error stop => .error (stop.toError s)
  | .ok (value, rest) =>
    match skipBlanks rest with
    | [] => .ok value
    | r => .error ((Stop.at .trailingCharacters r).toError s)

/-- The deepest nesting of a document that is given as a text. -/
def nestingBound : Nat := 127

def read (text : String) : Except ReadError Json := readNested nestingBound text

end Json

end StateBench

import StateBench.Json

/-!
# The compact text of a document

No blanks, the fields in their order, and in strings only the quote, the backslash and the control characters below the
blank escaped. `Json.printOnto` writes a document in front of a text, which is linear and the form in which reading it
back is stated.
-/

namespace StateBench

namespace Json

/-- The lower-case digit of a number below sixteen. -/
def hexDigit (n : Nat) : Char := if n < 10 then Char.ofNat ('0'.toNat + n) else Char.ofNat ('a'.toNat + (n - 10))

/-- How one character stands in a string. -/
def escapeChar (c : Char) : List Char :=
  if c = '"' then ['\\', '"']
  else if c = '\\' then ['\\', '\\']
  else if c = '\n' then ['\\', 'n']
  else if c = '\r' then ['\\', 'r']
  else if c = '\t' then ['\\', 't']
  else if c = '\x08' then ['\\', 'b']
  else if c = '\x0c' then ['\\', 'f']
  else if c.toNat < 0x20 then ['\\', 'u', '0', '0', hexDigit (c.toNat / 16), hexDigit (c.toNat % 16)]
  else [c]

/-- A quoted string in front of a text. -/
def printStringOnto (s : String) (rest : List Char) : List Char :=
  '"' :: s.toList.foldr (fun c rest => escapeChar c ++ rest) ('"' :: rest)

mutual
/-- The text of a document in front of a text. -/
def printOnto : Json → List Char → List Char
  | .null, rest => 'n' :: 'u' :: 'l' :: 'l' :: rest
  | .bool true, rest => 't' :: 'r' :: 'u' :: 'e' :: rest
  | .bool false, rest => 'f' :: 'a' :: 'l' :: 's' :: 'e' :: rest
  | .number n, rest => n.text.toList ++ rest
  | .string s, rest => printStringOnto s rest
  | .array [], rest => '[' :: ']' :: rest
  | .array (item :: items), rest => '[' :: printOnto item (printItemsOnto items rest)
  | .object [], rest => '{' :: '}' :: rest
  | .object ((key, value) :: fields), rest =>
    '{' :: printStringOnto key (':' :: printOnto value (printFieldsOnto fields rest))

/-- Further items, each after a comma, and the closing bracket. -/
def printItemsOnto : List Json → List Char → List Char
  | [], rest => ']' :: rest
  | item :: items, rest => ',' :: printOnto item (printItemsOnto items rest)

/-- Further fields, each after a comma, and the closing brace. -/
def printFieldsOnto : List (String × Json) → List Char → List Char
  | [], rest => '}' :: rest
  | (key, value) :: fields, rest => ',' :: printStringOnto key (':' :: printOnto value (printFieldsOnto fields rest))
end

/-- The compact text of a document. -/
def compact (j : Json) : String := String.ofList (j.printOnto [])

end Json

end StateBench

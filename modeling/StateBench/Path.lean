import StateBench.Number.Numeral

/-!
# Reference paths

A path starts at `$`, the input, or at `$$`, the context, and goes on in steps: `.name`, `['name']`, `["name"]` or
`[index]`. `RefPath.read` gives the steps of a text or the first fault in it.
-/

namespace StateBench

inductive PathStep where
  | field (name : String)
  | index (n : Nat)
  deriving DecidableEq, Repr

/-- A path that has been read. -/
structure RefPath where
  /-- Whether the path starts at the context. -/
  inContext : Bool
  steps : List PathStep
  deriving DecidableEq, Repr

/-- Why a text is no path, or no path that a result may be written to. -/
inductive PathFault where
  | noRoot
  | emptyName
  | wildcard
  | unclosedBracket
  | badBracket
  | expectedStep
  | writesContext
  | writesIndex
  deriving DecidableEq, Repr

def PathFault.message : PathFault → String
  | .noRoot => "must start with '$'"
  | .emptyName => "empty field name"
  | .wildcard => "wildcards are not supported"
  | .unclosedBracket => "unclosed '['"
  | .badBracket => "only quoted names and non-negative indices are supported in brackets"
  | .expectedStep => "expected '.' or '['"
  | .writesContext => "cannot write into the context object"
  | .writesIndex => "result paths cannot contain array indices"

namespace RefPath

/-- What may stand in a name after a point. -/
def inName (c : Char) : Bool := c ≠ '.' && c ≠ '['

/-- The text between two equal quotes. -/
def unquote? (quote : Char) : List Char → Option (List Char)
  | [] => none
  | c :: s => if c = quote ∧ s.getLast? = some quote then some s.dropLast else none

/-- The step that the text between two brackets stands for. -/
def bracketStep? (inner : List Char) : Option PathStep :=
  match (unquote? '\'' inner).or (unquote? '"' inner) with
  | some name => some (.field (String.ofList name))
  | none => (Numeral.read? inner).map .index

/-- The steps of a text, from its front on. -/
def readSteps : List Char → Except PathFault (List PathStep)
  | [] => .ok []
  | '.' :: s =>
    let name := s.takeWhile inName
    if name = [] then .error .emptyName
    else if name = ['*'] then .error .wildcard
    else (readSteps (s.dropWhile inName)).map (.field (String.ofList name) :: ·)
  | '[' :: s =>
    match _h : s.dropWhile (· ≠ ']') with
    | [] => .error .unclosedBracket
    | _ :: rest =>
      match bracketStep? (s.takeWhile (· ≠ ']')) with
      | none => .error .badBracket
      | some step => (readSteps rest).map (step :: ·)
  | _ => .error .expectedStep
termination_by s => s.length
decreasing_by
  · have := (List.dropWhile_suffix (p := inName) (l := s)).length_le
    simp; omega
  · have := (List.dropWhile_suffix (p := (· ≠ ']')) (l := s)).length_le
    simp_all; omega

def readChars : List Char → Except PathFault RefPath
  | '$' :: '$' :: s => (readSteps s).map (⟨true, ·⟩)
  | '$' :: s => (readSteps s).map (⟨false, ·⟩)
  | _ => .error .noRoot

/-- The path that a text spells. -/
def read (path : String) : Except PathFault RefPath := readChars path.toList

/-- Whether a text starts as a path does. -/
def startsAsPath (text : String) : Bool := text.toList.head? = some '$'

end RefPath

end StateBench

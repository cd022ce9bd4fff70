/-!
# Applied mocks

A record of the mocks that were applied keeps each name once, in the order of the first use, and apart from that the
names that were used inside a Map. `AppliedMocks.ofUses` is the record of a whole list of uses.
-/

namespace StateBench

/-- One use of a mock. -/
structure MockUse where
  name : String
  inMap : Bool
  deriving DecidableEq, Repr

structure AppliedMocks where
  names : List String
  /-- The names used inside a Map, in the order of their first use there. -/
  inMap : List String
  deriving DecidableEq, Repr

namespace AppliedMocks

def empty : AppliedMocks := ⟨[], []⟩

/-- Puts a name at the end unless it is there. -/
def addName (names : List String) (name : String) : List String :=
  if names.contains name then names else names ++ [name]

/-- Adds a use to the record. -/
def record (applied : AppliedMocks) (use : MockUse) : AppliedMocks where
  names := addName applied.names use.name
  inMap := if use.inMap then addName applied.inMap use.name else applied.inMap

/-- The record of what is in one record and then in another. -/
def merge (applied later : AppliedMocks) : AppliedMocks where
  names := later.names.foldl addName applied.names
  inMap := later.inMap.foldl addName applied.inMap

/-- The record of some uses. -/
def ofUses (uses : List MockUse) : AppliedMocks := uses.foldl record empty

end AppliedMocks

end StateBench

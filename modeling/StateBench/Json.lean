import StateBench.Number

/-!
# JSON documents

The fields of an object are a list in ascending order of their keys, each key once (`Json.Canonical`). The operations
on fields keep that order, and the two laws that describe an insertion hold for lists in any order.

* `Fields.find?_insert_self`, `Fields.find?_insert_of_ne`: what is found after an insertion;
* `Fields.ascending_insert`, `Fields.ascending_ofList`: the keys ascend after it.
-/

namespace StateBench

inductive Json where
  | null
  | bool (value : Bool)
  | number (value : Number)
  | string (value : String)
  | array (items : List Json)
  | object (fields : List (String × Json))
  deriving Repr, Inhabited

/-- Keys with their values, as in an object. -/
abbrev Fields (α : Type) := List (String × α)

namespace Fields

variable {α : Type}

/-- The value of a key. -/
def find? (key : String) : Fields α → Option α
  | [] => none
  | (k, v) :: rest => if k = key then some v else find? key rest

/-- Sets the value of a key; a new key goes before the first larger one. -/
def insert (key : String) (value : α) : Fields α → Fields α
  | [] => [(key, value)]
  | (k, v) :: rest =>
    if k = key then (key, value) :: rest
    else if key < k then (key, value) :: (k, v) :: rest
    else (k, v) :: insert key value rest

/-- The fields in ascending order of their keys; the last value of a key stays. -/
def ofList (entries : List (String × α)) : Fields α :=
  entries.foldl (fun fields entry => fields.insert entry.1 entry.2) []

/-- The keys ascend, so none occurs twice. -/
def Ascending (fields : Fields α) : Prop := (fields.map Prod.fst).Pairwise (· < ·)

@[simp]
theorem find?_insert_self (key : String) (value : α) (fields : Fields α) :
    (fields.insert key value).find? key = some value := by
  induction fields with
  | nil => simp [insert, find?]
  | cons entry rest ih =>
    by_cases h : entry.1 = key
    · simp [insert, find?, h]
    · by_cases hlt : key < entry.1 <;> simp [insert, find?, h, hlt, ih]

theorem find?_insert_of_ne {key other : String} (h : other ≠ key) (value : α) (fields : Fields α) :
    (fields.insert key value).find? other = fields.find? other := by
  induction fields with
  | nil => simp [insert, find?, Ne.symm h]
  | cons entry rest ih =>
    by_cases hk : entry.1 = key
    · simp [insert, find?, hk, Ne.symm h]
    · by_cases hlt : key < entry.1
      · simp [insert, find?, hk, hlt, Ne.symm h]
      · simp [insert, find?, hk, hlt, ih]

theorem mem_insert {key : String} {value : α} {entry : String × α} :
    ∀ {fields : Fields α}, entry ∈ fields.insert key value → entry = (key, value) ∨ entry ∈ fields
  | [], h => .inl (List.mem_singleton.1 h)
  | (k, v) :: rest, h => by
    rw [insert] at h
    split at h
    · exact (List.mem_cons.1 h).imp id (List.mem_cons_of_mem _)
    · split at h
      · exact List.mem_cons.1 h
      · rcases List.mem_cons.1 h with rfl | h
        · exact .inr List.mem_cons_self
        · exact (mem_insert h).imp id (List.mem_cons_of_mem _)

theorem ascending_cons {entry : String × α} {fields : Fields α} :
    Ascending (entry :: fields) ↔ (∀ other ∈ fields, entry.1 < other.1) ∧ Ascending fields := by
  simp [Ascending]

theorem ascending_insert {fields : Fields α} (h : Ascending fields) (key : String) (value : α) :
    Ascending (fields.insert key value) := by
  induction fields with
  | nil => simp [insert, Ascending]
  | cons entry rest ih =>
    obtain ⟨hlt, hrest⟩ := ascending_cons.1 h
    rw [insert]
    split
    · next hk => exact ascending_cons.2 ⟨fun other ho => hk ▸ hlt other ho, hrest⟩
    · next hk =>
      split
      · next hkey =>
        refine ascending_cons.2 ⟨fun other ho => ?_, h⟩
        rcases List.mem_cons.1 ho with rfl | ho
        · exact hkey
        · exact String.lt_trans hkey (hlt other ho)
      · next hkey =>
        refine ascending_cons.2 ⟨fun other ho => ?_, ih hrest⟩
        rcases mem_insert ho with rfl | ho
        · exact String.not_le.1 fun hle => hk (String.le_antisymm (String.not_lt.1 hkey) hle)
        · exact hlt other ho

theorem ascending_ofList (entries : List (String × α)) : Ascending (ofList entries) := by
  suffices ∀ fields : Fields α, Ascending fields →
      Ascending (entries.foldl (fun fields entry => fields.insert entry.1 entry.2) fields) from
    this [] List.Pairwise.nil
  induction entries with
  | nil => exact fun _ h => h
  | cons entry entries ih => exact fun fields h => ih _ (ascending_insert h entry.1 entry.2)

end Fields

namespace Json

/-- In every object of the document, at every depth, the keys ascend. -/
inductive Canonical : Json → Prop where
  | null : Canonical .null
  | bool (b : Bool) : Canonical (.bool b)
  | number (n : Number) : Canonical (.number n)
  | string (s : String) : Canonical (.string s)
  | array {items : List Json} (h : ∀ j ∈ items, Canonical j) : Canonical (.array items)
  | object {fields : List (String × Json)} (keys : Fields.Ascending fields)
      (values : ∀ field ∈ fields, Canonical field.2) : Canonical (.object fields)

def emptyObject : Json := .object []

def int (n : Int) : Json := .number (.int n)

/-- An object with the given entries, in whatever order they are given. -/
def record (entries : List (String × Json)) : Json := .object (Fields.ofList entries)

/-! ## Views -/

def string? : Json → Option String
  | .string s => some s
  | _ => none

def bool? : Json → Option Bool
  | .bool b => some b
  | _ => none

def number? : Json → Option Number
  | .number n => some n
  | _ => none

/-- A count: a whole number that is not negative. -/
def nat? (j : Json) : Option Nat := j.number?.bind Number.toNat?

def array? : Json → Option (List Json)
  | .array items => some items
  | _ => none

def object? : Json → Option (Fields Json)
  | .object fields => some fields
  | _ => none

/-- The value of a field; nothing where the document is no object. -/
def field? (j : Json) (key : String) : Option Json :=
  match j with
  | .object fields => Fields.find? key fields
  | _ => none

/-- The element at an index; nothing where the document is no array. -/
def item? (j : Json) (index : Nat) : Option Json :=
  match j with
  | .array items => items[index]?
  | _ => none

/-! ## Size -/

theorem sizeOf_find?_lt {key : String} {value : Json} :
    {fields : Fields Json} → Fields.find? key fields = some value → sizeOf value < sizeOf fields
  | (k, v) :: rest, h => by
    simp only [Fields.find?] at h
    split at h
    · cases h; simp; omega
    · have := sizeOf_find?_lt h
      simp; omega

/-- A field is smaller than its object, so that reading a document from the outside inwards ends. -/
theorem sizeOf_field?_lt {j : Json} {key : String} {value : Json} (h : j.field? key = some value) :
    sizeOf value < sizeOf j := by
  cases j with
  | object fields =>
    have := sizeOf_find?_lt (show Fields.find? key fields = some value from h)
    simp; omega
  | _ => simp [field?] at h

theorem sizeOf_item_lt {items : List Json} {j : Json} (h : j ∈ items) : sizeOf j < sizeOf (Json.array items) := by
  have := List.sizeOf_lt_of_mem h
  simp; omega

end Json

end StateBench

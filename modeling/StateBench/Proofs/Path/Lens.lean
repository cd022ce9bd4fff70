import Mathlib
import StateBench.Path.Access
import StateBench.Proofs.Results

/-!
# Reading what was written

A write goes from object to object, and null counts as an object without fields (`Json.fieldsToWrite?`). So one step of
a write sets one field (`Json.writeAt_field`), and from the laws of fields the laws of documents follow by induction on
the steps:

* what was written is read back (`Json.follow?_writeAt`);
* what is read along steps that part from those of the write is as it was before (`Json.follow?_writeAt_of_part`);
* of two writes to the same place the later stays (`Json.writeAt_writeAt`);
* writes to places that part can be done in any order (`Json.writeAt_comm`).

`RefPath.lens_of_write` says it of the texts of paths.
-/

namespace StateBench

/-! ## Fields -/

namespace Fields

variable {α : Type}

/-- Of two values of a key the later stays. -/
theorem insert_insert_self (key : String) (first second : α) (fields : Fields α) :
    (fields.insert key first).insert key second = fields.insert key second := by
  induction fields with
  | nil => simp [insert]
  | cons entry rest ih =>
    by_cases hk : entry.1 = key
    · simp [insert, hk]
    · by_cases hlt : key < entry.1
      · simp [insert, hk, hlt]
      · simp [insert, hk, hlt, ih]

/-- The smaller of two keys goes before the larger one, whichever is set first. -/
theorem insert_comm_of_lt {key other : String} (h : key < other) (first second : α) (fields : Fields α) :
    (fields.insert key first).insert other second = (fields.insert other second).insert key first := by
  have hne : key ≠ other := fun he => String.lt_irrefl _ (he ▸ h)
  have hnot : ¬ other < key := String.lt_asymm h
  induction fields with
  | nil => simp [insert, h, hne, hne.symm, hnot]
  | cons entry rest ih =>
    by_cases hk : entry.1 = key
    · have ho : entry.1 ≠ other := hk ▸ hne
      simp [insert, hk, hne, hnot]
    · by_cases ho : entry.1 = other
      · simp [insert, ho, h, hne, hne.symm, hnot]
      · by_cases hlt : key < entry.1
        · by_cases hlo : other < entry.1 <;> simp [insert, hk, ho, hlt, hlo, h, hne, hne.symm, hnot]
        · have hlo : ¬ other < entry.1 := fun hlo => hlt (String.lt_trans h hlo)
          simp [insert, hk, ho, hlt, hlo, ih]

/-- Fields can be set in any order. -/
theorem insert_comm {key other : String} (h : key ≠ other) (first second : α) (fields : Fields α) :
    (fields.insert key first).insert other second = (fields.insert other second).insert key first := by
  by_cases hlt : key < other
  · exact insert_comm_of_lt hlt first second fields
  · have hgt : other < key := String.not_le.1 fun hle => h (String.le_antisymm hle (String.not_lt.1 hlt))
    exact (insert_comm_of_lt hgt second first fields).symm

end Fields

/-! ## Steps that part -/

/-- Neither of two lists of steps leads through the end of the other. -/
def PathStep.Part (steps others : List PathStep) : Prop := ¬ steps <+: others ∧ ¬ others <+: steps

namespace PathStep.Part

variable {steps others : List PathStep} {step other : PathStep}

theorem symm (h : Part steps others) : Part others steps := ⟨h.2, h.1⟩

theorem cons_iff : Part (step :: steps) (other :: others) ↔ (step = other → Part steps others) := by
  unfold Part
  rw [List.cons_prefix_cons, List.cons_prefix_cons, eq_comm (a := other)]
  by_cases h : step = other <;> simp [h]

theorem exists_cons (h : Part steps others) :
    ∃ step rest other last, steps = step :: rest ∧ others = other :: last := by
  cases steps with
  | nil => exact absurd List.nil_prefix h.1
  | cons step rest =>
    cases others with
    | nil => exact absurd List.nil_prefix h.2
    | cons other last => exact ⟨step, rest, other, last, rfl, rfl⟩

end PathStep.Part

/-! ## Documents -/

namespace Json

variable {value document result : Json} {fields : Fields Json} {steps others : List PathStep} {name : String}

/-- The fields among which a write goes on; null has none yet. -/
def fieldsToWrite? : Json → Option (Fields Json)
  | .null => some []
  | .object fields => some fields
  | _ => none

theorem step?_of_fieldsToWrite? (h : document.fieldsToWrite? = some fields) (step : PathStep) :
    document.step? step = (object fields).step? step := by
  cases document with
  | null =>
    cases h
    cases step <;> rfl
  | object own =>
    cases h
    rfl
  | _ => cases h

/-- A write into a field sets this field, and where there was none, it goes on from null. -/
theorem writeAt_field (h : document.fieldsToWrite? = some fields) (value : Json) (name : String)
    (steps : List PathStep) :
    writeAt value (.field name :: steps) document =
      (writeAt value steps ((fields.find? name).getD .null)).map fun inner => .object (fields.insert name inner) := by
  cases document with
  | null =>
    cases h
    rfl
  | object own =>
    cases h
    rfl
  | _ => cases h

/-- A write that succeeds with a step to go has set one field. -/
theorem exists_of_writeAt_cons {step : PathStep} (h : writeAt value (step :: steps) document = .ok result) :
    ∃ name fields inner, step = .field name ∧ document.fieldsToWrite? = some fields ∧
      writeAt value steps ((fields.find? name).getD .null) = .ok inner ∧
      result = .object (fields.insert name inner) := by
  have hfields (name : String) (hs : step = .field name) : ∃ fields, document.fieldsToWrite? = some fields := by
    subst hs
    cases document with
    | null => exact ⟨[], rfl⟩
    | object own => exact ⟨own, rfl⟩
    | _ => cases h
  cases step with
  | index n =>
    rw [writeAt] at h
    cases h
  | field name =>
    obtain ⟨fields, hf⟩ := hfields name rfl
    rw [writeAt_field hf] at h
    obtain ⟨inner, hi, rfl⟩ := ok_of_map h
    exact ⟨name, fields, inner, rfl, hf, hi, rfl⟩

/-- What was written is read back. -/
theorem follow?_writeAt (h : writeAt value steps document = .ok result) : result.follow? steps = some value := by
  induction steps generalizing document result with
  | nil =>
    rw [writeAt] at h
    cases h
    rfl
  | cons step steps ih =>
    obtain ⟨name, fields, inner, rfl, -, hi, rfl⟩ := exists_of_writeAt_cons h
    rw [follow?, step?, field?, Fields.find?_insert_self]
    exact ih hi

/-- What is read along steps that part from those of a write is as it was before. -/
theorem follow?_writeAt_of_part (h : writeAt value steps document = .ok result) (part : PathStep.Part steps others) :
    result.follow? others = document.follow? others := by
  induction steps generalizing document result others with
  | nil => exact absurd List.nil_prefix part.1
  | cons step steps ih =>
    obtain ⟨-, -, other, last, -, rfl⟩ := part.exists_cons
    obtain ⟨name, fields, inner, rfl, hf, hi, rfl⟩ := exists_of_writeAt_cons h
    rw [follow?, follow?, step?_of_fieldsToWrite? hf]
    cases other with
    | index n => rfl
    | field key =>
      by_cases hk : key = name
      · -- Both go on in the same field, which is null for the write if it is missing.
        subst hk
        have hrest : PathStep.Part steps last := PathStep.Part.cons_iff.1 part rfl
        have hinner := ih hi hrest
        simp only [step?, field?, Fields.find?_insert_self, Option.bind_some, hinner]
        cases hv : fields.find? key with
        | some own => rfl
        | none =>
          obtain ⟨-, -, next, rest, -, rfl⟩ := hrest.exists_cons
          cases next <;> rfl
      · simp only [step?, field?, Fields.find?_insert_of_ne hk]

/-- Of two writes to the same place the later stays. -/
theorem writeAt_writeAt (h : writeAt value steps document = .ok result) (later : Json) :
    writeAt later steps result = writeAt later steps document := by
  induction steps generalizing document result with
  | nil => rfl
  | cons step steps ih =>
    obtain ⟨name, fields, inner, rfl, hf, hi, rfl⟩ := exists_of_writeAt_cons h
    rw [writeAt_field hf, writeAt_field rfl, Fields.find?_insert_self, Option.getD_some, ih hi]
    simp only [Fields.insert_insert_self]

/-- Writes to places that part can be done in any order. -/
theorem writeAt_comm {second other : Json} (h : writeAt value steps document = .ok result)
    (ho : writeAt second others document = .ok other) (part : PathStep.Part steps others) :
    ∃ last, writeAt second others result = .ok last ∧ writeAt value steps other = .ok last := by
  induction steps generalizing document result others other with
  | nil => exact absurd List.nil_prefix part.1
  | cons step steps ih =>
    obtain ⟨-, -, first, rest, -, rfl⟩ := part.exists_cons
    obtain ⟨name, fields, inner, rfl, hf, hi, rfl⟩ := exists_of_writeAt_cons h
    obtain ⟨key, found, own, rfl, hfound, hown, rfl⟩ := exists_of_writeAt_cons ho
    obtain rfl : fields = found := Option.some.inj (hf.symm.trans hfound)
    rw [writeAt_field rfl, writeAt_field rfl]
    by_cases hk : key = name
    · subst hk
      obtain ⟨last, hlast, hlast'⟩ := ih hi hown (PathStep.Part.cons_iff.1 part rfl)
      refine ⟨.object (fields.insert key last), ?_, ?_⟩
      · rw [Fields.find?_insert_self, Option.getD_some, hlast, Except.map, Fields.insert_insert_self]
      · rw [Fields.find?_insert_self, Option.getD_some, hlast', Except.map, Fields.insert_insert_self]
    · refine ⟨.object ((fields.insert name inner).insert key own), ?_, ?_⟩
      · rw [Fields.find?_insert_of_ne hk, hown, Except.map]
      · rw [Fields.find?_insert_of_ne (Ne.symm hk), hi, Except.map, Fields.insert_comm hk]

end Json

/-! ## Paths -/

namespace RefPath

variable {path other : String} {steps : List PathStep} {document value result : Json}

/-- Both texts are paths into the input, and neither leads through the end of the other. -/
def Part (path other : String) : Prop :=
  ∃ steps others, read path = .ok ⟨false, steps⟩ ∧ read other = .ok ⟨false, others⟩ ∧ PathStep.Part steps others

/-- What a path into the input leads to does not depend on the context. -/
theorem lookup_of_read (h : read path = .ok ⟨false, steps⟩) (input context : Json) :
    lookup path input context = .ok (input.follow? steps) := by
  rw [lookup, parse, h]
  rfl

/-- The error of a write that is stopped on its way. -/
def errorOf (path : String) : WriteObstacle → AccessError
  | .index => .invalidPath path .writesIndex
  | .notObject => .notObject path

theorem write_of_read (h : read path = .ok ⟨false, steps⟩) (document value : Json) :
    write document path value = (Json.writeAt value steps document).mapError (errorOf path) := by
  rw [write, parse, h]
  simp only [Except.mapError, bind, Except.bind, Bool.false_eq_true, if_false]
  rcases Json.writeAt value steps document with (_ | _) | result <;> rfl

/-- A write succeeds along a path into the input. -/
theorem exists_read_of_write (h : write document path value = .ok result) :
    ∃ steps, read path = .ok ⟨false, steps⟩ ∧ Json.writeAt value steps document = .ok result := by
  have hwrite := h
  unfold write at h
  obtain ⟨⟨inContext, steps⟩, hp, h⟩ := ok_of_bind h
  have hread := ok_of_mapError hp
  cases inContext with
  | true => cases h
  | false =>
    rw [write_of_read hread] at hwrite
    exact ⟨steps, hread, ok_of_mapError hwrite⟩

/-- What was written is read back, paths that part from that of the write lead where they led before, a later write to
the same place takes the place of the first one, and writes along paths that part can be done in any order. -/
theorem lens_of_write (h : write document path value = .ok result) :
    (∀ context, lookup path result context = .ok (some value)) ∧
      (∀ other, Part path other → ∀ context, lookup other result context = lookup other document context) ∧
      (∀ later, write result path later = write document path later) ∧
      ∀ other second changed, Part path other → write document other second = .ok changed →
        ∃ last, write result other second = .ok last ∧ write changed path value = .ok last := by
  obtain ⟨steps, hp, hw⟩ := exists_read_of_write h
  refine ⟨fun context => ?_, fun other part context => ?_, fun later => ?_, fun other second changed part ho => ?_⟩
  · rw [lookup_of_read hp, Json.follow?_writeAt hw]
  · obtain ⟨own, others, hown, hother, hpart⟩ := part
    obtain rfl : own = steps := congrArg RefPath.steps (Except.ok.inj (hown.symm.trans hp))
    rw [lookup_of_read hother, lookup_of_read hother, Json.follow?_writeAt_of_part hw hpart]
  · rw [write_of_read hp, write_of_read hp, Json.writeAt_writeAt hw]
  · obtain ⟨own, others, hown, hother, hpart⟩ := part
    obtain rfl : own = steps := congrArg RefPath.steps (Except.ok.inj (hown.symm.trans hp))
    rw [write_of_read hother] at ho
    obtain ⟨last, hlast, hlast'⟩ := Json.writeAt_comm hw (ok_of_mapError ho) hpart
    rw [write_of_read hother, write_of_read hp, hlast, hlast']
    exact ⟨last, rfl, rfl⟩

/-- An order of which nothing is known but its sum, and a place in it that parts from another one in an object that the
write has to make. -/
theorem lens_of_write_order :
    ∃ result, write (.record [("order", .null), ("sum", .int 3)]) "$.order['note']" (.bool true) = .ok result ∧
      Part "$.order['note']" "$.order.by" ∧
      (∀ context, lookup "$.order['note']" result context = .ok (some (.bool true))) ∧
      (∀ other, Part "$.order['note']" other → ∀ context,
        lookup other result context = lookup other (.record [("order", .null), ("sum", .int 3)]) context) ∧
      (∀ later, write result "$.order['note']" later =
        write (.record [("order", .null), ("sum", .int 3)]) "$.order['note']" later) ∧
      ∀ other second changed, Part "$.order['note']" other →
        write (.record [("order", .null), ("sum", .int 3)]) other second = .ok changed →
        ∃ last, write result other second = .ok last ∧ write changed "$.order['note']" (.bool true) = .ok last := by
  have hnote : read "$.order['note']" = .ok ⟨false, [.field "order", .field "note"]⟩ := by cbv
  have hby : read "$.order.by" = .ok ⟨false, [.field "order", .field "by"]⟩ := by cbv
  have hw : write (.record [("order", .null), ("sum", .int 3)]) "$.order['note']" (.bool true) =
      .ok (.record [("order", .record [("note", .bool true)]), ("sum", .int 3)]) := by
    rw [write_of_read hnote]
    cbv
  have hpart : Part "$.order['note']" "$.order.by" := ⟨_, _, hnote, hby, by decide, by decide⟩
  exact ⟨_, hw, hpart, lens_of_write hw⟩

end RefPath

end StateBench

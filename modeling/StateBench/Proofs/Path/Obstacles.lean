import StateBench.Proofs.Path.Lens

/-!
# What stops a write

A write goes from the document along its steps. What it meets before the last of them has to be nothing, null or an
object (`Json.Passable`). The write succeeds if that is so and no step is an index (`Json.Clear`); if not, it stops at a
value that it cannot go on from (`Json.Blocked`) or at the first index (`Json.ReachesIndex`), whichever comes first.
Each of the three says the same again of the rest of the steps and of what the first one leads to
(`Json.clear_cons_iff`, `Json.blocked_cons_iff`, `Json.reachesIndex_cons_iff`), and so do the two errors of a write
(`Json.writeAt_cons_eq_error_iff`). `RefPath.outcome_of_write` says it of the texts of paths.
-/

namespace StateBench

namespace Json

variable {value document : Json} {fields : Fields Json} {step : PathStep} {steps before : List PathStep} {name : String}

/-! ## The way of a write -/

/-- Nothing stands where the steps lead, or null, or an object: a write can go on from there. -/
def Passable (document : Json) (before : List PathStep) : Prop :=
  ∀ met, document.follow? before = some met → met = .null ∨ ∃ fields, met = .object fields

/-- All steps name fields, and a write can go on from wherever it comes before its end. -/
structure Clear (document : Json) (steps : List PathStep) : Prop where
  named : ∀ step ∈ steps, ∃ name, step = .field name
  passable : ∀ before, before <+: steps → before ≠ steps → document.Passable before

/-- Before every index, a field would have to be set in a value that is neither null nor an object. -/
def Blocked (document : Json) (steps : List PathStep) : Prop :=
  ∃ before name after, steps = before ++ .field name :: after ∧ (∀ step ∈ before, ∃ name, step = .field name) ∧
    ¬ document.Passable before

/-- The way is clear up to an index. -/
def ReachesIndex (document : Json) (steps : List PathStep) : Prop :=
  ∃ before n after, steps = before ++ .index n :: after ∧ document.Clear before

theorem passable_nil_iff : document.Passable [] ↔ ∃ fields, document.fieldsToWrite? = some fields := by
  constructor
  · intro h
    rcases h document rfl with rfl | ⟨fields, rfl⟩
    · exact ⟨[], rfl⟩
    · exact ⟨fields, rfl⟩
  · rintro ⟨fields, hf⟩ met hm
    obtain rfl : document = met := Option.some.inj hm
    cases document with
    | null => exact .inl rfl
    | object own => exact .inr ⟨own, rfl⟩
    | _ => cases hf

/-- Nothing is inside null. -/
theorem passable_null (before : List PathStep) : null.Passable before := by
  intro met hm
  cases before with
  | nil =>
    cases hm
    exact .inl rfl
  | cons step before => cases step <;> cases hm

theorem passable_cons_iff (h : document.fieldsToWrite? = some fields) :
    document.Passable (.field name :: before) ↔ ((fields.find? name).getD .null).Passable before := by
  have hfollow : document.follow? (.field name :: before) = (fields.find? name).bind (·.follow? before) := by
    rw [follow?, step?_of_fieldsToWrite? h]
    rfl
  rw [Passable, hfollow]
  cases fields.find? name with
  | some own => rfl
  | none =>
    have hnull : null.Passable before := passable_null before
    simpa using hnull

theorem clear_nil (document : Json) : document.Clear [] :=
  ⟨by simp, fun _ hp hne => absurd (List.prefix_nil.1 hp) hne⟩

theorem clear_cons_iff :
    document.Clear (step :: steps) ↔ ∃ name fields, step = .field name ∧ document.fieldsToWrite? = some fields ∧
      ((fields.find? name).getD .null).Clear steps := by
  constructor
  · intro h
    obtain ⟨name, rfl⟩ := h.named step List.mem_cons_self
    obtain ⟨fields, hf⟩ := passable_nil_iff.1 (h.passable [] List.nil_prefix (by simp))
    refine ⟨name, fields, rfl, hf, fun other ho => h.named other (List.mem_cons_of_mem _ ho), fun before hp hne => ?_⟩
    have hlonger : .field name :: before <+: .field name :: steps := List.cons_prefix_cons.2 ⟨rfl, hp⟩
    exact (passable_cons_iff hf).1 (h.passable _ hlonger (by simpa using hne))
  · rintro ⟨name, fields, rfl, hf, h⟩
    refine ⟨List.forall_mem_cons.2 ⟨⟨name, rfl⟩, h.named⟩, fun before hp hne => ?_⟩
    cases before with
    | nil => exact passable_nil_iff.2 ⟨fields, hf⟩
    | cons first before =>
      obtain ⟨rfl, hrest⟩ := List.cons_prefix_cons.1 hp
      exact (passable_cons_iff hf).2 (h.passable before hrest (by simpa using hne))

theorem blocked_cons_iff :
    document.Blocked (step :: steps) ↔ ∃ name, step = .field name ∧ (document.fieldsToWrite? = none ∨
      ∃ fields, document.fieldsToWrite? = some fields ∧ ((fields.find? name).getD .null).Blocked steps) := by
  constructor
  · rintro ⟨before, last, after, he, hnamed, hmet⟩
    cases before with
    | nil =>
      cases he
      refine ⟨last, rfl, .inl (Option.eq_none_iff_forall_ne_some.2 fun fields hf => hmet ?_)⟩
      exact passable_nil_iff.2 ⟨fields, hf⟩
    | cons first before =>
      cases he
      obtain ⟨⟨name, rfl⟩, hrest⟩ := List.forall_mem_cons.1 hnamed
      refine ⟨name, rfl, ?_⟩
      cases hf : document.fieldsToWrite? with
      | none => exact .inl rfl
      | some fields =>
        exact .inr ⟨fields, rfl, before, last, after, rfl, hrest, fun h => hmet ((passable_cons_iff hf).2 h)⟩
  · rintro ⟨name, rfl, hnone | ⟨fields, hf, before, last, after, rfl, hnamed, hmet⟩⟩
    · refine ⟨[], name, steps, rfl, by simp, fun h => ?_⟩
      obtain ⟨fields, hf⟩ := passable_nil_iff.1 h
      rw [hnone] at hf
      cases hf
    · exact ⟨.field name :: before, last, after, rfl, List.forall_mem_cons.2 ⟨⟨name, rfl⟩, hnamed⟩,
        fun h => hmet ((passable_cons_iff hf).1 h)⟩

theorem reachesIndex_cons_iff :
    document.ReachesIndex (step :: steps) ↔ (∃ n, step = .index n) ∨
      ∃ name fields, step = .field name ∧ document.fieldsToWrite? = some fields ∧
        ((fields.find? name).getD .null).ReachesIndex steps := by
  constructor
  · rintro ⟨before, n, after, he, h⟩
    cases before with
    | nil =>
      cases he
      exact .inl ⟨n, rfl⟩
    | cons first before =>
      cases he
      obtain ⟨name, fields, rfl, hf, h⟩ := clear_cons_iff.1 h
      exact .inr ⟨name, fields, rfl, hf, before, n, after, rfl, h⟩
  · rintro (⟨n, rfl⟩ | ⟨name, fields, rfl, hf, before, n, after, rfl, h⟩)
    · exact ⟨[], n, steps, rfl, clear_nil document⟩
    · exact ⟨.field name :: before, n, after, rfl, clear_cons_iff.2 ⟨name, fields, rfl, hf, h⟩⟩

/-! ## Writes -/

theorem writeAt_of_fieldsToWrite?_eq_none (h : document.fieldsToWrite? = none) (value : Json) (name : String)
    (steps : List PathStep) : writeAt value (.field name :: steps) document = .error .notObject := by
  cases document with
  | null => cases h
  | object own => cases h
  | _ => rfl

/-- A write stops at an index, at a value without fields, or further on. -/
theorem writeAt_cons_eq_error_iff {obstacle : WriteObstacle} :
    writeAt value (step :: steps) document = .error obstacle ↔ (∃ n, step = .index n) ∧ obstacle = .index ∨
      ∃ name, step = .field name ∧ (document.fieldsToWrite? = none ∧ obstacle = .notObject ∨
        ∃ fields, document.fieldsToWrite? = some fields ∧
          writeAt value steps ((fields.find? name).getD .null) = .error obstacle) := by
  cases step with
  | index n => simp [writeAt, eq_comm]
  | field name =>
    cases hf : document.fieldsToWrite? with
    | none => simp [writeAt_of_fieldsToWrite?_eq_none hf, eq_comm]
    | some fields =>
      rw [writeAt_field hf]
      cases hw : writeAt value steps ((fields.find? name).getD .null) <;> simp [Except.map, hw]

theorem writeAt_ok_iff : (∃ result, writeAt value steps document = .ok result) ↔ document.Clear steps := by
  induction steps generalizing document with
  | nil => exact ⟨fun _ => clear_nil document, fun _ => ⟨value, by rw [writeAt]⟩⟩
  | cons step steps ih =>
    rw [clear_cons_iff]
    constructor
    · rintro ⟨result, h⟩
      obtain ⟨name, fields, inner, rfl, hf, hi, -⟩ := exists_of_writeAt_cons h
      exact ⟨name, fields, rfl, hf, ih.1 ⟨inner, hi⟩⟩
    · rintro ⟨name, fields, rfl, hf, h⟩
      obtain ⟨inner, hi⟩ := ih.2 h
      exact ⟨.object (fields.insert name inner), by rw [writeAt_field hf, hi, Except.map]⟩

theorem writeAt_eq_notObject_iff : writeAt value steps document = .error .notObject ↔ document.Blocked steps := by
  induction steps generalizing document with
  | nil => simp [writeAt, Blocked]
  | cons step steps ih => simp [writeAt_cons_eq_error_iff, blocked_cons_iff, ih]

theorem writeAt_eq_index_iff : writeAt value steps document = .error .index ↔ document.ReachesIndex steps := by
  induction steps generalizing document with
  | nil => simp [writeAt, ReachesIndex]
  | cons step steps ih => simp [writeAt_cons_eq_error_iff, reachesIndex_cons_iff, ih]

end Json

/-! ## Paths -/

namespace RefPath

variable {path : String} {steps : List PathStep} {fault : PathFault}

/-- No text is refused for what only a write is refused for. -/
theorem fault_of_readSteps {text : List Char} (h : readSteps text = .error fault) :
    fault ≠ .writesContext ∧ fault ≠ .writesIndex := by
  fun_induction readSteps text with
  | case1 => cases h
  | case4 _ _ _ _ ih => exact ih (error_of_map h)
  | case7 _ _ _ _ _ _ ih => exact ih (error_of_map h)
  | _ =>
    cases h
    decide

theorem fault_of_read (h : read path = .error fault) : fault ≠ .writesContext ∧ fault ≠ .writesIndex := by
  unfold read readChars at h
  split at h
  · exact fault_of_readSteps (error_of_map h)
  · exact fault_of_readSteps (error_of_map h)
  · cases h
    decide

theorem write_of_read_error (h : read path = .error fault) (document value : Json) :
    write document path value = .error (.invalidPath path fault) := by
  rw [write, parse, h]
  rfl

theorem write_of_read_context (h : read path = .ok ⟨true, steps⟩) (document value : Json) :
    write document path value = .error (.invalidPath path .writesContext) := by
  rw [write, parse, h]
  rfl

/-- A write succeeds just where its path leads into the input by names of fields, and on the way nothing else than null
and objects is met. Where a path into the input does not, the error tells which comes first: a value that a write
cannot go on from, or an index. -/
theorem outcome_of_write (document value : Json) (path : String) :
    ((∃ result, write document path value = .ok result) ↔
        ∃ steps, read path = .ok ⟨false, steps⟩ ∧ document.Clear steps) ∧
      (write document path value = .error (.notObject path) ↔
        ∃ steps, read path = .ok ⟨false, steps⟩ ∧ document.Blocked steps) ∧
      (write document path value = .error (.invalidPath path .writesIndex) ↔
        ∃ steps, read path = .ok ⟨false, steps⟩ ∧ document.ReachesIndex steps) ∧
      ∀ steps error, read path = .ok ⟨false, steps⟩ → write document path value = .error error →
        error = .notObject path ∨ error = .invalidPath path .writesIndex := by
  cases hread : read path with
  | error fault =>
    rw [write_of_read_error hread]
    have hfault := fault_of_read hread
    simp [hfault]
  | ok p =>
    obtain ⟨inContext, steps⟩ := p
    cases inContext with
    | true =>
      rw [write_of_read_context hread]
      simp
    | false =>
      rw [write_of_read hread]
      have hclear : (∃ result, Json.writeAt value steps document = .ok result) ↔ _ := Json.writeAt_ok_iff
      have hblocked : Json.writeAt value steps document = .error .notObject ↔ _ := Json.writeAt_eq_notObject_iff
      have hindex : Json.writeAt value steps document = .error .index ↔ _ := Json.writeAt_eq_index_iff
      generalize Json.writeAt value steps document = outcome at hclear hblocked hindex ⊢
      rcases outcome with (_ | _) | result <;> simp_all [Except.mapError, errorOf]

example (value : Json) :
    write (.record [("a", .array [.null])]) "$.a.b[0]" value = .error (.notObject "$.a.b[0]") ∧
      write (.record [("a", .array [.null])]) "$.a[0].b" value = .error (.invalidPath "$.a[0].b" .writesIndex) := by
  constructor <;> cbv

end RefPath

end StateBench

import StateBench.Proofs.Json.Canonical
import StateBench.Proofs.Json.Tokens

/-!
# Documents are read back

A document whose numbers are whole and which is not nested too deeply is read back from its compact text
(`Json.read_compact`). An element is read back in front of whatever may come after it (`Json.ReadsBack`); from this
follow the items of an array and the fields of an object, and by induction on the document the whole of it.
-/

namespace StateBench

namespace Json

/-- The numbers of the document are whole numbers of 64 bits, with or without a sign, and its arrays and objects are
nested at most so deeply. -/
inductive Portable : Nat → Json → Prop
  | null {depth : Nat} : Portable depth .null
  | bool {depth : Nat} (b : Bool) : Portable depth (.bool b)
  | int {depth : Nat} {n : Int} (low : -0x8000000000000000 ≤ n) (high : n ≤ 0xFFFFFFFFFFFFFFFF) :
    Portable depth (.int n)
  | string {depth : Nat} (s : String) : Portable depth (.string s)
  | array {depth : Nat} {items : List Json} (h : ∀ j ∈ items, Portable depth j) : Portable (depth + 1) (.array items)
  | object {depth : Nat} {fields : List (String × Json)} (h : ∀ field ∈ fields, Portable depth field.2) :
    Portable (depth + 1) (.object fields)

theorem portable_record {depth : Nat} {entries : List (String × Json)}
    (h : ∀ entry ∈ entries, entry.2.Portable depth) : (record entries).Portable (depth + 1) :=
  .object fun field hm => h field (Fields.mem_ofList hm)

/-- The reader reads a document back, whatever comes after it, and can tell that one begins. -/
structure ReadsBack (element : Reader Json) (j : Json) : Prop where
  /-- The text of the document begins neither with a blank nor with the end of an array. -/
  begins (rest : List Char) : ∃ c s, j.printOnto rest = c :: s ∧ isBlank c = false ∧ c ≠ ']'
  reads {rest : List Char} (h : Follows rest) : element (j.printOnto rest) = .ok (j, rest)

/-! ## Parts of texts -/

theorem follows_printItemsOnto (items : List Json) (rest : List Char) : Follows (printItemsOnto items rest) := by
  intro c hc
  cases items <;> cases hc <;> simp

theorem follows_printFieldsOnto (fields : List (String × Json)) (rest : List Char) :
    Follows (printFieldsOnto fields rest) := by
  intro c hc
  rcases fields with _ | ⟨⟨key, value⟩, fields⟩ <;> cases hc <;> simp

theorem length_le_printStringOnto (s : String) (rest : List Char) : rest.length ≤ (printStringOnto s rest).length := by
  have := length_lt_escaped s.toList rest
  simp only [printStringOnto, List.length_cons]
  omega

mutual

theorem length_le_printOnto : ∀ (j : Json) (rest : List Char), rest.length ≤ (j.printOnto rest).length
  | .null, rest => by simp only [printOnto, List.length_cons]; omega
  | .bool true, rest => by simp only [printOnto, List.length_cons]; omega
  | .bool false, rest => by simp only [printOnto, List.length_cons]; omega
  | .number n, rest => by simp [printOnto]
  | .string s, rest => length_le_printStringOnto s rest
  | .array [], rest => by simp only [printOnto, List.length_cons]; omega
  | .array (item :: items), rest => by
    have hitem := length_le_printOnto item (printItemsOnto items rest)
    have hitems := length_lt_printItemsOnto items rest
    simp only [printOnto, List.length_cons]
    omega
  | .object [], rest => by simp only [printOnto, List.length_cons]; omega
  | .object ((key, value) :: fields), rest => by
    have hkey := length_le_printStringOnto key (':' :: printOnto value (printFieldsOnto fields rest))
    have hvalue := length_le_printOnto value (printFieldsOnto fields rest)
    have hfields := length_lt_printFieldsOnto fields rest
    simp only [printOnto, List.length_cons] at hkey ⊢
    omega

/-- Each item takes a character of the text, and so does the bracket after them. -/
theorem length_lt_printItemsOnto : ∀ (items : List Json) (rest : List Char),
    items.length + rest.length < (printItemsOnto items rest).length
  | [], rest => by simp [printItemsOnto]
  | item :: items, rest => by
    have hitem := length_le_printOnto item (printItemsOnto items rest)
    have hitems := length_lt_printItemsOnto items rest
    simp only [printItemsOnto, List.length_cons]
    omega

/-- Each field takes a character of the text, and so does the brace after them. -/
theorem length_lt_printFieldsOnto : ∀ (fields : List (String × Json)) (rest : List Char),
    fields.length + rest.length < (printFieldsOnto fields rest).length
  | [], rest => by simp [printFieldsOnto]
  | (key, value) :: fields, rest => by
    have hkey := length_le_printStringOnto key (':' :: printOnto value (printFieldsOnto fields rest))
    have hvalue := length_le_printOnto value (printFieldsOnto fields rest)
    have hfields := length_lt_printFieldsOnto fields rest
    simp only [printFieldsOnto, List.length_cons] at hkey ⊢
    omega

end

/-! ## Items and fields -/

section Elements

variable {element : Reader Json}

theorem readMoreItems_printed {items : List Json} (h : ∀ j ∈ items, ReadsBack element j) (rest : List Char) {n : Nat}
    (hn : items.length < n) : readMoreItems element n (printItemsOnto items rest) = .ok (items, rest) := by
  induction items generalizing n with
  | nil =>
    obtain ⟨n, rfl⟩ := Nat.exists_eq_add_of_lt hn
    rfl
  | cons item items ih =>
    obtain ⟨n, rfl⟩ := Nat.exists_eq_add_of_lt hn
    obtain ⟨c, s, hs, hblank, hend⟩ := (h item List.mem_cons_self).begins (printItemsOnto items rest)
    have hitem := (h item List.mem_cons_self).reads (follows_printItemsOnto items rest)
    have hmore := ih (fun j hj => h j (List.mem_cons_of_mem _ hj)) (n := (item :: items).length + n)
      (by simp only [List.length_cons]; omega)
    rw [printItemsOnto, readMoreItems]
    simp only [skipBlanks_cons (show isBlank ',' = false from rfl), hs, skipBlanks_cons hblank]
    split
    · next he => cases he
    · next he =>
      cases he
      exact absurd rfl hend
    · rw [← hs, hitem]
      show (readMoreItems element _ _ >>= _) = _
      rw [hmore]
      rfl

theorem itemsReader_printed {item : Json} {items : List Json} (h : ∀ j ∈ item :: items, ReadsBack element j)
    (rest : List Char) :
    itemsReader element (item.printOnto (printItemsOnto items rest)) = .ok (item :: items, rest) := by
  obtain ⟨c, s, hs, hblank, hend⟩ := (h item List.mem_cons_self).begins (printItemsOnto items rest)
  have hitem := (h item List.mem_cons_self).reads (follows_printItemsOnto items rest)
  have hmore := readMoreItems_printed (fun j hj => h j (List.mem_cons_of_mem _ hj)) rest
    (n := (printItemsOnto items rest).length + 1) (by have := length_lt_printItemsOnto items rest; omega)
  rw [itemsReader, hs, skipBlanks_cons hblank]
  split
  · next he => cases he
  · next he =>
    cases he
    exact absurd rfl hend
  · rw [← hs, hitem]
    show (readMoreItems element _ _ >>= _) = _
    rw [hmore]
    rfl

/-- A field is read back after its opening quote. -/
theorem fieldReader_printed {value : Json} (h : ReadsBack element value) (key : String) {rest : List Char}
    (hr : Follows rest) :
    fieldReader element (key.toList.foldr (fun c rest => escapeChar c ++ rest) ('"' :: ':' :: value.printOnto rest)) =
      .ok ((key, value), rest) := by
  rw [fieldReader, stringReader_printed]
  simp only [bind, Except.bind, skipBlanks_cons (show isBlank ':' = false from rfl), h.reads hr]

theorem readMoreFields_printed {fields : List (String × Json)} (h : ∀ field ∈ fields, ReadsBack element field.2)
    (rest : List Char) {n : Nat} (hn : fields.length < n) :
    readMoreFields element n (printFieldsOnto fields rest) = .ok (fields, rest) := by
  induction fields generalizing n with
  | nil =>
    obtain ⟨n, rfl⟩ := Nat.exists_eq_add_of_lt hn
    rfl
  | cons field fields ih =>
    obtain ⟨n, rfl⟩ := Nat.exists_eq_add_of_lt hn
    have hfield := fieldReader_printed (h field List.mem_cons_self) field.1 (follows_printFieldsOnto fields rest)
    have hmore := ih (fun j hj => h j (List.mem_cons_of_mem _ hj)) (n := (field :: fields).length + n)
      (by simp only [List.length_cons]; omega)
    rw [printFieldsOnto, readMoreFields]
    simp only [printStringOnto, skipBlanks_cons (show isBlank ',' = false from rfl),
      skipBlanks_cons (show isBlank '"' = false from rfl), hfield, bind, Except.bind, hmore]

theorem fieldsReader_printed {key : String} {value : Json} {fields : List (String × Json)}
    (h : ∀ field ∈ (key, value) :: fields, ReadsBack element field.2) (rest : List Char) :
    fieldsReader element (printStringOnto key (':' :: value.printOnto (printFieldsOnto fields rest))) =
      .ok ((key, value) :: fields, rest) := by
  have hfield := fieldReader_printed (h (key, value) List.mem_cons_self) key (follows_printFieldsOnto fields rest)
  have hmore := readMoreFields_printed (fun j hj => h j (List.mem_cons_of_mem _ hj)) rest
    (n := (printFieldsOnto fields rest).length + 1) (by have := length_lt_printFieldsOnto fields rest; omega)
  rw [fieldsReader, printStringOnto, skipBlanks_cons rfl]
  show (fieldReader element _ >>= _) = _
  rw [hfield]
  show (readMoreFields element _ _ >>= _) = _
  rw [hmore]
  rfl

end Elements

/-! ## Documents -/

theorem exists_inner (depth : Nat) : ∃ inner, valueReader depth = valueReaderWith inner := by
  cases depth <;> exact ⟨_, rfl⟩

/-- The first character of a whole number is its sign or a digit. -/
theorem begins_int (n : Int) (rest : List Char) :
    ∃ c s, (Json.int n).printOnto rest = c :: s ∧ isBlank c = false ∧ c ≠ ']' := by
  rcases lt_or_ge n 0 with hn | hn
  · refine ⟨'-', Nat.toDigits 10 n.natAbs ++ rest, ?_, rfl, by decide⟩
    show (Number.int n).text.toList ++ rest = _
    rw [toList_text_of_neg hn, List.cons_append]
  · obtain ⟨c, digits, hd, hc⟩ := exists_digit_toDigits n.natAbs
    refine ⟨c, digits ++ rest, ?_, isBlank_of_isDigit hc, fun he => ?_⟩
    · show (Number.int n).text.toList ++ rest = _
      rw [toList_text_of_nonneg hn, hd, List.cons_append]
    · subst he
      cases hc

/-- A canonical document is read back within its nesting. -/
theorem Portable.readsBack {depth : Nat} {j : Json} (h : Portable depth j) (hc : j.Canonical) :
    ReadsBack (valueReader depth) j := by
  induction h with
  | @null depth =>
    obtain ⟨inner, hinner⟩ := exists_inner depth
    exact ⟨fun rest => ⟨'n', _, rfl, rfl, by decide⟩, fun _ => hinner ▸ rfl⟩
  | @bool depth b =>
    obtain ⟨inner, hinner⟩ := exists_inner depth
    cases b with
    | false => exact ⟨fun rest => ⟨'f', _, rfl, rfl, by decide⟩, fun _ => hinner ▸ rfl⟩
    | true => exact ⟨fun rest => ⟨'t', _, rfl, rfl, by decide⟩, fun _ => hinner ▸ rfl⟩
  | @int depth n low high =>
    obtain ⟨inner, hinner⟩ := exists_inner depth
    exact ⟨begins_int n, fun hr => hinner ▸ valueReaderWith_int low high inner hr⟩
  | @string depth s =>
    obtain ⟨inner, hinner⟩ := exists_inner depth
    refine ⟨fun rest => ⟨'"', _, rfl, rfl, by decide⟩, fun {rest} _ => ?_⟩
    rw [hinner]
    show (stringReader _).map _ = _
    rw [stringReader_printed]
    rfl
  | @array depth items _ ih =>
    refine ⟨fun rest => ?_, fun {rest} hr => ?_⟩
    · cases items <;> exact ⟨'[', _, rfl, rfl, by decide⟩
    · cases items with
      | nil => rfl
      | cons item items =>
        show (itemsReader (valueReader depth) (item.printOnto (printItemsOnto items rest))).map _ = _
        rw [itemsReader_printed fun j hj => ih j hj (hc.item hj)]
        rfl
  | @object depth fields _ ih =>
    refine ⟨fun rest => ?_, fun {rest} hr => ?_⟩
    · rcases fields with _ | ⟨⟨key, value⟩, fields⟩ <;> exact ⟨'{', _, rfl, rfl, by decide⟩
    · rcases fields with _ | ⟨⟨key, value⟩, fields⟩
      · rfl
      · show (fieldsReader (valueReader depth)
          (printStringOnto key (':' :: value.printOnto (printFieldsOnto fields rest)))).map _ = _
        rw [fieldsReader_printed fun field hf => ih field hf (hc.value hf)]
        show Except.ok (Json.object (Fields.ofList ((key, value) :: fields)), rest) = _
        rw [Fields.ofList_eq_self hc.ascending]

/-- A document whose numbers are whole and which is not nested too deeply is read back from its compact text. -/
theorem read_compact {j : Json} (hc : j.Canonical) (h : Portable nestingBound j) : read j.compact = .ok j := by
  have hr := (h.readsBack hc).reads (show Follows [] from fun _ hc => nomatch hc)
  rw [read, readNested, compact, String.toList_ofList]
  simp only [hr]
  rfl

end Json

end StateBench

import StateBench.Rule.Reader
import StateBench.Proofs.Json.Canonical
import StateBench.Proofs.Results

/-!
# Rules with more than one operator

An object with two operators is rejected where none is a combination (`Rule.readSimple_of_twoOperators`).
Combinations are looked for first, and one that is found is read as if it stood alone (`Rule.read_of_combination`): all
other operators are dropped. Both hold of the objects at every depth, as a document is a rule only if all documents
that are read in it are rules (`Rule.exists_part`, by induction on the way to the inner one).
-/

namespace StateBench

namespace Rule

/-! ## Operators -/

/-- The combinations, in the order in which they are looked for. -/
def combinations : List String := ["And", "Or", "Not"]

/-- The name of a combination, of a type test or of a comparison. -/
def IsOperator (key : String) : Prop :=
  key ∈ combinations ∨ (TypeTest.ofName? key).isSome ∨ (Operator.ofName? key).isSome

instance : DecidablePred IsOperator := fun key =>
  inferInstanceAs (Decidable (key ∈ combinations ∨ (TypeTest.ofName? key).isSome ∨ (Operator.ofName? key).isSome))

variable {fields : Fields Json} {key first second subject : String} {operand inner outer : Json} {rule : Rule}

/-- Two of the keys are operators. -/
def TwoOperators (fields : Fields Json) : Prop :=
  ∃ first ∈ fields.map Prod.fst, ∃ second ∈ fields.map Prod.fst, first ≠ second ∧ IsOperator first ∧ IsOperator second

/-- The combination that is found first, with the rules in it. -/
def combination? (fields : Fields Json) : Option (String × Json) :=
  combinations.findSome? fun key => (Fields.find? key fields).map (key, ·)

theorem IsOperator.not_plain (h : IsOperator key) : key ∉ plainKeys := by
  have hall : ∀ plain ∈ plainKeys, ¬ IsOperator plain := by decide +kernel
  exact fun hp => hall key hp h

/-! ## One object -/

theorem readSimple_of_twoOperators (two : TwoOperators fields)
    (hsubject : (Fields.find? "Variable" fields).bind Json.string? = some subject)
    (hpath : RefPath.startsAsPath subject = true) :
    ∃ first second, readSimple fields = .error (.manyOperators subject first second) := by
  obtain ⟨first, hfirst, second, hsecond, hne, hop, hop'⟩ := two
  have hkept {key : String} (hk : key ∈ fields.map Prod.fst) (hop : IsOperator key) :
      ∃ value, (key, value) ∈ fields.filter fun field => !plainKeys.contains field.1 := by
    obtain ⟨value, hv⟩ := Fields.exists_of_mem_keys hk
    exact ⟨value, List.mem_filter.2 ⟨hv, by simpa using hop.not_plain⟩⟩
  obtain ⟨value, hv⟩ := hkept hfirst hop
  obtain ⟨value', hv'⟩ := hkept hsecond hop'
  rw [readSimple, hsubject]
  dsimp only
  rw [if_pos hpath]
  split
  · next he =>
    rw [he] at hv
    cases hv
  · next he =>
    rw [he, List.mem_singleton] at hv hv'
    exact absurd (congrArg Prod.fst (hv.trans hv'.symm)) hne
  · exact ⟨_, _, rfl⟩

theorem exists_error_of_twoOperators (two : TwoOperators fields) : ∃ e, readSimple fields = .error e := by
  cases hsubject : (Fields.find? "Variable" fields).bind Json.string? with
  | none => exact ⟨.missingVariable, by rw [readSimple, hsubject]⟩
  | some subject =>
    by_cases hpath : RefPath.startsAsPath subject = true
    · obtain ⟨first, second, h⟩ := readSimple_of_twoOperators two hsubject hpath
      exact ⟨_, h⟩
    · refine ⟨.variableNotPath subject, ?_⟩
      rw [readSimple, hsubject]
      exact if_neg hpath

/-- The rule that a combination stands for. -/
def readCombination (key : String) (operand : Json) : Except RuleError Rule :=
  if key = "And" then (readList "And" operand).map .and
  else if key = "Or" then (readList "Or" operand).map .or
  else if (operand.field? "Next").isSome then .error (.nestedNext "Not")
  else (read operand).map .not

theorem read_object (fields : Fields Json) :
    read (.object fields) =
      (combination? fields).elim (readSimple fields) fun found => readCombination found.1 found.2 := by
  rw [read]
  split
  · next h => simp [combination?, combinations, readCombination, h]
  · next hand =>
    split
    · next h => simp [combination?, combinations, readCombination, hand, h]
    · next hor =>
      split
      · next h => simp [combination?, combinations, readCombination, hand, hor, h]
      · next h => simp [combination?, combinations, hand, hor, h]

theorem mem_combinations (h : combination? fields = some (key, operand)) : key ∈ combinations := by
  obtain ⟨own, hown, h⟩ := List.exists_of_findSome?_eq_some h
  obtain ⟨_, -, he⟩ := Option.map_eq_some_iff.1 h
  cases he
  exact hown

theorem combination?_singleton (h : key ∈ combinations) : combination? [(key, operand)] = some (key, operand) := by
  simp only [combinations, List.mem_cons, List.not_mem_nil, or_false] at h
  rcases h with rfl | rfl | rfl <;> simp [combination?, combinations, Fields.find?]

theorem read_of_found (h : combination? fields = some (key, operand)) :
    read (.object fields) = readCombination key operand := by
  rw [read_object, h, Option.elim_some]

/-- What stands beside a combination is not looked at. -/
theorem read_of_combination (h : combination? fields = some (key, operand)) :
    read (.object fields) = read (.object [(key, operand)]) := by
  rw [read_of_found h, read_of_found (combination?_singleton (mem_combinations h))]

/-! ## Objects at every depth -/

/-- The inner document is read as a rule when the outer one is. -/
inductive ReadIn (inner : Json) : Json → Prop
  | self : ReadIn inner inner
  | item {fields : Fields Json} {key : String} {items : List Json} {item : Json}
      (found : combination? fields = some (key, .array items)) (several : key = "And" ∨ key = "Or")
      (hm : item ∈ items) (h : ReadIn inner item) : ReadIn inner (.object fields)
  | not {fields : Fields Json} {operand : Json} (found : combination? fields = some ("Not", operand))
      (h : ReadIn inner operand) : ReadIn inner (.object fields)

/-- A rule is part of another. -/
inductive PartOf (part : Rule) : Rule → Prop
  | self : PartOf part part
  | and {rules : List Rule} {rule : Rule} (hm : rule ∈ rules) (h : PartOf part rule) : PartOf part (.and rules)
  | or {rules : List Rule} {rule : Rule} (hm : rule ∈ rules) (h : PartOf part rule) : PartOf part (.or rules)
  | not {rule : Rule} (h : PartOf part rule) : PartOf part (.not rule)

theorem exists_rule_of_mem {items : List Json} {rules : List Rule} (h : readItems key items = .ok rules) {item : Json}
    (hm : item ∈ items) : ∃ rule ∈ rules, read item = .ok rule := by
  induction items generalizing rules with
  | nil => cases hm
  | cons first items ih =>
    rw [readItems] at h
    split at h
    · cases h
    · obtain ⟨rule, hrule, h⟩ := ok_of_bind h
      obtain ⟨rest, hrest, h⟩ := ok_of_bind h
      cases h
      rcases List.mem_cons.1 hm with rfl | hm
      · exact ⟨rule, List.mem_cons_self, hrule⟩
      · obtain ⟨other, ho, hread⟩ := ih hrest hm
        exact ⟨other, List.mem_cons_of_mem _ ho, hread⟩

theorem readItems_of_readList {items : List Json} {rules : List Rule} (h : readList key (.array items) = .ok rules) :
    readItems key items = .ok rules := by
  cases items with
  | nil =>
    rw [readList] at h
    cases h
  | cons item items => simpa [readList] using h

/-- A document is a rule only if what is read in it is. -/
theorem exists_part (h : ReadIn inner outer) (hr : read outer = .ok rule) :
    ∃ part, read inner = .ok part ∧ part.PartOf rule := by
  induction h generalizing rule with
  | self => exact ⟨rule, hr, .self⟩
  | item found several hm _ ih =>
    rw [read_of_found found] at hr
    rcases several with rfl | rfl
    · obtain ⟨rules, hrules, rfl⟩ := ok_of_map hr
      obtain ⟨rule, hrule, hread⟩ := exists_rule_of_mem (readItems_of_readList hrules) hm
      obtain ⟨part, hpart, hin⟩ := ih hread
      exact ⟨part, hpart, .and hrule hin⟩
    · obtain ⟨rules, hrules, rfl⟩ := ok_of_map hr
      obtain ⟨rule, hrule, hread⟩ := exists_rule_of_mem (readItems_of_readList hrules) hm
      obtain ⟨part, hpart, hin⟩ := ih hread
      exact ⟨part, hpart, .or hrule hin⟩
  | not found _ ih =>
    rw [read_of_found found, readCombination, if_neg (by decide), if_neg (by decide)] at hr
    split at hr
    · cases hr
    · obtain ⟨rule, hread, rfl⟩ := ok_of_map hr
      obtain ⟨part, hpart, hin⟩ := ih hread
      exact ⟨part, hpart, .not hin⟩

/-- Where an object with two operators is read, at any depth: without a combination it is rejected, and the document
around it with it; a combination is read as if it stood alone. -/
theorem read_of_twoOperators (h : ReadIn (.object fields) outer) (two : TwoOperators fields) :
    (combination? fields = none → (∃ e, read outer = .error e) ∧
      ∀ subject, (Fields.find? "Variable" fields).bind Json.string? = some subject →
        RefPath.startsAsPath subject = true →
          ∃ first second, read (.object fields) = .error (.manyOperators subject first second)) ∧
      ∀ key operand, combination? fields = some (key, operand) →
        read (.object fields) = read (.object [(key, operand)]) ∧
          ∀ rule, read outer = .ok rule → ∃ part, read (.object [(key, operand)]) = .ok part ∧ part.PartOf rule := by
  refine ⟨fun hnone => ?_, fun key operand hfound => ?_⟩
  · have hsimple : read (.object fields) = readSimple fields := by rw [read_object, hnone, Option.elim_none]
    rw [hsimple]
    refine ⟨?_, fun subject hsubject hpath => readSimple_of_twoOperators two hsubject hpath⟩
    obtain ⟨e, he⟩ := exists_error_of_twoOperators two
    cases hr : read outer with
    | error other => exact ⟨other, rfl⟩
    | ok rule =>
      obtain ⟨part, hpart, -⟩ := exists_part h hr
      rw [hsimple, he] at hpart
      cases hpart
  · have halone := read_of_combination hfound
    exact ⟨halone, fun rule hr => halone ▸ exists_part h hr⟩

/-- A value that is to equal one number and to be less than another. -/
def equalAndLess : Fields Json :=
  [("NumericEquals", .int 1), ("NumericLessThan", .int 3), ("Variable", .string "$.a")]

theorem read_of_equalAndLess :
    TwoOperators equalAndLess ∧
      ∃ e, read (.object [("Not", .object [("Or", .array [.object equalAndLess])])]) = .error e := by
  have two : TwoOperators equalAndLess :=
    ⟨"NumericEquals", by decide, "NumericLessThan", by decide, by decide, by decide +kernel, by decide +kernel⟩
  have hin : ReadIn (.object equalAndLess) (.object [("Not", .object [("Or", .array [.object equalAndLess])])]) :=
    .not (combination?_singleton (by decide))
      (.item (combination?_singleton (by decide)) (.inr rfl) List.mem_cons_self .self)
  exact ⟨two, ((read_of_twoOperators hin two).1 (by decide +kernel)).1⟩

/-- A combination with a comparison beside it, which is dropped. -/
def presentAndEqual : Fields Json :=
  [("And", .array [.object [("IsPresent", .bool true), ("Variable", .string "$.a")]]), ("NumericEquals", .int 1),
    ("Variable", .string "$.a")]

theorem read_presentAndEqual : read (.object presentAndEqual) = .ok (.and [.test "$.a" .isPresent true]) := by
  have hitem : read (.object [("IsPresent", .bool true), ("Variable", .string "$.a")]) =
      .ok (.test "$.a" .isPresent true) := by
    rw [read_object]
    rfl
  have hfound : combination? presentAndEqual =
      some ("And", .array [.object [("IsPresent", .bool true), ("Variable", .string "$.a")]]) := by
    rfl
  rw [read_of_found hfound, readCombination, if_pos rfl, readList, readItems, hitem, readItems]
  · rfl
  · exact List.cons_ne_nil _ _

theorem accepted_of_twoOperators :
    ¬ ∀ fields : Fields Json, TwoOperators fields → ∃ e, read (.object fields) = .error e := by
  intro h
  obtain ⟨e, he⟩ := h presentAndEqual
    ⟨"And", by decide, "NumericEquals", by decide, by decide, by decide, by decide +kernel⟩
  rw [read_presentAndEqual] at he
  cases he

end Rule

end StateBench

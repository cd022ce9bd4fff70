import StateBench.Rule.Truth
import StateBench.Proofs.Results

/-!
# Rules in classical logic

Only a text that is no path makes a rule fail. A rule all of whose texts are paths (`Rule.Readable`) has an answer, and
that is its truth value in classical logic (`Rule.Readable.answers`, by induction on the rule): looking at rules from
the left up to the first that decides gives the same as looking at all of them (`Rule.allHold_of_answers`,
`Rule.someHolds_of_answers`). So the rules in a combination can stand in any order, at any depth
(`Rule.Reordered.isTrue_iff`). A combination and its negation look at the same rules, so that one law of De Morgan holds
for rules that fail as well (`Rule.someHolds_map_not`).
-/

namespace StateBench

/-! ## Paths and operands -/

namespace RefPath

variable {path : String} {input context : Json}

/-- The text is a path. -/
def IsPath (path : String) : Prop := ∃ p, read path = .ok p

/-- A path leads to a value of the input, or of the context. -/
def LeadsTo (input context : Json) (path : String) (value : Json) : Prop :=
  ∃ p, read path = .ok p ∧ (if p.inContext then context else input).follow? p.steps = some value

theorem IsPath.lookup (h : IsPath path) (input context : Json) :
    ∃ found, lookup path input context = .ok found ∧
      ∀ value, found = some value ↔ LeadsTo input context path value := by
  obtain ⟨p, hp⟩ := h
  have hparse : parse path = .ok p := by rw [parse, hp]; rfl
  have hlookup : RefPath.lookup path input context =
      .ok ((if p.inContext then context else input).follow? p.steps) := by
    rw [RefPath.lookup, hparse]
    rfl
  refine ⟨_, hlookup, fun value => ⟨fun h => ⟨p, hp, h⟩, ?_⟩⟩
  rintro ⟨q, hq, h⟩
  obtain rfl : p = q := Except.ok.inj (hp.symm.trans hq)
  exact h

end RefPath

namespace Operand

variable {operand : Operand}

/-- The operand is a value, or a text that is a path. -/
def Readable : Operand → Prop
  | .literal _ => True
  | .path p => RefPath.IsPath p

/-- The value that stands on the right side of a comparison. -/
def Gives (input context : Json) : Operand → Json → Prop
  | .literal own, value => own = value
  | .path p, value => RefPath.LeadsTo input context p value

theorem Readable.value (h : operand.Readable) (input context : Json) :
    ∃ found, operand.value input context = .ok found ∧
      ∀ value, found = some value ↔ operand.Gives input context value := by
  cases operand with
  | literal own => exact ⟨some own, rfl, fun value => Option.some_inj⟩
  | path p => exact RefPath.IsPath.lookup h input context

end Operand

namespace TypeTest

/-- The values that pass a test. -/
def Accepts : TypeTest → Json → Prop
  | .isNull, value => value = .null
  | .isPresent, _ => True
  | .isNumeric, value => ∃ n, value = .number n
  | .isString, value => ∃ s, value = .string s
  | .isBoolean, value => ∃ b, value = .bool b
  | .isTimestamp, value => ∃ s t, value = .string s ∧ Timestamp.read? s = some t

/-- Where there is no value, no test is passed. -/
theorem passes_iff {typeTest : TypeTest} {found : Option Json} :
    typeTest.passes found = true ↔ ∃ value, found = some value ∧ typeTest.Accepts value := by
  rcases found with _ | value
  · cases typeTest <;> simp [passes]
  · cases typeTest <;> cases value <;> simp [passes, Accepts, Option.isSome_iff_exists]

end TypeTest

namespace Rule

variable {rule other : Rule} {rules : List Rule} {input context : Json}

/-! ## Truth -/

/-- All paths in the rule, at any depth, can be read. -/
inductive Readable : Rule → Prop
  | and {rules : List Rule} (h : ∀ rule ∈ rules, Readable rule) : Readable (.and rules)
  | or {rules : List Rule} (h : ∀ rule ∈ rules, Readable rule) : Readable (.or rules)
  | not {rule : Rule} (h : Readable rule) : Readable (.not rule)
  | compare {subject : String} {kind : ValueKind} {relation : Relation} {operand : Operand}
      (left : RefPath.IsPath subject) (right : operand.Readable) : Readable (.compare subject kind relation operand)
  | test {subject : String} {typeTest : TypeTest} {expected : Bool} (h : RefPath.IsPath subject) :
      Readable (.test subject typeTest expected)

/-- The truth value of a rule in classical logic; a comparison needs a value on both sides. -/
def IsTrue (input context : Json) : Rule → Prop
  | .and rules => ∀ rule, (_h : rule ∈ rules) → IsTrue input context rule
  | .or rules => ∃ rule, ∃ _h : rule ∈ rules, IsTrue input context rule
  | .not rule => ¬ IsTrue input context rule
  | .compare subject kind relation operand =>
    ∃ left right, RefPath.LeadsTo input context subject left ∧ operand.Gives input context right ∧
      relation.holds kind left right = true
  | .test subject typeTest expected =>
    (∃ value, RefPath.LeadsTo input context subject value ∧ typeTest.Accepts value) ↔ expected = true
termination_by rule => sizeOf rule
decreasing_by
  all_goals first
    | have := List.sizeOf_lt_of_mem _h; simp; omega
    | simp

theorem isTrue_and_iff : (Rule.and rules).IsTrue input context ↔ ∀ rule ∈ rules, rule.IsTrue input context := by
  rw [IsTrue]

theorem isTrue_or_iff : (Rule.or rules).IsTrue input context ↔ ∃ rule ∈ rules, rule.IsTrue input context := by
  rw [IsTrue]
  simp

theorem isTrue_not_iff : (Rule.not rule).IsTrue input context ↔ ¬ rule.IsTrue input context := by
  rw [IsTrue]

/-- The rule has an answer, which is its truth value. -/
def Answers (input context : Json) (rule : Rule) : Prop :=
  ∃ answer, rule.holds input context = .ok answer ∧ (answer = true ↔ rule.IsTrue input context)

/-- The rules after the first that is false do not matter. -/
theorem allHold_of_answers (h : ∀ rule ∈ rules, rule.Answers input context) :
    ∃ answer, allHold input context rules = .ok answer ∧
      (answer = true ↔ ∀ rule ∈ rules, rule.IsTrue input context) := by
  induction rules with
  | nil => exact ⟨true, rfl, by simp⟩
  | cons rule rules ih =>
    obtain ⟨⟨first, hfirst, htrue⟩, hrules⟩ := List.forall_mem_cons.1 h
    obtain ⟨rest, hrest, hall⟩ := ih hrules
    rw [List.forall_mem_cons, ← htrue, ← hall, allHold, hfirst]
    cases first with
    | true => exact ⟨rest, hrest, by simp⟩
    | false => exact ⟨false, rfl, by simp⟩

/-- The rules after the first that is true do not matter. -/
theorem someHolds_of_answers (h : ∀ rule ∈ rules, rule.Answers input context) :
    ∃ answer, someHolds input context rules = .ok answer ∧
      (answer = true ↔ ∃ rule ∈ rules, rule.IsTrue input context) := by
  induction rules with
  | nil => exact ⟨false, rfl, by simp⟩
  | cons rule rules ih =>
    obtain ⟨⟨first, hfirst, htrue⟩, hrules⟩ := List.forall_mem_cons.1 h
    obtain ⟨rest, hrest, hsome⟩ := ih hrules
    rw [List.exists_mem_cons_iff, ← htrue, ← hsome, someHolds, hfirst]
    cases first with
    | true => exact ⟨true, rfl, by simp⟩
    | false => exact ⟨rest, hrest, by simp⟩

theorem answers_compare {subject : String} {operand : Operand} (hsubject : RefPath.IsPath subject)
    (hoperand : operand.Readable) (kind : ValueKind) (relation : Relation) (input context : Json) :
    (Rule.compare subject kind relation operand).Answers input context := by
  obtain ⟨left, hleft, hleads⟩ := hsubject.lookup input context
  obtain ⟨right, hright, hgives⟩ := hoperand.value input context
  rw [Answers, holds, IsTrue, hleft]
  cases left with
  | none => exact ⟨false, rfl, by simp [← hleads]⟩
  | some left =>
    dsimp only [bind, Except.bind]
    rw [hright]
    cases right with
    | none => exact ⟨false, rfl, by simp [← hgives]⟩
    | some right => exact ⟨relation.holds kind left right, rfl, by simp [← hleads, ← hgives]⟩

theorem answers_test {subject : String} (h : RefPath.IsPath subject) (typeTest : TypeTest) (expected : Bool)
    (input context : Json) : (Rule.test subject typeTest expected).Answers input context := by
  obtain ⟨found, hfound, hleads⟩ := h.lookup input context
  have hpasses : typeTest.passes found = true ↔
      ∃ value, RefPath.LeadsTo input context subject value ∧ typeTest.Accepts value := by
    simp only [TypeTest.passes_iff, hleads]
  rw [Answers, holds, IsTrue, hfound, ← hpasses]
  exact ⟨typeTest.passes found == expected, rfl, by rw [beq_iff_eq, Bool.eq_iff_iff]⟩

/-- A rule all of whose texts are paths does not fail, and says what is true. -/
theorem Readable.answers (h : rule.Readable) (input context : Json) : rule.Answers input context := by
  induction h with
  | @and rules _ ih =>
    rw [Answers, holds, isTrue_and_iff]
    exact allHold_of_answers ih
  | @or rules _ ih =>
    rw [Answers, holds, isTrue_or_iff]
    exact someHolds_of_answers ih
  | @not rule _ ih =>
    obtain ⟨answer, hanswer, htrue⟩ := ih
    rw [Answers, holds, isTrue_not_iff, ← htrue, hanswer]
    exact ⟨!answer, rfl, by simp⟩
  | compare left right => exact answers_compare left right _ _ input context
  | test h => exact answers_test h _ _ input context

/-! ## Order -/

/-- The rules in combinations are put in another order, at any depth and any number of times. -/
inductive Reordered : Rule → Rule → Prop
  | refl (rule : Rule) : Reordered rule rule
  | trans {first second third : Rule} (h : Reordered first second) (later : Reordered second third) :
      Reordered first third
  | and {rules others : List Rule} (h : rules.Perm others) : Reordered (.and rules) (.and others)
  | or {rules others : List Rule} (h : rules.Perm others) : Reordered (.or rules) (.or others)
  | inAnd (before after : List Rule) {rule other : Rule} (h : Reordered rule other) :
      Reordered (.and (before ++ rule :: after)) (.and (before ++ other :: after))
  | inOr (before after : List Rule) {rule other : Rule} (h : Reordered rule other) :
      Reordered (.or (before ++ rule :: after)) (.or (before ++ other :: after))
  | inNot {rule other : Rule} (h : Reordered rule other) : Reordered (.not rule) (.not other)

theorem readable_and_iff : (Rule.and rules).Readable ↔ ∀ rule ∈ rules, rule.Readable :=
  ⟨fun | .and h => h, .and⟩

theorem readable_or_iff : (Rule.or rules).Readable ↔ ∀ rule ∈ rules, rule.Readable :=
  ⟨fun | .or h => h, .or⟩

theorem readable_not_iff : (Rule.not rule).Readable ↔ rule.Readable :=
  ⟨fun | .not h => h, .not⟩

namespace Reordered

theorem readable_iff (h : Reordered rule other) : rule.Readable ↔ other.Readable := by
  induction h with
  | refl rule => exact Iff.rfl
  | trans _ _ ih later => exact ih.trans later
  | and h => simp only [readable_and_iff, h.mem_iff]
  | or h => simp only [readable_or_iff, h.mem_iff]
  | inAnd before after _ ih => simp only [readable_and_iff, List.forall_mem_append, List.forall_mem_cons, ih]
  | inOr before after _ ih => simp only [readable_or_iff, List.forall_mem_append, List.forall_mem_cons, ih]
  | inNot _ ih => simp only [readable_not_iff, ih]

theorem isTrue_iff (h : Reordered rule other) : rule.IsTrue input context ↔ other.IsTrue input context := by
  induction h with
  | refl rule => exact Iff.rfl
  | trans _ _ ih later => exact ih.trans later
  | and h => simp only [isTrue_and_iff, h.mem_iff]
  | or h => simp only [isTrue_or_iff, h.mem_iff]
  | inAnd before after _ ih => simp only [isTrue_and_iff, List.forall_mem_append, List.forall_mem_cons, ih]
  | inOr before after _ ih => simp only [isTrue_or_iff, List.mem_append, List.mem_cons, or_and_right, exists_or,
      exists_eq_left, ih]
  | inNot _ ih => simp only [isTrue_not_iff, ih]

theorem holds_eq (h : Reordered rule other) (hr : rule.Readable) (input context : Json) :
    other.holds input context = rule.holds input context := by
  obtain ⟨answer, hanswer, htrue⟩ := hr.answers input context
  obtain ⟨again, hagain, htrue'⟩ := (h.readable_iff.1 hr).answers input context
  have he : answer = again := Bool.eq_iff_iff.2 (htrue.trans (h.isTrue_iff.trans htrue'.symm))
  rw [hanswer, hagain, he]

end Reordered

/-! ## Negation -/

/-- Rules are looked at up to the first that is false; negated, up to the first that is true. -/
theorem someHolds_map_not (input context : Json) (rules : List Rule) :
    someHolds input context (rules.map .not) = (allHold input context rules).map (!·) := by
  induction rules with
  | nil => rfl
  | cons rule rules ih =>
    rw [List.map_cons, someHolds, allHold, holds]
    cases hr : rule.holds input context with
    | error e => rfl
    | ok answer =>
      cases answer with
      | true => exact ih
      | false => rfl

end Rule

/-! ## Choices -/

/-- The first choice in a list whose rule is true leads to the state. -/
def Choice.FirstTrue (input context : Json) (choices : List Choice) (next : String) : Prop :=
  ∃ before choice after, choices = before ++ choice :: after ∧
    (∀ earlier ∈ before, ¬ earlier.rule.IsTrue input context) ∧ choice.rule.IsTrue input context ∧ choice.next = next

theorem Choice.first?_of_readable {choices : List Choice} (h : ∀ choice ∈ choices, choice.rule.Readable)
    (input context : Json) :
    ∃ found, first? input context choices = .ok found ∧
      (∀ next, found = some next ↔ FirstTrue input context choices next) ∧
      (found = none ↔ ∀ choice ∈ choices, ¬ choice.rule.IsTrue input context) := by
  induction choices with
  | nil => exact ⟨none, rfl, by simp [FirstTrue], by simp⟩
  | cons choice choices ih =>
    obtain ⟨hchoice, hchoices⟩ := List.forall_mem_cons.1 h
    obtain ⟨answer, hanswer, htrue⟩ := hchoice.answers input context
    obtain ⟨found, hfound, hfirst, hnone⟩ := ih hchoices
    rw [first?, hanswer]
    cases answer with
    | true =>
      have hr : choice.rule.IsTrue input context := htrue.1 rfl
      refine ⟨some choice.next, rfl, fun next => ?_, by simp [hr]⟩
      rw [FirstTrue, exists_first_cons]
      simp [hr]
    | false =>
      have hr : ¬ choice.rule.IsTrue input context := fun h => by cases htrue.2 h
      refine ⟨found, hfound, fun next => ?_, by simp [hr, hnone]⟩
      rw [FirstTrue, exists_first_cons, hfirst]
      simp [hr, FirstTrue]

/-- Rules all of whose texts are paths are true or false as classical logic says, in whatever order their parts stand; a
conjunction is negated part by part, also where it fails; and of choices with such rules the first true one is taken. -/
theorem Rule.classical_of_readable (input context : Json) :
    (∀ rule : Rule, rule.Readable → rule.Answers input context) ∧
      (∀ rule other : Rule, rule.Readable → Reordered rule other →
        other.holds input context = rule.holds input context) ∧
      (∀ rules : List Rule, (Rule.not (.and rules)).holds input context =
        (Rule.or (rules.map .not)).holds input context) ∧
      ∀ choices : List Choice, (∀ choice ∈ choices, choice.rule.Readable) →
        ∃ found, Choice.first? input context choices = .ok found ∧
          (∀ next, found = some next ↔ Choice.FirstTrue input context choices next) ∧
          (found = none ↔ ∀ choice ∈ choices, ¬ choice.rule.IsTrue input context) := by
  refine ⟨fun rule h => h.answers input context, fun rule other hr h => h.holds_eq hr input context, fun rules => ?_,
    fun choices h => Choice.first?_of_readable h input context⟩
  rw [holds, holds, holds, someHolds_map_not]

/-- An order above the limit, without a note. -/
def Rule.express : Rule :=
  .and [.compare "$.total" .numeric .greaterThan (.path "$$.limit"), .not (.test "$.note" .isPresent true)]

/-- The same, with the look for a note first. -/
def Rule.expressReordered : Rule :=
  .and [.not (.test "$.note" .isPresent true), .compare "$.total" .numeric .greaterThan (.path "$$.limit")]

theorem Rule.readable_express : express.Readable := by
  have htotal : RefPath.IsPath "$.total" := ⟨⟨false, [.field "total"]⟩, by decide +kernel⟩
  have hlimit : RefPath.IsPath "$$.limit" := ⟨⟨true, [.field "limit"]⟩, by decide +kernel⟩
  have hnote : RefPath.IsPath "$.note" := ⟨⟨false, [.field "note"]⟩, by decide +kernel⟩
  have hcompare : (Rule.compare "$.total" .numeric .greaterThan (.path "$$.limit")).Readable := .compare htotal hlimit
  exact .and (by simp [hcompare, Readable.not (.test hnote)])

theorem Rule.classical_of_express :
    express.Readable ∧ Reordered express expressReordered ∧
      express.IsTrue (.record [("total", .int 150)]) (.record [("limit", .int 100)]) ∧
      expressReordered.holds (.record [("total", .int 150)]) (.record [("limit", .int 100)]) = .ok true ∧
      Choice.first? (.record [("total", .int 150)]) (.record [("limit", .int 100)])
        [⟨.not express, "Standard"⟩, ⟨express, "Express"⟩] = .ok (some "Express") := by
  obtain ⟨hanswers, hreordered, -, hfirst⟩ :=
    classical_of_readable (.record [("total", .int 150)]) (.record [("limit", .int 100)])
  have hperm : Reordered express expressReordered := .and (List.Perm.swap _ _ _)
  have hholds : express.holds (.record [("total", .int 150)]) (.record [("limit", .int 100)]) = .ok true := by
    decide +kernel
  obtain ⟨answer, hanswer, htrue⟩ := hanswers express readable_express
  obtain rfl : true = answer := Except.ok.inj (hholds.symm.trans hanswer)
  obtain ⟨found, hfound, hnext, -⟩ := hfirst [⟨.not express, "Standard"⟩, ⟨express, "Express"⟩]
    (by simp [readable_express, Readable.not])
  have hfirst : found = some "Express" := by
    refine (hnext "Express").2 ⟨[⟨.not express, "Standard"⟩], ⟨express, "Express"⟩, [], rfl, ?_, htrue.1 rfl, rfl⟩
    simp [isTrue_not_iff, htrue.1]
  exact ⟨readable_express, hperm, htrue.1 rfl, (hreordered _ _ readable_express hperm).trans hholds, hfirst ▸ hfound⟩

end StateBench

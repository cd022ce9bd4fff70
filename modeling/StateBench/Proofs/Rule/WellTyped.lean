import StateBench.Proofs.Rule.Nodes

/-!
# Rules that are read are well typed

A rule that is well typed at all of its nodes is read of the document that states it (`Rule.read_toJson`, by induction
on the rule). So the rules that are read are just these (`Rule.wellTyped_of_read`).
-/

namespace StateBench

/-! ## Names of operators -/

def ValueKind.name : ValueKind → String
  | .string => "String"
  | .numeric => "Numeric"
  | .boolean => "Boolean"
  | .timestamp => "Timestamp"

def Relation.name : Relation → String
  | .equals => "Equals"
  | .lessThan => "LessThan"
  | .greaterThan => "GreaterThan"
  | .lessThanEquals => "LessThanEquals"
  | .greaterThanEquals => "GreaterThanEquals"
  | .matches => "Matches"

def TypeTest.name : TypeTest → String
  | .isNull => "IsNull"
  | .isPresent => "IsPresent"
  | .isNumeric => "IsNumeric"
  | .isString => "IsString"
  | .isBoolean => "IsBoolean"
  | .isTimestamp => "IsTimestamp"

def Operator.name (op : Operator) : String :=
  op.kind.name ++ op.relation.name ++ if op.againstPath then "Path" else ""

theorem TypeTest.ofName?_name (typeTest : TypeTest) :
    ofName? typeTest.name = some typeTest ∧ typeTest.name ∉ Rule.combinations ∧ typeTest.name ∉ Rule.plainKeys := by
  cases typeTest <;> decide +kernel

namespace Operator

theorem name_not_mem (op : Operator) : op.name ∉ Rule.combinations ∧ op.name ∉ Rule.plainKeys := by
  obtain ⟨kind, relation, againstPath⟩ := op
  cases kind <;> cases relation <;> cases againstPath <;> decide +kernel

theorem ofName?_name {op : Operator} (h : op.isDefined = true) :
    TypeTest.ofName? op.name = none ∧ ofName? op.name = some op := by
  obtain ⟨kind, relation, againstPath⟩ := op
  revert h
  cases kind <;> cases relation <;> cases againstPath <;> decide +kernel

end Operator

namespace Operand

def toJson : Operand → Json
  | .literal value => value
  | .path p => .string p

def isPath : Operand → Bool
  | .literal _ => false
  | .path _ => true

end Operand

/-! ## Documents of rules -/

namespace Rule

variable {rule : Rule} {key subject : String} {operand : Json}

/-- A document that states the rule. -/
def toJson : Rule → Json
  | .and rules => .object [("And", .array (rules.map toJson))]
  | .or rules => .object [("Or", .array (rules.map toJson))]
  | .not rule => .object [("Not", rule.toJson)]
  | .compare subject kind relation operand =>
    .object [((⟨kind, relation, operand.isPath⟩ : Operator).name, operand.toJson), ("Variable", .string subject)]
  | .test subject typeTest expected => .object [(typeTest.name, .bool expected), ("Variable", .string subject)]

/-- What holds of a combination as soon as it holds of the rules in it, and of all other rules, holds of every rule. -/
theorem induction {motive : Rule → Prop} (and : ∀ rules, (∀ rule ∈ rules, motive rule) → motive (.and rules))
    (or : ∀ rules, (∀ rule ∈ rules, motive rule) → motive (.or rules))
    (not : ∀ rule, motive rule → motive (.not rule))
    (compare : ∀ subject kind relation operand, motive (.compare subject kind relation operand))
    (test : ∀ subject typeTest expected, motive (.test subject typeTest expected)) : ∀ rule, motive rule
  | .and rules => and rules fun rule _ => induction and or not compare test rule
  | .or rules => or rules fun rule _ => induction and or not compare test rule
  | .not rule => not rule (induction and or not compare test rule)
  | .compare subject kind relation operand => compare subject kind relation operand
  | .test subject typeTest expected => test subject typeTest expected

/-- A rule on one variable is read of its operator and the operand. -/
theorem read_condition (hk : key ∉ combinations) (hp : key ∉ plainKeys) (hs : subject.toList.head? = some '$') :
    read (.object [(key, operand), ("Variable", .string subject)]) = readCondition subject key operand := by
  have hnone : combination? [(key, operand), ("Variable", .string subject)] = none := by
    simp only [combinations, List.mem_cons, List.not_mem_nil, or_false, not_or] at hk
    simp [combination?, combinations, Fields.find?, hk]
  have hv : key ≠ "Variable" := fun he => hp (he ▸ by decide)
  have hfilter : [(key, operand), ("Variable", Json.string subject)].filter
      (fun field => !plainKeys.contains field.1) = [(key, operand)] := by
    rw [List.filter_cons_of_pos (by simpa using hp), List.filter_cons_of_neg (by simp [plainKeys]), List.filter_nil]
  rw [read_object, hnone, Option.elim_none, readSimple, Fields.find?, if_neg hv, Fields.find?, if_pos rfl]
  show (if _ then _ else _) = _
  rw [if_pos (startsAsPath_iff.2 hs), hfilter]

theorem readOperand_toJson {kind : ValueKind} {relation : Relation} {right : Operand} (h : right.Fits kind) :
    readOperand key ⟨kind, relation, right.isPath⟩ right.toJson = .ok right := by
  cases right with
  | literal value => exact readOperand_ok_iff.2 (.inr ⟨rfl, h, rfl⟩)
  | path p => exact readOperand_ok_iff.2 (.inl ⟨rfl, p, rfl, h, rfl⟩)

theorem next_toJson (rule : Rule) : rule.toJson.field? "Next" = none := by
  have hnext {key : String} (hp : key ∉ plainKeys) (subject : String) (operand : Json) :
      Json.field? (.object [(key, operand), ("Variable", .string subject)]) "Next" = none := by
    have hne : key ≠ "Next" := fun he => hp (he ▸ by decide)
    simp [Json.field?, Fields.find?, hne]
  cases rule with
  | compare subject kind relation operand =>
    rw [toJson]
    exact hnext (Operator.name_not_mem _).2 subject operand.toJson
  | test subject typeTest expected =>
    rw [toJson]
    exact hnext typeTest.ofName?_name.2.2 subject (.bool expected)
  | _ =>
    rw [toJson]
    rfl

theorem forall₂_toJson {rules : List Rule} (h : ∀ rule ∈ rules, read rule.toJson = .ok rule) :
    List.Forall₂ (fun item rule => item.field? "Next" = none ∧ read item = .ok rule) (rules.map toJson) rules := by
  rw [List.forall₂_map_left_iff, List.forall₂_same]
  exact fun rule hm => ⟨rule.next_toJson, h rule hm⟩

/-- A rule that is well typed at all of its nodes is read of the document that states it. -/
theorem read_toJson (h : ∀ part, PartOf part rule → part.WellTyped) : read rule.toJson = .ok rule := by
  induction rule using Rule.induction with
  | and rules ih =>
    rw [toJson]
    refine ReadAs.read (.and (combination?_singleton (by decide)) (h _ .self) (forall₂_toJson fun rule hm => ?_))
    exact ih rule hm fun part hp => h part (.and hm hp)
  | or rules ih =>
    rw [toJson]
    refine ReadAs.read (.or (combination?_singleton (by decide)) (h _ .self) (forall₂_toJson fun rule hm => ?_))
    exact ih rule hm fun part hp => h part (.or hm hp)
  | not rule ih =>
    rw [toJson]
    have hr : read rule.toJson = .ok rule := ih fun part hp => h part (.not hp)
    exact ReadAs.read (.not (combination?_singleton (by decide)) rule.next_toJson hr)
  | compare subject kind relation operand =>
    obtain ⟨hs, hfits, hallowed⟩ := h _ .self
    have hdefined : (⟨kind, relation, operand.isPath⟩ : Operator).isDefined = true := by
      refine (Operator.isDefined_iff _).2 ⟨fun hm => ?_, hallowed.truth⟩
      obtain ⟨hk, value, rfl⟩ := hallowed.pattern hm
      exact ⟨hk, rfl⟩
    obtain ⟨hc, hp⟩ := Operator.name_not_mem ⟨kind, relation, operand.isPath⟩
    obtain ⟨htest, hname⟩ := Operator.ofName?_name hdefined
    rw [toJson, read_condition hc hp hs, readCondition, htest]
    dsimp only
    rw [hname]
    dsimp only
    rw [readOperand_toJson hfits]
    rfl
  | test subject typeTest expected =>
    obtain ⟨hname, hc, hp⟩ := typeTest.ofName?_name
    rw [toJson, read_condition hc hp (h _ .self), readCondition, hname]
    rfl

/-- A rule that is read is well typed at all of its nodes, and each of them is read of a document in that of the rule.
The documents that are read below it have no field `Next`. No more can be said: every rule that is well typed at all of
its nodes is read of some document. -/
theorem wellTyped_of_read :
    (∀ doc rule, read doc = .ok rule →
      (∀ part, PartOf part rule → part.WellTyped ∧ ∃ inner, ReadIn inner doc ∧ read inner = .ok part) ∧
        ∀ inner, ReadBelow inner doc →
          inner.field? "Next" = none ∧ ∃ part, PartOf part rule ∧ read inner = .ok part) ∧
      ∀ rule, (∀ part, PartOf part rule → part.WellTyped) → ∃ doc, read doc = .ok rule := by
  refine ⟨fun doc rule h => ⟨fun part hp => ?_, fun inner hin => ⟨hin.next h, ?_⟩⟩, fun rule h =>
    ⟨rule.toJson, read_toJson h⟩⟩
  · obtain ⟨inner, hin, hinner⟩ := exists_doc hp h
    exact ⟨(readAs_of_read hinner).wellTyped, inner, hin, hinner⟩
  · obtain ⟨part, hpart, hp⟩ := exists_part hin.readIn h
    exact ⟨part, hp, hpart⟩

def isOwn : Json := .object [("StringMatches", .string "self*"), ("Variable", .string "$.for")]

def isOverdue : Json :=
  .object [("TimestampLessThan", .string "2024-01-01T00:00:00Z"), ("Variable", .string "$.due")]

def isWithinLimit : Json := .object [("NumericLessThanEqualsPath", .string "$.limit"), ("Variable", .string "$.total")]

/-- An order within the limit that is neither one's own nor overdue. -/
def isPlain : Json :=
  .object [("And", .array [isWithinLimit, .object [("Not", .object [("Or", .array [isOwn, isOverdue])])]])]

theorem read_isPlain :
    read isPlain = .ok (.and [.compare "$.total" .numeric .lessThanEquals (.path "$.limit"),
      .not (.or [.compare "$.for" .string .matches (.literal (.string "self*")),
        .compare "$.due" .timestamp .lessThan (.literal (.string "2024-01-01T00:00:00Z"))])]) := by
  have hlimit : read isWithinLimit = .ok (.compare "$.total" .numeric .lessThanEquals (.path "$.limit")) :=
    ReadAs.read (.simple rfl rfl)
  have hown : read isOwn = .ok (.compare "$.for" .string .matches (.literal (.string "self*"))) :=
    ReadAs.read (.simple rfl rfl)
  have hdue : read isOverdue =
      .ok (.compare "$.due" .timestamp .lessThan (.literal (.string "2024-01-01T00:00:00Z"))) :=
    ReadAs.read (.simple rfl rfl)
  have hor := ReadAs.read (.or (combination?_singleton (by decide)) (List.cons_ne_nil _ _)
    (.cons ⟨rfl, hown⟩ (.cons ⟨rfl, hdue⟩ .nil)))
  have hnot := ReadAs.read (.not (combination?_singleton (by decide)) rfl hor)
  exact ReadAs.read (.and (combination?_singleton (by decide)) (List.cons_ne_nil _ _)
    (.cons ⟨rfl, hlimit⟩ (.cons ⟨rfl, hnot⟩ .nil)))

theorem wellTyped_of_isPlain :
    ∃ rule, read isPlain = .ok rule ∧ (∀ part, PartOf part rule → part.WellTyped) ∧ ReadBelow isOverdue isPlain ∧
      ∀ inner, ReadBelow inner isPlain → inner.field? "Next" = none := by
  obtain ⟨hparts, hbelow⟩ := wellTyped_of_read.1 _ _ read_isPlain
  have hin : ReadBelow isOverdue isPlain :=
    .item (combination?_singleton (by decide)) (.inl rfl) (List.mem_cons_of_mem _ List.mem_cons_self)
      (.not (combination?_singleton (by decide))
        (.item (combination?_singleton (by decide)) (.inr rfl) (List.mem_cons_of_mem _ List.mem_cons_self) .self))
  exact ⟨_, read_isPlain, fun part hp => (hparts part hp).1, hin, fun inner hi => (hbelow inner hi).1⟩

end Rule

end StateBench

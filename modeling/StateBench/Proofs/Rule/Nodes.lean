import StateBench.Proofs.Rule.Comparisons
import StateBench.Proofs.Rule.Operators

/-!
# The nodes of a rule

A rule that is read is well typed at each of its nodes (`Rule.WellTyped`): one level of it is read as `Rule.ReadAs` says
(`Rule.readAs_of_read`), and along the rule each node is read of a document in that of the rule (`Rule.exists_doc`).
Along the document no document that is read below the top has a field `Next` (`Rule.ReadBelow.next`).
-/

namespace StateBench

/-! ## Operators -/

theorem ValueKind.admits_iff {kind : ValueKind} {value : Json} : kind.admits value = true ↔ kind.Has value := by
  constructor
  · intro h
    cases kind with
    | string =>
      cases value with
      | string s => exact .string s
      | _ => cases h
    | numeric =>
      cases value with
      | number n => exact .numeric n
      | _ => cases h
    | boolean =>
      cases value with
      | bool b => exact .boolean b
      | _ => cases h
    | timestamp =>
      cases value with
      | string s =>
        obtain ⟨t, ht⟩ := Option.isSome_iff_exists.1 h
        exact .timestamp ht
      | _ => cases h
  · intro h
    cases h with
    | timestamp h => exact Option.isSome_iff_exists.2 ⟨_, h⟩
    | _ => rfl

/-- What may stand on the right side of a comparison of values of a kind. -/
def Operand.Fits (kind : ValueKind) : Operand → Prop
  | .literal value => kind.Has value
  | .path p => p.toList.head? = some '$'

/-- Only texts match patterns, and only patterns in the rule itself; truth values are only compared for equality. -/
structure Operator.Allowed (kind : ValueKind) (relation : Relation) (operand : Operand) : Prop where
  pattern : relation = .matches → kind = .string ∧ ∃ value, operand = .literal value
  truth : kind = .boolean → relation = .equals

namespace Operator

theorem isDefined_iff (op : Operator) :
    op.isDefined = true ↔ (op.relation = .matches → op.kind = .string ∧ op.againstPath = false) ∧
      (op.kind = .boolean → op.relation = .equals) := by
  obtain ⟨kind, relation, againstPath⟩ := op
  cases kind <;> cases relation <;> simp [isDefined]

theorem isDefined_of_ofName? {name : String} {op : Operator} (h : ofName? name = some op) : op.isDefined = true := by
  unfold ofName? at h
  obtain ⟨⟨kind, rest⟩, -, h⟩ := Option.bind_eq_some_iff.1 h
  obtain ⟨relation, -, h⟩ := Option.bind_eq_some_iff.1 h
  dsimp only at h
  split at h
  · next hd =>
    cases h
    exact hd
  · cases h

end Operator

namespace Rule

variable {doc inner item operand : Json} {items : List Json} {fields : Fields Json} {rule part : Rule}
  {rules : List Rule} {key subject : String}

/-! ## One node -/

/-- A rule is as it must be at its own node. -/
def WellTyped : Rule → Prop
  | .and rules => rules ≠ []
  | .or rules => rules ≠ []
  | .not _ => True
  | .compare subject kind relation operand =>
    subject.toList.head? = some '$' ∧ operand.Fits kind ∧ Operator.Allowed kind relation operand
  | .test subject _ _ => subject.toList.head? = some '$'

/-- A rule that is no combination. -/
def IsSimple : Rule → Prop
  | .compare _ _ _ _ => True
  | .test _ _ _ => True
  | _ => False

theorem startsAsPath_iff {text : String} : RefPath.startsAsPath text = true ↔ text.toList.head? = some '$' :=
  decide_eq_true_iff

theorem readOperand_ok_iff {op : Operator} {right : Operand} :
    readOperand key op operand = .ok right ↔
      (op.againstPath = true ∧ ∃ path, operand = .string path ∧ path.toList.head? = some '$' ∧ right = .path path) ∨
        (op.againstPath = false ∧ op.kind.Has operand ∧ right = .literal operand) := by
  unfold readOperand
  cases op.againstPath with
  | true =>
    cases operand with
    | string path =>
      by_cases hp : RefPath.startsAsPath path = true
      · simp [Json.string?, hp, startsAsPath_iff.1 hp, eq_comm (a := right)]
      · simp [Json.string?, hp, mt startsAsPath_iff.2 hp]
    | _ => simp [Json.string?]
  | false =>
    by_cases hk : op.kind.admits operand = true
    · simp [hk, ValueKind.admits_iff.1 hk, eq_comm (a := right)]
    · simp [hk, mt ValueKind.admits_iff.2 hk]

theorem wellTyped_of_readCondition (hs : subject.toList.head? = some '$')
    (h : readCondition subject key operand = .ok rule) : rule.IsSimple ∧ rule.WellTyped := by
  unfold readCondition at h
  split at h
  · split at h
    · cases h
      exact ⟨trivial, hs⟩
    · cases h
  · split at h
    · next op ho =>
      obtain ⟨right, hr, rfl⟩ := ok_of_map h
      obtain ⟨hpattern, htruth⟩ := op.isDefined_iff.1 (Operator.isDefined_of_ofName? ho)
      rcases readOperand_ok_iff.1 hr with ⟨hp, path, -, hpath, rfl⟩ | ⟨-, hhas, rfl⟩
      · refine ⟨trivial, hs, hpath, fun hm => ?_, htruth⟩
        rw [(hpattern hm).2] at hp
        cases hp
      · exact ⟨trivial, hs, hhas, fun hm => ⟨(hpattern hm).1, operand, rfl⟩, htruth⟩
    · cases h

theorem wellTyped_of_readSimple (h : readSimple fields = .ok rule) : rule.IsSimple ∧ rule.WellTyped := by
  unfold readSimple at h
  split at h
  · cases h
  · split at h
    · next hs =>
      split at h
      · cases h
      · exact wellTyped_of_readCondition (startsAsPath_iff.1 hs) h
      · cases h
    · cases h

/-! ## One level -/

theorem readItems_ok_iff {items : List Json} :
    readItems key items = .ok rules ↔
      List.Forall₂ (fun item rule => item.field? "Next" = none ∧ read item = .ok rule) items rules := by
  induction items generalizing rules with
  | nil =>
    rw [readItems, List.forall₂_nil_left_iff]
    exact ⟨fun h => (Except.ok.inj h).symm, fun h => h ▸ rfl⟩
  | cons item items ih =>
    rw [readItems, List.forall₂_cons_left_iff]
    constructor
    · intro h
      split at h
      · cases h
      · next hn =>
        obtain ⟨first, hfirst, h⟩ := ok_of_bind h
        obtain ⟨rest, hrest, h⟩ := ok_of_bind h
        cases h
        exact ⟨first, rest, ⟨by simpa using hn, hfirst⟩, ih.1 hrest, rfl⟩
    · rintro ⟨first, rest, ⟨hn, hfirst⟩, hrest, rfl⟩
      rw [hn, hfirst, ih.2 hrest]
      rfl

theorem readList_ok_iff :
    readList key operand = .ok rules ↔ ∃ items, operand = .array items ∧ rules ≠ [] ∧
      List.Forall₂ (fun item rule => item.field? "Next" = none ∧ read item = .ok rule) items rules := by
  constructor
  · intro h
    cases operand with
    | array items =>
      have hall := readItems_ok_iff.1 (readItems_of_readList h)
      refine ⟨items, rfl, ?_, hall⟩
      rintro rfl
      cases hall
      rw [readList] at h
      cases h
    | _ =>
      rw [readList] at h
      · cases h
      all_goals simp
  · rintro ⟨items, rfl, hne, hall⟩
    cases items with
    | nil =>
      cases hall
      exact absurd rfl hne
    | cons item items =>
      rw [readList]
      · exact readItems_ok_iff.2 hall
      · simp

/-- How one level of a document is read as a rule. -/
inductive ReadAs : Json → Rule → Prop
  | and {fields : Fields Json} {items : List Json} {rules : List Rule}
      (found : combination? fields = some ("And", .array items)) (nonempty : rules ≠ [])
      (each : List.Forall₂ (fun item rule => item.field? "Next" = none ∧ read item = .ok rule) items rules) :
      ReadAs (.object fields) (.and rules)
  | or {fields : Fields Json} {items : List Json} {rules : List Rule}
      (found : combination? fields = some ("Or", .array items)) (nonempty : rules ≠ [])
      (each : List.Forall₂ (fun item rule => item.field? "Next" = none ∧ read item = .ok rule) items rules) :
      ReadAs (.object fields) (.or rules)
  | not {fields : Fields Json} {operand : Json} {rule : Rule} (found : combination? fields = some ("Not", operand))
      (next : operand.field? "Next" = none) (h : read operand = .ok rule) : ReadAs (.object fields) (.not rule)
  | simple {fields : Fields Json} {rule : Rule} (none : combination? fields = none)
      (h : readSimple fields = .ok rule) : ReadAs (.object fields) rule

theorem readAs_of_read (h : read doc = .ok rule) : ReadAs doc rule := by
  cases doc with
  | object fields =>
    cases hc : combination? fields with
    | none =>
      rw [read_object, hc] at h
      exact .simple hc h
    | some found =>
      obtain ⟨key, operand⟩ := found
      rw [read_of_found hc] at h
      have hk := mem_combinations hc
      simp only [combinations, List.mem_cons, List.not_mem_nil, or_false] at hk
      rcases hk with rfl | rfl | rfl
      · obtain ⟨rules, hrules, rfl⟩ := ok_of_map h
        obtain ⟨items, rfl, hne, hall⟩ := readList_ok_iff.1 hrules
        exact .and hc hne hall
      · obtain ⟨rules, hrules, rfl⟩ := ok_of_map h
        obtain ⟨items, rfl, hne, hall⟩ := readList_ok_iff.1 hrules
        exact .or hc hne hall
      · rw [readCombination, if_neg (by decide), if_neg (by decide)] at h
        split at h
        · cases h
        · next hn =>
          obtain ⟨inner, hinner, rfl⟩ := ok_of_map h
          exact .not hc (by simpa using hn) hinner
  | _ =>
    rw [read] at h
    · cases h
    · simp

theorem ReadAs.read (h : ReadAs doc rule) : Rule.read doc = .ok rule := by
  cases h with
  | and found nonempty each =>
    rw [read_of_found found, readCombination, if_pos rfl, readList_ok_iff.2 ⟨_, rfl, nonempty, each⟩]
    rfl
  | or found nonempty each =>
    rw [read_of_found found, readCombination, if_neg (by decide), if_pos rfl,
      readList_ok_iff.2 ⟨_, rfl, nonempty, each⟩]
    rfl
  | not found next h =>
    rw [read_of_found found, readCombination, if_neg (by decide), if_neg (by decide), next, h]
    rfl
  | simple none h =>
    rw [read_object, none]
    exact h

theorem ReadAs.wellTyped (h : ReadAs doc rule) : rule.WellTyped := by
  cases h with
  | and _ nonempty _ => exact nonempty
  | or _ nonempty _ => exact nonempty
  | not _ _ _ => trivial
  | simple _ h => exact (wellTyped_of_readSimple h).2

/-! ## All levels -/

/-- Each node of a rule is read of a document in that of the rule. -/
theorem exists_doc (hp : part.PartOf rule) (h : read doc = .ok rule) :
    ∃ inner, ReadIn inner doc ∧ read inner = .ok part := by
  induction hp generalizing doc with
  | self => exact ⟨doc, .self, h⟩
  | and hm _ ih =>
    cases readAs_of_read h with
    | and found _ each =>
      obtain ⟨item, hi, -, hitem⟩ := mem_of_forall₂ each hm
      obtain ⟨inner, hin, hinner⟩ := ih hitem
      exact ⟨inner, .item found (.inl rfl) hi hin, hinner⟩
    | simple _ hs => exact (wellTyped_of_readSimple hs).1.elim
  | or hm _ ih =>
    cases readAs_of_read h with
    | or found _ each =>
      obtain ⟨item, hi, -, hitem⟩ := mem_of_forall₂ each hm
      obtain ⟨inner, hin, hinner⟩ := ih hitem
      exact ⟨inner, .item found (.inr rfl) hi hin, hinner⟩
    | simple _ hs => exact (wellTyped_of_readSimple hs).1.elim
  | not _ ih =>
    cases readAs_of_read h with
    | not found _ hr =>
      obtain ⟨inner, hin, hinner⟩ := ih hr
      exact ⟨inner, .not found hin, hinner⟩
    | simple _ hs => exact (wellTyped_of_readSimple hs).1.elim

theorem next_of_item (found : combination? fields = some (key, .array items)) (several : key = "And" ∨ key = "Or")
    (h : read (.object fields) = .ok rule) (hm : item ∈ items) :
    item.field? "Next" = none ∧ ∃ rule, read item = .ok rule := by
  rw [read_of_found found] at h
  obtain ⟨rules, hrules⟩ : ∃ rules, readList key (.array items) = .ok rules := by
    rcases several with rfl | rfl
    · obtain ⟨rules, hrules, -⟩ := ok_of_map h
      exact ⟨rules, hrules⟩
    · obtain ⟨rules, hrules, -⟩ := ok_of_map h
      exact ⟨rules, hrules⟩
  obtain ⟨_, he, -, hall⟩ := readList_ok_iff.1 hrules
  cases he
  obtain ⟨rule, -, hn, hr⟩ := mem_of_forall₂ hall.flip hm
  exact ⟨hn, rule, hr⟩

theorem next_of_not (found : combination? fields = some ("Not", operand)) (h : read (.object fields) = .ok rule) :
    operand.field? "Next" = none ∧ ∃ rule, read operand = .ok rule := by
  rw [read_of_found found, readCombination, if_neg (by decide), if_neg (by decide)] at h
  split at h
  · cases h
  · next hn =>
    obtain ⟨inner, hinner, -⟩ := ok_of_map h
    exact ⟨by simpa using hn, inner, hinner⟩

theorem next_of_readIn (hin : ReadIn inner doc) (h : read doc = .ok rule) (next : doc.field? "Next" = none) :
    inner.field? "Next" = none := by
  induction hin generalizing rule with
  | self => exact next
  | item found several hm _ ih =>
    obtain ⟨hn, _, hr⟩ := next_of_item found several h hm
    exact ih hr hn
  | not found _ ih =>
    obtain ⟨hn, _, hr⟩ := next_of_not found h
    exact ih hr hn

/-- The inner document is read as a rule when the outer one is, and is not the outer one itself. -/
inductive ReadBelow (inner : Json) : Json → Prop
  | item {fields : Fields Json} {key : String} {items : List Json} {item : Json}
      (found : combination? fields = some (key, .array items)) (several : key = "And" ∨ key = "Or")
      (hm : item ∈ items) (h : ReadIn inner item) : ReadBelow inner (.object fields)
  | not {fields : Fields Json} {operand : Json} (found : combination? fields = some ("Not", operand))
      (h : ReadIn inner operand) : ReadBelow inner (.object fields)

theorem ReadBelow.readIn (h : ReadBelow inner doc) : ReadIn inner doc := by
  cases h with
  | item found several hm h => exact .item found several hm h
  | not found h => exact .not found h

/-- Below the top no document of a rule has a field `Next`. -/
theorem ReadBelow.next (hin : ReadBelow inner doc) (h : read doc = .ok rule) : inner.field? "Next" = none := by
  cases hin with
  | item found several hm hin =>
    obtain ⟨hn, _, hr⟩ := next_of_item found several h hm
    exact next_of_readIn hin hr hn
  | not found hin =>
    obtain ⟨hn, _, hr⟩ := next_of_not found h
    exact next_of_readIn hin hr hn

end Rule

end StateBench

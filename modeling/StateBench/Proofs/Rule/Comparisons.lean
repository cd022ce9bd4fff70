import Mathlib.Data.String.Basic
import Mathlib.Order.BooleanAlgebra.Basic
import Mathlib.Order.Compare
import StateBench.Rule.Truth
import StateBench.Proofs.Number.Nearest
import StateBench.Proofs.Timestamp.Offsets

/-!
# Comparisons as an order

The values of a kind have keys in a linear order, and a comparison relates the keys (`ValueKind.exists_key`). So the
laws of an order hold for the comparisons of every kind at once (`Relation.laws_of_order`). Timestamps have their
instants as keys, and numbers the doubles nearest to them: whole numbers of 64 bits are compared as these doubles are,
which comes to the same unless two different numbers have one nearest double (`Relation.integers_as_nearest`).
-/

namespace StateBench

/-! ## Relations in an order -/

namespace Relation

variable {α β : Type} [LinearOrder α] [LinearOrder β] {a b c : α} {x y : β} {relation : Relation}

/-- The relation holds between two elements of an order; matching a pattern does not. -/
def Relates (relation : Relation) (a b : α) : Prop :=
  match relation with
  | .equals => a = b
  | .lessThan => a < b
  | .greaterThan => b < a
  | .lessThanEquals => a ≤ b
  | .greaterThanEquals => b ≤ a
  | .matches => False

theorem accepts_compare : relation.accepts (compare a b) = true ↔ relation.Relates a b := by
  cases relation with
  | equals => simp [accepts, Relates]
  | lessThan => simp [accepts, Relates, compare_lt_iff_lt]
  | greaterThan => simp [accepts, Relates, compare_gt_iff_gt]
  | lessThanEquals => simp [accepts, Relates, compare_gt_iff_gt]
  | greaterThanEquals => simp [accepts, Relates, compare_lt_iff_lt]
  | «matches» => simp [accepts, Relates]

/-- Where two elements are ordered as two others are, the same relations hold between them. -/
theorem relates_congr (hlt : a < b ↔ x < y) (hgt : b < a ↔ y < x) : relation.Relates a b ↔ relation.Relates x y := by
  have heq : a = b ↔ x = y := by
    rw [← not_iff_not, ← ne_eq, ← ne_eq, ← lt_or_lt_iff_ne, ← lt_or_lt_iff_ne, hlt, hgt]
  cases relation with
  | equals => exact heq
  | lessThan => exact hlt
  | greaterThan => exact hgt
  | lessThanEquals => exact not_lt.symm.trans ((not_congr hgt).trans not_lt)
  | greaterThanEquals => exact not_lt.symm.trans ((not_congr hlt).trans not_lt)
  | «matches» => exact Iff.rfl

/-- Of less, equal and greater, just one holds. -/
theorem existsUnique_relates (a b : α) :
    ∃! relation : Relation, relation ∈ [.lessThan, .equals, .greaterThan] ∧ relation.Relates a b := by
  simp only [List.mem_cons, List.not_mem_nil, or_false]
  rcases lt_trichotomy a b with h | h | h
  · refine ⟨.lessThan, ⟨.inl rfl, h⟩, ?_⟩
    rintro other ⟨rfl | rfl | rfl, h'⟩
    · rfl
    · exact absurd h' (ne_of_lt h)
    · exact absurd h' (lt_asymm h)
  · refine ⟨.equals, ⟨.inr (.inl rfl), h⟩, ?_⟩
    rintro other ⟨rfl | rfl | rfl, h'⟩
    · exact absurd h (ne_of_lt h')
    · rfl
    · exact absurd h (ne_of_gt h')
  · refine ⟨.greaterThan, ⟨.inr (.inr rfl), h⟩, ?_⟩
    rintro other ⟨rfl | rfl | rfl, h'⟩
    · exact absurd h' (lt_asymm h)
    · exact absurd h' (ne_of_gt h)
    · rfl

theorem relates_trans (hr : relation ∈ [.lessThan, .lessThanEquals, .equals]) (h : relation.Relates a b)
    (later : relation.Relates b c) : relation.Relates a c := by
  simp only [List.mem_cons, List.not_mem_nil, or_false] at hr
  rcases hr with rfl | rfl | rfl
  · exact lt_trans h later
  · exact le_trans h later
  · exact Eq.trans h later

end Relation

/-! ## Keys -/

namespace ValueKind

variable {kind : ValueKind} {left right : Json}

/-- The values of a kind. -/
inductive Has : ValueKind → Json → Prop
  | string (s : String) : Has .string (.string s)
  | numeric (n : Number) : Has .numeric (.number n)
  | boolean (b : Bool) : Has .boolean (.bool b)
  | timestamp {s : String} {t : Timestamp} (h : Timestamp.read? s = some t) : Has .timestamp (.string s)

/-- The values of a kind, and no others, have keys in a linear order, and are ordered as their keys are. -/
theorem exists_key (kind : ValueKind) :
    ∃ (α : Type) (_ : LinearOrder α) (key : Json → Option α), (∀ value, kind.Has value ↔ ∃ a, key value = some a) ∧
      ∀ left right, kind.order? left right = (key left).bind fun a => (key right).map fun b => compare a b := by
  cases kind with
  | string =>
    refine ⟨String, inferInstance, Json.string?, fun value => ⟨fun | .string s => ⟨s, rfl⟩, ?_⟩, fun left right => ?_⟩
    · cases value with
      | string s => exact fun _ => .string s
      | _ => exact fun ⟨_, h⟩ => nomatch h
    · cases left <;> cases right <;> rfl
  | numeric =>
    refine ⟨Int, inferInstance, fun value => value.number?.map fun n => n.toDouble.order,
      fun value => ⟨fun | .numeric n => ⟨_, rfl⟩, ?_⟩, fun left right => ?_⟩
    · cases value with
      | number n => exact fun _ => .numeric n
      | _ => exact fun ⟨_, h⟩ => nomatch h
    · cases left <;> cases right <;> rfl
  | boolean =>
    refine ⟨Bool, inferInstance, Json.bool?, fun value => ⟨fun | .boolean b => ⟨b, rfl⟩, ?_⟩, fun left right => ?_⟩
    · cases value with
      | bool b => exact fun _ => .boolean b
      | _ => exact fun ⟨_, h⟩ => nomatch h
    · cases left <;> cases right <;> rfl
  | timestamp =>
    refine ⟨Int, inferInstance, fun value => (value.string?.bind Timestamp.read?).map Timestamp.instant,
      fun value => ⟨fun | .timestamp h => ⟨_, congrArg (Option.map _) h⟩, ?_⟩, fun left right => ?_⟩
    · rintro ⟨_, h⟩
      obtain ⟨t, ht, -⟩ := Option.map_eq_some_iff.1 h
      cases value with
      | string s => exact .timestamp ht
      | _ => cases ht
    · simp only [order?]
      cases left.string?.bind Timestamp.read? with
      | none => rfl
      | some x => cases right.string?.bind Timestamp.read? <;> rfl

theorem holds_eq {relation : Relation} (h : relation ≠ .matches) (kind : ValueKind) (left right : Json) :
    relation.holds kind left right = (kind.order? left right).any relation.accepts := by
  cases relation with
  | «matches» => exact absurd rfl h
  | _ => rfl

/-- A comparison relates the keys, where both values have one. -/
theorem exists_key_relates (kind : ValueKind) :
    ∃ (α : Type) (_ : LinearOrder α) (key : Json → Option α), (∀ value, kind.Has value ↔ ∃ a, key value = some a) ∧
      ∀ relation ≠ Relation.matches, ∀ left right, relation.holds kind left right = true ↔
        ∃ a b, key left = some a ∧ key right = some b ∧ relation.Relates a b := by
  obtain ⟨α, order, key, hhas, horder⟩ := exists_key kind
  refine ⟨α, order, key, hhas, fun relation hr left right => ?_⟩
  rw [holds_eq hr, horder]
  cases key left with
  | none => simp
  | some a =>
    cases key right with
    | none => simp
    | some b => simp [Relation.accepts_compare]

/-! ## Laws -/

/-- The five comparisons of a kind are those of one linear order on its values, and false of any other value. -/
structure Ordered (kind : ValueKind) : Prop where
  foreign : ∀ relation ≠ Relation.matches, ∀ left right, ¬ (kind.Has left ∧ kind.Has right) →
    relation.holds kind left right = false
  trichotomy : ∀ left right, kind.Has left → kind.Has right →
    ∃! relation : Relation, relation ∈ [.lessThan, .equals, .greaterThan] ∧ relation.holds kind left right = true
  lessThanEquals : ∀ left right, Relation.lessThanEquals.holds kind left right =
    (Relation.lessThan.holds kind left right || Relation.equals.holds kind left right)
  greaterThanEquals : ∀ left right, Relation.greaterThanEquals.holds kind left right =
    (Relation.greaterThan.holds kind left right || Relation.equals.holds kind left right)
  swap : ∀ left right, Relation.greaterThan.holds kind left right = Relation.lessThan.holds kind right left
  trans : ∀ relation : Relation, relation ∈ [.lessThan, .lessThanEquals, .equals] → ∀ first second third,
    relation.holds kind first second = true → relation.holds kind second third = true →
      relation.holds kind first third = true

theorem ne_matches_of_mem {relations : List Relation} {relation : Relation} (hm : relation ∈ relations)
    (hno : Relation.matches ∉ relations) : relation ≠ .matches := fun h => hno (h ▸ hm)

theorem ordered (kind : ValueKind) : kind.Ordered := by
  obtain ⟨α, order, key, hhas, hholds⟩ := exists_key_relates kind
  constructor
  · intro relation hr left right hforeign
    rw [← Bool.not_eq_true, hholds relation hr]
    rintro ⟨a, b, ha, hb, -⟩
    exact hforeign ⟨(hhas left).2 ⟨a, ha⟩, (hhas right).2 ⟨b, hb⟩⟩
  · intro left right hleft hright
    obtain ⟨a, ha⟩ := (hhas left).1 hleft
    obtain ⟨b, hb⟩ := (hhas right).1 hright
    have hrelates (relation : Relation) : relation ∈ [.lessThan, .equals, .greaterThan] ∧
        relation.holds kind left right = true ↔
          relation ∈ [.lessThan, .equals, .greaterThan] ∧ relation.Relates a b := by
      refine and_congr_right fun hr => ?_
      simp [hholds relation (ne_matches_of_mem hr (by decide)), ha, hb]
    simp only [hrelates]
    exact Relation.existsUnique_relates a b
  · intro left right
    rw [Bool.eq_iff_iff, Bool.or_eq_true, hholds .lessThanEquals nofun, hholds .lessThan nofun, hholds .equals nofun]
    simp only [Relation.Relates, le_iff_lt_or_eq, and_or_left, exists_or]
  · intro left right
    rw [Bool.eq_iff_iff, Bool.or_eq_true, hholds .greaterThanEquals nofun, hholds .greaterThan nofun,
      hholds .equals nofun]
    simp only [Relation.Relates, le_iff_lt_or_eq, and_or_left, exists_or, eq_comm]
  · intro left right
    rw [Bool.eq_iff_iff, hholds .greaterThan nofun, hholds .lessThan nofun, exists_comm]
    simp only [Relation.Relates, and_left_comm]
  · intro relation hr first second third h later
    have hne : relation ≠ .matches := ne_matches_of_mem hr (by decide)
    obtain ⟨a, b, ha, hb, hab⟩ := (hholds relation hne _ _).1 h
    obtain ⟨_, c, hb', hc, hbc⟩ := (hholds relation hne _ _).1 later
    obtain rfl := Option.some.inj (hb.symm.trans hb')
    exact (hholds relation hne _ _).2 ⟨a, c, ha, hc, Relation.relates_trans hr hab hbc⟩

end ValueKind

namespace Relation

/-- Timestamps are compared as their instants are, whatever their offsets. -/
theorem holds_timestamp {relation : Relation} {text other : String} {t u : Timestamp}
    (ht : Timestamp.read? text = some t) (hu : Timestamp.read? other = some u) (hr : relation ≠ .matches) :
    relation.holds .timestamp (.string text) (.string other) = true ↔ relation.Relates t.instant u.instant := by
  have horder : ValueKind.timestamp.order? (.string text) (.string other) = some (compare t.instant u.instant) := by
    simp [ValueKind.order?, Json.string?, ht, hu]
  rw [ValueKind.holds_eq hr, horder, Option.any_some, accepts_compare]

/-- The comparisons of every kind are those of an order on its values. Timestamps are ordered by their instants, and an
instant is what the clock shows less the offset: the text of the clock, which comes first, shows the same time on it
before every offset. -/
theorem laws_of_order :
    (∀ kind : ValueKind, kind.Ordered) ∧
      (∀ text other t u, Timestamp.read? text = some t → Timestamp.read? other = some u →
        ∀ relation ≠ Relation.matches,
          (relation.holds .timestamp (.string text) (.string other) = true ↔ relation.Relates t.instant u.instant)) ∧
      ∀ text t, Timestamp.read? text = some t → ∃ front zone, text.toList = front ++ zone ∧
        Timestamp.readOffset? zone = some t.offset ∧ ∀ other offset u, Timestamp.readOffset? other = some offset →
          Timestamp.read? (String.ofList (front ++ other)) = some u → u.offset = offset ∧ u.clock = t.clock := by
  refine ⟨ValueKind.ordered, fun text other t u ht hu relation hr => holds_timestamp ht hu hr, fun text t ht => ?_⟩
  obtain ⟨front, zone, htext, hzone, hclock⟩ := Timestamp.exists_clock ht
  refine ⟨front, zone, htext, hzone, fun other offset u ho hu => hclock other offset u ho ?_⟩
  rwa [Timestamp.read?, String.toList_ofList] at hu

/-- Half past midnight, two hours ahead of UTC, is half past ten of the day before in UTC. -/
theorem laws_of_order_acrossDays :
    Relation.equals.holds .timestamp (.string "2024-03-01T00:30:00+02:00") (.string "2024-02-29T22:30:00Z") = true := by
  have hahead : Timestamp.read? "2024-03-01T00:30:00+02:00" = some ⟨1709245800000000000, 7200⟩ := by decide +kernel
  have hutc : Timestamp.read? "2024-02-29T22:30:00Z" = some ⟨1709245800000000000, 0⟩ := by decide +kernel
  exact (laws_of_order.2.1 _ _ _ _ hahead hutc .equals nofun).2 rfl

end Relation

/-! ## Whole numbers -/

/-- A whole number of 64 bits, with or without a sign. -/
def Number.IsWhole64 (n : Int) : Prop := -0x8000000000000000 ≤ n ∧ n ≤ 0xFFFFFFFFFFFFFFFF

instance : DecidablePred Number.IsWhole64 := fun n =>
  inferInstanceAs (Decidable (-0x8000000000000000 ≤ n ∧ n ≤ 0xFFFFFFFFFFFFFFFF))

namespace Relation

variable {a b : Int} {relation : Relation}

theorem log2_le_of_isWhole64 (h : Number.IsWhole64 a) : a.natAbs.log2 ≤ 1022 := by
  obtain ⟨hlow, hhigh⟩ := h
  exact Double.log2_le_of_lt (k := 64) (by omega) (by decide)

/-- Whole numbers are compared as the doubles nearest to them. -/
theorem holds_int : relation.holds .numeric (.int a) (.int b) = true ↔
    relation.Relates (Double.ofInt a).value (Double.ofInt b).value := by
  have horder : ValueKind.numeric.order? (.int a) (.int b) =
      some (compare (Double.ofInt a).order (Double.ofInt b).order) := rfl
  by_cases hr : relation = .matches
  · subst hr
    simp [holds, Json.string?, Json.int, Relates]
  · rw [ValueKind.holds_eq hr, horder, Option.any_some, accepts_compare]
    exact relates_congr Double.value_lt_iff.symm Double.value_lt_iff.symm

/-- Whole numbers with different nearest doubles are ordered as these are. -/
theorem relates_value_iff (ha : Number.IsWhole64 a) (hb : Number.IsWhole64 b)
    (h : a ≠ b → (Double.ofInt a).value ≠ (Double.ofInt b).value) :
    relation.Relates (Double.ofInt a).value (Double.ofInt b).value ↔ relation.Relates a b := by
  have hle := Double.value_ofInt_mono (log2_le_of_isWhole64 ha) (log2_le_of_isWhole64 hb)
  have hge := Double.value_ofInt_mono (log2_le_of_isWhole64 hb) (log2_le_of_isWhole64 ha)
  have hlt : (Double.ofInt a).value < (Double.ofInt b).value ↔ a < b := by omega
  have hgt : (Double.ofInt b).value < (Double.ofInt a).value ↔ b < a := by omega
  exact relates_congr hlt hgt

/-- Whole numbers of 64 bits are compared as the doubles nearest to them. A strict comparison that holds is right, and
one that is not strict holds wherever it should. All comparisons are right unless two different numbers have one nearest
double, and so where one of the two is smaller than `2 ^ 53`. -/
theorem integers_as_nearest (ha : Number.IsWhole64 a) (hb : Number.IsWhole64 b) :
    ((Double.ofInt a).IsNearest a ∧ (Double.ofInt b).IsNearest b ∧
      ∀ relation : Relation, relation.holds .numeric (.int a) (.int b) = true ↔
        relation.Relates (Double.ofInt a).value (Double.ofInt b).value) ∧
      (∀ relation : Relation, relation ∈ [.lessThan, .greaterThan] →
        relation.holds .numeric (.int a) (.int b) = true → relation.Relates a b) ∧
      (∀ relation : Relation, relation ∈ [.equals, .lessThanEquals, .greaterThanEquals] →
        relation.Relates a b → relation.holds .numeric (.int a) (.int b) = true) ∧
      ((∀ relation : Relation, relation.holds .numeric (.int a) (.int b) = true ↔ relation.Relates a b) ↔
        (a ≠ b → (Double.ofInt a).value ≠ (Double.ofInt b).value)) ∧
      (a.natAbs < 2 ^ 53 ∨ b.natAbs < 2 ^ 53 →
        ∀ relation : Relation, relation.holds .numeric (.int a) (.int b) = true ↔ relation.Relates a b) := by
  have hfirst := log2_le_of_isWhole64 ha
  have hsecond := log2_le_of_isWhole64 hb
  have hle := Double.value_ofInt_mono hfirst hsecond
  have hge := Double.value_ofInt_mono hsecond hfirst
  have hall : (∀ relation : Relation, relation.holds .numeric (.int a) (.int b) = true ↔ relation.Relates a b) ↔
      (a ≠ b → (Double.ofInt a).value ≠ (Double.ofInt b).value) := by
    refine ⟨fun h hne he => hne ((h .equals).1 (holds_int.2 he)), fun h relation => ?_⟩
    exact holds_int.trans (relates_value_iff ha hb h)
  refine ⟨⟨Double.isNearest_ofInt hfirst, Double.isNearest_ofInt hsecond, fun relation => holds_int⟩, ?_, ?_, hall, ?_⟩
  · simp only [List.mem_cons, List.not_mem_nil, or_false, holds_int]
    rintro relation (rfl | rfl) h
    · exact Int.not_le.1 fun hab => absurd (hge hab) (not_le.2 h)
    · exact Int.not_le.1 fun hab => absurd (hle hab) (not_le.2 h)
  · simp only [List.mem_cons, List.not_mem_nil, or_false, holds_int]
    rintro relation (rfl | rfl | rfl) h
    · exact congrArg (fun n => (Double.ofInt n).value) h
    · exact hle h
    · exact hge h
  · rintro (hsmall | hsmall)
    · exact hall.2 (Double.value_ofInt_ne hsmall hsecond)
    · exact hall.2 fun hne => (Double.value_ofInt_ne hsmall hfirst hne.symm).symm

/-- Two numbers as far from zero as 64 bits allow. -/
theorem integers_as_nearest_ends :
    Number.IsWhole64 (-0x8000000000000000) ∧ Number.IsWhole64 0xFFFFFFFFFFFFFFFF ∧
      Relation.lessThan.holds .numeric (.int (-0x8000000000000000)) (.int 0xFFFFFFFFFFFFFFFF) = true := by
  have hlow : Number.IsWhole64 (-0x8000000000000000) := by decide
  have hhigh : Number.IsWhole64 0xFFFFFFFFFFFFFFFF := by decide
  obtain ⟨-, -, -, hall, -⟩ := integers_as_nearest hlow hhigh
  exact ⟨hlow, hhigh, (hall.2 (by decide +kernel) .lessThan).2 (by simp [Relates])⟩

/-- `2 ^ 53 + 1` lies between two doubles, and the one with the even last bit is `2 ^ 53`. -/
theorem equals_of_different_integers :
    ¬ ∀ a b : Int, Number.IsWhole64 a → Number.IsWhole64 b →
      ∀ relation : Relation, relation.holds .numeric (.int a) (.int b) = true ↔ relation.Relates a b := by
  intro h
  have hequal : Relation.equals.holds .numeric (.int 9007199254740993) (.int 9007199254740992) = true := by
    decide +kernel
  have hdifferent := (h 9007199254740993 9007199254740992 (by decide) (by decide) .equals).1 hequal
  cases hdifferent

end Relation

end StateBench

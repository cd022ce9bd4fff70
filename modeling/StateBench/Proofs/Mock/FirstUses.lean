import Mathlib.Data.List.Basic
import StateBench.Proofs.Mock.Kept

/-!
# Records list first uses

A record lists each name once, in the order of the first uses (`AppliedMocks.FirstUses`). It is put together from uses
and from other records (`AppliedMocks.Making`), and is the record of the uses one after the other
(`AppliedMocks.Making.result_eq`): merging a record is recording its uses (`AppliedMocks.merge_ofUses`). Two lists of
names are kept at once, which need not have a common order, but both grow by the same step; that names are put together
before they are added makes no difference (`AppliedMocks.foldl_addName_foldl`).
-/

namespace StateBench

namespace AppliedMocks

/-! ## Adding names -/

theorem addName_of_mem {names : List String} {name : String} (h : name ∈ names) : addName names name = names :=
  if_pos (by simpa using h)

theorem addName_of_not_mem {names : List String} {name : String} (h : name ∉ names) :
    addName names name = names ++ [name] :=
  if_neg (by simpa using h)

theorem mem_foldl_addName {names more : List String} {name : String} :
    name ∈ more.foldl addName names ↔ name ∈ names ∨ name ∈ more := by
  induction more generalizing names with
  | nil => simp
  | cons other more ih => rw [List.foldl_cons, ih, mem_addName, List.mem_cons, or_assoc]

/-- Names that are put together before they are added are added as if one by one. -/
theorem foldl_addName_foldl (names others more : List String) :
    (more.foldl addName others).foldl addName names = more.foldl addName (others.foldl addName names) := by
  induction more generalizing others with
  | nil => rfl
  | cons name more ih =>
    have hstep : (addName others name).foldl addName names = addName (others.foldl addName names) name := by
      by_cases h : name ∈ others
      · rw [addName_of_mem h, addName_of_mem (mem_foldl_addName.2 (.inr h))]
      · rw [addName_of_not_mem h, List.foldl_concat]
    rw [List.foldl_cons, ih, hstep, List.foldl_cons]

/-! ## First uses -/

/-- The names that are used, each of them once, in the order in which they are first used. -/
structure FirstUses (used names : List String) : Prop where
  mem : ∀ name, name ∈ names ↔ name ∈ used
  nodup : names.Nodup
  ordered : names.Pairwise fun name other => used.idxOf name < used.idxOf other

theorem firstUses_nil : FirstUses [] [] := ⟨fun _ => Iff.rfl, List.nodup_nil, .nil⟩

theorem FirstUses.snoc {used names : List String} (h : FirstUses used names) (name : String) :
    FirstUses (used ++ [name]) (addName names name) := by
  have hordered : names.Pairwise fun first second =>
      (used ++ [name]).idxOf first < (used ++ [name]).idxOf second := by
    refine h.ordered.imp_of_mem fun {first second} hf hs hlt => ?_
    rwa [List.idxOf_append_of_mem ((h.mem first).1 hf), List.idxOf_append_of_mem ((h.mem second).1 hs)]
  have hmem : ∀ other, other ∈ addName names name ↔ other ∈ used ++ [name] := fun other => by
    rw [mem_addName, h.mem, List.mem_append, List.mem_singleton]
  by_cases hn : name ∈ names
  · refine ⟨hmem, ?_, ?_⟩ <;> rw [addName_of_mem hn]
    · exact h.nodup
    · exact hordered
  · refine ⟨hmem, ?_, ?_⟩ <;> rw [addName_of_not_mem hn]
    · refine List.nodup_append.2 ⟨h.nodup, List.nodup_singleton name, fun other ho last hl he => ?_⟩
      obtain rfl := List.mem_singleton.1 hl
      exact hn (he ▸ ho)
    · refine List.pairwise_append.2 ⟨hordered, List.pairwise_singleton _ _, fun other ho last hl => ?_⟩
      obtain rfl := List.mem_singleton.1 hl
      have hother : other ∈ used := (h.mem other).1 ho
      rw [List.idxOf_append_of_mem hother, List.idxOf_append_of_notMem fun hu => hn ((h.mem _).2 hu)]
      exact Nat.lt_of_lt_of_le (List.idxOf_lt_length_of_mem hother) (Nat.le_add_right _ _)

/-- Adding the names of further uses gives the first uses of all. -/
theorem FirstUses.foldl {used names : List String} (h : FirstUses used names) (more : List String) :
    FirstUses (used ++ more) (more.foldl addName names) := by
  induction more generalizing used names with
  | nil => rwa [List.append_nil]
  | cons name more ih =>
    rw [List.foldl_cons, List.append_cons]
    exact ih (h.snoc name)

/-- Names that are all new are added as they stand. -/
theorem foldl_addName_of_nodup {names more : List String} (h : (names ++ more).Nodup) :
    more.foldl addName names = names ++ more := by
  induction more generalizing names with
  | nil => rw [List.foldl_nil, List.append_nil]
  | cons name more ih =>
    have hn : name ∉ names := fun hm => (List.nodup_append.1 h).2.2 name hm name List.mem_cons_self rfl
    rw [List.foldl_cons, addName_of_not_mem hn, ih (by simpa using h), List.append_assoc, List.singleton_append]

/-! ## Records of uses -/

theorem foldl_record (uses : List MockUse) (applied : AppliedMocks) :
    uses.foldl record applied = ⟨(uses.map (·.name)).foldl addName applied.names,
      ((uses.filter (·.inMap)).map (·.name)).foldl addName applied.inMap⟩ := by
  induction uses generalizing applied with
  | nil => rfl
  | cons use uses ih =>
    rw [List.foldl_cons, ih, record]
    cases hm : use.inMap <;> simp [hm]

theorem ofUses_eq (uses : List MockUse) :
    ofUses uses = ⟨(uses.map (·.name)).foldl addName [], ((uses.filter (·.inMap)).map (·.name)).foldl addName []⟩ :=
  foldl_record uses empty

/-- Merging the record of some uses is recording them. -/
theorem merge_ofUses (applied : AppliedMocks) (uses : List MockUse) :
    applied.merge (ofUses uses) = uses.foldl record applied := by
  rw [foldl_record, ofUses_eq, merge]
  simp only [foldl_addName_foldl, List.foldl_nil]

theorem merge_assoc (applied later last : AppliedMocks) :
    (applied.merge later).merge last = applied.merge (later.merge last) := by
  simp only [merge, foldl_addName_foldl]

/-- The empty record takes over a record in which no name is listed twice. -/
theorem empty_merge {applied : AppliedMocks} (names : applied.names.Nodup) (inMap : applied.inMap.Nodup) :
    empty.merge applied = applied := by
  cases applied
  exact congrArg₂ mk (foldl_addName_of_nodup names) (foldl_addName_of_nodup inMap)

/-- How a record comes about: it is new, a use is added to it, or another record is merged into it. -/
inductive Making where
  | start
  | record (made : Making) (use : MockUse)
  | merge (made later : Making)

namespace Making

/-- The record that is made. -/
def result : Making → AppliedMocks
  | start => empty
  | record made use => made.result.record use
  | merge made later => made.result.merge later.result

/-- The uses that are recorded, those of a record that is merged after those before it. -/
def uses : Making → List MockUse
  | start => []
  | record made use => made.uses ++ [use]
  | merge made later => made.uses ++ later.uses

theorem result_eq (making : Making) : making.result = ofUses making.uses := by
  induction making with
  | start => rfl
  | record made use ih => rw [result, uses, ih, ofUses, ofUses, List.foldl_concat]
  | merge made later ih ihl => rw [result, uses, ih, ihl, merge_ofUses, ofUses, ofUses, List.foldl_append]

end Making

/-- Merging records is putting their uses together, however they are made. -/
theorem recorded_of_making :
    (∀ uses later, (ofUses uses).merge (ofUses later) = ofUses (uses ++ later)) ∧
      (∀ applied later last : AppliedMocks,
        (applied.merge later).merge last = applied.merge (later.merge last)) ∧
      ∀ making : Making, making.result = ofUses making.uses ∧
        empty.merge making.result = making.result ∧ making.result.merge empty = making.result ∧
        FirstUses (making.uses.map (·.name)) making.result.names ∧
        FirstUses ((making.uses.filter (·.inMap)).map (·.name)) making.result.inMap ∧
        making.result.inMap ⊆ making.result.names := by
  refine ⟨fun uses later => ?_, merge_assoc, fun making => ?_⟩
  · rw [merge_ofUses, ofUses, ofUses, List.foldl_append]
  · have hnames : FirstUses (making.uses.map (·.name)) making.result.names := by
      rw [making.result_eq, ofUses_eq]
      exact firstUses_nil.foldl _
    have hinMap : FirstUses ((making.uses.filter (·.inMap)).map (·.name)) making.result.inMap := by
      rw [making.result_eq, ofUses_eq]
      exact firstUses_nil.foldl _
    refine ⟨making.result_eq, ?_, rfl, hnames, hinMap, fun name hm => ?_⟩
    · exact empty_merge hnames.nodup hinMap.nodup
    · obtain ⟨use, hu, hn⟩ := List.mem_map.1 ((hinMap.mem name).1 hm)
      exact (hnames.mem name).2 (List.mem_map.2 ⟨use, List.mem_of_mem_filter hu, hn⟩)

/-- A mock that is used outside a Map first and in one later stands in different places of the two lists. -/
example : (empty.record ⟨"Check", false⟩).merge ((empty.record ⟨"Pack", true⟩).record ⟨"Check", true⟩) =
    ⟨["Check", "Pack"], ["Pack", "Check"]⟩ := by decide

end AppliedMocks

end StateBench

import Mathlib.Data.List.Pairwise
import StateBench.Proofs.Machine.Locations
import StateBench.Proofs.Machine.WellFormed

/-!
# Paths and qualified names

In a machine that is loaded no two states have the same path (`Machine.nodup_paths`), and every path leads to its state
(`Machine.locate?_of_mem_paths`). The qualified name of a state is its path with points between the names. It tells the
state from all others if no name has a point in it (`StatePath.dotted_inj`): then the qualified name stands for just
this state (`Machine.resolve_dotted`).
-/

namespace StateBench

/-! ## Qualified names -/

namespace StatePath

/-- No name in the path has a point in it. -/
def Dotless (path : StatePath) : Prop := ∀ name ∈ path, '.' ∉ name.toList

/-- A path is known by its qualified name if none of its names has a point. -/
theorem dotted_inj {path other : StatePath} (hp : path.Dotless) (ho : other.Dotless) (hne : path ≠ [])
    (hne' : other ≠ []) (h : path.dotted = other.dotted) : path = other := by
  have split {path : StatePath} (hp : path.Dotless) (hne : path ≠ []) :
      (path.dotted.split '.').toList.map (·.copy) = path := by
    have hs := String.toList_split_intercalate hp
    rwa [if_neg hne] at hs
  rw [← split hp hne, ← split ho hne', h]

/-- Paths that go on with different names after an owner do not lead through each other. -/
theorem not_prefix_of_ne {name other : String} (h : name ≠ other) (owner rest last : StatePath) :
    ¬ owner ++ name :: rest <+: owner ++ other :: last := by
  rw [List.prefix_append_right_inj, List.cons_prefix_cons]
  exact fun hprefix => h hprefix.1

end StatePath

/-! ## Paths -/

namespace Graph

variable {g inner : Graph} {s : State Graph} {path owner : StatePath}

/-- All graphs in the graph, and itself, are well-formed. -/
def WellFormedThroughout (g : Graph) : Prop := ∀ address inner, g.At address inner → ∃ doc, inner.WellFormed doc

namespace WellFormedThroughout

theorem self (h : g.WellFormedThroughout) : ∃ doc, g.WellFormed doc := h [] g .here

theorem within (h : g.WellFormedThroughout) (hs : s ∈ g.states) (hi : inner ∈ s.kind.graphs) :
    inner.WellFormedThroughout := by
  obtain ⟨index, hindex⟩ := List.getElem?_of_mem hi
  exact fun address last ha => h _ last (.inside hs hindex ha)

end WellFormedThroughout

/-- The graphs in a state share no names. -/
theorem WellFormed.disjoint {doc : Json} (h : g.WellFormed doc) (hs : s ∈ g.states) :
    s.kind.graphs.Pairwise (Function.onFun List.Disjoint fun inner : Graph => inner.states.map (·.name)) := by
  cases hk : s.kind with
  | map spec iterator => exact List.pairwise_singleton _ _
  | parallel branches => exact (List.nodup_flatMap.1 (h.branches s hs branches hk).2).2
  | _ => exact .nil

/-- A path below an owner goes on with the name of a state. -/
theorem exists_of_mem_pathsBelow (h : path ∈ g.pathsBelow owner) :
    ∃ name ∈ g.states.map (·.name), ∃ rest, path = owner ++ name :: rest := by
  induction g using Graph.induction generalizing owner with
  | step g ih =>
    rw [pathsBelow_eq, List.mem_flatMap] at h
    obtain ⟨s, hs, h⟩ := h
    refine ⟨s.name, List.mem_map_of_mem hs, ?_⟩
    rcases List.mem_cons.1 h with rfl | h
    · exact ⟨[], rfl⟩
    · obtain ⟨inner, hi, h⟩ := List.mem_flatMap.1 h
      obtain ⟨name, -, rest, rfl⟩ := ih s hs inner hi h
      exact ⟨name :: rest, by simp⟩

/-- A state is listed before those in it: no path leads through one that is listed after it or is the same. -/
theorem WellFormedThroughout.ordered_pathsBelow (h : g.WellFormedThroughout) (owner : StatePath) :
    (g.pathsBelow owner).Pairwise fun earlier later => ¬ later <+: earlier := by
  induction g using Graph.induction generalizing owner with
  | step g ih =>
    obtain ⟨doc, hg⟩ := h.self
    rw [pathsBelow_eq, List.pairwise_flatMap]
    constructor
    · intro s hs
      rw [List.pairwise_cons, List.pairwise_flatMap]
      refine ⟨fun path hm hprefix => ?_, fun inner hi => ih s hs inner hi (h.within hs hi) _, ?_⟩
      · obtain ⟨inner, -, hm⟩ := List.mem_flatMap.1 hm
        obtain ⟨name, -, rest, rfl⟩ := exists_of_mem_pathsBelow hm
        simpa using hprefix.length_le
      · refine (hg.disjoint hs).imp fun {first second} hd path hf later hl => ?_
        obtain ⟨name, hn, rest, rfl⟩ := exists_of_mem_pathsBelow hf
        obtain ⟨other, ho, last, rfl⟩ := exists_of_mem_pathsBelow hl
        exact StatePath.not_prefix_of_ne (by rintro rfl; exact hd hn ho) _ last rest
    · have below {s : State Graph} {path : StatePath}
          (hp : path ∈ (owner ++ [s.name]) :: s.kind.graphs.flatMap (·.pathsBelow (owner ++ [s.name]))) :
          ∃ rest, path = owner ++ s.name :: rest := by
        rcases List.mem_cons.1 hp with rfl | hp
        · exact ⟨[], rfl⟩
        · obtain ⟨inner, -, hp⟩ := List.mem_flatMap.1 hp
          obtain ⟨name, -, rest, rfl⟩ := exists_of_mem_pathsBelow hp
          exact ⟨name :: rest, by simp⟩
      refine (List.pairwise_map.1 hg.names).imp fun {s other} hne path hp later ho => ?_
      obtain ⟨rest, rfl⟩ := below hp
      obtain ⟨last, rfl⟩ := below ho
      exact StatePath.not_prefix_of_ne (Ne.symm hne) owner last rest

/-- No two states of a graph, or of those in it, have the same path. -/
theorem WellFormedThroughout.nodup_pathsBelow (h : g.WellFormedThroughout) (owner : StatePath) :
    (g.pathsBelow owner).Nodup := by
  refine (h.ordered_pathsBelow owner).imp fun hprefix he => hprefix ?_
  rw [he]

/-- Every path below an owner is that of a state. -/
theorem WellFormedThroughout.declares_of_mem (h : g.WellFormedThroughout) (hp : path ∈ g.pathsBelow owner) :
    ∃ rest s, path = owner ++ rest ∧ g.Declares rest s := by
  induction g using Graph.induction generalizing owner with
  | step g ih =>
    obtain ⟨doc, hg⟩ := h.self
    rw [pathsBelow_eq, List.mem_flatMap] at hp
    obtain ⟨s, hs, hp⟩ := hp
    have state : g.get? s.name = some s := State.named?_of_mem hg.names hs
    rcases List.mem_cons.1 hp with rfl | hp
    · exact ⟨[s.name], s, rfl, .intro state .self⟩
    · obtain ⟨inner, hi, hp⟩ := List.mem_flatMap.1 hp
      obtain ⟨rest, last, rfl, hd⟩ := ih s hs inner hi (h.within hs hi) hp
      exact ⟨s.name :: rest, last, by simp, .intro state (.of_declares hi hd)⟩

/-- A path goes on in the graph of a state that declares the next name. -/
theorem Linked.inner?_eq (h : g.Linked) (hs : s ∈ g.states) (hi : inner ∈ s.kind.graphs) {name : String}
    (hn : (inner.get? name).isSome) : inner? s name = some inner := by
  unfold inner?
  cases hk : s.kind with
  | map spec iterator =>
    rw [hk] at hi
    rw [List.mem_singleton.1 hi]
  | parallel branches =>
    have hsome : (branches.find? fun branch => (branch.get? name).isSome).isSome := by
      rw [hk] at hi
      exact List.find?_isSome.2 ⟨inner, hi, hn⟩
    obtain ⟨found, hf⟩ := Option.isSome_iff_exists.1 hsome
    have hm : found ∈ s.kind.graphs := by
      rw [hk]
      exact List.mem_of_find?_eq_some hf
    obtain rfl := h.inner_unique hs hm hi (by simpa using List.find?_some hf) hn
    exact hf
  | _ =>
    rw [hk] at hi
    cases hi

/-- A state that is declared under a path is found there. -/
theorem Sound.locate?_of_declares (h : g.Sound) {last : State Graph} (hd : g.Declares path last) :
    ∃ inner, locate? path g = some (inner, last) := by
  obtain ⟨state, below⟩ := hd
  rename_i child name rest
  induction below generalizing g name with
  | self => exact ⟨g, by rw [locate?, state]; rfl⟩
  | inside graph inside below ih =>
    have hs := State.mem_of_named? state
    obtain ⟨owner, ho⟩ := ih (h.within hs graph) inside
    refine ⟨owner, ?_⟩
    rw [locate?, state]
    show (inner? _ _ >>= _) = _
    rw [h.linked.inner?_eq hs graph (by rw [inside]; rfl)]
    exact ho

end Graph

/-! ## Machines -/

namespace Machine

variable {definition : Json} {m : Machine} (canonical : definition.Canonical) (h : load definition = .ok m)
include canonical h

theorem wellFormedThroughout_of_load : m.root.WellFormedThroughout := by
  obtain ⟨doc, -, hgraphs⟩ := wellFormed_of_load canonical h
  intro address g ha
  obtain ⟨inner, -, hg⟩ := hgraphs address g ha
  exact ⟨inner, hg⟩

/-- No two states of a machine that is loaded have the same path. -/
theorem nodup_paths : m.paths.Nodup := (wellFormedThroughout_of_load canonical h).nodup_pathsBelow []

/-- Every path of a machine that is loaded leads to its state. -/
theorem locate?_of_mem_paths {path : StatePath} (hp : path ∈ m.paths) :
    ∃ g s, Graph.locate? path m.root = some (g, s) ∧ m.root.Declares path s := by
  obtain ⟨rest, s, rfl, hd⟩ := (wellFormedThroughout_of_load canonical h).declares_of_mem hp
  obtain ⟨g, hg⟩ := (sound_of_load h).locate?_of_declares hd
  exact ⟨g, s, hg, hd⟩

theorem isSome_locate?_of_mem_paths : ∀ path ∈ m.paths, (Graph.locate? path m.root).isSome := by
  intro path hp
  obtain ⟨g, s, hl, -⟩ := locate?_of_mem_paths canonical h hp
  rw [hl]
  rfl

/-- Where no name has a point in it, qualified names tell the states apart. -/
theorem nodup_dotted (dotless : ∀ path ∈ m.paths, path.Dotless) : (m.paths.map StatePath.dotted).Nodup := by
  refine (List.nodup_map_iff_inj_on (nodup_paths canonical h)).2 fun path hp other ho he => ?_
  have ne {path : StatePath} (hp : path ∈ m.paths) : path ≠ [] := by
    obtain ⟨name, -, rest, rfl⟩ := Graph.exists_of_mem_pathsBelow hp
    simp
  exact StatePath.dotted_inj (dotless path hp) (dotless other ho) (ne hp) (ne ho) he

/-- A qualified name that no two states share stands for its state. -/
theorem resolve_dotted (unique : (m.paths.map StatePath.dotted).Nodup) {path : StatePath} (hp : path ∈ m.paths) :
    ∃ g s, m.root.Declares path s ∧ m.find? path.dotted = some s ∧ m.resolve path.dotted = .ok ⟨path, g, s⟩ := by
  obtain ⟨g, s, hl, hd⟩ := locate?_of_mem_paths canonical h hp
  have hf : m.paths.find? (·.dotted = path.dotted) = some path := find?_of_nodup_keys unique hp
  refine ⟨g, s, hd, ?_, ?_⟩
  · unfold find?
    rw [hf]
    show (Graph.locate? path m.root >>= _) = _
    rw [hl]
    rfl
  · have hp : m.resolvePath path.dotted = .ok path := by rw [resolvePath, hf]
    rw [resolve, hp]
    simp only [bind, Except.bind, hl]
    rfl

end Machine

end StateBench

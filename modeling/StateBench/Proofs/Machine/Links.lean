import Mathlib.Data.List.Nodup
import StateBench.Machine.Index
import StateBench.Machine.Loader
import StateBench.Proofs.Document.Declared

/-!
# What loading checks

The states of a graph are built of what is declared, one by one, and so are the graphs in them (`Graph.ofDecl_ok`,
`StateDecl.buildKind_ok`). A machine is loaded only if the links in it lead to states (`Graph.Linked`), in its graph and
in all graphs within (`Graph.Sound`, `Machine.sound_of_load`). Then a walk never comes to a name that no state has, and
the branches of a Parallel are told apart by their starts.
-/

namespace StateBench

/-! ## Checks -/

theorem nodup_of_firstRepeated?_eq_none {seen names : List String} (h : firstRepeated? seen names = none) :
    names.Nodup ∧ ∀ name ∈ names, name ∉ seen := by
  induction names generalizing seen with
  | nil => exact ⟨List.nodup_nil, fun name hn => nomatch hn⟩
  | cons name names ih =>
    rw [firstRepeated?] at h
    split at h
    · cases h
    · next hs =>
      obtain ⟨hn, hm⟩ := ih h
      refine ⟨List.nodup_cons.2 ⟨fun hmem => hm name hmem List.mem_cons_self, hn⟩, fun other ho => ?_⟩
      rcases List.mem_cons.1 ho with rfl | ho
      · simpa using hs
      · exact fun hseen => hm other ho (List.mem_cons_of_mem _ hseen)

namespace State

variable {γ : Type} {states : List (State γ)} {name : String} {s : State γ}

theorem name_of_named? (h : named? states name = some s) : s.name = name := by simpa using List.find?_some h

theorem mem_of_named? (h : named? states name = some s) : s ∈ states := List.mem_of_find?_eq_some h

/-- Where no two states have the same name, each is found under its own. -/
theorem named?_of_mem (h : (states.map (·.name)).Nodup) (hs : s ∈ states) : named? states s.name = some s :=
  find?_of_nodup_keys h hs

theorem isSome_of_danglingLink?_eq_none (h : danglingLink? states = none) (hs : s ∈ states) (hn : name ∈ s.targets) :
    (named? states name).isSome := by
  have hf := List.findSome?_eq_none_iff.1 h s hs
  rw [Option.map_eq_none_iff, List.find?_eq_none] at hf
  simpa [Option.isSome_iff_ne_none] using hf name hn

end State

/-! ## Sound graphs -/

namespace Graph

/-- The start and the links of a graph lead to states of it, and the branches of its Parallels share no names. -/
structure Linked (g : Graph) : Prop where
  start : (g.get? g.startAt).isSome
  targets : ∀ s ∈ g.states, ∀ name ∈ s.targets, (g.get? name).isSome
  branches : ∀ s ∈ g.states, ∀ branches, s.kind = .parallel branches → sharedName? branches = none

/-- The graph and all graphs in it are linked. -/
inductive Sound : Graph → Prop
  | intro {g : Graph} (linked : g.Linked) (inner : ∀ s ∈ g.states, ∀ inner ∈ s.kind.graphs, inner.Sound) : Sound g

namespace Sound

variable {g inner : Graph} {s : State Graph}

theorem linked (h : g.Sound) : g.Linked := by
  cases h with
  | intro linked _ => exact linked

theorem within (h : g.Sound) (hs : s ∈ g.states) (hi : inner ∈ s.kind.graphs) : inner.Sound := by
  cases h with
  | intro _ within => exact within s hs inner hi

end Sound

theorem checkLinks_ok {owner : String} {g checked : Graph} (h : checkLinks owner g = .ok checked) :
    checked = g ∧ (g.get? g.startAt).isSome ∧ State.danglingLink? g.states = none := by
  unfold checkLinks at h
  split at h
  · cases h
  · next hs =>
    split at h
    · cases h
    · next hd =>
      split at h
      · cases h
      · cases h
        exact ⟨rfl, by simpa [Option.isSome_iff_ne_none] using hs, hd⟩

end Graph

/-! ## Loading -/

namespace StateDecl

variable {d : StateDecl GraphDecl} {name owner : String}

/-- The graphs in a state are built of those of its declaration, and the branches of a Parallel share no names. -/
theorem buildKind_ok {kind : Kind Graph} (h : (d.mapGraphs Graph.ofDecl).buildKind name = .ok kind) :
    kind.type = d.type ∧ List.Forall₂ (fun decl g => Graph.ofDecl decl name = .ok g) d.kind.graphs kind.graphs ∧
      ∀ branches, kind = .parallel branches → Graph.sharedName? branches = none := by
  unfold buildKind at h
  have hk : (d.mapGraphs Graph.ofDecl).kind = d.kind.mapGraphs Graph.ofDecl := rfl
  have ht : d.type = d.kind.type := rfl
  rw [hk] at h
  rw [ht]
  cases hd : d.kind with
  | task | choice | wait =>
    rw [hd] at h
    obtain ⟨spec, -, rfl⟩ := ok_of_map (ok_of_mapError h)
    exact ⟨rfl, .nil, fun branches hb => nomatch hb⟩
  | pass | succeed | fail =>
    rw [hd] at h
    cases h
    exact ⟨rfl, .nil, fun branches hb => nomatch hb⟩
  | map iterator =>
    rw [hd] at h
    obtain ⟨spec, -, h⟩ := ok_of_bind h
    obtain ⟨graph, hg, h⟩ := ok_of_bind h
    cases h
    exact ⟨rfl, .cons hg .nil, fun branches hb => nomatch hb⟩
  | parallel branches =>
    rw [hd] at h
    obtain ⟨graphs, hg, h⟩ := ok_of_bind h
    split at h
    · cases h
    · next hs =>
      cases h
      refine ⟨rfl, List.forall₂_map_left_iff.1 (mapM_ok_iff.1 hg), fun branches hb => ?_⟩
      cases hb
      exact hs

theorem build_ok {d : StateDecl GraphBuilder} {s : State Graph} (h : d.build owner = .ok s) :
    s.name = d.name ∧ s.next = d.next ∧ d.buildKind (qualify owner d.name) = .ok s.kind := by
  unfold build at h
  obtain ⟨flow, -, h⟩ := ok_of_bind h
  obtain ⟨kind, hk, h⟩ := ok_of_bind h
  obtain ⟨catchers, -, h⟩ := ok_of_bind h
  cases h
  exact ⟨rfl, rfl, hk⟩

end StateDecl

namespace Graph

theorem ofDecl_eq (decl : GraphDecl) (owner : String) :
    ofDecl decl owner = (decl.states.map (·.mapGraphs ofDecl)).mapM (·.build owner) >>= fun states =>
      checkLinks owner ⟨decl.startAt, states⟩ := by
  have h : ofDecl decl = _ := GraphDecl.fold_eq _ decl
  rw [h]
  rfl

/-- A graph that is built has the states of its declaration, and its start and its links lead to them. -/
theorem ofDecl_ok {g : Graph} {decl : GraphDecl} {owner : String} (h : ofDecl decl owner = .ok g) :
    List.Forall₂ (fun d s => (d.mapGraphs ofDecl).build owner = .ok s) decl.states g.states ∧
      (g.get? g.startAt).isSome ∧ State.danglingLink? g.states = none := by
  rw [ofDecl_eq] at h
  obtain ⟨states, hs, hc⟩ := ok_of_bind h
  obtain ⟨rfl, hstart, hlinks⟩ := checkLinks_ok hc
  exact ⟨List.forall₂_map_left_iff.1 (mapM_ok_iff.1 hs), hstart, hlinks⟩

/-- Every graph that is built is sound. -/
theorem sound_of_ofDecl {g : Graph} {decl : GraphDecl} {owner : String} (h : ofDecl decl owner = .ok g) : g.Sound := by
  induction g using Graph.induction generalizing decl owner with
  | step g ih =>
    obtain ⟨hstates, hstart, hlinks⟩ := ofDecl_ok h
    have hk : ∀ s ∈ g.states, ∃ d : StateDecl GraphDecl, ∃ name,
        (d.mapGraphs ofDecl).buildKind name = .ok s.kind := by
      intro s hm
      obtain ⟨d, -, hd⟩ := mem_of_forall₂ hstates hm
      exact ⟨d, _, (StateDecl.build_ok hd).2.2⟩
    refine ⟨⟨hstart, fun s hm name => State.isSome_of_danglingLink?_eq_none hlinks hm, fun s hm => ?_⟩,
      fun s hm inner hi => ?_⟩
    · obtain ⟨d, name, hd⟩ := hk s hm
      exact (StateDecl.buildKind_ok hd).2.2
    · obtain ⟨d, name, hd⟩ := hk s hm
      obtain ⟨decl, -, hdecl⟩ := mem_of_forall₂ (StateDecl.buildKind_ok hd).2.1 hi
      exact ih s hm inner hi hdecl

end Graph

/-- Every machine that is loaded is sound. -/
theorem Machine.sound_of_load {definition : Json} {m : Machine} (h : load definition = .ok m) : m.root.Sound := by
  unfold load at h
  obtain ⟨doc, -, h⟩ := ok_of_bind h
  obtain ⟨root, hr, rfl⟩ := ok_of_map h
  exact Graph.sound_of_ofDecl hr

end StateBench

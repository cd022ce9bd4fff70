import Mathlib.Data.List.Pairwise
import StateBench.Bench
import StateBench.Proofs.Machine.Links

/-!
# Where states are declared

`State.Below` and `Graph.Declares` say which states are inside a state or a graph, and under which path. The state that
a request is about is declared under its path (`Graph.declares_of_locate?`), and what is inside its graph is declared in
the machine under the path of the states around it.
-/

namespace StateBench

/-- A state inside another one, or that state itself, and the path from there. -/
inductive State.Below : State Graph → StatePath → State Graph → Prop
  | self {s : State Graph} : Below s [] s
  | inside {s child last : State Graph} {inner : Graph} {name : String} {rest : StatePath}
      (graph : inner ∈ s.kind.graphs) (state : inner.get? name = some child) (below : Below child rest last) :
      Below s (name :: rest) last

/-- A state of a graph, or one inside such a state, and its path. -/
inductive Graph.Declares : Graph → StatePath → State Graph → Prop
  | intro {g : Graph} {child last : State Graph} {name : String} {rest : StatePath} (state : g.get? name = some child)
      (below : child.Below rest last) : Declares g (name :: rest) last

theorem State.Below.of_declares {s last : State Graph} {inner : Graph} {path : StatePath}
    (hi : inner ∈ s.kind.graphs) (h : inner.Declares path last) : s.Below path last := by
  cases h with
  | intro state below => exact .inside hi state below

/-- A state of a graph in the last state is inside the first one as well. -/
theorem State.Below.snoc {s last child : State Graph} {inner : Graph} {rest : StatePath} {name : String}
    (h : s.Below rest last) (hi : inner ∈ last.kind.graphs) (hc : inner.get? name = some child) :
    s.Below (rest ++ [name]) child := by
  induction h with
  | self => exact .inside hi hc .self
  | inside graph state _ ih => exact .inside graph state (ih hi)

theorem Graph.Declares.snoc {g inner : Graph} {last child : State Graph} {path : StatePath} {name : String}
    (h : g.Declares path last) (hi : inner ∈ last.kind.graphs) (hc : inner.get? name = some child) :
    g.Declares (path ++ [name]) child := by
  cases h with
  | intro state below => exact .intro state (below.snoc hi hc)

/-- The states on the way to a state inside another one are inside it as well. -/
theorem State.Below.of_prefix {s last : State Graph} {path around : StatePath} (h : s.Below path last)
    (hp : around <+: path) : ∃ outer, s.Below around outer := by
  induction h generalizing around with
  | self =>
    obtain rfl := List.prefix_nil.1 hp
    exact ⟨_, .self⟩
  | inside graph state _ ih =>
    cases around with
    | nil => exact ⟨_, .self⟩
    | cons name around =>
      obtain ⟨rfl, hrest⟩ := List.cons_prefix_cons.1 hp
      obtain ⟨outer, houter⟩ := ih hrest
      exact ⟨outer, .inside graph state houter⟩

theorem Graph.Declares.of_prefix {g : Graph} {last : State Graph} {path around : StatePath} (h : g.Declares path last)
    (hp : around <+: path) (hne : around ≠ []) : ∃ outer, g.Declares around outer := by
  cases h with
  | intro state below =>
    cases around with
    | nil => exact absurd rfl hne
    | cons name around =>
      obtain ⟨rfl, hrest⟩ := List.cons_prefix_cons.1 hp
      obtain ⟨outer, houter⟩ := below.of_prefix hrest
      exact ⟨outer, .intro state houter⟩

/-! ## Sound graphs -/

namespace Graph

variable {g inner other : Graph} {s first last : State Graph} {path rest : StatePath} {name : String}

theorem isSome_get?_iff : (g.get? name).isSome ↔ name ∈ g.states.map (·.name) := by
  simp [get?, State.named?, List.find?_isSome]

/-- Two graphs in a state that declare a name are the same. -/
theorem Linked.inner_unique (h : g.Linked) (hs : s ∈ g.states) (hi : inner ∈ s.kind.graphs)
    (ho : other ∈ s.kind.graphs) (hni : (inner.get? name).isSome) (hno : (other.get? name).isSome) : inner = other := by
  cases hk : s.kind with
  | map spec iterator =>
    rw [hk] at hi ho
    exact (List.mem_singleton.1 hi).trans (List.mem_singleton.1 ho).symm
  | parallel branches =>
    rw [hk] at hi ho
    have hn := (nodup_of_firstRepeated?_eq_none (h.branches s hs branches hk)).1
    have hd := (List.nodup_flatMap.1 hn).2
    by_contra hne
    have : Std.Symm (Function.onFun List.Disjoint fun branch : Graph => branch.states.map (·.name)) :=
      ⟨fun _ _ h _ hl hr => h hr hl⟩
    exact hd.forall hi ho hne (isSome_get?_iff.1 hni) (isSome_get?_iff.1 hno)
  | _ =>
    rw [hk] at hi
    cases hi

/-- A state of a sound graph has at most one state under each path below it. -/
theorem Sound.below_unique (h : g.Sound) (hs : s ∈ g.states) (hf : s.Below rest first) (hl : s.Below rest last) :
    first = last := by
  induction hf generalizing g with
  | self =>
    cases hl
    rfl
  | inside graph state below ih =>
    cases hl with
    | inside graph' state' below' =>
      obtain rfl := h.linked.inner_unique hs graph graph' (by rw [state]; rfl) (by rw [state']; rfl)
      obtain rfl := Option.some.inj (state.symm.trans state')
      exact ih (h.within hs graph) (State.mem_of_named? state) below'

/-- A sound graph declares at most one state under each path. -/
theorem Sound.declares_unique (h : g.Sound) (hf : g.Declares path first) (hl : g.Declares path last) :
    first = last := by
  cases hf with
  | intro state below =>
    cases hl with
    | intro state' below' =>
      obtain rfl := Option.some.inj (state.symm.trans state')
      exact h.below_unique (State.mem_of_named? state) below below'

end Graph

namespace Graph

variable {g inner : Graph} {s last : State Graph} {path rest : StatePath}

theorem mem_of_get? {name : String} (h : g.get? name = some s) : s ∈ g.states := State.mem_of_named? h

theorem name_of_get? {name : String} (h : g.get? name = some s) : s.name = name := State.name_of_named? h

theorem mem_graphs_of_inner? {child : String} (h : inner? s child = some inner) : inner ∈ s.kind.graphs := by
  unfold inner? at h
  cases hk : s.kind with
  | map spec iterator =>
    rw [hk] at h
    cases h
    exact List.mem_cons_self
  | parallel branches =>
    rw [hk] at h
    exact List.mem_of_find?_eq_some h
  | _ =>
    rw [hk] at h
    cases h

/-! ## Paths -/

/-- What a path leads to is declared in the graph that it names last, and that graph is inside the one it starts from.
-/
theorem declares_of_locate? (h : locate? path g = some (inner, s)) :
    path = path.dropLast ++ [s.name] ∧ inner.get? s.name = some s ∧ (g.Sound → inner.Sound) ∧
      ∀ {rest last}, inner.Declares rest last → g.Declares (path.dropLast ++ rest) last := by
  fun_induction locate? path g with
  | case1 g => cases h
  | case2 name g =>
    obtain ⟨found, hf, he⟩ := Option.map_eq_some_iff.1 h
    cases he
    obtain rfl := name_of_get? hf
    exact ⟨rfl, hf, id, id⟩
  | case3 name child rest g ih =>
    obtain ⟨outer, ho, h⟩ := Option.bind_eq_some_iff.1 h
    obtain ⟨middle, hm, h⟩ := Option.bind_eq_some_iff.1 h
    obtain ⟨hp, hs, hsound, hd⟩ := ih middle h
    have hg := mem_graphs_of_inner? hm
    refine ⟨?_, hs, fun h => hsound (h.within (mem_of_get? ho) hg), fun h => ?_⟩
    · rw [List.dropLast_cons_cons, List.cons_append, ← hp]
    · rw [List.dropLast_cons_cons, List.cons_append]
      exact .intro ho (.of_declares hg (hd h))

/-- The states inside a state have paths that are below its own. -/
theorem mem_pathsBelow (h : g.Declares path s) (owner : StatePath) : owner ++ path ∈ g.pathsBelow owner := by
  obtain ⟨state, below⟩ := h
  rename_i child name rest
  induction below generalizing g name owner with
  | self =>
    rw [pathsBelow_eq, List.mem_flatMap]
    exact ⟨_, mem_of_get? state, by rw [name_of_get? state]; exact List.mem_cons_self⟩
  | inside graph inner below ih =>
    rw [pathsBelow_eq, List.mem_flatMap]
    refine ⟨_, mem_of_get? state, List.mem_cons_of_mem _ (List.mem_flatMap.2 ⟨_, graph, ?_⟩)⟩
    rw [name_of_get? state]
    simpa using ih (owner ++ [name]) inner

end Graph

/-! ## Requests -/

theorem Machine.mem_paths_of_resolvePath {m : Machine} {name : String} {path : StatePath}
    (h : m.resolvePath name = .ok path) : path ∈ m.paths := by
  unfold resolvePath at h
  split at h
  · next hf =>
    cases h
    exact List.mem_of_find?_eq_some hf
  · split at h
    · cases h
    · next hf =>
      cases h
      exact List.mem_of_mem_filter (hf ▸ List.mem_singleton_self _)
    · cases h

theorem Machine.resolvePath_of_resolve {m : Machine} {name : String} {target : Target}
    (h : m.resolve name = .ok target) : m.resolvePath name = .ok target.path := by
  unfold resolve at h
  obtain ⟨path, hp, h⟩ := ok_of_bind h
  split at h
  · cases h
    exact hp
  · cases h

theorem Machine.locate?_of_resolve {m : Machine} {name : String} {target : Target} (h : m.resolve name = .ok target) :
    Graph.locate? target.path m.root = some (target.graph, target.state) := by
  unfold resolve at h
  obtain ⟨path, -, h⟩ := ok_of_bind h
  split at h
  · next hl =>
    cases h
    exact hl
  · cases h

/-- What a job comes from. -/
theorem Bench.ok_of_prepare {request : Request} {job : Job} (h : prepare request = .ok job) :
    ∃ machine, Machine.load request.definition = .ok machine ∧ machine.resolve request.stateName = .ok job.target ∧
      job.mode = request.mode ∧ job.input = request.input := by
  unfold prepare jobFor at h
  obtain ⟨machine, hm, h⟩ := ok_of_bind h
  obtain ⟨target, ht, h⟩ := ok_of_bind h
  obtain ⟨bindings, -, h⟩ := ok_of_bind h
  obtain ⟨mocks, -, h⟩ := ok_of_bind h
  cases h
  exact ⟨machine, ok_of_mapError hm, ht, rfl, rfl⟩

/-- The evaluation of a request that is accepted is that of its job. -/
theorem Bench.evaluateAt_of_prepare {request : Request} {job : Job} (h : prepare request = .ok job) (bench : Bench)
    (now : Nat) :
    bench.evaluateAt now request = .ok ⟨(bench.perform job).run now,
      .ofResult ((bench.perform job).run now).result request.stateName
        (.ofUses (job.mocks.uses ((bench.perform job).run now).lookups))⟩ := by
  unfold evaluateAt
  rw [h]
  rfl

end StateBench

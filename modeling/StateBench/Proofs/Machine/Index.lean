import Mathlib
import StateBench.Proofs.Document.Accepted
import StateBench.Proofs.Machine.Paths

/-!
# The index of a machine

The paths of a machine are listed on the way through its graphs, and a path is followed from the root downwards. The two
fit together: the paths are those of the states at all addresses (`Graph.mem_pathsBelow_iff`), and each of them is
followed to the graph at its address and to its state there (`WellFormedThroughout.locate?_of_at`). So the list is an
index of the states, each of them under a path of its own and behind those around it, and what a name is resolved to is
where the index says (`Machine.indexed_of_load`).
-/

namespace StateBench

namespace Address

/-- The names of the states around the graph at an address. -/
def names (address : Address) : StatePath := address.map Prod.fst

/-- The path of a state of the graph at an address. -/
def pathOf (address : Address) (name : String) : StatePath := address.names ++ [name]

end Address

namespace Graph

variable {g inner other : Graph} {s last : State Graph} {address : Address} {path owner : StatePath}

/-! ## States at addresses -/

/-- The paths below an owner are those of the states at all addresses. -/
theorem mem_pathsBelow_iff :
    path ∈ g.pathsBelow owner ↔
      ∃ address inner s, g.At address inner ∧ s ∈ inner.states ∧ path = owner ++ address.pathOf s.name := by
  constructor
  · intro h
    induction g using Graph.induction generalizing owner with
    | step g ih =>
      rw [pathsBelow_eq, List.mem_flatMap] at h
      obtain ⟨s, hs, h⟩ := h
      rcases List.mem_cons.1 h with rfl | h
      · exact ⟨[], g, s, .here, hs, rfl⟩
      · obtain ⟨inner, hi, h⟩ := List.mem_flatMap.1 h
        obtain ⟨address, last, child, ha, hc, rfl⟩ := ih s hs inner hi h
        obtain ⟨index, hindex⟩ := List.getElem?_of_mem hi
        exact ⟨(s.name, index) :: address, last, child, .inside hs hindex ha, hc, List.append_assoc ..⟩
  · rintro ⟨address, inner, s, ha, hs, rfl⟩
    induction ha generalizing owner with
    | here =>
      rw [pathsBelow_eq, List.mem_flatMap]
      exact ⟨s, hs, List.mem_cons_self⟩
    | @inside g inner last outer index rest state graph within ih =>
      rw [pathsBelow_eq, List.mem_flatMap]
      refine ⟨outer, state, List.mem_cons_of_mem _ (List.mem_flatMap.2 ⟨inner, List.mem_of_getElem? graph, ?_⟩)⟩
      have hin : (owner ++ [outer.name]) ++ Address.pathOf rest s.name ∈ inner.pathsBelow (owner ++ [outer.name]) :=
        ih hs
      rwa [List.append_assoc] at hin

/-- The path of a state at an address starts with the name of a state of the graph. -/
theorem At.exists_head (ha : g.At address inner) (hs : s ∈ inner.states) :
    ∃ name rest, address.pathOf s.name = name :: rest ∧ name ∈ g.states.map (·.name) := by
  cases ha with
  | here => exact ⟨s.name, [], rfl, List.mem_map_of_mem hs⟩
  | inside state graph within => exact ⟨_, _, rfl, List.mem_map_of_mem state⟩

/-- Of the graphs in a state one has states with a name. -/
theorem WellFormed.index_unique {doc : Json} (h : g.WellFormed doc) (hs : s ∈ g.states) {index position : Nat}
    (hi : s.kind.graphs[index]? = some inner) (ho : s.kind.graphs[position]? = some other) {name : String}
    (hni : name ∈ inner.states.map (·.name)) (hno : name ∈ other.states.map (·.name)) : index = position := by
  obtain ⟨hlt, rfl⟩ := List.getElem?_eq_some_iff.1 hi
  obtain ⟨hlt', rfl⟩ := List.getElem?_eq_some_iff.1 ho
  have hd := List.pairwise_iff_getElem.1 (h.disjoint hs)
  rcases Nat.lt_trichotomy index position with hl | he | hl
  · exact absurd hno (hd _ _ hlt hlt' hl hni)
  · exact he
  · exact absurd hni (hd _ _ hlt' hlt hl hno)

namespace WellFormedThroughout

/-- A path leads to one state at one address. -/
theorem address_unique (h : g.WellFormedThroughout) {place : Address} (ha : g.At address inner) (hs : s ∈ inner.states)
    (hp : g.At place other) (hl : last ∈ other.states) (same : address.pathOf s.name = place.pathOf last.name) :
    address = place := by
  induction ha generalizing place with
  | here =>
    cases hp with
    | here => rfl
    | inside => simp [Address.pathOf, Address.names] at same
  | @inside g inner _ outer index rest state graph within ih =>
    cases hp with
    | here => simp [Address.pathOf, Address.names] at same
    | @inside _ inner' _ outer' index' rest' state' graph' within' =>
      obtain ⟨doc, hg⟩ := h.self
      obtain ⟨hname, htail⟩ : outer.name = outer'.name ∧ Address.pathOf rest s.name = Address.pathOf rest' last.name :=
        List.cons.inj same
      obtain rfl : outer = outer' := List.inj_on_of_nodup_map hg.names state state' hname
      obtain ⟨name, more, hhead, hn⟩ := within.exists_head hs
      obtain ⟨name', more', hhead', hn'⟩ := within'.exists_head hl
      obtain rfl : name = name' := (List.cons.inj (hhead.symm.trans (htail.trans hhead'))).1
      obtain rfl := hg.index_unique state graph graph' hn hn'
      obtain rfl := Option.some.inj (graph.symm.trans graph')
      rw [ih (h.within state (List.mem_of_getElem? graph)) hs within' htail]

/-- The path of a state at an address is followed to the graph there and to the state. -/
theorem locate?_of_at (h : g.WellFormedThroughout) (sound : g.Sound) (ha : g.At address inner) (hs : s ∈ inner.states) :
    locate? (address.pathOf s.name) g = some (inner, s) := by
  induction ha with
  | @here g =>
    obtain ⟨doc, hg⟩ := h.self
    have hget : g.get? s.name = some s := State.named?_of_mem hg.names hs
    show (g.get? s.name).map _ = _
    rw [hget, Option.map_some]
  | @inside g middle inner outer index rest state graph within ih =>
    obtain ⟨doc, hg⟩ := h.self
    have hm := List.mem_of_getElem? graph
    have hget : g.get? outer.name = some outer := State.named?_of_mem hg.names state
    have hrest := ih (h.within state hm) (sound.within state hm) hs
    obtain ⟨name, more, hhead, hn⟩ := within.exists_head hs
    have hpath : Address.pathOf ((outer.name, index) :: rest) s.name = outer.name :: name :: more :=
      congrArg (outer.name :: ·) hhead
    have hinner : inner? outer name = some middle :=
      sound.linked.inner?_eq state hm (isSome_get?_iff.2 hn)
    rw [hpath, locate?, hget]
    show (inner? outer name >>= _) = _
    rw [hinner, ← hrest, hhead]
    rfl

end WellFormedThroughout

end Graph

/-! ## Names -/

namespace Machine

variable {m : Machine} {name : String} {path : StatePath}

/-- A name stands for a path if it is the qualified name of the state, or if it is no qualified name and is the own name
of this state only. -/
def StandsFor (m : Machine) (name : String) (path : StatePath) : Prop :=
  path ∈ m.paths ∧ (path.dotted = name ∨
    (∀ other ∈ m.paths, other.dotted ≠ name) ∧ path.leaf = name ∧ ∀ other ∈ m.paths, other.leaf = name → other = path)

/-- Where no two states have the same qualified name, a name is taken for the path that it stands for. -/
theorem resolvePath_ok_iff (unique : (m.paths.map StatePath.dotted).Nodup) :
    m.resolvePath name = .ok path ↔ m.StandsFor name path := by
  unfold resolvePath StandsFor
  cases hf : m.paths.find? (·.dotted = name) with
  | some found =>
    have hm := List.mem_of_find?_eq_some hf
    have hd : found.dotted = name := by simpa using List.find?_some hf
    constructor
    · rintro ⟨⟩
      exact ⟨hm, .inl hd⟩
    · rintro ⟨hp, hdotted | ⟨hno, -⟩⟩
      · rw [List.inj_on_of_nodup_map unique hm hp (hd.trans hdotted.symm)]
      · exact absurd hd (hno found hm)
  | none =>
    have hno : ∀ other ∈ m.paths, other.dotted ≠ name := by simpa using List.find?_eq_none.1 hf
    have hmem (other : StatePath) : other ∈ m.paths.filter (·.leaf = name) ↔ other ∈ m.paths ∧ other.leaf = name := by
      simp
    have hnodup : (m.paths.filter (·.leaf = name)).Nodup := unique.of_map.filter _
    generalize m.paths.filter (·.leaf = name) = found at hmem hnodup
    have hone : found = [path] ↔
        path ∈ m.paths ∧ (path.dotted = name ∨ (∀ other ∈ m.paths, other.dotted ≠ name) ∧ path.leaf = name ∧
          ∀ other ∈ m.paths, other.leaf = name → other = path) := by
      rw [← List.perm_singleton, List.perm_ext_iff_of_nodup hnodup (List.nodup_singleton path)]
      simp only [hmem, List.mem_singleton]
      constructor
      · intro h
        obtain ⟨hp, hl⟩ := (h path).2 rfl
        exact ⟨hp, .inr ⟨hno, hl, fun other ho hl => (h other).1 ⟨ho, hl⟩⟩⟩
      · rintro ⟨hp, hd | ⟨-, hl, hall⟩⟩ other
        · exact absurd hd (hno path hp)
        · refine ⟨fun ho => hall other ho.1 ho.2, ?_⟩
          rintro rfl
          exact ⟨hp, hl⟩
    rw [← hone]
    rcases found with _ | ⟨first, _ | ⟨second, rest⟩⟩ <;> simp

/-- A name is rejected just if it is no qualified name and the own name of no state, or of more than one. -/
theorem resolvePath_error_iff {rejection : Rejection} :
    m.resolvePath name = .error rejection ↔
      (∀ path ∈ m.paths, path.dotted ≠ name) ∧
        ((∀ path ∈ m.paths, path.leaf ≠ name) ∧ rejection = .stateNotFound name ∨
          2 ≤ (m.paths.filter (·.leaf = name)).length ∧
            rejection = .ambiguousName name ((m.paths.filter (·.leaf = name)).map StatePath.dotted)) := by
  unfold resolvePath
  cases hf : m.paths.find? (·.dotted = name) with
  | some found =>
    have hd : found.dotted = name := by simpa using List.find?_some hf
    exact ⟨fun h => (nomatch h), fun h => absurd hd (h.1 found (List.mem_of_find?_eq_some hf))⟩
  | none =>
    have hno : ∀ other ∈ m.paths, other.dotted ≠ name := by simpa using List.find?_eq_none.1 hf
    have hnil : m.paths.filter (·.leaf = name) = [] ↔ ∀ path ∈ m.paths, path.leaf ≠ name := by simp
    rw [← hnil, and_iff_right hno]
    generalize m.paths.filter (·.leaf = name) = found
    rcases found with _ | ⟨first, _ | ⟨second, rest⟩⟩ <;> simp [eq_comm]

/-- Nothing is found for a name just if it is neither the qualified name nor the own name of a state. -/
theorem resolvePath_notFound_iff {other : String} :
    m.resolvePath name = .error (.stateNotFound other) ↔
      other = name ∧ ∀ path ∈ m.paths, path.dotted ≠ name ∧ path.leaf ≠ name := by
  rw [resolvePath_error_iff]
  simp only [Rejection.stateNotFound.injEq, reduceCtorEq, and_false, or_false, forall_and]
  tauto

/-- A name is resolved to the state that the path leads to for which it stands. -/
theorem resolve_ok_iff {target : Target} :
    m.resolve name = .ok target ↔
      m.resolvePath name = .ok target.path ∧
        Graph.locate? target.path m.root = some (target.graph, target.state) := by
  refine ⟨fun h => ⟨resolvePath_of_resolve h, locate?_of_resolve h⟩, fun ⟨hp, hl⟩ => ?_⟩
  unfold resolve
  simp only [hp, bind, Except.bind, hl]
  rfl

/-- Where all paths lead to states, a name is rejected just if it stands for no path. -/
theorem resolve_error_iff (located : ∀ path ∈ m.paths, (Graph.locate? path m.root).isSome) {rejection : Rejection} :
    m.resolve name = .error rejection ↔ m.resolvePath name = .error rejection := by
  unfold resolve
  cases hp : m.resolvePath name with
  | error other => constructor <;> rintro ⟨⟩ <;> rfl
  | ok path =>
    obtain ⟨⟨g, s⟩, hl⟩ := Option.isSome_iff_exists.1 (located path (mem_paths_of_resolvePath hp))
    simp only [bind, Except.bind, hl]
    exact ⟨fun h => (nomatch h), fun h => (nomatch h)⟩

end Machine

/-! ## Machines -/

namespace Machine

/-- The paths of the machine are an index of its states. -/
structure Indexed (m : Machine) : Prop where
  /-- The path of every state is listed, and nothing else is. -/
  listed : ∀ path, path ∈ m.paths ↔
    ∃ address g s, m.root.At address g ∧ s ∈ g.states ∧ path = Address.pathOf address s.name
  nodup : m.paths.Nodup
  /-- No two states have the same path. -/
  unique : ∀ {address place g other s last}, m.root.At address g → s ∈ g.states → m.root.At place other →
    last ∈ other.states → address.pathOf s.name = place.pathOf last.name → address = place ∧ g = other ∧ s = last
  /-- The states around a state are listed before it. -/
  ordered : ∀ before path after, m.paths = before ++ path :: after →
    ∀ around, around <+: path → around ≠ [] → around ≠ path → around ∈ before
  /-- The path of a state leads to it, in the graph that declares it. -/
  located : ∀ {address g s}, m.root.At address g → s ∈ g.states →
    Graph.locate? (address.pathOf s.name) m.root = some (g, s)
  /-- No state is found for a name just if it is neither the qualified name nor the own name of any. -/
  unknown : ∀ name, (∃ other, m.resolve name = .error (.stateNotFound other)) ↔
    ∀ path ∈ m.paths, path.dotted ≠ name ∧ path.leaf ≠ name
  /-- What a name is resolved to is listed, and it is declared in the one graph with such a state that is inside the
  states around it. -/
  resolved : ∀ name target, m.resolve name = .ok target →
    target.path ∈ m.paths ∧ target.path = target.ancestors ++ [target.state.name] ∧
      target.graph.get? target.state.name = some target.state ∧
      (∃ address, m.root.At address target.graph ∧ address.names = target.ancestors) ∧
      ∀ address g, m.root.At address g → address.names = target.ancestors →
        (g.get? target.state.name).isSome → g = target.graph

/-- The paths of a machine that is loaded are an index of its states. -/
theorem indexed_of_load {definition : Json} {m : Machine} (canonical : definition.Canonical)
    (h : load definition = .ok m) : m.Indexed := by
  have wellFormed := wellFormedThroughout_of_load canonical h
  have sound := sound_of_load h
  have listed (path : StatePath) : path ∈ m.paths ↔
      ∃ address g s, m.root.At address g ∧ s ∈ g.states ∧ path = Address.pathOf address s.name :=
    Graph.mem_pathsBelow_iff
  have located {address : Address} {g : Graph} {s : State Graph} (ha : m.root.At address g) (hs : s ∈ g.states) :
      Graph.locate? (address.pathOf s.name) m.root = some (g, s) := wellFormed.locate?_of_at sound ha hs
  have unique {address place : Address} {g other : Graph} {s last : State Graph} (ha : m.root.At address g)
      (hs : s ∈ g.states) (hp : m.root.At place other) (hl : last ∈ other.states)
      (same : address.pathOf s.name = place.pathOf last.name) : address = place ∧ g = other ∧ s = last := by
    have hsome : some (g, s) = some (other, last) := by rw [← located ha hs, ← located hp hl, same]
    cases hsome
    exact ⟨wellFormed.address_unique ha hs hp hl same, rfl, rfl⟩
  refine ⟨listed, nodup_paths canonical h, unique, fun before path after he around hp hne hown => ?_, located,
    fun name => ?_, fun name target ht => ?_⟩
  · -- What is around a listed state is listed, and not behind it.
    have hm : path ∈ m.paths := he ▸ List.mem_append_right _ List.mem_cons_self
    obtain ⟨-, s, -, hd⟩ := locate?_of_mem_paths canonical h hm
    obtain ⟨outer, houter⟩ := hd.of_prefix hp hne
    have haround : around ∈ m.paths := Graph.mem_pathsBelow houter []
    rw [he, List.mem_append, List.mem_cons] at haround
    have ordered : m.paths.Pairwise fun earlier later => ¬ later <+: earlier := wellFormed.ordered_pathsBelow []
    rw [he, List.pairwise_append, List.pairwise_cons] at ordered
    rcases haround with hbefore | heq | hafter
    · exact hbefore
    · exact absurd heq hown
    · exact absurd hp (ordered.2.1.1 around hafter)
  · simp only [resolve_error_iff (isSome_locate?_of_mem_paths canonical h), resolvePath_notFound_iff, exists_eq_left]
  · have hm := mem_paths_of_resolvePath (resolvePath_of_resolve ht)
    have hl := locate?_of_resolve ht
    obtain ⟨hpath, hget, -⟩ := Graph.declares_of_locate? hl
    obtain ⟨address, g, s, ha, hs, hp⟩ := (listed target.path).1 hm
    obtain ⟨rfl, rfl⟩ : target.graph = g ∧ target.state = s := by
      have hsome := located ha hs
      rw [← hp, hl] at hsome
      cases hsome
      exact ⟨rfl, rfl⟩
    have hnames : address.names = target.ancestors := by
      rw [Target.ancestors, hp, Address.pathOf, List.dropLast_concat]
    refine ⟨hm, hpath, hget, ⟨address, ha, hnames⟩, fun place other hplace hother hsome => ?_⟩
    obtain ⟨last, hlast⟩ := Option.isSome_iff_exists.1 hsome
    have hname : last.name = target.state.name := Graph.name_of_get? hlast
    exact (unique hplace (Graph.mem_of_get? hlast) ha hs
      (by rw [Address.pathOf, Address.pathOf, hother, hnames, hname])).2.1

end Machine

/-- Two Maps, one after the other, over graphs whose tasks have the same name. -/
def checkBoth : Json :=
  let first := Json.record [("Type", .string "Map"), ("ItemProcessor", checkOnce), ("Next", .string "Second")]
  let second := Json.record [("Type", .string "Map"), ("ItemProcessor", checkOnce), ("End", .bool true)]
  .record [("StartAt", .string "First"), ("States", .record [("First", first), ("Second", second)])]

theorem canonical_checkBoth : checkBoth.Canonical := by
  have hfirst : (Json.record [("Type", .string "Map"), ("ItemProcessor", checkOnce),
      ("Next", .string "Second")]).Canonical :=
    Json.canonical_record (by simp [Json.Canonical.string, canonical_checkOnce])
  have hsecond : (Json.record [("Type", .string "Map"), ("ItemProcessor", checkOnce),
      ("End", .bool true)]).Canonical :=
    Json.canonical_record (by simp [Json.Canonical.string, Json.Canonical.bool, canonical_checkOnce])
  exact Json.canonical_record (by simp [Json.Canonical.string, Json.canonical_record, hfirst, hsecond])

theorem paths_checkBoth :
    (Machine.load checkBoth).map Machine.paths =
      .ok [["First"], ["First", "Check"], ["Second"], ["Second", "Check"]] := by
  cbv

theorem indexed_of_checkBoth :
    checkBoth.Canonical ∧ ∃ m, Machine.load checkBoth = .ok m ∧
      m.paths = [["First"], ["First", "Check"], ["Second"], ["Second", "Check"]] ∧ m.Indexed := by
  obtain ⟨m, hm, hpaths⟩ := ok_of_map paths_checkBoth
  exact ⟨canonical_checkBoth, m, hm, hpaths, Machine.indexed_of_load canonical_checkBoth hm⟩

end StateBench

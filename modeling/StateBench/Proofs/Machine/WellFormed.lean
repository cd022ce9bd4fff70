import Mathlib
import StateBench.Proofs.Machine.Links
import StateBench.Request

/-!
# What every graph of a machine keeps

A graph of a machine is found at an address, the states and the indices of the graphs around it (`Graph.At`). A document
has graphs at addresses as well (`Json.graphAt?`), and a machine is loaded from a document graph by graph: the graph at
an address of the machine is loaded from the one at the same address of the document (`Graph.LoadedFrom.of_at`). So what
is checked of one graph when it is loaded holds of all of them (`Graph.WellFormed`, `Machine.wellFormed_of_load`).
-/

namespace StateBench

/-! ## Addresses -/

/-- The names of the states around a graph, from the outside, and the index of the graph on the way in each of them. -/
abbrev Address := List (String × Nat)

/-- The document of the graph at an address. -/
def Json.graphAt? (doc : Json) : Address → Option Json
  | [] => some doc
  | (name, index) :: rest => do
    let state ← doc.stateDoc? name
    let inner ← state.graphDocs[index]?
    inner.graphAt? rest

/-- A graph inside another one, or that graph itself, and its address there. -/
inductive Graph.At : Graph → Address → Graph → Prop
  | here {g : Graph} : At g [] g
  | inside {g inner last : Graph} {s : State Graph} {index : Nat} {rest : Address} (state : s ∈ g.states)
      (graph : s.kind.graphs[index]? = some inner) (within : At inner rest last) : At g ((s.name, index) :: rest) last

/-! ## Well-formed graphs -/

/-- A graph that has states with names of their own, to which its start and all links in it lead, and what the document
of the graph says of their transitions. The states in all branches of a Parallel have names of their own, too. -/
structure Graph.WellFormed (doc : Json) (g : Graph) : Prop where
  nonempty : g.states ≠ []
  names : (g.states.map (·.name)).Nodup
  start : (g.get? g.startAt).isSome
  next : ∀ s ∈ g.states, ∀ name, s.next = some name → (g.get? name).isSome
  choices : ∀ s ∈ g.states, ∀ choices fallback, s.kind = .choice choices fallback →
    ∀ name ∈ choices.map (·.next) ++ fallback.toList, (g.get? name).isSome
  catchers : ∀ s ∈ g.states, ∀ catcher ∈ s.catchers, (g.get? catcher.next).isSome
  transits : ∀ s ∈ g.states, ∃ state, doc.stateDoc? s.name = some state ∧ StateDecl.Transits state s.type s.next
  branches : ∀ s ∈ g.states, ∀ branches, s.kind = .parallel branches →
    branches ≠ [] ∧ (branches.flatMap fun branch => branch.states.map (·.name)).Nodup

/-! ## Graphs and their documents -/

/-- The graph is built of what a document declares. -/
def Graph.LoadedFrom (doc : Json) (g : Graph) : Prop :=
  ∃ decl owner, GraphDecl.read doc = .ok decl ∧ ofDecl decl owner = .ok g

/-- The state is built of what a document declares. -/
def State.LoadedFrom (doc : Json) (s : State Graph) : Prop :=
  ∃ d : StateDecl GraphDecl, ∃ owner, GraphDecl.readState s.name doc = .ok d ∧
    (d.mapGraphs Graph.ofDecl).build owner = .ok s

namespace State.LoadedFrom

variable {doc : Json} {s : State Graph} (h : s.LoadedFrom doc)
include h

theorem transits : StateDecl.Transits doc s.type s.next := by
  obtain ⟨d, owner, hr, hb⟩ := h
  obtain ⟨-, htransits, -⟩ := GraphDecl.readState_ok hr
  obtain ⟨-, hnext, hk⟩ := StateDecl.build_ok hb
  rw [hnext, State.type, (StateDecl.buildKind_ok hk).1]
  exact htransits

/-- The graphs in the state are loaded from those in its document, one by one. -/
theorem graphs : List.Forall₂ Graph.LoadedFrom doc.graphDocs s.kind.graphs := by
  obtain ⟨d, owner, hr, hb⟩ := h
  obtain ⟨-, -, hgraphs, -⟩ := GraphDecl.readState_ok hr
  obtain ⟨-, -, hk⟩ := StateDecl.build_ok hb
  refine (forall₂_comp hgraphs (StateDecl.buildKind_ok hk).2.1).imp fun inner g hg => ?_
  obtain ⟨decl, hread, hdecl⟩ := hg
  exact ⟨decl, _, hread, hdecl⟩

theorem branches {branches : List Graph} (hs : s.kind = .parallel branches) :
    branches ≠ [] ∧ (branches.flatMap fun branch => branch.states.map (·.name)).Nodup := by
  obtain ⟨d, owner, hr, hb⟩ := h
  obtain ⟨-, -, -, hne⟩ := GraphDecl.readState_ok hr
  obtain ⟨-, -, hk⟩ := StateDecl.build_ok hb
  obtain ⟨htype, hgraphs, hshared⟩ := StateDecl.buildKind_ok hk
  rw [hs] at htype hgraphs
  refine ⟨?_, (nodup_of_firstRepeated?_eq_none (hshared branches hs)).1⟩
  rintro rfl
  cases hd : d.kind.graphs with
  | nil => exact hne htype.symm hd
  | cons _ _ =>
    have hl : d.kind.graphs.length = 0 := hgraphs.length_eq
    rw [hd] at hl
    cases hl

end State.LoadedFrom

namespace Graph.LoadedFrom

variable {doc : Json} {g : Graph} (h : g.LoadedFrom doc)
include h

/-- The states of the graph are loaded from the fields of its document, one by one. -/
theorem states :
    ∃ fields, doc.field? "States" = some (.object fields) ∧ fields ≠ [] ∧
      List.Forall₂ (fun field s => field.1 = s.name ∧ s.LoadedFrom field.2) fields g.states := by
  obtain ⟨decl, owner, hr, hb⟩ := h
  obtain ⟨fields, hf, hne, hread⟩ := GraphDecl.read_ok hr
  obtain ⟨hbuilt, -⟩ := ofDecl_ok hb
  refine ⟨fields, hf, hne, (forall₂_comp hread hbuilt).imp fun field s hs => ?_⟩
  obtain ⟨d, hd, hs⟩ := hs
  have hname : s.name = field.1 := (StateDecl.build_ok hs).1.trans (GraphDecl.readState_ok hd).1
  exact ⟨hname.symm, d, owner, hname ▸ hd, hs⟩

theorem links : (g.get? g.startAt).isSome ∧ State.danglingLink? g.states = none := by
  obtain ⟨decl, owner, -, hb⟩ := h
  exact (ofDecl_ok hb).2

variable (canonical : doc.Canonical)
include canonical

/-- Each state of the graph has a document in that of the graph. -/
theorem stateDoc? {s : State Graph} (hs : s ∈ g.states) :
    ∃ state, doc.stateDoc? s.name = some state ∧ state.Canonical ∧ s.LoadedFrom state := by
  obtain ⟨fields, hf, -, hall⟩ := h.states
  obtain ⟨⟨name, state⟩, hm, hn, hl⟩ := mem_of_forall₂ hall hs
  obtain rfl : name = s.name := hn
  have hc := canonical.field hf
  refine ⟨state, ?_, hc.value hm, hl⟩
  rw [Json.stateDoc?, hf]
  exact Fields.find?_of_mem hc.ascending hm

theorem wellFormed : g.WellFormed doc := by
  obtain ⟨fields, hf, hne, hall⟩ := h.states
  have hnames : fields.map Prod.fst = g.states.map (·.name) := map_eq_of_forall₂ (hall.imp fun _ _ hs => hs.1)
  obtain ⟨hstart, hlinks⟩ := h.links
  have htargets : ∀ s ∈ g.states, ∀ name ∈ s.targets, (g.get? name).isSome := fun s hs name =>
    State.isSome_of_danglingLink?_eq_none hlinks hs
  constructor
  · intro he
    rw [he, List.map_nil, List.map_eq_nil_iff] at hnames
    exact hne hnames
  · rw [← hnames]
    exact Fields.nodup_keys (canonical.field hf).ascending
  · exact hstart
  · intro s hs name hn
    exact htargets s hs name (by simp [State.targets, hn])
  · intro s hs choices fallback hk name hn
    refine htargets s hs name ?_
    simp only [State.targets, hk, List.mem_append] at hn ⊢
    exact .inl (.inr hn)
  · intro s hs catcher hc
    refine htargets s hs _ ?_
    simp only [State.targets, List.mem_append]
    exact .inr (List.mem_map_of_mem hc)
  · intro s hs
    obtain ⟨state, hd, -, hl⟩ := h.stateDoc? canonical hs
    exact ⟨state, hd, hl.transits⟩
  · intro s hs branches hk
    obtain ⟨state, -, -, hl⟩ := h.stateDoc? canonical hs
    exact hl.branches hk

/-- A graph inside the graph is loaded from the document at its address. -/
theorem of_at {address : Address} {last : Graph} (ha : g.At address last) :
    ∃ inner, doc.graphAt? address = some inner ∧ inner.Canonical ∧ last.LoadedFrom inner := by
  induction ha generalizing doc with
  | here => exact ⟨doc, rfl, canonical, h⟩
  | inside state graph _ ih =>
    obtain ⟨owner, hd, hc, hl⟩ := h.stateDoc? canonical state
    obtain ⟨inner, hi, hinner⟩ := getElem?_of_forall₂ hl.graphs graph
    have hic : inner.Canonical := hc.graphDocs (List.mem_of_getElem? hi)
    obtain ⟨last, hlast, hlc, hll⟩ := ih hinner hic
    refine ⟨last, ?_, hlc, hll⟩
    rw [Json.graphAt?, hd]
    show (owner.graphDocs[_]? >>= _) = _
    rw [hi]
    exact hlast

end Graph.LoadedFrom

/-! ## Machines -/

theorem Json.canonical_of_readDocument {definition doc : Json} (canonical : definition.Canonical)
    (h : Request.readDocument definition = .ok doc) : doc.Canonical := by
  unfold Request.readDocument at h
  split at h
  · exact canonical_of_read h
  · cases h
    exact canonical

/-- A machine is loaded from the document that its definition stands for. -/
theorem Machine.loadedFrom_of_load {definition : Json} {m : Machine} (h : load definition = .ok m) :
    ∃ doc, Request.readDocument definition = .ok doc ∧ m.root.LoadedFrom doc := by
  have ofJson {doc : Json} {document : Document} (hd : Document.ofJson doc = .ok document) :
      GraphDecl.read doc = .ok document.graph := by
    unfold Document.ofJson at hd
    split at hd
    · split at hd
      · cases hd
      · next hg =>
        cases hd
        exact hg
    · cases hd
  unfold load at h
  obtain ⟨document, hd, h⟩ := ok_of_bind h
  obtain ⟨root, hr, rfl⟩ := ok_of_map h
  have hd := ok_of_mapError hd
  cases definition with
  | string text =>
    obtain ⟨doc, ht, hd⟩ := ok_of_bind hd
    exact ⟨doc, ok_of_mapError ht, _, _, ofJson hd, hr⟩
  | _ => exact ⟨_, rfl, _, _, ofJson hd, hr⟩

/-- Every graph of a machine that is loaded is well-formed, and has a document at its address in the definition. -/
theorem Machine.wellFormed_of_load {definition : Json} {m : Machine} (canonical : definition.Canonical)
    (h : load definition = .ok m) :
    ∃ doc, Request.readDocument definition = .ok doc ∧ ∀ address g, m.root.At address g →
      ∃ inner, doc.graphAt? address = some inner ∧ g.WellFormed inner := by
  obtain ⟨doc, hdoc, hroot⟩ := loadedFrom_of_load h
  refine ⟨doc, hdoc, fun address g ha => ?_⟩
  obtain ⟨inner, hi, hc, hl⟩ := hroot.of_at (Json.canonical_of_readDocument canonical hdoc) ha
  exact ⟨inner, hi, hl.wellFormed hc⟩

/-- A graph of one state that does nothing. -/
def idleGraph (name : String) : Json :=
  .record [("StartAt", .string name),
    ("States", .record [(name, .record [("Type", .string "Pass"), ("End", .bool true)])])]

/-- A Parallel with two branches of this kind. -/
def forked : Json :=
  .record [("StartAt", .string "Fork"), ("States", .record [("Fork", .record [("Type", .string "Parallel"),
    ("Branches", .array [idleGraph "Left", idleGraph "Right"]), ("End", .bool true)])])]

theorem canonical_forked : forked.Canonical := by
  have hgraph (name : String) : (idleGraph name).Canonical := by
    have hstate : (Json.record [("Type", .string "Pass"), ("End", .bool true)]).Canonical :=
      Json.canonical_record (by simp [Json.Canonical.string, Json.Canonical.bool])
    exact Json.canonical_record (by simp [Json.Canonical.string, Json.canonical_record, hstate])
  have hfork : (Json.record [("Type", .string "Parallel"),
      ("Branches", .array [idleGraph "Left", idleGraph "Right"]), ("End", .bool true)]).Canonical :=
    Json.canonical_record (by simp [Json.Canonical.string, Json.Canonical.bool, Json.Canonical.array, hgraph])
  exact Json.canonical_record (by simp [Json.Canonical.string, Json.canonical_record, hfork])

theorem wellFormed_of_forked :
    forked.Canonical ∧ ∃ m doc, Machine.load forked = .ok m ∧ Request.readDocument forked = .ok doc ∧
      ∀ address g, m.root.At address g → ∃ inner, doc.graphAt? address = some inner ∧ g.WellFormed inner := by
  have hload : (Machine.load forked).map (fun m => m.root.startAt) = .ok "Fork" := by cbv
  obtain ⟨m, hm, -⟩ := ok_of_map hload
  obtain ⟨doc, hdoc, hgraphs⟩ := Machine.wellFormed_of_load canonical_forked hm
  exact ⟨canonical_forked, m, doc, hm, hdoc, hgraphs⟩

end StateBench

import Mathlib
import StateBench.Proofs.Evaluation.Undeclared
import StateBench.Proofs.Machine.WellFormed

/-!
# Chains of steps

A walk that succeeds has gone along a chain of states of its graph (`Graph.Chain`): each step leads to the state that
the next one is at, and only the last leads nowhere. It is at a state after which a walk may end (`State.IsLast`),
because a loaded state has no successor only if its document says so. Together with `Graph.Sound.walkGraphOr_eq` this is
what loading a machine guarantees of the walks through all its graphs (`Machine.walks_of_load`).
-/

namespace StateBench

variable {scope : Scope} {doc : Json} {g : Graph}

/-! ## Chains -/

/-- A walk may end after the state: it is a Succeed, or it is no Choice and no Fail, and its document says that it is
an end. -/
def State.IsLast (doc : Json) (s : State Graph) : Prop :=
  s.type = .succeed ∨
    s.type ∉ [.choice, .fail] ∧ ∃ state, doc.stateDoc? s.name = some state ∧ state.field? "End" = some (.bool true)

/-- Steps through states of a graph, from the one with a name to the end of a walk. -/
inductive Graph.Chain (doc : Json) (g : Graph) (container : StatePath) : String → List Step → Prop
  | last {name : String} {s : State Graph} (state : g.get? name = some s) (isLast : s.IsLast doc) :
      Chain doc g container name [⟨container ++ [name], s.type, none⟩]
  | step {name next : String} {s : State Graph} {steps : List Step} (state : g.get? name = some s)
      (link : s.HandsOver (some next)) (rest : Chain doc g container next steps) :
      Chain doc g container name (⟨container ++ [name], s.type, some next⟩ :: steps)

namespace Graph

theorem Chain.length_pos {container : StatePath} {name : String} {steps : List Step}
    (h : g.Chain doc container name steps) : 1 ≤ steps.length := by
  cases h with
  | last => exact Nat.le_refl 1
  | step => exact Nat.le_add_left 1 _

/-- A state of a loaded graph that hands over to none is one after which a walk may end. -/
theorem WellFormed.isLast (hw : g.WellFormed doc) {s : State Graph} (hs : s ∈ g.states) (h : s.HandsOver none) :
    s.IsLast doc := by
  rcases h.of_none with hsucceed | ⟨htype, hnext⟩
  · exact .inl hsucceed
  · obtain ⟨state, hdoc, htransits⟩ := hw.transits s hs
    have hgoes := htransits.goes htype
    have hend : state.field? "End" = some (.bool true) := by
      by_contra hne
      have hsome := hgoes.2 hne
      rw [hnext] at hsome
      cases hsome
    refine .inr ⟨?_, state, hdoc, hend⟩
    intro hmem
    apply htype
    simp only [List.mem_cons, List.not_mem_nil, or_false] at hmem ⊢
    rcases hmem with h | h
    · exact .inl h
    · exact .inr (.inr h)

/-- What a walk adds to the steps before it, when it ends. -/
theorem WellFormed.chain_of_loop (hw : g.WellFormed doc) (hl : g.Linked) {left : Nat} {stop : Stop} {steps : List Step}
    {result : WalkResult} (hs : g.get? stop.state.name = some stop.state)
    (h : ((Stop.loop scope g stop.place left (stop.position steps)).run stop.time).result = .ok result) :
    ∃ later, result.steps = steps.reverse ++ later ∧ g.Chain doc stop.place.container stop.state.name later ∧
      later.length ≤ left ∧ result.next = none := by
  induction left generalizing stop steps with
  | zero =>
    rw [Stop.loop, Activity.loop_zero] at h
    cases h
  | succ left ih =>
    rw [Stop.run_loop_succ steps hl hs] at h
    cases ho : ((stop.activity scope).run stop.time).result with
    | error failure =>
      rw [Run.followedBy_error ho] at h
      cases h
    | ok out =>
      rw [Run.followedBy_ok ho, Stop.following] at h
      have hover : stop.state.HandsOver out.next := Stop.handsOver ho
      cases hnext : out.next with
      | none =>
        rw [hnext] at h hover
        cases h
        refine ⟨_, List.reverse_cons, .last hs (hw.isLast (mem_of_get? hs) hover), ?_, rfl⟩
        exact Nat.le_add_left 1 left
      | some name =>
        rw [hnext] at h hover
        obtain ⟨s, hg⟩ := Option.isSome_iff_exists.1 (hl.targets stop.state (mem_of_get? hs) name hover.mem_targets)
        obtain rfl := name_of_get? hg
        let other : Stop := ⟨stop.place, s, stop.taken + 1, 0, out.output, ((stop.activity scope).run stop.time).finish⟩
        have hg : g.get? other.state.name = some other.state := hg
        obtain ⟨later, hsteps, hchain, hlength, hnone⟩ := ih hg h
        refine ⟨⟨stop.path, stop.state.type, some s.name⟩ :: later, ?_, .step hs hover hchain, ?_, hnone⟩
        · rw [hsteps, List.reverse_cons, List.append_assoc]
          rfl
        · rw [List.length_cons]
          omega

/-- The steps of a walk that succeeds are a chain, and no more of them than may be taken. -/
theorem WellFormed.chain_of_walk (hw : g.WellFormed doc) (hl : g.Linked) {start : String} (hs : (g.get? start).isSome)
    {place : Place} {input : Json} {now : Nat} {result : WalkResult}
    (h : ((scope.walkGraph g start place input).run now).result = .ok result) :
    result.next = none ∧ g.Chain doc place.container start result.steps ∧ 1 ≤ result.steps.length ∧
      result.steps.length ≤ scope.settings.maxSteps := by
  obtain ⟨s, hg⟩ := Option.isSome_iff_exists.1 hs
  obtain rfl := name_of_get? hg
  rw [Scope.walkGraph, Stop.walkGraph_eq_loop hs] at h
  let stop : Stop := ⟨place, s, 0, 0, input, now⟩
  have hg : g.get? stop.state.name = some stop.state := hg
  change ((Stop.loop scope g stop.place scope.settings.maxSteps (stop.position [])).run stop.time).result = _ at h
  obtain ⟨steps, hsteps, hchain, hlength, hnone⟩ := hw.chain_of_loop hl hg h
  rw [List.reverse_nil, List.nil_append] at hsteps
  rw [hsteps]
  exact ⟨hnone, hchain, hchain.length_pos, hlength⟩

/-- A graph inside a sound graph is sound. -/
theorem Sound.of_at {address : Address} {inner : Graph} (hg : g.Sound) (h : g.At address inner) : inner.Sound := by
  induction h with
  | here => exact hg
  | inside state graph _ ih => exact ih (hg.within state (List.mem_of_getElem? graph))

end Graph

/-! ## Loaded machines -/

/-- In a loaded machine, a walk through any graph from any state in it never comes to a name that no state has, nor does
any walk inside it: whatever they failed with there, the walk would be the same. If it succeeds, its steps are a chain
from its start to a state after which a walk may end, at least one and at most so many as the settings say. -/
theorem Machine.walks_of_load {definition : Json} {m : Machine} (canonical : definition.Canonical)
    (load : Machine.load definition = .ok m) :
    ∃ doc, Request.readDocument definition = .ok doc ∧ ∀ address g, m.root.At address g →
      ∃ inner, doc.graphAt? address = some inner ∧ ∀ (scope : Scope) (start : String), (g.get? start).isSome →
        ∀ place input now,
          (∀ lost, scope.evaluator.walkGraphOr lost g start place input = scope.walkGraph g start place input) ∧
          ∀ result, ((scope.walkGraph g start place input).run now).result = .ok result →
            result.next = none ∧ g.Chain inner place.container start result.steps ∧
              1 ≤ result.steps.length ∧ result.steps.length ≤ scope.settings.maxSteps := by
  obtain ⟨doc, hdoc, hgraphs⟩ := Machine.wellFormed_of_load canonical load
  refine ⟨doc, hdoc, fun address g hat => ?_⟩
  obtain ⟨inner, hinner, hwell⟩ := hgraphs address g hat
  have hsound : g.Sound := (Machine.sound_of_load load).of_at hat
  refine ⟨inner, hinner, fun scope start hs place input now => ⟨fun lost => ?_, fun result hr => ?_⟩⟩
  · exact hsound.walkGraphOr_eq scope lost hs place input
  · exact hwell.chain_of_walk hsound.linked hs hr

/-- A graph that checks its input for a mark, sets it and goes back. -/
def markDocument : Json :=
  let rule := Json.record [("Variable", .string "$.set"), ("IsPresent", .bool true), ("Next", .string "Done")]
  let check := Json.record [("Type", .string "Choice"), ("Choices", .array [rule]), ("Default", .string "Mark")]
  let mark := Json.record [("Type", .string "Pass"), ("Result", .record [("set", .bool true)]),
    ("Next", .string "Check")]
  let done := Json.record [("Type", .string "Succeed")]
  .record [("StartAt", .string "Check"), ("States", .record [("Check", check), ("Mark", mark), ("Done", done)])]

/-- A Map that walks it for every item. -/
def markEach : Json :=
  let each := Json.record [("Type", .string "Map"), ("ItemProcessor", markDocument), ("End", .bool true)]
  .record [("StartAt", .string "Each"), ("States", .record [("Each", each)])]

def markGraph : Graph :=
  ⟨"Check", [⟨"Check", .choice [⟨.test "$.set" .isPresent true, "Done"⟩] (some "Mark"), none, .standard, [], []⟩,
    ⟨"Done", .succeed, none, .standard, [], []⟩,
    ⟨"Mark", .pass (some (.record [("set", .bool true)])), some "Check", .standard, [], []⟩]⟩

def markState : State Graph := ⟨"Each", .map ⟨"$", none, 0⟩ markGraph, none, .standard, [], []⟩

def markMachine : Machine := ⟨none, "Each", [markState]⟩

theorem load_markEach : Machine.load markEach = .ok markMachine := by cbv

theorem canonical_markEach : markEach.Canonical := by
  have hrule : (Json.record [("Variable", .string "$.set"), ("IsPresent", .bool true),
      ("Next", .string "Done")]).Canonical :=
    Json.canonical_record (by simp [Json.Canonical.string, Json.Canonical.bool])
  have hcheck : (Json.record [("Type", .string "Choice"), ("Choices", .array [.record [("Variable", .string "$.set"),
      ("IsPresent", .bool true), ("Next", .string "Done")]]), ("Default", .string "Mark")]).Canonical :=
    Json.canonical_record (by simp [Json.Canonical.string, Json.Canonical.array, hrule])
  have hset : (Json.record [("set", .bool true)]).Canonical := Json.canonical_record (by simp [Json.Canonical.bool])
  have hmark : (Json.record [("Type", .string "Pass"), ("Result", .record [("set", .bool true)]),
      ("Next", .string "Check")]).Canonical := Json.canonical_record (by simp [Json.Canonical.string, hset])
  have hdone : (Json.record [("Type", .string "Succeed")]).Canonical :=
    Json.canonical_record (by simp [Json.Canonical.string])
  have hdocument : markDocument.Canonical :=
    Json.canonical_record (by simp [Json.Canonical.string, Json.canonical_record, hcheck, hmark, hdone])
  have heach : (Json.record [("Type", .string "Map"), ("ItemProcessor", markDocument),
      ("End", .bool true)]).Canonical :=
    Json.canonical_record (by simp [Json.Canonical.string, Json.Canonical.bool, hdocument])
  exact Json.canonical_record (by simp [Json.Canonical.string, Json.canonical_record, heach])

/-- The walk of such a graph takes four steps, of which two are at the same state. -/
theorem walks_of_load_markEach :
    markEach.Canonical ∧ Machine.load markEach = .ok markMachine ∧ markMachine.root.At [("Each", 0)] markGraph ∧
      (markGraph.get? "Check").isSome ∧
      let scope : Scope := ⟨.empty, none, .standard, .null⟩
      let place : Place := ⟨["Each"], [0, 0], true⟩
      ∃ doc inner result, Request.readDocument markEach = .ok doc ∧ doc.graphAt? [("Each", 0)] = some inner ∧
        ((scope.walkGraph markGraph "Check" place (.record [])).run 0).result = .ok result ∧
        (∀ lost, scope.evaluator.walkGraphOr lost markGraph "Check" place (.record []) =
          scope.walkGraph markGraph "Check" place (.record [])) ∧
        result.next = none ∧ markGraph.Chain inner ["Each"] "Check" result.steps ∧ result.steps.length = 4 ∧
        1 ≤ result.steps.length ∧ result.steps.length ≤ 1000 := by
  have hat : markMachine.root.At [("Each", 0)] markGraph := .inside (s := markState) List.mem_cons_self rfl .here
  have hs : (markGraph.get? "Check").isSome := rfl
  obtain ⟨doc, hdoc, h⟩ := Machine.walks_of_load canonical_markEach load_markEach
  obtain ⟨inner, hinner, h⟩ := h _ _ hat
  obtain ⟨hlost, h⟩ := h ⟨.empty, none, .standard, .null⟩ "Check" hs ⟨["Each"], [0, 0], true⟩ (.record []) 0
  have hrun : (((⟨.empty, none, .standard, .null⟩ : Scope).walkGraph markGraph "Check" ⟨["Each"], [0, 0], true⟩
      (.record [])).run 0).result.map (fun result => result.steps.length) = .ok 4 := by cbv
  obtain ⟨result, hr, hlength⟩ := ok_of_map hrun
  obtain ⟨hnone, hchain, hone, hmost⟩ := h result hr
  exact ⟨canonical_markEach, load_markEach, hat, hs, doc, inner, result, hdoc, hinner, hr, hlost, hnone, hchain,
    hlength, hone, hmost⟩

end StateBench

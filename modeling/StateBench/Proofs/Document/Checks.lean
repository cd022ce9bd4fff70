import StateBench.Proofs.Document.Accepted

/-!
# The checks of a definition document

What is checked of a definition document, as a list (`Json.checksFrom`): first the header of a graph, then its states in
ascending order of their names, and of each state first the state itself and then the graphs that it owns. A check fails
with at most one fault (`Check.Fails.unique`), and so does a list of checks, with that of the first that fails
(`Check.FirstFails`). All checks but those of the first header are of states that are nested in the document, and of the
graphs that these own (`Json.mem_checksFrom`).
-/

namespace StateBench

/-! ## Checks of one document -/

/-- What is checked of the document of a graph, apart from the states in it. -/
inductive HeaderCheck where
  | start
  | states

/-- What is checked of the document of a state, apart from the graphs in it. -/
inductive StateCheck where
  | object
  | type
  | next
  | last
  | transition
  | graphs

/-- All checks of a header, in order. -/
def HeaderCheck.all : List HeaderCheck := [.start, .states]

/-- All checks of a state, in order. -/
def StateCheck.all : List StateCheck := [.object, .type, .next, .last, .transition, .graphs]

namespace Json

/-- The document of a graph fails a check. -/
inductive FailsHeader (doc : Json) : HeaderCheck → HeaderFault → Prop
  | missingStart (h : ∀ startAt, doc.field? "StartAt" ≠ some (.string startAt)) :
      FailsHeader doc .start (.missingField "StartAt")
  | missingStates (h : ∀ fields, doc.field? "States" ≠ some (.object fields)) :
      FailsHeader doc .states (.missingField "States")
  | noStates (h : doc.field? "States" = some (.object [])) : FailsHeader doc .states .noStates

/-- The document of a state fails a check. -/
inductive FailsState (doc : Json) : StateCheck → DeclFault → Prop
  | notObject (h : ∀ fields, doc ≠ .object fields) : FailsState doc .object .notObject
  | missingType (h : ∀ name, doc.field? "Type" ≠ some (.string name)) : FailsState doc .type .missingType
  | unknownType {name : String} (h : doc.field? "Type" = some (.string name))
      (unknown : ∀ type : StateType, name ≠ type.name) : FailsState doc .type (.unknownType name)
  | nextNotString {value : Json} (h : doc.field? "Next" = some value) (other : ∀ name, value ≠ .string name) :
      FailsState doc .next .nextNotString
  | endNotBool {value : Json} (h : doc.field? "End" = some value) (other : ∀ b, value ≠ .bool b) :
      FailsState doc .last .endNotBool
  | transitionNotAllowed {type : StateType} (h : doc.field? "Type" = some (.string type.name))
      (stays : type ∈ [.choice, .succeed, .fail])
      (declared : doc.field? "Next" ≠ none ∨ doc.field? "End" = some (.bool true)) :
      FailsState doc .transition (.transitionNotAllowed type)
  | twoTransitions {type : StateType} (h : doc.field? "Type" = some (.string type.name))
      (goes : type ∉ [.choice, .succeed, .fail]) (next : doc.field? "Next" ≠ none)
      (last : doc.field? "End" = some (.bool true)) : FailsState doc .transition .twoTransitions
  | noTransition {type : StateType} (h : doc.field? "Type" = some (.string type.name))
      (goes : type ∉ [.choice, .succeed, .fail]) (next : doc.field? "Next" = none)
      (last : doc.field? "End" ≠ some (.bool true)) : FailsState doc .transition .noTransition
  | missingBranches (h : doc.field? "Type" = some (.string "Parallel"))
      (missing : ∀ items, doc.field? "Branches" ≠ some (.array items)) : FailsState doc .graphs .missingBranches
  | noBranches (h : doc.field? "Type" = some (.string "Parallel"))
      (empty : doc.field? "Branches" = some (.array [])) : FailsState doc .graphs .noBranches
  | missingProcessor (h : doc.field? "Type" = some (.string "Map")) (processor : doc.field? "ItemProcessor" = none)
      (iterator : doc.field? "Iterator" = none) : FailsState doc .graphs .missingProcessor

variable {doc : Json}

theorem FailsHeader.unique {check : HeaderCheck} {fault other : HeaderFault} (h : doc.FailsHeader check fault)
    (ho : doc.FailsHeader check other) : fault = other := by
  cases h <;> cases ho <;> grind

theorem type_unique {type other : StateType} (h : doc.field? "Type" = some (.string type.name))
    (ho : doc.field? "Type" = some (.string other.name)) : type = other :=
  Option.some.inj ((stateType?_eq_some_iff.2 h).symm.trans (stateType?_eq_some_iff.2 ho))

/-- The faults of one check exclude each other: they are about other values of one field, or other types. -/
theorem FailsState.unique {check : StateCheck} {fault other : DeclFault} (h : doc.FailsState check fault)
    (ho : doc.FailsState check other) : fault = other := by
  cases h <;> cases ho <;> grind [type_unique]

end Json

/-! ## Lists of checks -/

/-- A check of a definition document: of the graph in a state, or of the whole, or of a state at a path. -/
inductive Check where
  | header (owner : List String) (doc : Json) (check : HeaderCheck)
  | state (path : List String) (doc : Json) (check : StateCheck)

namespace Check

/-- A check fails, and it is the state looked at, or that which owns the graph looked at, that is charged with it. -/
inductive Fails : Check → GraphFault → Prop
  | root {doc : Json} {check : HeaderCheck} {fault : HeaderFault} (h : doc.FailsHeader check fault) :
      Fails (.header [] doc check) (.header fault)
  | owned {name : String} {owner : List String} {doc : Json} {check : HeaderCheck} {fault : HeaderFault}
      (h : doc.FailsHeader check fault) :
      Fails (.header (name :: owner) doc check) (.state (name :: owner) (.header fault))
  | state {path : List String} {doc : Json} {check : StateCheck} {fault : DeclFault}
      (h : doc.FailsState check fault) : Fails (.state path doc check) (.state path fault)

def Passes (check : Check) : Prop := ∀ fault, ¬ check.Fails fault

/-- The first of the checks that fails does so with the fault. -/
inductive FirstFails : List Check → GraphFault → Prop
  | here {check : Check} {rest : List Check} {fault : GraphFault} (h : check.Fails fault) :
      FirstFails (check :: rest) fault
  | later {check : Check} {rest : List Check} {fault : GraphFault} (passes : check.Passes)
      (h : FirstFails rest fault) : FirstFails (check :: rest) fault

variable {check : Check} {checks first second : List Check} {fault other : GraphFault}

theorem Fails.unique (h : check.Fails fault) (ho : check.Fails other) : fault = other := by
  cases h with
  | root h => cases ho with | root ho => rw [h.unique ho]
  | owned h => cases ho with | owned ho => rw [h.unique ho]
  | state h => cases ho with | state ho => rw [h.unique ho]

namespace FirstFails

theorem unique (h : FirstFails checks fault) (ho : FirstFails checks other) : fault = other := by
  induction h with
  | here h =>
    cases ho with
    | here ho => exact h.unique ho
    | later passes _ => exact absurd h (passes _)
  | later passes _ ih =>
    cases ho with
    | here ho => exact absurd ho (passes _)
    | later _ ho => exact ih ho

theorem exists_mem (h : FirstFails checks fault) : ∃ check ∈ checks, check.Fails fault := by
  induction h with
  | here h => exact ⟨_, List.mem_cons_self, h⟩
  | later _ _ ih =>
    obtain ⟨check, hm, h⟩ := ih
    exact ⟨check, List.mem_cons_of_mem _ hm, h⟩

theorem append (h : FirstFails first fault) (second : List Check) : FirstFails (first ++ second) fault := by
  induction h with
  | here h => exact .here h
  | later passes _ ih => exact .later passes ih

theorem prepend (passes : ∀ check ∈ first, check.Passes) (h : FirstFails second fault) :
    FirstFails (first ++ second) fault := by
  induction first with
  | nil => exact h
  | cons check first ih =>
    obtain ⟨hcheck, hfirst⟩ := List.forall_mem_cons.1 passes
    exact .later hcheck (ih hfirst)

end FirstFails

end Check

/-! ## The checks of a document -/

namespace Json

/-- The documents of the states in that of a graph, in ascending order of their names. -/
def stateDocs (doc : Json) : Fields Json := Fields.ofList (((doc.field? "States").bind object?).getD [])

theorem mem_stateDocs {doc state : Json} {name : String} (h : (name, state) ∈ doc.stateDocs) :
    ∃ fields, doc.field? "States" = some (.object fields) ∧ (name, state) ∈ fields := by
  have hm := Fields.mem_ofList h
  cases hs : (doc.field? "States").bind object? with
  | none =>
    rw [hs] at hm
    cases hm
  | some fields =>
    rw [hs] at hm
    obtain ⟨states, hf, ho⟩ := Option.bind_eq_some_iff.1 hs
    cases states with
    | object found =>
      cases ho
      exact ⟨fields, hf, hm⟩
    | _ => cases ho

theorem sizeOf_stateDocs_lt {doc state : Json} {name : String} (h : (name, state) ∈ doc.stateDocs) :
    sizeOf state < sizeOf doc := by
  obtain ⟨fields, hf, hm⟩ := mem_stateDocs h
  have hfields := sizeOf_field?_lt hf
  have hfield := List.sizeOf_lt_of_mem hm
  simp only [Prod.mk.sizeOf_spec, object.sizeOf_spec] at hfield hfields
  omega

/-- The checks of the document of a graph that is owned by the state at a path, or by none, and of all that is in it. -/
def checksFrom (owner : List String) (doc : Json) : List Check :=
  HeaderCheck.all.map (.header owner doc) ++ doc.stateDocs.attach.flatMap fun ⟨field, _⟩ =>
    StateCheck.all.map (.state (owner ++ [field.1]) field.2) ++
      field.2.graphDocs.attach.flatMap fun ⟨inner, _⟩ => inner.checksFrom (owner ++ [field.1])
termination_by sizeOf doc
decreasing_by
  have hinner : sizeOf inner < sizeOf field.2 := sizeOf_graphDocs_lt (by assumption)
  have hstate : sizeOf field.2 < sizeOf doc := sizeOf_stateDocs_lt (by assumption)
  exact Nat.lt_trans hinner hstate

/-- The checks of the document of a state at a path, and of all that is in it. -/
def stateChecks (path : List String) (doc : Json) : List Check :=
  StateCheck.all.map (.state path doc) ++ doc.graphDocs.flatMap (checksFrom path)

theorem checksFrom_eq (owner : List String) (doc : Json) :
    doc.checksFrom owner = HeaderCheck.all.map (.header owner doc) ++
      doc.stateDocs.flatMap fun field => field.2.stateChecks (owner ++ [field.1]) := by
  have hattach {α β : Type} (xs : List α) (f : α → List β) : (xs.attach.flatMap fun x => f x.1) = xs.flatMap f := by
    rw [List.flatMap_subtype fun _ _ => rfl, List.unattach_attach]
  rw [checksFrom]
  simp only [hattach]
  exact congrArg _ (hattach doc.stateDocs fun field => field.2.stateChecks (owner ++ [field.1]))

/-- All checks of a definition document, in order. -/
def checks (doc : Json) : List Check := doc.checksFrom []

/-! ## States in a document -/

/-- The path leads from the document of a graph to that of a state in it, or in a graph that one of its states owns. -/
inductive StateAt : Json → List String → Json → Prop
  | own {doc state : Json} {name : String} (h : doc.stateDoc? name = some state) : StateAt doc [name] state
  | inside {doc state inner last : Json} {name : String} {path : List String} (h : doc.stateDoc? name = some state)
      (graph : inner ∈ state.graphDocs) (within : StateAt inner path last) : StateAt doc (name :: path) last

theorem stateDocs_eq {doc : Json} (canonical : doc.Canonical) {fields : Fields Json}
    (h : doc.field? "States" = some (.object fields)) : doc.stateDocs = fields := by
  rw [stateDocs, h]
  exact Fields.ofList_eq_self (canonical.field h).ascending

theorem stateDoc?_of_mem {doc state : Json} (canonical : doc.Canonical) {name : String}
    (h : (name, state) ∈ doc.stateDocs) : doc.stateDoc? name = some state ∧ state.Canonical := by
  obtain ⟨fields, hf, hm⟩ := mem_stateDocs h
  have hc := canonical.field hf
  refine ⟨?_, hc.value hm⟩
  rw [stateDoc?, hf]
  exact Fields.find?_of_mem hc.ascending hm

/-- Every check is of the document itself, or of a state in it or a graph that such a state owns. -/
theorem mem_checksFrom {doc : Json} (canonical : doc.Canonical) {owner : List String} {check : Check}
    (h : check ∈ doc.checksFrom owner) :
    (∃ part, check = .header owner doc part) ∨ ∃ path state, doc.StateAt path state ∧
      ((∃ part, check = .state (owner ++ path) state part) ∨
        ∃ inner ∈ state.graphDocs, ∃ part, check = .header (owner ++ path) inner part) := by
  induction doc using graph_induction generalizing owner with
  | step doc ih =>
    rw [checksFrom_eq, List.mem_append, List.mem_flatMap] at h
    rcases h with h | ⟨⟨name, state⟩, hm, h⟩
    · obtain ⟨part, -, rfl⟩ := List.mem_map.1 h
      exact .inl ⟨part, rfl⟩
    · obtain ⟨hs, hc⟩ := stateDoc?_of_mem canonical hm
      rw [stateChecks, List.mem_append, List.mem_flatMap] at h
      rcases h with h | ⟨inner, hi, h⟩
      · obtain ⟨part, -, rfl⟩ := List.mem_map.1 h
        exact .inr ⟨[name], state, .own hs, .inl ⟨part, rfl⟩⟩
      · obtain ⟨fields, hf, hm⟩ := mem_stateDocs hm
        rcases ih fields hf (name, state) hm inner hi (hc.graphDocs hi) h with
          ⟨part, rfl⟩ | ⟨path, last, hp, hpart⟩
        · exact .inr ⟨[name], state, .own hs, .inr ⟨inner, hi, part, rfl⟩⟩
        · refine .inr ⟨name :: path, last, .inside hs hi hp, ?_⟩
          simpa using hpart

/-- A state is charged with its own faults, and with those of the headers of its graphs. -/
inductive Charged (state : Json) : DeclFault → Prop
  | own {check : StateCheck} {fault : DeclFault} (h : state.FailsState check fault) : Charged state fault
  | graph {inner : Json} {check : HeaderCheck} {fault : HeaderFault} (hi : inner ∈ state.graphDocs)
      (h : inner.FailsHeader check fault) : Charged state (.header fault)

theorem charged_of_firstFails {doc : Json} (canonical : doc.Canonical) {path : List String} {fault : DeclFault}
    (h : Check.FirstFails doc.checks (.state path fault)) : ∃ state, doc.StateAt path state ∧ state.Charged fault := by
  obtain ⟨check, hm, hf⟩ := h.exists_mem
  rcases mem_checksFrom canonical hm with ⟨part, rfl⟩ | ⟨names, state, hs, ⟨part, rfl⟩ | ⟨inner, hi, part, rfl⟩⟩
  · cases hf
  · cases hf with | state hf => exact ⟨state, hs, .own hf⟩
  · cases names with
    | nil => cases hf
    | cons name names => cases hf with | owned hf => exact ⟨state, hs, .graph hi hf⟩

/-- A fault without a state is one of the document's own header. -/
theorem failsHeader_of_firstFails {doc : Json} (canonical : doc.Canonical) {fault : HeaderFault}
    (h : Check.FirstFails doc.checks (.header fault)) : ∃ part, doc.FailsHeader part fault := by
  obtain ⟨check, hm, hf⟩ := h.exists_mem
  rcases mem_checksFrom canonical hm with ⟨part, rfl⟩ | ⟨names, state, hs, ⟨part, rfl⟩ | ⟨inner, hi, part, rfl⟩⟩
  · cases hf with | root hf => exact ⟨part, hf⟩
  · cases hf
  · cases hs <;> cases hf

end Json

end StateBench

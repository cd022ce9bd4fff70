import StateBench.Proofs.Document.Checks

/-!
# Which fault is reported

A document is rejected with the fault of the first of its checks that fails (`Document.ofJson_error_iff_firstFails`).

Reading comes to the first check that fails, and succeeds if all of them pass (`Check.Decide`). Steps of reading are
taken one after the other as lists of checks are put together (`Check.decide_bind`), so this is shown of each step on
its own: of the head of a state (`StateDecl.decide_readHead`), of its graphs, and of the states of a graph. A reader
does not know what it is nested in, and names the states from itself inwards; each owner puts its own name before them
(`GraphFault.under`). So a graph is read under every owner at once (`GraphDecl.decide_read`, by induction on what stands
within a document).
-/

namespace StateBench

/-! ## Results and checks -/

namespace Check

variable {α β : Type} {check : Check} {checks first second : List Check}

/-- A result goes with some checks: it is that of the first that fails, or all of them pass. -/
def Decide (checks : List Check) : Except GraphFault α → Prop
  | .ok _ => ∀ check ∈ checks, check.Passes
  | .error fault => FirstFails checks fault

theorem decide_nil (value : α) : Decide [] (.ok value) := fun _ h => nomatch h

theorem decide_bind {x : Except GraphFault α} {next : α → Except GraphFault β} (h : Decide first x)
    (hnext : ∀ value, x = .ok value → Decide second (next value)) : Decide (first ++ second) (x >>= next) := by
  cases x with
  | error fault => exact FirstFails.append h second
  | ok value =>
    have hsecond := hnext value rfl
    show Decide _ (next value)
    cases hr : next value with
    | error fault =>
      rw [hr] at hsecond
      exact FirstFails.prepend h hsecond
    | ok result =>
      rw [hr] at hsecond
      exact List.forall_mem_append.2 ⟨h, hsecond⟩

theorem decide_map {x : Except GraphFault α} (h : Decide checks x) (f : α → β) : Decide checks (x.map f) := by
  cases x <;> exact h

theorem decide_bind_ok {x : Except GraphFault α} (h : Decide checks x) (f : α → β) :
    Decide checks (x >>= fun value => .ok (f value)) := by
  cases x <;> exact h

theorem decide_cons {x : Except GraphFault α} (passes : check.Passes) (h : Decide checks x) :
    Decide (check :: checks) x := by
  cases x with
  | error fault => exact .later passes h
  | ok value => exact List.forall_mem_cons.2 ⟨passes, h⟩

theorem decide_of_fails {fault : GraphFault} (h : check.Fails fault) :
    Decide (check :: checks) (.error fault : Except GraphFault α) :=
  .here h

/-- One check of a state decides a step that has the faults of this check. -/
theorem decide_state {doc : Json} {part : StateCheck} {x : Except DeclFault α} (path : List String)
    (error : ∀ fault, x = .error fault → doc.FailsState part fault)
    (ok : ∀ value, x = .ok value → ∀ fault, ¬ doc.FailsState part fault) :
    Decide [.state path doc part] (x.mapError (.state path)) := by
  cases x with
  | error fault => exact .here (.state (error fault rfl))
  | ok value =>
    refine List.forall_mem_singleton.2 fun fault h => ?_
    cases h with | state h => exact ok value rfl _ h

end Check

/-! ## Faults under an owner -/

namespace GraphFault

/-- A fault of a graph as one of the state at a path that owns the graph; no state owns the graph of the document. -/
def under (owner : List String) : GraphFault → GraphFault
  | .header fault =>
    match owner with
    | [] => .header fault
    | _ => .state owner (.header fault)
  | .state path fault => .state (owner ++ path) fault

theorem under_nil (fault : GraphFault) : fault.under [] = fault := by
  cases fault <;> rfl

theorem under_within (owner : List String) (name : String) (fault : GraphFault) :
    (fault.within name).under owner = fault.under (owner ++ [name]) := by
  cases fault with
  | header fault => cases owner <;> rfl
  | state path fault => simp [within, under]

end GraphFault

theorem Check.fails_header {doc : Json} {part : HeaderCheck} {fault : HeaderFault} (owner : List String)
    (h : doc.FailsHeader part fault) : (Check.header owner doc part).Fails ((GraphFault.header fault).under owner) := by
  cases owner with
  | nil => exact .root h
  | cons name owner => exact .owned h

theorem Check.passes_header {doc : Json} {part : HeaderCheck} (owner : List String)
    (h : ∀ fault, ¬ doc.FailsHeader part fault) : (Check.header owner doc part).Passes := by
  intro fault hf
  cases hf with
  | root hf => exact h _ hf
  | owned hf => exact h _ hf

/-! ## States -/

namespace StateDecl

variable {fields : Fields Json} {head : Head} {fault : DeclFault}

theorem failsState_of_readType (h : readType fields = .error fault) : (Json.object fields).FailsState .type fault := by
  unfold readType at h
  split at h
  · next hn =>
    cases h
    refine .missingType fun name ht => ?_
    have hs : (Fields.find? "Type" fields).bind Json.string? = some name := Json.bind_string?_eq_some_iff.2 ht
    rw [hs] at hn
    cases hn
  · next name hn =>
    split at h
    · next hnone =>
      cases h
      refine .unknownType (Json.bind_string?_eq_some_iff.1 hn) fun type he => ?_
      rw [StateType.ofName?_eq_some_iff.2 he] at hnone
      cases hnone
    · cases h

theorem failsState_of_readNext (h : readNext fields = .error fault) : (Json.object fields).FailsState .next fault := by
  unfold readNext at h
  split at h
  · cases h
  · cases h
  · next value hother hv =>
    cases h
    exact .nextNotString hv hother

theorem failsState_of_readEnd (h : readEnd fields = .error fault) : (Json.object fields).FailsState .last fault := by
  unfold readEnd at h
  split at h
  · cases h
  · cases h
  · next value hother hv =>
    cases h
    exact .endNotBool hv hother

theorem failsState_of_checkTransition (ht : Fields.find? "Type" fields = some (.string head.type.name))
    (hn : Fields.find? "Next" fields = head.next.map .string)
    (hl : head.isLast = true ↔ Fields.find? "End" fields = some (.bool true))
    (h : checkTransition head = .error fault) : (Json.object fields).FailsState .transition fault := by
  obtain ⟨type, next, isLast⟩ := head
  have hnone : Fields.find? "Next" fields = none ↔ next.isSome = false := by simp [hn]
  unfold checkTransition at h
  split at h
  · cases h
  · next hstays hmoves =>
    cases h
    refine .transitionNotAllowed ht ?_ ?_
    · exact not_not.1 (mt (StateType.hasTransition_iff type).2 (by simp [hstays]))
    · by_contra hnot
      obtain ⟨hnext, hlast⟩ := not_or.1 hnot
      exact hmoves (hnone.1 (not_not.1 hnext)) (Bool.eq_false_iff.2 fun he => hlast (hl.1 he))
  · next hgoes hnext hlast =>
    cases h
    exact .twoTransitions ht ((StateType.hasTransition_iff type).1 hgoes) (by simp [Json.field?, hnone, hnext])
      (hl.1 hlast)
  · next hgoes hnext hlast =>
    cases h
    exact .noTransition ht ((StateType.hasTransition_iff type).1 hgoes) (hnone.2 hnext)
      fun he => Bool.eq_false_iff.1 hlast (hl.2 he)
  · cases h

theorem decide_readType (path : List String) :
    Check.Decide [.state path (.object fields) .type] ((readType fields).mapError (.state path)) := by
  refine Check.decide_state path (fun _ => failsState_of_readType) fun type h fault hf => ?_
  have ht := readType_ok_iff.1 h
  cases hf with
  | missingType hm => exact hm _ ht
  | unknownType hu unknown => exact unknown type (Json.string.inj (Option.some.inj (hu.symm.trans ht)))

theorem decide_readNext (path : List String) :
    Check.Decide [.state path (.object fields) .next] ((readNext fields).mapError (.state path)) := by
  refine Check.decide_state path (fun _ => failsState_of_readNext) fun next h fault hf => ?_
  cases hf with
  | nextNotString hv other =>
    obtain ⟨name, -, hs⟩ := Option.map_eq_some_iff.1 ((readNext_ok_iff.1 h).symm.trans hv)
    exact other name hs.symm

theorem decide_readEnd (path : List String) :
    Check.Decide [.state path (.object fields) .last] ((readEnd fields).mapError (.state path)) := by
  refine Check.decide_state path (fun _ => failsState_of_readEnd) fun isLast h fault hf => ?_
  cases hf with
  | endNotBool hv other =>
    obtain ⟨b, hb⟩ := (readEnd_ok_iff.1 h).1 _ hv
    exact other b hb

theorem decide_checkTransition (path : List String) (ht : Fields.find? "Type" fields = some (.string head.type.name))
    (hn : Fields.find? "Next" fields = head.next.map .string)
    (hl : head.isLast = true ↔ Fields.find? "End" fields = some (.bool true)) :
    Check.Decide [.state path (.object fields) .transition] ((checkTransition head).mapError (.state path)) := by
  refine Check.decide_state path (fun _ => failsState_of_checkTransition ht hn hl) fun checked h fault hf => ?_
  obtain ⟨-, allowed⟩ := checkTransition_ok_iff.1 h
  have hnone : Fields.find? "Next" fields = none ↔ head.next = none := by rw [hn, Option.map_eq_none_iff]
  have htype {type : StateType} (h : (Json.object fields).field? "Type" = some (.string type.name)) :
      type = head.type :=
    Json.type_unique h ht
  cases hf with
  | transitionNotAllowed h stays declared =>
    cases htype h
    obtain ⟨hnext, hlast⟩ := allowed.stays stays
    rcases declared with hd | hd
    · exact hd (hnone.2 hnext)
    · exact Bool.eq_false_iff.1 hlast (hl.2 hd)
  | twoTransitions h goes next last =>
    cases htype h
    rcases allowed.goes goes with ⟨-, hlast⟩ | ⟨-, hnext⟩
    · exact hlast (hl.2 last)
    · exact hnext fun hnext => next (hnone.2 hnext)
  | noTransition h goes next last =>
    cases htype h
    rcases allowed.goes goes with ⟨hnext, -⟩ | ⟨hlast, -⟩
    · exact hnext (hnone.1 next)
    · exact last (hl.1 hlast)

/-- The head of a state is read as its checks go. -/
theorem decide_readHead (path : List String) :
    Check.Decide ([.type, .next, .last, .transition].map (.state path (.object fields)))
      ((readHead fields).mapError (.state path)) := by
  simp only [readHead, mapError_bind]
  refine Check.decide_bind (decide_readType path) fun type ht => Check.decide_bind (decide_readNext path) fun next hn =>
    Check.decide_bind (decide_readEnd path) fun isLast hl => decide_checkTransition path ?_ ?_ ?_
  · exact readType_ok_iff.1 (ok_of_mapError ht)
  · exact readNext_ok_iff.1 (ok_of_mapError hn)
  · exact (readEnd_ok_iff.1 (ok_of_mapError hl)).2

end StateDecl

/-! ## Graphs -/

namespace GraphDecl

variable {doc : Json} {fields : Fields Json} {owner path : List String} {name : String}

/-- Graphs are read one after the other, each as its checks go. -/
theorem decide_readAll {items : List Json}
    (h : ∀ item ∈ items, Check.Decide (item.checksFrom path) ((read item).mapError (.under path))) :
    Check.Decide (items.flatMap (Json.checksFrom path)) ((readAll items).mapError (.under path)) := by
  induction items with
  | nil =>
    rw [readAll]
    exact Check.decide_nil _
  | cons item items ih =>
    obtain ⟨hitem, hitems⟩ := List.forall_mem_cons.1 h
    rw [readAll, mapError_bind, List.flatMap_cons]
    refine Check.decide_bind hitem fun graph _ => ?_
    rw [mapError_bind]
    exact Check.decide_bind_ok (ih hitems) _

theorem passes_graphs {type : StateType} (ht : doc.field? "Type" = some (.string type.name))
    (branches : type = .parallel → ∃ items, doc.field? "Branches" = some (.array items) ∧ items ≠ [])
    (processor : type = .map → doc.field? "ItemProcessor" ≠ none ∨ doc.field? "Iterator" ≠ none) :
    (Check.state path doc .graphs).Passes := by
  intro fault hf
  cases hf with
  | state hf =>
    cases hf with
    | missingBranches h missing =>
      obtain ⟨items, hb, -⟩ := branches (@Json.type_unique doc type .parallel ht h)
      exact missing items hb
    | noBranches h empty =>
      obtain ⟨items, hb, hne⟩ := branches (@Json.type_unique doc type .parallel ht h)
      rw [empty] at hb
      cases hb
      exact hne rfl
    | missingProcessor h hprocessor hiterator =>
      rcases processor (@Json.type_unique doc type .map ht h) with hp | hi
      · exact hp hprocessor
      · exact hi hiterator

theorem decide_readKind {type : StateType} (ht : (Json.object fields).field? "Type" = some (.string type.name))
    (h : ∀ inner ∈ (Json.object fields).graphDocs, Check.Decide (inner.checksFrom (owner ++ [name]))
      ((read inner).mapError (.under (owner ++ [name])))) :
    Check.Decide (.state (owner ++ [name]) (.object fields) .graphs ::
        (Json.object fields).graphDocs.flatMap (Json.checksFrom (owner ++ [name])))
      ((readKind name type fields).mapError (.under owner)) := by
  have hgraphs : (Json.object fields).graphDocs = (Json.object fields).graphDocsFor type := by
    rw [Json.graphDocs, Json.stateType?_eq_some_iff.2 ht]
    rfl
  rw [hgraphs] at h ⊢
  cases type with
  | parallel =>
    simp only [Json.graphDocsFor, Json.field?] at h ⊢
    rw [readKind]
    split
    · next hb => exact Check.decide_of_fails (.state (.noBranches ht hb))
    · next items hne hb =>
      rw [hb] at h ⊢
      refine Check.decide_cons (passes_graphs ht (fun _ => ⟨items, hb, hne⟩) (by simp)) ?_
      simp only [mapError_map, mapError_mapError, GraphFault.under_within]
      exact Check.decide_map (decide_readAll h) _
    · next hother => exact Check.decide_of_fails (.state (.missingBranches ht hother))
  | map =>
    simp only [Json.graphDocsFor, Json.field?] at h ⊢
    rw [readKind]
    split
    · next processor hp =>
      rw [hp] at h ⊢
      refine Check.decide_cons (passes_graphs ht (by simp) fun _ => ?_) ?_
      · rcases Option.or_eq_some_iff.1 hp with hp | ⟨-, hp⟩
        · exact .inl (Option.ne_none_iff_exists'.2 ⟨_, hp⟩)
        · exact .inr (Option.ne_none_iff_exists'.2 ⟨_, hp⟩)
      · simp only [mapError_map, mapError_mapError, GraphFault.under_within]
        rw [Option.toList_some, List.flatMap_singleton]
        exact Check.decide_map (h processor (List.mem_singleton_self _)) _
    · next hnone =>
      obtain ⟨hprocessor, hiterator⟩ := Option.or_eq_none_iff.1 hnone
      exact Check.decide_of_fails (.state (.missingProcessor ht hprocessor hiterator))
  | _ =>
    rw [readKind]
    exact Check.decide_cons (passes_graphs ht (by simp) (by simp)) (Check.decide_nil _)

theorem decide_readState (h : ∀ inner ∈ doc.graphDocs, Check.Decide (inner.checksFrom (owner ++ [name]))
      ((read inner).mapError (.under (owner ++ [name])))) :
    Check.Decide (doc.stateChecks (owner ++ [name])) ((readState name doc).mapError (.under owner)) := by
  cases doc with
  | object fields =>
    have hobject : (Check.state (owner ++ [name]) (.object fields) .object).Passes := by
      intro fault hf
      cases hf with | state hf => cases hf with | notObject h => exact h fields rfl
    -- The head is read in between the check that there is an object and that of the graphs.
    show Check.Decide (.state (owner ++ [name]) (.object fields) .object ::
      ([.type, .next, .last, .transition].map (.state (owner ++ [name]) (.object fields)) ++
        .state (owner ++ [name]) (.object fields) .graphs ::
          (Json.object fields).graphDocs.flatMap (Json.checksFrom (owner ++ [name])))) _
    have hhead := @StateDecl.decide_readHead fields (owner ++ [name])
    rw [readState]
    simp only [mapError_bind, mapError_mapError]
    refine Check.decide_cons hobject (Check.decide_bind hhead fun head hh => ?_)
    obtain ⟨ht, -⟩ := StateDecl.readHead_ok_iff.1 (ok_of_mapError hh)
    exact Check.decide_bind_ok (decide_readKind (StateDecl.readType_ok_iff.1 ht) h) _
  | _ =>
    rw [readState]
    · exact Check.decide_of_fails (.state (.notObject (by simp)))
    · simp

theorem decide_readStates
    (h : ∀ field ∈ fields, Check.Decide (field.2.stateChecks (owner ++ [field.1]))
      ((readState field.1 field.2).mapError (.under owner))) :
    Check.Decide (fields.flatMap fun field => field.2.stateChecks (owner ++ [field.1]))
      ((readStates fields).mapError (.under owner)) := by
  induction fields with
  | nil =>
    rw [readStates]
    exact Check.decide_nil _
  | cons field fields ih =>
    obtain ⟨hfield, hfields⟩ := List.forall_mem_cons.1 h
    rw [readStates, mapError_bind, List.flatMap_cons]
    refine Check.decide_bind hfield fun state _ => ?_
    rw [mapError_bind]
    exact Check.decide_bind_ok (ih hfields) _

theorem decide_read (canonical : doc.Canonical) (owner : List String) :
    Check.Decide (doc.checksFrom owner) ((read doc).mapError (.under owner)) := by
  induction doc using Json.graph_induction generalizing owner with
  | step doc ih =>
    rw [Json.checksFrom_eq, read]
    show Check.Decide (.header owner doc .start :: .header owner doc .states :: _) _
    split
    · next hs =>
      refine Check.decide_of_fails (Check.fails_header owner (.missingStart fun startAt ht => ?_))
      rw [Json.bind_string?_eq_some_iff.2 ht] at hs
      cases hs
    · next startAt hs =>
      refine Check.decide_cons (Check.passes_header owner fun fault hf => ?_) ?_
      · cases hf with
        | missingStart h => exact h _ (Json.bind_string?_eq_some_iff.1 hs)
      · split
        · next he => exact Check.decide_of_fails (Check.fails_header owner (.noStates he))
        · next fields hne hf =>
          refine Check.decide_cons (Check.passes_header owner fun fault hfault => ?_) ?_
          · cases hfault with
            | missingStates h => exact h _ hf
            | noStates he =>
              rw [he] at hf
              cases hf
              exact hne rfl
          · -- The states are read in the order of the document, and there they ascend.
            rw [Json.stateDocs_eq canonical hf, mapError_map]
            refine Check.decide_map (decide_readStates fun field hm => decide_readState fun inner hi => ?_) _
            have hc := (canonical.field hf).value hm
            exact ih fields hf field hm inner hi (hc.graphDocs hi) _
        · next hother =>
          exact Check.decide_of_fails (Check.fails_header owner (.missingStates fun fields h => hother fields h))

/-- A document declares no graph if and only if one of its checks fails, and the fault is that of the first. -/
theorem read_error_iff (canonical : doc.Canonical) {fault : GraphFault} :
    read doc = .error fault ↔ Check.FirstFails doc.checks fault := by
  have h := decide_read canonical []
  cases hr : read doc with
  | error found =>
    rw [hr] at h
    have hfound : Check.FirstFails doc.checks found := GraphFault.under_nil found ▸ h
    constructor
    · rintro ⟨⟩
      exact hfound
    · intro ho
      rw [hfound.unique ho]
  | ok graph =>
    rw [hr] at h
    refine iff_of_false nofun fun hf => ?_
    obtain ⟨check, hm, hc⟩ := hf.exists_mem
    exact h check hm _ hc

end GraphDecl

/-! ## Definition documents -/

namespace Document

theorem ofJson_error_iff {doc : Json} {e : DocumentError} :
    ofJson doc = .error e ↔ (e = .notObject ∧ ∀ fields, doc ≠ .object fields) ∨
      ∃ fault, e = .graph fault ∧ (∃ fields, doc = .object fields) ∧ GraphDecl.read doc = .error fault := by
  cases doc with
  | object fields =>
    rw [ofJson]
    cases GraphDecl.read (.object fields) with
    | ok graph => simp
    | error fault => simp [eq_comm]
  | _ => simp [ofJson, eq_comm]

/-- A document is rejected with a fault if and only if it is an object and the fault is that of the first of its checks
that fails. So a fault of a state names the states around it from the document inwards and is charged to the last of
them, and a fault without a state is that of the document's own header, or that the document is no object. -/
theorem ofJson_error_iff_firstFails (doc : Json) (canonical : doc.Canonical) :
    (∀ fault, ofJson doc = .error (.graph fault) ↔
      (∃ fields, doc = .object fields) ∧ Check.FirstFails doc.checks fault) ∧
    (∀ path fault, ofJson doc = .error (.graph (.state path fault)) →
      ∃ state, doc.StateAt path state ∧ state.Charged fault) ∧
    ∀ e, ofJson doc = .error e →
      (e = .notObject ∧ ∀ fields, doc ≠ .object fields) ∨
      (∃ check fault, e = .graph (.header fault) ∧ doc.FailsHeader check fault) ∨
      ∃ path fault, e = .graph (.state path fault) ∧
        e.message = "state '" ++ ".".intercalate path ++ "': " ++ fault.message := by
  have hfirst : ∀ fault, ofJson doc = .error (.graph fault) ↔
      (∃ fields, doc = .object fields) ∧ Check.FirstFails doc.checks fault := fun fault => by
    simp [ofJson_error_iff, GraphDecl.read_error_iff canonical]
  refine ⟨hfirst, fun path fault h => Json.charged_of_firstFails canonical ((hfirst _).1 h).2, fun e h => ?_⟩
  rcases ofJson_error_iff.1 h with hnot | ⟨fault, rfl, -, hr⟩
  · exact .inl hnot
  · cases fault with
    | header fault =>
      obtain ⟨check, hf⟩ := Json.failsHeader_of_firstFails canonical ((GraphDecl.read_error_iff canonical).1 hr)
      exact .inr (.inl ⟨check, fault, rfl, hf⟩)
    | state path fault => exact .inr (.inr ⟨path, fault, rfl, rfl⟩)

end Document

/-- A Parallel of which the second branch has no states. -/
def unfinishedFork : Json :=
  .record [("Type", .string "Parallel"), ("Branches", .array [checkOnce, .record [("StartAt", .string "Left")]]),
    ("End", .bool true)]

/-- A Map over a graph of this state, and beside it a state that is no object. -/
def unfinishedEach : Json :=
  .record [("StartAt", .string "Each"), ("States", .record [("Then", .string "nothing"),
    ("Each", .record [("Type", .string "Map"), ("Next", .string "Then"),
      ("Iterator", .record [("StartAt", .string "Fork"), ("States", .record [("Fork", unfinishedFork)])])])])]

theorem canonical_unfinishedEach : unfinishedEach.Canonical := by
  have hbranch : (Json.record [("StartAt", .string "Left")]).Canonical :=
    Json.canonical_record (by simp [Json.Canonical.string])
  have hfork : unfinishedFork.Canonical :=
    Json.canonical_record (by
      simp [Json.Canonical.string, Json.Canonical.bool, Json.Canonical.array, canonical_checkOnce, hbranch])
  have hgraph : (Json.record [("StartAt", .string "Fork"), ("States", .record [("Fork", unfinishedFork)])]).Canonical :=
    Json.canonical_record (by simp [Json.Canonical.string, Json.canonical_record, hfork])
  have heach : (Json.record [("Type", .string "Map"), ("Next", .string "Then"),
      ("Iterator", .record [("StartAt", .string "Fork"), ("States", .record [("Fork", unfinishedFork)])])]).Canonical :=
    Json.canonical_record (by simp [Json.Canonical.string, hgraph])
  exact Json.canonical_record (by simp [Json.Canonical.string, Json.canonical_record, heach])

theorem firstFails_of_unfinishedEach :
    unfinishedEach.Canonical ∧
      Document.ofJson unfinishedEach = .error (.graph (.state ["Each", "Fork"] (.header (.missingField "States")))) ∧
      Check.FirstFails unfinishedEach.checks (.state ["Each", "Fork"] (.header (.missingField "States"))) ∧
      ∃ state, unfinishedEach.StateAt ["Each", "Fork"] state ∧ state.Charged (.header (.missingField "States")) := by
  have herror : Document.ofJson unfinishedEach =
      .error (.graph (.state ["Each", "Fork"] (.header (.missingField "States")))) := by
    cbv
  obtain ⟨hfirst, hcharged, -⟩ := Document.ofJson_error_iff_firstFails unfinishedEach canonical_unfinishedEach
  exact ⟨canonical_unfinishedEach, herror, ((hfirst _).1 herror).2, hcharged _ _ herror⟩

end StateBench

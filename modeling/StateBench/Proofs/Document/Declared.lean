import StateBench.Document.Reader
import StateBench.Proofs.Json.Canonical

/-!
# What documents declare

The document of a graph has those of its states in it, and these those of the graphs that they own. The head of a state
is read if and only if the document says it and its transition is allowed (`StateDecl.readHead_ok_iff`). What is read of
a document goes with its parts one by one: the states of a graph with its fields (`GraphDecl.read_ok`), and the graphs
of a state with the documents in it (`GraphDecl.readState_ok`). A state that is read goes on along `Next` if and only if
it is not declared the last one, or goes on by its type (`StateDecl.Transits`).
-/

namespace StateBench

namespace Json

/-- The document of a state in that of its graph. -/
def stateDoc? (doc : Json) (name : String) : Option Json := (doc.field? "States").bind (·.field? name)

/-- The type that the document of a state names. -/
def stateType? (doc : Json) : Option StateType := ((doc.field? "Type").bind string?).bind StateType.ofName?

/-- The documents of the graphs that a state of a type owns. -/
def graphDocsFor (doc : Json) : StateType → List Json
  | .map => ((doc.field? "ItemProcessor").or (doc.field? "Iterator")).toList
  | .parallel => ((doc.field? "Branches").bind array?).getD []
  | _ => []

/-- The documents of the graphs that a state owns. -/
def graphDocs (doc : Json) : List Json := doc.stateType?.elim [] doc.graphDocsFor

/-- The document of a graph that a state owns is a field of the state's own document, or an item of one. -/
theorem field_of_mem_graphDocs {doc inner : Json} (h : inner ∈ doc.graphDocs) :
    (∃ key, doc.field? key = some inner) ∨ ∃ key items, doc.field? key = some (.array items) ∧ inner ∈ items := by
  unfold graphDocs at h
  cases ht : doc.stateType? with
  | none =>
    rw [ht] at h
    cases h
  | some type =>
    rw [ht] at h
    change inner ∈ doc.graphDocsFor type at h
    cases type with
    | map =>
      rcases Option.or_eq_some_iff.1 (Option.mem_toList.1 h) with hp | ⟨-, hp⟩
      · exact .inl ⟨_, hp⟩
      · exact .inl ⟨_, hp⟩
    | parallel =>
      simp only [graphDocsFor] at h
      cases hb : (doc.field? "Branches").bind array? with
      | none =>
        rw [hb] at h
        cases h
      | some items =>
        rw [hb] at h
        obtain ⟨branches, hf, ha⟩ := Option.bind_eq_some_iff.1 hb
        cases branches with
        | array found =>
          cases ha
          exact .inr ⟨_, _, hf, h⟩
        | _ => cases ha
    | _ => cases h

/-- The documents of the graphs in a state are parts of its own. -/
theorem Canonical.graphDocs {doc inner : Json} (h : doc.Canonical) (hi : inner ∈ doc.graphDocs) :
    inner.Canonical := by
  rcases field_of_mem_graphDocs hi with ⟨key, hf⟩ | ⟨key, items, hf, hj⟩
  · exact h.field hf
  · exact (h.field hf).item hj

end Json

/-- The graphs that a state owns. -/
def DeclKind.graphs {γ : Type} : DeclKind γ → List γ
  | .map iterator => [iterator]
  | .parallel branches => branches
  | _ => []

/-! ## States -/

theorem StateType.hasTransition_iff (type : StateType) :
    type.hasTransition = true ↔ type ∉ [.choice, .succeed, .fail] := by
  cases type <;> decide

theorem StateType.ofName?_eq_some_iff {name : String} {type : StateType} :
    ofName? name = some type ↔ name = type.name := by
  constructor
  · intro h
    unfold ofName? at h
    split at h <;> cases h <;> rfl
  · rintro rfl
    cases type <;> rfl

theorem Json.bind_string?_eq_some_iff {j : Option Json} {text : String} :
    j.bind Json.string? = some text ↔ j = some (.string text) := by
  rcases j with _ | ⟨_ | _ | _ | _ | _ | _⟩ <;> simp [string?]

theorem Json.stateType?_eq_some_iff {doc : Json} {type : StateType} :
    doc.stateType? = some type ↔ doc.field? "Type" = some (.string type.name) := by
  rw [stateType?, Option.bind_eq_some_iff]
  simp only [bind_string?_eq_some_iff, StateType.ofName?_eq_some_iff, exists_eq_right]

namespace StateDecl

variable {fields : Fields Json} {head : Head}

/-- A Choice, a Succeed and a Fail have no link to a next state, and any other state has one unless it is declared the
last. -/
structure Transits (doc : Json) (type : StateType) (next : Option String) : Prop where
  stays : type ∈ [.choice, .succeed, .fail] → next = none
  goes : type ∉ [.choice, .succeed, .fail] → (next.isSome ↔ doc.field? "End" ≠ some (.bool true))

theorem readType_ok_iff {type : StateType} :
    readType fields = .ok type ↔ Fields.find? "Type" fields = some (.string type.name) := by
  have htype : (Json.object fields).stateType? = some type ↔ _ := Json.stateType?_eq_some_iff
  refine Iff.trans ?_ htype
  unfold readType
  show _ ↔ ((Fields.find? "Type" fields).bind Json.string?).bind StateType.ofName? = some type
  split
  · next hn => simp [hn]
  · next name hn =>
    rw [hn]
    show _ ↔ StateType.ofName? name = some type
    cases StateType.ofName? name <;> simp

theorem readNext_ok_iff {next : Option String} :
    readNext fields = .ok next ↔ Fields.find? "Next" fields = next.map .string := by
  unfold readNext
  split
  · next h => cases next <;> simp [h]
  · next name h => cases next <;> simp [h]
  · next value hs h =>
    cases next with
    | none => simp [h]
    | some name =>
      refine iff_of_false (by simp) fun hv => hs name ?_
      rw [h] at hv
      exact Option.some.inj hv

theorem readEnd_ok_iff {isLast : Bool} :
    readEnd fields = .ok isLast ↔ (∀ value, Fields.find? "End" fields = some value → ∃ b, value = .bool b) ∧
      (isLast = true ↔ Fields.find? "End" fields = some (.bool true)) := by
  unfold readEnd
  split
  · next h => cases isLast <;> simp [h]
  · next b h => cases isLast <;> cases b <;> simp [h]
  · next value hb h =>
    refine iff_of_false (by simp) fun hv => ?_
    obtain ⟨b, hvb⟩ := hv.1 value h
    exact hb b hvb

/-- The transition of a head is one that its type allows. -/
structure Allowed (head : Head) : Prop where
  stays : head.type ∈ [.choice, .succeed, .fail] → head.next = none ∧ head.isLast = false
  goes : head.type ∉ [.choice, .succeed, .fail] → Xor (head.next ≠ none) (head.isLast = true)

theorem checkTransition_ok_iff {checked : Head} :
    checkTransition head = .ok checked ↔ head = checked ∧ Allowed head := by
  have hallowed : Allowed head ↔ (head.type.hasTransition = false → head.next = none ∧ head.isLast = false) ∧
      (head.type.hasTransition = true → Xor (head.next ≠ none) (head.isLast = true)) := by
    rw [← Bool.not_eq_true, StateType.hasTransition_iff, not_not]
    exact ⟨fun h => ⟨h.stays, h.goes⟩, fun h => ⟨h.1, h.2⟩⟩
  rw [hallowed]
  obtain ⟨type, next, isLast⟩ := head
  unfold checkTransition
  cases type.hasTransition <;> cases next <;> cases isLast <;> simp

theorem readHead_ok_iff :
    readHead fields = .ok head ↔ readType fields = .ok head.type ∧ readNext fields = .ok head.next ∧
      readEnd fields = .ok head.isLast ∧ Allowed head := by
  simp only [readHead, bind_ok_iff, checkTransition_ok_iff]
  constructor
  · rintro ⟨type, ht, next, hn, isLast, hl, rfl, h⟩
    exact ⟨ht, hn, hl, h⟩
  · rintro ⟨ht, hn, hl, h⟩
    exact ⟨_, ht, _, hn, _, hl, rfl, h⟩

/-- A head that is read has the type of the document and a transition that the type allows. -/
theorem readHead_ok (h : readHead fields = .ok head) :
    (Json.object fields).stateType? = some head.type ∧ Transits (.object fields) head.type head.next := by
  obtain ⟨ht, -, hl, hallowed⟩ := readHead_ok_iff.1 h
  refine ⟨Json.stateType?_eq_some_iff.2 (readType_ok_iff.1 ht), fun hs => (hallowed.stays hs).1, fun hg => ?_⟩
  show head.next.isSome ↔ ¬ Fields.find? "End" fields = some (.bool true)
  rw [← (readEnd_ok_iff.1 hl).2, Option.isSome_iff_ne_none]
  exact xor_iff_iff_not.1 (hallowed.goes hg)

end StateDecl

/-! ## Graphs -/

namespace GraphDecl

variable {doc : Json} {fields : Fields Json} {decl : GraphDecl} {name : String}

theorem readAll_ok {items : List Json} {graphs : List GraphDecl} (h : readAll items = .ok graphs) :
    List.Forall₂ (fun j g => read j = .ok g) items graphs := by
  induction items generalizing graphs with
  | nil =>
    rw [readAll] at h
    cases h
    exact .nil
  | cons j rest ih =>
    rw [readAll] at h
    obtain ⟨graph, hj, h⟩ := ok_of_bind h
    obtain ⟨others, hr, h⟩ := ok_of_bind h
    cases h
    exact .cons hj (ih hr)

theorem readStates_ok {states : List (StateDecl GraphDecl)} (h : readStates fields = .ok states) :
    List.Forall₂ (fun field d => readState field.1 field.2 = .ok d) fields states := by
  induction fields generalizing states with
  | nil =>
    rw [readStates] at h
    cases h
    exact .nil
  | cons field rest ih =>
    rw [readStates] at h
    obtain ⟨state, hs, h⟩ := ok_of_bind h
    obtain ⟨others, hr, h⟩ := ok_of_bind h
    cases h
    exact .cons hs (ih hr)

/-- A document that declares a graph has a field for each of its states. -/
theorem read_ok (h : read doc = .ok decl) :
    ∃ fields, doc.field? "States" = some (.object fields) ∧ fields ≠ [] ∧
      List.Forall₂ (fun field d => readState field.1 field.2 = .ok d) fields decl.states := by
  rw [read] at h
  split at h
  · cases h
  · split at h
    · cases h
    · next fields hne hf =>
      obtain ⟨states, hs, rfl⟩ := ok_of_map h
      exact ⟨fields, hf, hne, readStates_ok hs⟩
    · cases h

/-- The graphs of a state are read of the documents in it, and a Parallel has at least one. -/
theorem readKind_ok {type : StateType} {kind : DeclKind GraphDecl} (h : readKind name type fields = .ok kind) :
    kind.type = type ∧
      List.Forall₂ (fun j g => read j = .ok g) ((Json.object fields).graphDocsFor type) kind.graphs ∧
      (type = .parallel → kind.graphs ≠ []) := by
  cases type with
  | parallel =>
    rw [readKind] at h
    split at h
    · cases h
    · next items hne hi =>
      obtain ⟨graphs, hg, rfl⟩ := ok_of_map (ok_of_mapError h)
      have hall := readAll_ok hg
      refine ⟨rfl, ?_, fun _ => ?_⟩
      · show List.Forall₂ _ (((Fields.find? "Branches" fields).bind Json.array?).getD []) graphs
        rw [hi]
        exact hall
      · rintro rfl
        cases hall
        exact hne rfl
    · cases h
  | map =>
    rw [readKind] at h
    split at h
    · next processor hp =>
      obtain ⟨graph, hg, rfl⟩ := ok_of_map (ok_of_mapError h)
      refine ⟨rfl, ?_, by simp⟩
      show List.Forall₂ _ ((Fields.find? "ItemProcessor" fields).or (Fields.find? "Iterator" fields)).toList [graph]
      rw [hp]
      exact .cons hg .nil
    · cases h
  | _ =>
    rw [readKind] at h
    cases h
    exact ⟨rfl, .nil, by simp⟩

/-- A state that is read has the name and the transition that its document declares, and its graphs are those in the
document. -/
theorem readState_ok {d : StateDecl GraphDecl} (h : readState name doc = .ok d) :
    d.name = name ∧ StateDecl.Transits doc d.type d.next ∧
      List.Forall₂ (fun j g => read j = .ok g) doc.graphDocs d.kind.graphs ∧
      (d.type = .parallel → d.kind.graphs ≠ []) := by
  cases doc with
  | object fields =>
    rw [readState] at h
    obtain ⟨head, hh, h⟩ := ok_of_bind h
    obtain ⟨kind, hk, h⟩ := ok_of_bind h
    cases h
    obtain ⟨ht, htransits⟩ := StateDecl.readHead_ok (ok_of_mapError hh)
    obtain ⟨htype, hgraphs, hne⟩ := readKind_ok hk
    refine ⟨rfl, ?_, ?_, fun hp => hne (htype.symm.trans hp)⟩
    · show StateDecl.Transits _ kind.type head.next
      rw [htype]
      exact htransits
    · rw [Json.graphDocs, ht]
      exact hgraphs
  | _ =>
    rw [readState] at h
    · cases h
    · simp

end GraphDecl

end StateBench

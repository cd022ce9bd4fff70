import StateBench.Proofs.Document.Declared

/-!
# The documents of states

What the document of a state must be, apart from the graphs in it (`Json.IsState`), and what it says of a state that is
declared by it (`StateDecl.Mirrors`). A state that is read is as it must be and is mirrored, given its graphs
(`GraphDecl.readState_ok_mirrors`); a state that is as it must be is read, if its graphs are
(`GraphDecl.exists_readState`).
-/

namespace StateBench

/-! ## States -/

/-- The document of a state of a type, apart from the graphs in it. -/
structure Json.IsState (doc : Json) (type : StateType) : Prop where
  object : ∃ fields, doc = .object fields
  typed : doc.field? "Type" = some (.string type.name)
  next : ∀ value, doc.field? "Next" = some value → ∃ name, value = .string name
  last : ∀ value, doc.field? "End" = some value → ∃ b, value = .bool b
  stays : type ∈ [.choice, .succeed, .fail] → doc.field? "Next" = none ∧ doc.field? "End" ≠ some (.bool true)
  goes : type ∉ [.choice, .succeed, .fail] →
    Xor (doc.field? "Next" ≠ none) (doc.field? "End" = some (.bool true))
  branches : type = .parallel → ∃ items, doc.field? "Branches" = some (.array items) ∧ items ≠ []
  processor : type = .map → doc.field? "ItemProcessor" ≠ none ∨ doc.field? "Iterator" ≠ none

/-- A state is declared as its document says, and its graphs as a relation says. -/
structure StateDecl.Mirrors {γ : Type} (graph : Json → γ → Prop) (name : String) (doc : Json) (d : StateDecl γ) :
    Prop where
  named : d.name = name
  typed : doc.field? "Type" = some (.string d.type.name)
  next : doc.field? "Next" = d.next.map .string
  last : d.isLast = true ↔ doc.field? "End" = some (.bool true)
  comment : ∀ text, d.comment = some text ↔ doc.field? "Comment" = some (.string text)
  graphs : List.Forall₂ graph doc.graphDocs d.kind.graphs
  fields : ∃ entries, doc = .object entries ∧ d.fields = entries.filter fun entry => entry.1 ∉ structuralKeys

theorem StateDecl.mirrors_mapGraphs_iff {γ δ : Type} {f : γ → δ} {graph : Json → δ → Prop} {name : String} {doc : Json}
    {d : StateDecl γ} :
    (d.mapGraphs f).Mirrors graph name doc ↔ d.Mirrors (fun inner g => graph inner (f g)) name doc := by
  have ht : (d.mapGraphs f).type = d.type := by
    rw [type, type, mapGraphs]
    cases d.kind <;> rfl
  have hg : (d.mapGraphs f).kind.graphs = d.kind.graphs.map f := by
    rw [mapGraphs]
    cases d.kind <;> rfl
  constructor
  · intro h
    exact ⟨h.named, ht ▸ h.typed, h.next, h.last, h.comment, List.forall₂_map_right_iff.1 (hg ▸ h.graphs), h.fields⟩
  · intro h
    exact ⟨h.named, ht ▸ h.typed, h.next, h.last, h.comment, hg ▸ List.forall₂_map_right_iff.2 h.graphs, h.fields⟩

theorem StateDecl.Mirrors.imp {γ : Type} {graph graph' : Json → γ → Prop} {name : String} {doc : Json} {d : StateDecl γ}
    (h : d.Mirrors graph name doc) (himp : ∀ inner ∈ doc.graphDocs, ∀ g, graph inner g → graph' inner g) :
    d.Mirrors graph' name doc :=
  { h with graphs := (forall₂_of_mem h.graphs).imp fun inner g ⟨hi, hg⟩ => himp inner hi g hg }

/-! ## Reading states -/

/-- A document that is as that of a state must be has a head that is read. -/
theorem StateDecl.exists_readHead {fields : Fields Json} {type : StateType} (h : (Json.object fields).IsState type) :
    ∃ head, readHead fields = .ok head ∧ head.type = type := by
  obtain ⟨next, hn⟩ : ∃ next : Option String, Fields.find? "Next" fields = next.map .string := by
    cases hn : Fields.find? "Next" fields with
    | none => exact ⟨none, rfl⟩
    | some value =>
      obtain ⟨name, rfl⟩ := h.next value hn
      exact ⟨some name, rfl⟩
  obtain ⟨isLast, hl⟩ : ∃ b : Bool, b = true ↔ Fields.find? "End" fields = some (.bool true) := by
    classical exact ⟨_, decide_eq_true_iff⟩
  have hallowed : Allowed ⟨type, next, isLast⟩ := by
    constructor
    · intro ht
      obtain ⟨hnext, hend⟩ := h.stays ht
      exact ⟨Option.map_eq_none_iff.1 (hn.symm.trans hnext), Bool.eq_false_iff.2 fun he => hend (hl.1 he)⟩
    · intro ht
      have hgoes : Xor (Fields.find? "Next" fields ≠ none) (Fields.find? "End" fields = some (.bool true)) := h.goes ht
      rw [← hl, hn, Ne, Option.map_eq_none_iff] at hgoes
      exact hgoes
  exact ⟨⟨type, next, isLast⟩,
    readHead_ok_iff.2 ⟨readType_ok_iff.2 h.typed, readNext_ok_iff.2 hn, readEnd_ok_iff.2 ⟨h.last, hl⟩, hallowed⟩, rfl⟩

namespace GraphDecl

variable {doc : Json} {fields : Fields Json} {decl : GraphDecl} {name : String} {type : StateType}

/-- A state whose graphs are read has them where its type wants them. -/
theorem owns_of_readKind {kind : DeclKind GraphDecl} (h : readKind name type fields = .ok kind) :
    (type = .parallel → ∃ items, Fields.find? "Branches" fields = some (.array items) ∧ items ≠ []) ∧
      (type = .map → Fields.find? "ItemProcessor" fields ≠ none ∨ Fields.find? "Iterator" fields ≠ none) := by
  constructor
  · rintro rfl
    rw [readKind] at h
    split at h
    · cases h
    · next items hne hi => exact ⟨items, hi, hne⟩
    · cases h
  · rintro rfl
    rw [readKind] at h
    split at h
    · next processor hp =>
      rcases Option.or_eq_some_iff.1 hp with hp | ⟨-, hp⟩
      · exact .inl (by simp [hp])
      · exact .inr (by simp [hp])
    · cases h

theorem readState_ok_mirrors {d : StateDecl GraphDecl} (h : readState name doc = .ok d) :
    doc.IsState d.type ∧ d.Mirrors (fun inner g => read inner = .ok g) name doc := by
  have hgraphs := (readState_ok h).2.2.1
  cases doc with
  | object fields =>
    rw [readState] at h
    obtain ⟨head, hh, h⟩ := ok_of_bind h
    obtain ⟨kind, hk, h⟩ := ok_of_bind h
    cases h
    obtain ⟨ht, hn, hl, hallowed⟩ := StateDecl.readHead_ok_iff.1 (ok_of_mapError hh)
    rw [StateDecl.readType_ok_iff] at ht
    rw [StateDecl.readNext_ok_iff] at hn
    rw [StateDecl.readEnd_ok_iff] at hl
    obtain ⟨hbranches, hprocessor⟩ := owns_of_readKind hk
    have htype : kind.type = head.type := (readKind_ok hk).1
    constructor
    · show (Json.object fields).IsState kind.type
      rw [htype]
      refine ⟨⟨fields, rfl⟩, ht, fun value hv => ?_, hl.1, fun hs => ?_, fun hg => ?_, hbranches, hprocessor⟩
      · obtain ⟨next, -, rfl⟩ := Option.map_eq_some_iff.1 (hn.symm.trans hv)
        exact ⟨next, rfl⟩
      · obtain ⟨hnext, hlast⟩ := hallowed.stays hs
        refine ⟨hn.trans (Option.map_eq_none_iff.2 hnext), fun he => ?_⟩
        rw [hl.2.2 he] at hlast
        cases hlast
      · show Xor (Fields.find? "Next" fields ≠ none) (Fields.find? "End" fields = some (.bool true))
        rw [← hl.2, hn, Ne, Option.map_eq_none_iff]
        exact hallowed.goes hg
    · refine ⟨rfl, ?_, hn, hl.2, fun text => ?_, hgraphs, fields, rfl, ?_⟩
      · show Fields.find? "Type" fields = some (.string kind.type.name)
        rw [htype, ht]
      · exact Json.bind_string?_eq_some_iff
      · simp [StateDecl.ofHead]
  | _ =>
    rw [readState] at h
    · cases h
    · simp

theorem exists_readAll {items : List Json} (h : ∀ j ∈ items, ∃ g, read j = .ok g) :
    ∃ graphs, readAll items = .ok graphs := by
  induction items with
  | nil => exact ⟨[], by rw [readAll]⟩
  | cons j items ih =>
    obtain ⟨graph, hj⟩ := h j List.mem_cons_self
    obtain ⟨graphs, hr⟩ := ih fun other ho => h other (List.mem_cons_of_mem _ ho)
    exact ⟨graph :: graphs, by rw [readAll, hj, hr]; rfl⟩

theorem exists_readKind (h : (Json.object fields).IsState type)
    (graphs : ∀ inner ∈ (Json.object fields).graphDocsFor type, ∃ g, read inner = .ok g) :
    ∃ kind, readKind name type fields = .ok kind := by
  cases type with
  | parallel =>
    obtain ⟨items, hb, hne⟩ := h.branches rfl
    replace hb : Fields.find? "Branches" fields = some (.array items) := hb
    have hdocs : (Json.object fields).graphDocsFor .parallel = items := by
      show ((Fields.find? "Branches" fields).bind Json.array?).getD [] = items
      rw [hb]
      rfl
    obtain ⟨read, hr⟩ := exists_readAll (hdocs ▸ graphs)
    refine ⟨.parallel read, ?_⟩
    rw [readKind]
    split
    · next he =>
      rw [hb] at he
      cases he
      exact absurd rfl hne
    · next items' _ hi =>
      rw [hb] at hi
      cases hi
      rw [hr]
      rfl
    · next hnot => exact absurd hb (hnot items)
  | map =>
    obtain ⟨processor, hp⟩ : ∃ processor,
        (Fields.find? "ItemProcessor" fields).or (Fields.find? "Iterator" fields) = some processor := by
      refine Option.ne_none_iff_exists'.1 fun hnone => ?_
      obtain ⟨hitem, hiterator⟩ := Option.or_eq_none_iff.1 hnone
      exact (h.processor rfl).elim (· hitem) (· hiterator)
    obtain ⟨graph, hg⟩ := graphs processor (Option.mem_toList.2 hp)
    refine ⟨.map graph, ?_⟩
    rw [readKind]
    split
    · next found hf =>
      rw [hp] at hf
      cases hf
      rw [hg]
      rfl
    · next hnone =>
      rw [hp] at hnone
      cases hnone
  | _ => exact ⟨_, by rw [readKind]⟩

/-- A state that is as it must be is read, if its graphs are. -/
theorem exists_readState (h : doc.IsState type) (graphs : ∀ inner ∈ doc.graphDocs, ∃ g, read inner = .ok g) :
    ∃ d, readState name doc = .ok d := by
  obtain ⟨fields, rfl⟩ := h.object
  obtain ⟨head, hh, rfl⟩ := StateDecl.exists_readHead h
  have hdocs : (Json.object fields).graphDocs = (Json.object fields).graphDocsFor head.type := by
    rw [Json.graphDocs, Json.stateType?_eq_some_iff.2 h.typed]
    rfl
  obtain ⟨kind, hk⟩ : ∃ kind, readKind name head.type fields = .ok kind := exists_readKind h (hdocs ▸ graphs)
  refine ⟨.ofHead name fields head kind, ?_⟩
  rw [readState, hh, show Except.mapError _ (Except.ok head) = Except.ok head from rfl]
  show readKind name head.type fields >>= _ = _
  rw [hk]
  rfl

end GraphDecl

end StateBench

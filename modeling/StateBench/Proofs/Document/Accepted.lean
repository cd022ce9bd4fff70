import Mathlib
import StateBench.Proofs.Document.States

/-!
# Which documents are definitions

A document is read if and only if it is a graph whose states are as they must be, at every depth (`Json.IsGraph`), and
what is read says what the document says (`GraphDecl.Mirrors`).

* `GraphDecl.isGraph_of_read`, `GraphDecl.mirrors_of_read`: by induction on what stands within a document
  (`Json.graph_induction`);
* `GraphDecl.exists_read`: by induction on how a document is a graph;
* `Document.ofJson_ok_iff_isGraph`: all of it for definition documents.
-/

namespace StateBench

/-! ## Graphs -/

/-- The document of a graph, with all graphs inside it. -/
inductive Json.IsGraph : Json → Prop
  | intro {doc : Json} {startAt : String} {fields : Fields Json}
      (start : doc.field? "StartAt" = some (.string startAt)) (states : doc.field? "States" = some (.object fields))
      (nonempty : fields ≠ []) (each : ∀ field ∈ fields, ∃ type, field.2.IsState type)
      (graphs : ∀ field ∈ fields, ∀ inner ∈ field.2.graphDocs, inner.IsGraph) : IsGraph doc

/-- A graph is declared as its document says, with all graphs inside it. -/
def GraphDecl.Mirrors (decl : GraphDecl) : Json → Prop :=
  decl.fold fun startAt states doc =>
    doc.field? "StartAt" = some (.string startAt) ∧ ∃ fields, doc.field? "States" = some (.object fields) ∧
      (states.map (·.name)).Pairwise (· < ·) ∧
      List.Forall₂ (fun field d => d.Mirrors (fun inner mirrors => mirrors inner) field.1 field.2) fields states

theorem GraphDecl.mirrors_iff {decl : GraphDecl} {doc : Json} :
    decl.Mirrors doc ↔ doc.field? "StartAt" = some (.string decl.startAt) ∧
      ∃ fields, doc.field? "States" = some (.object fields) ∧ (decl.states.map (·.name)).Pairwise (· < ·) ∧
        List.Forall₂ (fun field d => d.Mirrors (fun inner g => g.Mirrors inner) field.1 field.2) fields
          decl.states := by
  have h : decl.Mirrors = _ := fold_eq _ decl
  rw [h]
  simp only [List.map_map, List.forall₂_map_right_iff, StateDecl.mirrors_mapGraphs_iff]
  rfl

/-! ## Reading graphs -/

namespace GraphDecl

variable {doc : Json} {fields : Fields Json} {decl : GraphDecl}

theorem exists_readStates (h : ∀ field ∈ fields, ∃ d, readState field.1 field.2 = .ok d) :
    ∃ states, readStates fields = .ok states := by
  induction fields with
  | nil => exact ⟨[], by rw [readStates]⟩
  | cons field fields ih =>
    obtain ⟨d, hd⟩ := h field List.mem_cons_self
    obtain ⟨states, hr⟩ := ih fun other ho => h other (List.mem_cons_of_mem _ ho)
    exact ⟨d :: states, by rw [readStates, hd, hr]; rfl⟩

theorem startAt_of_read (h : read doc = .ok decl) : doc.field? "StartAt" = some (.string decl.startAt) := by
  rw [read] at h
  split at h
  · cases h
  · next startAt hs =>
    split at h
    · cases h
    · obtain ⟨states, -, rfl⟩ := ok_of_map h
      exact Json.bind_string?_eq_some_iff.1 hs
    · cases h

end GraphDecl

/-! ## Graphs within graphs -/

namespace Json

variable {doc inner : Json}

theorem sizeOf_graphDocs_lt (h : inner ∈ doc.graphDocs) : sizeOf inner < sizeOf doc := by
  rcases field_of_mem_graphDocs h with ⟨key, hf⟩ | ⟨key, items, hf, hj⟩
  · exact sizeOf_field?_lt hf
  · exact Nat.lt_trans (sizeOf_item_lt hj) (sizeOf_field?_lt hf)

/-- What holds of the document of a graph as soon as it holds of those of the graphs in its states holds of every
document. -/
theorem graph_induction {motive : Json → Prop}
    (step : ∀ doc, (∀ fields, doc.field? "States" = some (.object fields) → ∀ field ∈ fields,
      ∀ inner ∈ field.2.graphDocs, motive inner) → motive doc) (doc : Json) : motive doc := by
  induction hs : sizeOf doc using Nat.strongRecOn generalizing doc with
  | _ size ih =>
    refine step doc fun fields hf field hm inner hi => ih _ ?_ inner rfl
    obtain ⟨name, value⟩ := field
    have hinner : sizeOf inner < sizeOf value := sizeOf_graphDocs_lt hi
    have hfield := List.sizeOf_lt_of_mem hm
    have hfields := sizeOf_field?_lt hf
    simp only [Prod.mk.sizeOf_spec, object.sizeOf_spec] at hfield hfields
    omega

end Json

namespace GraphDecl

variable {doc : Json} {decl : GraphDecl}

theorem isGraph_of_read (h : read doc = .ok decl) : doc.IsGraph := by
  induction doc using Json.graph_induction generalizing decl with
  | step doc ih =>
    obtain ⟨fields, hf, hne, hall⟩ := read_ok h
    have hstate : ∀ field ∈ fields, ∃ d, readState field.1 field.2 = .ok d := fun field hm => by
      obtain ⟨d, -, hd⟩ := mem_of_forall₂ hall.flip hm
      exact ⟨d, hd⟩
    refine .intro (startAt_of_read h) hf hne (fun field hm => ?_) (fun field hm inner hi => ?_)
    · obtain ⟨d, hd⟩ := hstate field hm
      exact ⟨d.type, (readState_ok_mirrors hd).1⟩
    · obtain ⟨d, hd⟩ := hstate field hm
      obtain ⟨g, -, hg⟩ := mem_of_forall₂ (readState_ok_mirrors hd).2.graphs.flip hi
      exact ih fields hf field hm inner hi hg

theorem mirrors_of_read (canonical : doc.Canonical) (h : read doc = .ok decl) : decl.Mirrors doc := by
  induction doc using Json.graph_induction generalizing decl with
  | step doc ih =>
    obtain ⟨fields, hf, -, hall⟩ := read_ok h
    have hc := canonical.field hf
    refine mirrors_iff.2 ⟨startAt_of_read h, fields, hf, ?_, ?_⟩
    · have hnames : fields.map Prod.fst = decl.states.map (·.name) :=
        map_eq_of_forall₂ (hall.imp fun _ _ hd => (readState_ok_mirrors hd).2.named.symm)
      rw [← hnames]
      exact hc.ascending
    · refine (forall₂_of_mem hall).imp fun field d ⟨hm, hd⟩ => ?_
      have hfield : field.2.Canonical := hc.value hm
      exact (readState_ok_mirrors hd).2.imp fun inner hi g hg => ih fields hf field hm inner hi (hfield.graphDocs hi) hg

/-- The document of a graph is read. -/
theorem exists_read (h : doc.IsGraph) : ∃ decl, read doc = .ok decl := by
  induction h with
  | @intro doc startAt fields start states nonempty each _ ih =>
    have hstate : ∀ field ∈ fields, ∃ d, readState field.1 field.2 = .ok d := fun field hm => by
      obtain ⟨type, ht⟩ := each field hm
      exact exists_readState ht (ih field hm)
    obtain ⟨decls, hd⟩ := exists_readStates hstate
    refine ⟨⟨startAt, decls⟩, ?_⟩
    rw [read, Json.bind_string?_eq_some_iff.2 start]
    dsimp only
    split
    · next he =>
      rw [states] at he
      cases he
      exact absurd rfl nonempty
    · next found _ hf =>
      rw [states] at hf
      cases hf
      rw [hd]
      rfl
    · next hnot => exact absurd states (hnot fields)

end GraphDecl

/-! ## Definition documents -/

namespace Document

/-- A definition document says what a document says. -/
structure Mirrors (document : Document) (doc : Json) : Prop where
  comment : ∀ text, document.comment = some text ↔ doc.field? "Comment" = some (.string text)
  version : ∀ text, document.version = some text ↔ doc.field? "Version" = some (.string text)
  timeoutSeconds : ∀ n : Nat, document.timeoutSeconds = some n ↔ doc.field? "TimeoutSeconds" = some (.int n)
  graph : document.graph.Mirrors doc

end Document

theorem Json.bind_nat?_eq_some_iff {j : Option Json} {n : Nat} : j.bind Json.nat? = some n ↔ j = some (.int n) := by
  rcases j with _ | _ | _ | (⟨z⟩ | x) | _ | _ | _
  case some.number.int =>
    simp only [Option.bind_some, nat?, number?, Number.toNat?, Json.int, Option.some.injEq, number.injEq,
      Number.int.injEq]
    split <;> simp <;> omega
  all_goals simp [nat?, number?, Number.toNat?, Json.int]

theorem Document.ofJson_ok {doc : Json} {document : Document} (h : ofJson doc = .ok document) :
    GraphDecl.read doc = .ok document.graph ∧ document.comment = (doc.field? "Comment").bind Json.string? ∧
      document.version = (doc.field? "Version").bind Json.string? ∧
      document.timeoutSeconds = (doc.field? "TimeoutSeconds").bind Json.nat? := by
  unfold ofJson at h
  split at h
  · split at h
    · cases h
    · next graph hg =>
      cases h
      exact ⟨hg, rfl, rfl, rfl⟩
  · cases h

/-- A document is a definition document if and only if it is an object and a graph, and then it is mirrored. -/
theorem Document.ofJson_ok_iff_isGraph (doc : Json) (canonical : doc.Canonical) :
    ((∃ document, ofJson doc = .ok document) ↔ (∃ entries, doc = .object entries) ∧ doc.IsGraph) ∧
      ∀ document, ofJson doc = .ok document → document.Mirrors doc := by
  refine ⟨⟨?_, ?_⟩, ?_⟩
  · rintro ⟨document, h⟩
    have hgraph : doc.IsGraph := GraphDecl.isGraph_of_read (ofJson_ok h).1
    cases doc with
    | object entries => exact ⟨⟨entries, rfl⟩, hgraph⟩
    | _ => cases h
  · rintro ⟨⟨entries, rfl⟩, h⟩
    obtain ⟨decl, hd⟩ := GraphDecl.exists_read h
    exact ⟨_, by rw [ofJson, hd]⟩
  · intro document h
    obtain ⟨hread, hcomment, hversion, htimeout⟩ := ofJson_ok h
    refine ⟨fun text => ?_, fun text => ?_, fun n => ?_, GraphDecl.mirrors_of_read canonical hread⟩
    · rw [hcomment, Json.bind_string?_eq_some_iff]
    · rw [hversion, Json.bind_string?_eq_some_iff]
    · rw [htimeout, Json.bind_nat?_eq_some_iff]

/-- A graph of one task. -/
def checkOnce : Json :=
  .record [("StartAt", .string "Check"), ("States", .record [("Check",
    .record [("Type", .string "Task"), ("Resource", .string "check"), ("End", .bool true)])])]

/-- A Map over a graph of one task. -/
def checkEach : Json :=
  .record [("Comment", .string "one check for each item"), ("StartAt", .string "Each"), ("States", .record [("Each",
    .record [("Type", .string "Map"), ("ItemsPath", .string "$.items"), ("Iterator", checkOnce),
      ("End", .bool true)])])]

theorem canonical_checkOnce : checkOnce.Canonical := by
  have htask : (Json.record [("Type", .string "Task"), ("Resource", .string "check"), ("End", .bool true)]).Canonical :=
    Json.canonical_record (by simp [Json.Canonical.string, Json.Canonical.bool])
  exact Json.canonical_record (by simp [Json.Canonical.string, Json.canonical_record, htask])

theorem canonical_checkEach : checkEach.Canonical := by
  have hmap : (Json.record [("Type", .string "Map"), ("ItemsPath", .string "$.items"), ("Iterator", checkOnce),
      ("End", .bool true)]).Canonical :=
    Json.canonical_record (by simp [Json.Canonical.string, Json.Canonical.bool, canonical_checkOnce])
  exact Json.canonical_record (by simp [Json.Canonical.string, Json.canonical_record, hmap])

theorem ofJson_checkEach :
    checkEach.Canonical ∧ ∃ document, Document.ofJson checkEach = .ok document ∧ checkEach.IsGraph ∧
      document.Mirrors checkEach := by
  obtain ⟨haccepted, hmirrors⟩ := Document.ofJson_ok_iff_isGraph checkEach canonical_checkEach
  have hread : (Document.ofJson checkEach).map (fun document => document.graph.startAt) = .ok "Each" := by cbv
  obtain ⟨document, hd, -⟩ := ok_of_map hread
  exact ⟨canonical_checkEach, document, hd, (haccepted.1 ⟨document, hd⟩).2, hmirrors document hd⟩

end StateBench

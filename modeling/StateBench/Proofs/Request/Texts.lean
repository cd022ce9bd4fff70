import StateBench.Bench
import StateBench.Proofs.Json.RoundTrip

/-!
# Documents sent as texts

The definition, the input and the outputs of mocks may be sent as their compact texts: nothing changes in the request
that is read and in what comes of it. What is sent for a record is related to it field by field (`Decode.SentFor`), and
decoding gives the same error or requests that are read alike (`Request.decode_alike`); a text is read back as the
document it is sent for (`Json.SentFor.readDocument_eq`).
-/

namespace StateBench

variable {α β : Type}

/-! ## What is sent -/

namespace Json

/-- A document that may be sent as its text: it is no text itself, its numbers are whole and it is not nested too
deeply. -/
structure Sendable (j : Json) : Prop where
  canonical : j.Canonical
  portable : j.Portable nestingBound
  notText (text : String) : j ≠ .string text

/-- For a document is sent itself or its compact text. -/
inductive SentFor : Json → Json → Prop
  | same (j : Json) : SentFor j j
  | text {j : Json} (h : j.Sendable) : SentFor j (.string j.compact)

end Json

namespace Decode

/-- For a record is sent one of the same form and with the same fields, their values related; an array has the fields
in the order in which their names are given. -/
inductive SentFor (names : List String) (R : String → Json → Json → Prop) : Json → Json → Prop
  | same (j : Json) : SentFor names R j j
  | object {fields sent : List (String × Json)}
    (h : List.Forall₂ (fun field sent => field.1 = sent.1 ∧ R field.1 field.2 sent.2) fields sent) :
    SentFor names R (.object fields) (.object sent)
  | array {items sent : List Json}
    (h : ∀ index : Nat, Option.Rel (R (names.getD index "")) items[index]? sent[index]?) :
    SentFor names R (.array items) (.array sent)

/-- For a list is sent one of the same length, its items related. -/
inductive ListSentFor (R : Json → Json → Prop) : Json → Json → Prop
  | same (j : Json) : ListSentFor R j j
  | array {items sent : List Json} (h : List.Forall₂ R items sent) : ListSentFor R (.array items) (.array sent)

end Decode

/-- Of a mock the output may be sent as a text unless it is null. -/
def MockConfiguration.FieldSentFor (name : String) (value sent : Json) : Prop :=
  match name with
  | "mockOutput" => sent = value ∨ value ≠ .null ∧ value.SentFor sent
  | _ => sent = value

def MockConfiguration.SentFor : Json → Json → Prop :=
  Decode.SentFor ["stateName", "mockOutput", "mockError"] FieldSentFor

/-- Of a request the definition and the input may be sent as texts, and the outputs of mocks. -/
def Request.FieldSentFor (name : String) (value sent : Json) : Prop :=
  match name with
  | "definition" => value.SentFor sent
  | "input" => value.SentFor sent
  | "mockConfigurations" => Decode.ListSentFor MockConfiguration.SentFor value sent
  | _ => sent = value

/-- What is sent for a request: in place of any of its documents its text. -/
def Request.SentFor : Json → Json → Prop :=
  Decode.SentFor ["definition", "input", "stateName", "mockConfigurations", "mode"] FieldSentFor

/-! ## Reading what is sent -/

theorem Json.SentFor.readDocument_eq {j sent : Json} (h : j.SentFor sent) :
    Request.readDocument sent = Request.readDocument j := by
  cases h with
  | same => rfl
  | text h =>
    show Json.read j.compact = _
    rw [read_compact h.canonical h.portable, Request.readDocument]
    intro text he
    exact h.notText text he

theorem Fields.rel_find? {R : String → Json → Json → Prop} {fields sent : List (String × Json)}
    (h : List.Forall₂ (fun field sent => field.1 = sent.1 ∧ R field.1 field.2 sent.2) fields sent) (key : String) :
    Option.Rel (R key) (find? key fields) (find? key sent) := by
  induction h with
  | nil => exact .none
  | cons hr _ ih =>
    obtain ⟨hk, hr⟩ := hr
    rw [find?, find?, ← hk]
    split
    · next he => exact .some (he ▸ hr)
    · exact ih

/-- Records are decoded alike if their fields and their items are. -/
theorem Decode.SentFor.record_alike {names : List String} {R : String → Json → Json → Prop} {S : α → α → Prop}
    {j sent : Json} (h : SentFor names R j sent) {shape : Shape} {ofFields : Fields Json → Except DecodeError α}
    {ofItems : List Json → Except DecodeError α} (hrefl : ∀ value, S value value)
    (hfields : ∀ {fields sent}, (∀ key, Option.Rel (R key) (Fields.find? key fields) (Fields.find? key sent)) →
      Alike S (ofFields fields) (ofFields sent))
    (hitems : ∀ {items sent}, (∀ index, Option.Rel (R (names.getD index "")) items[index]? sent[index]?) →
      Alike S (ofItems items) (ofItems sent)) :
    Alike S (record shape ofFields ofItems j) (record shape ofFields ofItems sent) := by
  cases h with
  | same => exact .refl hrefl _
  | object h => exact hfields (Fields.rel_find? h)
  | array h =>
    simp only [record, length_eq_of_rel h]
    refine (hitems h).bind fun hr => ?_
    split
    · exact .error _
    · exact .ok hr

theorem Decode.required_alike {R : α → β → Prop} {x : Option α} {y : Option β} (h : Option.Rel R x y) (name : String) :
    Alike R (required name x) (required name y) := by
  cases h with
  | none => exact .error _
  | some h => exact .ok h

theorem Decode.item_alike {R : Json → Json → Prop} {items sent : List Json} {index : Nat}
    (h : Option.Rel R items[index]? sent[index]?) (shape : Shape) :
    Alike R (item shape items index) (item shape sent index) := by
  unfold item
  generalize items[index]? = x at h
  generalize sent[index]? = y at h
  cases h with
  | none => exact .error _
  | some h => exact .ok h

namespace MockConfiguration

/-- Mocks of which the outputs are read alike. -/
def ReadAlike (mock sent : MockConfiguration) : Prop := Request.readMock sent = Request.readMock mock

theorem givenOutput_of_ne_null {value : Json} (h : value ≠ .null) : givenOutput (some value) = some value := by
  cases value with
  | null => exact absurd rfl h
  | _ => rfl

theorem readAlike_givenOutput {x y : Option Json} (h : Option.Rel (FieldSentFor "mockOutput") x y) (stateName : String)
    (mockError : Option MockError) :
    ReadAlike ⟨stateName, givenOutput x, mockError⟩ ⟨stateName, givenOutput y, mockError⟩ := by
  cases h with
  | none => rfl
  | @some output sent h =>
    obtain rfl | ⟨hnull, hsent⟩ : sent = output ∨ output ≠ .null ∧ output.SentFor sent := h
    · rfl
    · have hread := hsent.readDocument_eq
      cases hsent with
      | same => rfl
      | text _ =>
        have htext : Json.string output.compact ≠ .null := by simp
        simp only [ReadAlike, Request.readMock, givenOutput_of_ne_null hnull, givenOutput_of_ne_null htext, hread]

theorem decode_alike {mock sent : Json} (h : SentFor mock sent) : Alike ReadAlike (decode mock) (decode sent) := by
  refine Decode.SentFor.record_alike h (fun _ => rfl) (fun hf => ?_) fun hi => ?_
  · have hname := eq_of_rel (hf "stateName") id
    have herror := eq_of_rel (hf "mockError") id
    simp only [hname, herror]
    exact .bind_same _ fun mockError => .bind_same _ fun stateName => .bind_same _ fun stateName =>
      .ok (readAlike_givenOutput (hf "mockOutput") _ _)
  · have hname := eq_of_rel (hi 0) id
    have herror := eq_of_rel (hi 2) id
    simp only [Decode.item, hname, herror]
    exact .bind_same _ fun first => .bind_same _ fun stateName => .bind_same _ fun mockError =>
      .ok (readAlike_givenOutput (hi 1) _ _)

theorem readAlike_refl (mocks : List MockConfiguration) : List.Forall₂ ReadAlike mocks mocks :=
  List.forall₂_same.2 fun _ _ => rfl

theorem decodeList_alike {mocks sent : Json} (h : Decode.ListSentFor SentFor mocks sent) :
    Alike (List.Forall₂ ReadAlike) (Decode.list decode mocks) (Decode.list decode sent) := by
  cases h with
  | same => exact .refl readAlike_refl _
  | array h => exact .mapM (fun hm => decode_alike hm) h

end MockConfiguration

namespace Request

/-- Requests of which the documents are read alike. -/
structure ReadAlike (request sent : Request) : Prop where
  stateName : sent.stateName = request.stateName
  mode : sent.mode = request.mode
  definition : readDocument sent.definition = readDocument request.definition
  input : readDocument sent.input = readDocument request.input
  mocks : List.Forall₂ MockConfiguration.ReadAlike request.mocks sent.mocks

theorem ReadAlike.refl (request : Request) : request.ReadAlike request :=
  ⟨rfl, rfl, rfl, rfl, MockConfiguration.readAlike_refl _⟩

theorem readDocument_getD {x y : Option Json} (h : Option.Rel Json.SentFor x y) (default : Json) :
    readDocument (y.getD default) = readDocument (x.getD default) := by
  cases h with
  | none => rfl
  | some h => exact h.readDocument_eq

theorem mocks_alike {x y : Option Json} (h : Option.Rel (Decode.ListSentFor MockConfiguration.SentFor) x y) :
    Alike (fun mocks sent => List.Forall₂ MockConfiguration.ReadAlike (mocks.getD []) (sent.getD []))
      (Decode.optional (Decode.list MockConfiguration.decode) x)
      (Decode.optional (Decode.list MockConfiguration.decode) y) := by
  cases h with
  | none => exact .ok .nil
  | some h => exact (MockConfiguration.decodeList_alike h).map id

theorem decode_alike {raw sent : Json} (h : SentFor raw sent) : Alike ReadAlike (decode raw) (decode sent) := by
  refine Decode.SentFor.record_alike h ReadAlike.refl (fun hf => ?_) fun hi => ?_
  -- the fields are looked at in the order of their keys, the items in that of their declaration
  · have hname := eq_of_rel (hf "stateName") id
    have hmode := eq_of_rel (hf "mode") id
    simp only [hname, hmode]
    refine (mocks_alike (hf "mockConfigurations")).bind fun hmocks => ?_
    refine .bind_same _ fun mode => .bind_same _ fun stateName => ?_
    refine (Decode.required_alike (hf "definition") _).bind fun hdefinition => .bind_same _ fun stateName => ?_
    exact .ok ⟨rfl, rfl, hdefinition.readDocument_eq, readDocument_getD (hf "input") _, hmocks⟩
  · have hname := eq_of_rel (hi 2) id
    have hmode := eq_of_rel (hi 4) id
    refine (Decode.item_alike (hi 0) _).bind fun hdefinition => ?_
    simp only [Decode.item, hname, hmode]
    refine .bind_same _ fun first => .bind_same _ fun stateName => ?_
    refine (mocks_alike (hi 3)).bind fun hmocks => .bind_same _ fun mode => ?_
    exact .ok ⟨rfl, rfl, hdefinition.readDocument_eq, readDocument_getD (hi 1) _, hmocks⟩

theorem readMocks_eq {mocks sent : List MockConfiguration} (h : List.Forall₂ MockConfiguration.ReadAlike mocks sent) :
    sent.mapM readMock = mocks.mapM readMock := by
  induction h with
  | nil => rfl
  | cons hm _ ih =>
    rw [List.mapM_cons, List.mapM_cons, ih, hm]

/-- What is sent for a request is read as that request. -/
theorem ofWire_of_sentFor {raw sent : Json} (h : SentFor raw sent) : ofWire sent = ofWire raw := by
  have hd := decode_alike h
  unfold ofWire
  generalize decode raw = x at hd
  generalize decode sent = y at hd
  cases hd with
  | error e => rfl
  | @ok request other ha =>
    obtain ⟨definition, input, stateName, mocks, mode⟩ := request
    obtain ⟨_, _, _, _, _⟩ := other
    obtain ⟨rfl, rfl, hdefinition, hinput, hmocks⟩ := ha
    simp only [Except.mapError, bind, Except.bind] at *
    rw [hdefinition, hinput, readMocks_eq hmocks]

end Request

theorem Machine.load_of_not_text {j : Json} (h : ∀ text, j ≠ .string text) :
    load j = (Document.ofJson j).mapError .document >>= ofDocument := by
  cases j with
  | string text => exact absurd rfl (h text)
  | _ => rfl

/-- A request with one mock. -/
def Request.ofDocuments (definition input output : Json) : Json :=
  .object [("definition", definition), ("input", input), ("mockConfigurations", .array [
    .object [("mockOutput", output), ("stateName", .string "Check")]]), ("stateName", .string "Check")]

theorem Request.sentFor_ofDocuments {definition input output : Json} (hd : definition.Sendable) (hi : input.Sendable)
    (ho : output.Sendable) (hnull : output ≠ .null) :
    SentFor (ofDocuments definition input output)
      (ofDocuments (.string definition.compact) (.string input.compact) (.string output.compact)) := by
  have hmock : MockConfiguration.SentFor (.object [("mockOutput", output), ("stateName", .string "Check")])
      (.object [("mockOutput", .string output.compact), ("stateName", .string "Check")]) :=
    .object (.cons ⟨rfl, .inr ⟨hnull, .text ho⟩⟩ (.cons ⟨rfl, rfl⟩ .nil))
  exact .object (.cons ⟨rfl, .text hd⟩ (.cons ⟨rfl, .text hi⟩ (.cons ⟨rfl, .array (.cons hmock .nil)⟩
    (.cons ⟨rfl, rfl⟩ .nil))))

/-- A definition of one task. -/
def checkIt : Json :=
  .record [("StartAt", .string "Check"), ("States", .record [("Check",
    .record [("Type", .string "Task"), ("Resource", .string "check"), ("End", .bool true)])])]

theorem sendable_checkIt : checkIt.Sendable :=
  ⟨Json.canonical_record (by simp [Json.canonical_record, Json.Canonical.string, Json.Canonical.bool]),
    Json.portable_record (by simp [Json.portable_record, Json.Portable.string, Json.Portable.bool]),
    fun _ h => nomatch h⟩

/-- A document and its compact text are interchangeable, in requests, whose answers stay the same, and where definitions
are read. -/
theorem interchangeable_compact :
    (∀ raw sent : Json, Request.SentFor raw sent → Request.ofWire sent = Request.ofWire raw ∧
      ∀ (bench : Bench) (now : Nat), bench.respondAt now sent = bench.respondAt now raw) ∧
    ∀ j : Json, j.Sendable → Document.read j.compact = Document.ofJson j ∧
      Machine.load (.string j.compact) = Machine.load j := by
  refine ⟨fun raw sent h => ?_, fun j h => ?_⟩
  · have hwire := Request.ofWire_of_sentFor h
    refine ⟨hwire, fun bench now => ?_⟩
    rw [Bench.respondAt, Bench.respondAt, hwire]
  · have hread : Document.read j.compact = Document.ofJson j := by
      rw [Document.read, Json.read_compact h.canonical h.portable]
      rfl
    refine ⟨hread, ?_⟩
    rw [Machine.load_of_not_text h.notText, ← hread]
    rfl

theorem interchangeable_checkIt :
    let raw := Request.ofDocuments checkIt (.int 150) (.bool true)
    let sent := Request.ofDocuments (.string checkIt.compact) (.string "150") (.string "true")
    Request.SentFor raw sent ∧
      Request.ofWire sent = .ok ⟨checkIt, .int 150, "Check", [.output "Check" (.bool true)], .state⟩ ∧
      (∀ bench : Bench, bench.respondAt 0 sent = bench.respondAt 0 raw) ∧
      checkIt.Sendable ∧ Machine.load (.string checkIt.compact) = Machine.load checkIt := by
  have hinput : (Json.int 150).Sendable := ⟨.number _, .int (by decide) (by decide), fun _ h => nomatch h⟩
  have houtput : (Json.bool true).Sendable := ⟨.bool _, .bool _, fun _ h => nomatch h⟩
  have hsent := Request.sentFor_ofDocuments sendable_checkIt hinput houtput (by simp)
  obtain ⟨hrequests, hdocuments⟩ := interchangeable_compact
  obtain ⟨hwire, hrespond⟩ := hrequests _ _ hsent
  exact ⟨hsent, hwire.trans rfl, fun bench => hrespond bench 0, sendable_checkIt, (hdocuments _ sendable_checkIt).2⟩

end StateBench

import StateBench.Proofs.Json.Canonical
import StateBench.Request

/-!
# Requests as documents

A request that is written as a document and read again is the same request, except that an output of a mock that is null
is read as missing (`Request.decode_toJson`). So a request keeps all its mocks just when none of them has the output
null (`Request.decode_toJson_iff`).
-/

namespace StateBench

theorem MockError.decode_toJson (e : MockError) : decode e.toJson = .ok e := by
  simp only [decode, toJson, Json.record, Decode.record]
  simp [Fields.find?_ofList, Fields.find?]
  rfl

namespace MockConfiguration

/-- The mock without an output if that is null. -/
def withGivenOutput (mock : MockConfiguration) : MockConfiguration :=
  { mock with mockOutput := givenOutput mock.mockOutput }

theorem withGivenOutput_eq_self_iff {mock : MockConfiguration} :
    mock.withGivenOutput = mock ↔ mock.mockOutput ≠ some .null := by
  obtain ⟨name, output, error⟩ := mock
  rcases output with _ | ⟨_ | _⟩ <;> simp [withGivenOutput, givenOutput]

theorem decode_toJson (mock : MockConfiguration) : decode mock.toJson = .ok mock.withGivenOutput := by
  obtain ⟨name, output, error⟩ := mock
  have herror (e : MockError) :
      Decode.optional (Decode.nullable MockError.decode) (some e.toJson) = .ok (some (some e)) := by
    show ((MockError.decode e.toJson).map some).map some = _
    rw [MockError.decode_toJson]
    rfl
  simp only [decode, toJson, Json.record, Decode.record]
  cases output <;> cases error <;> simp [Fields.find?_ofList, Fields.find?, herror] <;> rfl

end MockConfiguration

theorem Mode.decode_name (mode : Mode) : decode (.string mode.name) = .ok mode := by
  cases mode <;> rfl

namespace Request

/-- A request is read back with its mocks one by one. -/
theorem decode_toJson (request : Request) :
    decode request.toJson = .ok { request with mocks := request.mocks.map (·.withGivenOutput) } := by
  have hmocks : Decode.list MockConfiguration.decode (.array (request.mocks.map MockConfiguration.toJson)) =
      .ok (request.mocks.map (·.withGivenOutput)) := by
    refine mapM_ok_iff.2 ?_
    rw [List.forall₂_map_left_iff, List.forall₂_map_right_iff, List.forall₂_same]
    exact fun mock _ => mock.decode_toJson
  simp only [decode, toJson, Json.record, Decode.record]
  simp [Fields.find?_ofList, Fields.find?, Decode.optional, Mode.decode_name, hmocks]
  rfl

/-- A request is read back as it is if and only if no mock has the output null. -/
theorem decode_toJson_iff (request : Request) :
    decode request.toJson = .ok request ↔ ∀ mock ∈ request.mocks, mock.mockOutput ≠ some .null := by
  have hsame : decode request.toJson = .ok request ↔ request.mocks.map (·.withGivenOutput) = request.mocks := by
    rw [decode_toJson, Except.ok.injEq]
    obtain ⟨definition, input, stateName, mocks, mode⟩ := request
    simp
  have hmap : request.mocks.map (·.withGivenOutput) = request.mocks ↔
      ∀ mock ∈ request.mocks, mock.withGivenOutput = mock := by
    simpa using List.map_inj_left (l := request.mocks) (f := (·.withGivenOutput)) (g := id)
  rw [hsame, hmap]
  exact forall₂_congr fun _ _ => MockConfiguration.withGivenOutput_eq_self_iff

/-- A mock of a state by the output null is read back as a mock without any outcome. -/
theorem decode_nullOutput :
    let request := (forState .emptyObject .emptyObject "Check").withMock (.output "Check" .null)
    decode request.toJson ≠ .ok request := by
  simp [decode_toJson, withMock, forState, MockConfiguration.output, MockConfiguration.withGivenOutput,
    MockConfiguration.givenOutput]

end Request

end StateBench

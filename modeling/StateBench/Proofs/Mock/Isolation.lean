import Mathlib
import StateBench.Proofs.Machine.Paths
import StateBench.Proofs.Mock.Registry

/-!
# Mocks and the states that they are for

A binding is kept under the qualified name of its state. In a machine in which no name has a point in it that is the
name of this state only, so the binding is found for no other state (`Machine.isolated_of_dotless`). With points in
names two states can have one qualified name, and then a mock of the one is taken for a mock of the other, too
(`mock_of_other_state`).
-/

namespace StateBench

namespace Machine

variable {definition : Json} {m : Machine}

/-- Where no name has a point in it, a qualified name stands for one state, and a mock is found for its own state only.
-/
theorem isolated_of_dotless (canonical : definition.Canonical) (h : load definition = .ok m)
    (dotless : ∀ path ∈ m.paths, path.Dotless) :
    (m.paths.map StatePath.dotted).Nodup ∧
      (∀ path ∈ m.paths, ∃ g s, m.root.Declares path s ∧ m.find? path.dotted = some s ∧
        m.resolve path.dotted = .ok ⟨path, g, s⟩) ∧
      ∀ bindings registry, MockRegistry.register m bindings = .ok registry → ∀ path ∈ m.paths, ∀ label outcome,
        registry.find? path = some (label, outcome) →
          ⟨label, outcome⟩ ∈ bindings ∧ m.resolvePath label = .ok path := by
  have unique := nodup_dotted canonical h dotless
  refine ⟨unique, fun path hp => resolve_dotted canonical h unique hp, ?_⟩
  intro bindings registry hr path hp label outcome hf
  obtain ⟨hm, found, hfound, hd⟩ := MockRegistry.binding_of_register hr hf
  refine ⟨hm, ?_⟩
  rw [hfound, List.inj_on_of_nodup_map unique (mem_paths_of_resolvePath hfound) hp hd]

end Machine

theorem isolated_of_forked :
    forked.Canonical ∧ ∃ m, Machine.load forked = .ok m ∧ (∀ path ∈ m.paths, path.Dotless) ∧
      (m.paths.map StatePath.dotted).Nodup ∧
      (∀ path ∈ m.paths, ∃ g s, m.root.Declares path s ∧ m.find? path.dotted = some s ∧
        m.resolve path.dotted = .ok ⟨path, g, s⟩) ∧
      ∀ bindings registry, MockRegistry.register m bindings = .ok registry → ∀ path ∈ m.paths, ∀ label outcome,
        registry.find? path = some (label, outcome) →
          ⟨label, outcome⟩ ∈ bindings ∧ m.resolvePath label = .ok path := by
  have hload : (Machine.load forked).map Machine.paths = .ok [["Fork"], ["Fork", "Left"], ["Fork", "Right"]] := by cbv
  obtain ⟨m, hm, hpaths⟩ := ok_of_map hload
  have dotless : ∀ path ∈ m.paths, path.Dotless := by
    rw [hpaths]
    simp [StatePath.Dotless]
  exact ⟨canonical_forked, m, hm, dotless, Machine.isolated_of_dotless canonical_forked hm dotless⟩

/-- A Map with a Task in it, and a Task whose name is the qualified name of that one. -/
def homonyms : Json :=
  let task (resource : String) := Json.record [("Type", .string "Task"), ("Resource", .string resource),
    ("End", .bool true)]
  let map := Json.record [("Type", .string "Map"), ("ItemProcessor", .record [("StartAt", .string "B"),
    ("States", .record [("B", task "inner")])]), ("Next", .string "A.B")]
  .record [("StartAt", .string "A"), ("States", .record [("A", map), ("A.B", task "outer")])]

/-- Two states can have the same qualified name, and then the mock of the one is found for the other. -/
theorem mock_of_other_state :
    ∃ m registry, Machine.load homonyms = .ok m ∧ ["A", "B"] ∈ m.paths ∧ ["A.B"] ∈ m.paths ∧
      StatePath.dotted ["A", "B"] = StatePath.dotted ["A.B"] ∧ m.resolvePath "A.B" = .ok ["A", "B"] ∧
      MockRegistry.register m [⟨"A.B", .output .null⟩] = .ok registry ∧
      registry.find? ["A.B"] = some ("A.B", .output .null) := by
  have hload : (Machine.load homonyms).map (fun m => (m.paths, m.resolvePath "A.B",
      (MockRegistry.register m [⟨"A.B", .output .null⟩]).map (·.find? ["A.B"]))) =
      .ok ([["A"], ["A", "B"], ["A.B"]], .ok ["A", "B"], .ok (some ("A.B", .output .null))) := by cbv
  obtain ⟨m, hm, hall⟩ := ok_of_map hload
  simp only [Prod.mk.injEq] at hall
  obtain ⟨hpaths, hresolve, hregister⟩ := hall
  obtain ⟨registry, hr, hf⟩ := ok_of_map hregister
  exact ⟨m, registry, hm, by simp [hpaths], by simp [hpaths], by simp [StatePath.dotted], hresolve, hr, hf⟩

end StateBench

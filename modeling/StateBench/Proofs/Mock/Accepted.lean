import Mathlib
import StateBench.Proofs.Machine.Index
import StateBench.Proofs.Mock.Registry

/-!
# Which bindings are accepted

A binding fits a machine if its name is resolved to a state that accepts its outcome (`MockBinding.Fits`), and if not,
it is rejected for one of four reasons (`MockBinding.RefusedWith`). Whether it is accepted does not depend on what was
registered before (`MockRegistry.add_ok_iff`, `MockRegistry.add_error_iff`). So bindings are registered if they all fit,
and the first that does not is reported (`MockRegistry.register_error_iff`).

Each accepted binding takes the place of those before it for the same state. Where no name has a point in it, no state
shares its qualified name with another one, and what is found for a state is the last binding with a name that is
resolved to it (`MockRegistry.find?_of_register`), under whatever name that was.
-/

namespace StateBench

/-! ## Outcomes -/

/-- States of a type accept an outcome: a Task, a Map and a Parallel every one, a Fail a failure. -/
def MockOutcome.Suits (outcome : MockOutcome) (type : StateType) : Prop :=
  type ∈ [.task, .map, .parallel] ∨ type = .fail ∧ ∃ error cause, outcome = .failure error cause

namespace MockOutcome

variable {outcome : MockOutcome} {type : StateType}

theorem checkFor_ok_iff : outcome.checkFor type = .ok () ↔ outcome.Suits type := by
  cases type <;> cases outcome <;> simp [checkFor, Suits]

theorem checkFor_error_iff {fault : MockFault} :
    outcome.checkFor type = .error fault ↔
      (type = .fail ∧ ∃ value, outcome = .output value) ∧ fault = .failWithOutput ∨
        type ∈ [.choice, .pass, .wait, .succeed] ∧ fault = .typeWithoutMocks type := by
  cases type <;> cases outcome <;> simp [checkFor, eq_comm]

end MockOutcome

/-! ## Bindings -/

namespace MockBinding

variable {m : Machine} {binding : MockBinding}

/-- The name of the binding is resolved, and to a state that accepts its outcome. -/
def Fits (m : Machine) (binding : MockBinding) : Prop :=
  ∃ target, m.resolve binding.stateName = .ok target ∧ binding.outcome.Suits target.state.type

/-- Why a binding is not accepted. -/
inductive RefusedWith (m : Machine) (binding : MockBinding) : Rejection → Prop
  /-- Its name is neither the qualified name nor the own name of a state. -/
  | unknown (none : ∀ path ∈ m.paths, path.dotted ≠ binding.stateName ∧ path.leaf ≠ binding.stateName) :
      RefusedWith m binding (.invalidMock binding.stateName MockFault.noSuchState.message)
  /-- Its name is no qualified name and the own name of more than one state. -/
  | ambiguous (own : ∀ path ∈ m.paths, path.dotted ≠ binding.stateName)
      (several : 2 ≤ (m.paths.filter (·.leaf = binding.stateName)).length) :
      RefusedWith m binding (.ambiguousName binding.stateName
        ((m.paths.filter (·.leaf = binding.stateName)).map StatePath.dotted))
  /-- It has an output for a Fail state. -/
  | output {target : Target} {value : Json} (resolved : m.resolve binding.stateName = .ok target)
      (type : target.state.type = .fail) (outcome : binding.outcome = .output value) :
      RefusedWith m binding (.invalidMock binding.stateName MockFault.failWithOutput.message)
  /-- It is for a state of a type that accepts no mocks. -/
  | type {target : Target} (resolved : m.resolve binding.stateName = .ok target)
      (type : target.state.type ∈ [.choice, .pass, .wait, .succeed]) :
      RefusedWith m binding (.invalidMock binding.stateName (MockFault.typeWithoutMocks target.state.type).message)

end MockBinding

namespace MockRegistry

variable {m : Machine} {binding : MockBinding} {bindings : List MockBinding}

/-- A binding whose name is resolved is put under the path of its state, if the outcome is accepted there. -/
theorem add_of_resolve {target : Target} (registry : MockRegistry) (h : m.resolve binding.stateName = .ok target) :
    add m registry binding =
      ((binding.outcome.checkFor target.state.type).mapError fun fault =>
        .invalidMock binding.stateName fault.message).map fun _ => registry.put target.path binding := by
  have hr : resolve m binding.stateName = .ok target := by
    rw [resolve, h]
    rfl
  simp only [add, hr, bind, Except.bind]
  cases binding.outcome.checkFor target.state.type <;> rfl

/-- A binding is accepted if it fits, whatever was registered before. -/
theorem add_ok_iff (registry : MockRegistry) : (∃ next, add m registry binding = .ok next) ↔ binding.Fits m := by
  constructor
  · rintro ⟨next, h⟩
    unfold add at h
    obtain ⟨target, ht, h⟩ := ok_of_bind h
    obtain ⟨_, hc, -⟩ := ok_of_bind h
    exact ⟨target, ok_of_mapError ht, MockOutcome.checkFor_ok_iff.1 (ok_of_mapError hc)⟩
  · rintro ⟨target, ht, hc⟩
    rw [add_of_resolve _ ht, MockOutcome.checkFor_ok_iff.2 hc]
    exact ⟨_, rfl⟩

section

variable (located : ∀ path ∈ m.paths, (Graph.locate? path m.root).isSome) {rejection : Rejection}
include located

theorem refusedWith_of_add {registry : MockRegistry} (h : add m registry binding = .error rejection) :
    binding.RefusedWith m rejection := by
  cases ht : m.resolve binding.stateName with
  | error reason =>
    unfold add resolve at h
    rw [ht] at h
    rw [Machine.resolve_error_iff located, Machine.resolvePath_error_iff] at ht
    obtain ⟨own, ⟨leaf, rfl⟩ | ⟨several, rfl⟩⟩ := ht
    · cases h
      exact .unknown fun path hp => ⟨own path hp, leaf path hp⟩
    · cases h
      exact .ambiguous own several
  | ok target =>
    rw [add_of_resolve _ ht] at h
    cases hc : binding.outcome.checkFor target.state.type with
    | ok _ =>
      rw [hc] at h
      cases h
    | error fault =>
      rw [hc] at h
      cases h
      obtain ⟨⟨hfail, value, hv⟩, rfl⟩ | ⟨htype, rfl⟩ := MockOutcome.checkFor_error_iff.1 hc
      · exact .output ht hfail hv
      · exact .type ht htype

theorem add_of_refusedWith (h : binding.RefusedWith m rejection) (registry : MockRegistry) :
    add m registry binding = .error rejection := by
  cases h with
  | unknown none =>
    have ht : m.resolve binding.stateName = .error (.stateNotFound binding.stateName) :=
      (Machine.resolve_error_iff located).2 (Machine.resolvePath_notFound_iff.2 ⟨rfl, none⟩)
    unfold add resolve
    rw [ht]
    rfl
  | ambiguous own several =>
    have ht := (Machine.resolve_error_iff located).2 (Machine.resolvePath_error_iff.2 ⟨own, .inr ⟨several, rfl⟩⟩)
    unfold add resolve
    rw [ht]
    rfl
  | output resolved type outcome =>
    rw [add_of_resolve _ resolved, MockOutcome.checkFor_error_iff.2 (.inl ⟨⟨type, _, outcome⟩, rfl⟩)]
    rfl
  | type resolved type =>
    rw [add_of_resolve _ resolved, MockOutcome.checkFor_error_iff.2 (.inr ⟨type, rfl⟩)]
    rfl

/-- A binding is rejected for one of the reasons, and only then. -/
theorem add_error_iff (registry : MockRegistry) :
    add m registry binding = .error rejection ↔ binding.RefusedWith m rejection :=
  ⟨refusedWith_of_add located, fun h => add_of_refusedWith located h registry⟩

/-- The first binding that does not fit is reported, with the reason why. -/
theorem register_error_iff :
    register m bindings = .error rejection ↔
      ∃ before binding after, bindings = before ++ binding :: after ∧ (∀ other ∈ before, other.Fits m) ∧
        binding.RefusedWith m rejection := by
  suffices hs : ∀ start, bindings.foldlM (add m) start = .error rejection ↔
      ∃ before binding after, bindings = before ++ binding :: after ∧ (∀ other ∈ before, other.Fits m) ∧
        binding.RefusedWith m rejection from hs empty
  induction bindings with
  | nil =>
    intro start
    exact ⟨fun h => (nomatch h), fun ⟨before, binding, after, he, _⟩ => by simp at he⟩
  | cons first rest ih =>
    intro start
    rw [List.foldlM_cons, exists_first_cons, ← add_ok_iff start, ← add_error_iff located start]
    cases ha : add m start first with
    | error reason => simp [bind, Except.bind]
    | ok next => simpa [bind, Except.bind] using ih next

end

/-- The bindings are registered if all of them fit. -/
theorem register_ok_iff : (∃ registry, register m bindings = .ok registry) ↔ ∀ binding ∈ bindings, binding.Fits m := by
  suffices hs : ∀ start, (∃ registry, bindings.foldlM (add m) start = .ok registry) ↔
      ∀ binding ∈ bindings, binding.Fits m from hs empty
  induction bindings with
  | nil =>
    intro start
    exact ⟨fun _ _ hb => (nomatch hb), fun _ => ⟨start, rfl⟩⟩
  | cons first rest ih =>
    intro start
    rw [List.foldlM_cons, List.forall_mem_cons, ← add_ok_iff start]
    cases ha : add m start first with
    | error reason => simp [bind, Except.bind]
    | ok next => simpa [bind, Except.bind] using ih next

end MockRegistry

/-! ## What is found -/

/-- The last of the bindings with a name for a path. -/
def Machine.lastFor (m : Machine) (path : StatePath) (bindings : List MockBinding) : Option MockBinding :=
  (bindings.filter fun binding => m.names path binding.stateName).getLast?

theorem Machine.lastFor_cons (m : Machine) (path : StatePath) (binding : MockBinding) (bindings : List MockBinding) :
    m.lastFor path (binding :: bindings) =
      if m.names path binding.stateName then some ((m.lastFor path bindings).getD binding)
      else m.lastFor path bindings := by
  unfold lastFor
  rw [List.filter_cons]
  split
  · exact List.getLast?_cons
  · rfl

/-- Where no two states have the same qualified name, a state has the mock of the last binding for it. -/
theorem MockRegistry.find?_of_register {m : Machine} {bindings : List MockBinding} {registry : MockRegistry}
    (unique : (m.paths.map StatePath.dotted).Nodup) (h : register m bindings = .ok registry) {path : StatePath}
    (hp : path ∈ m.paths) :
    registry.find? path = (m.lastFor path bindings).map fun binding => (binding.stateName, binding.outcome) := by
  suffices hs : ∀ start, bindings.foldlM (add m) start = .ok registry →
      registry.find? path =
        ((m.lastFor path bindings).map fun binding => (binding.stateName, binding.outcome)).or (start.find? path) by
    rw [hs empty h]
    exact Option.or_none
  clear h
  induction bindings with
  | nil =>
    rintro start ⟨⟩
    rfl
  | cons binding bindings ih =>
    intro start h
    rw [List.foldlM_cons] at h
    obtain ⟨next, ha, h⟩ := ok_of_bind h
    obtain ⟨found, hfound, hadd⟩ := add_ok ha
    obtain rfl := Except.ok.inj (ha.symm.trans (hadd start))
    rw [ih _ h, find?_put, Machine.lastFor_cons]
    by_cases hn : m.names path binding.stateName
    · -- The binding is for the state, and the one that is found if there is no later one.
      obtain rfl : found = path := Except.ok.inj (hfound.symm.trans (Machine.names_iff.1 hn))
      rw [if_pos rfl, if_pos hn]
      cases m.lastFor found bindings <;> rfl
    · have hne : path.dotted ≠ found.dotted := fun hd =>
        hn (Machine.names_iff.2 (by
          rw [hfound, List.inj_on_of_nodup_map unique (Machine.mem_paths_of_resolvePath hfound) hp hd.symm]))
      rw [if_neg hne, if_neg hn]

/-- Where no name has a point in it, a name is resolved to the state that it stands for. The bindings are registered if
all of them fit, and otherwise the first that does not is reported; each state then has the mock of the last binding
with a name that is resolved to it. -/
theorem Machine.registered_of_dotless {definition : Json} {m : Machine} (canonical : definition.Canonical)
    (h : load definition = .ok m) (dotless : ∀ path ∈ m.paths, path.Dotless) (bindings : List MockBinding) :
    (∀ name path, m.names path name ↔ m.StandsFor name path) ∧
      (∀ name target, m.resolve name = .ok target ↔
        m.StandsFor name target.path ∧ Graph.locate? target.path m.root = some (target.graph, target.state)) ∧
      ((∃ registry, MockRegistry.register m bindings = .ok registry) ↔ ∀ binding ∈ bindings, binding.Fits m) ∧
      (∀ rejection, MockRegistry.register m bindings = .error rejection ↔
        ∃ before binding after, bindings = before ++ binding :: after ∧ (∀ other ∈ before, other.Fits m) ∧
          binding.RefusedWith m rejection) ∧
      ∀ registry, MockRegistry.register m bindings = .ok registry → ∀ path ∈ m.paths,
        registry.find? path = (m.lastFor path bindings).map fun binding => (binding.stateName, binding.outcome) := by
  have unique := nodup_dotted canonical h dotless
  have stands (name : String) (path : StatePath) : m.resolvePath name = .ok path ↔ m.StandsFor name path :=
    resolvePath_ok_iff unique
  exact ⟨fun name path => names_iff.trans (stands name path),
    fun name target => by rw [resolve_ok_iff, stands], MockRegistry.register_ok_iff,
    fun rejection => MockRegistry.register_error_iff (isSome_locate?_of_mem_paths canonical h),
    fun registry hr path hp => MockRegistry.find?_of_register unique hr hp⟩

/-- Two bindings for one task, under its qualified name and under its own. -/
def checkTwoNames : List MockBinding :=
  [⟨"Each.Check", .output .null⟩, ⟨"Check", .failure "Down" "no answer"⟩]

theorem registered_of_checkEach :
    checkEach.Canonical ∧ ∃ m registry, Machine.load checkEach = .ok m ∧ (∀ path ∈ m.paths, path.Dotless) ∧
      m.lastFor ["Each", "Check"] checkTwoNames = some ⟨"Check", .failure "Down" "no answer"⟩ ∧
      MockRegistry.register m checkTwoNames = .ok registry ∧ (∀ binding ∈ checkTwoNames, binding.Fits m) ∧
      registry.find? ["Each", "Check"] = some ("Check", .failure "Down" "no answer") := by
  have hload : (Machine.load checkEach).map (fun m => (m.paths, m.lastFor ["Each", "Check"] checkTwoNames,
      (MockRegistry.register m checkTwoNames).map fun _ => ())) =
      .ok ([["Each"], ["Each", "Check"]], some ⟨"Check", .failure "Down" "no answer"⟩, .ok ()) := by cbv
  obtain ⟨m, hm, hall⟩ := ok_of_map hload
  simp only [Prod.mk.injEq] at hall
  obtain ⟨hpaths, hlast, hregister⟩ := hall
  obtain ⟨registry, hr, -⟩ := ok_of_map hregister
  have dotless : ∀ path ∈ m.paths, path.Dotless := by
    rw [hpaths]
    simp [StatePath.Dotless]
  obtain ⟨-, -, accepted, -, found⟩ := Machine.registered_of_dotless canonical_checkEach hm dotless checkTwoNames
  refine ⟨canonical_checkEach, m, registry, hm, dotless, hlast, hr, accepted.1 ⟨registry, hr⟩, ?_⟩
  rw [found registry hr _ (hpaths ▸ by simp), hlast]
  rfl

end StateBench

import StateBench.Proofs.Machine.Locations
import StateBench.Proofs.Mock.Registry

/-!
# Keeping some of the mocks

A request whose mocks are accepted can be made with some of them only, those with names that are kept
(`Request.keepMocks`): it is accepted as well (`Bench.prepare_keepMocks`). A state has the mock then that it had, unless
the name of that is not kept (`MockRegistry.Keeps`): other mocks for the state, which a later one has replaced, do not
come back.

The record of applied mocks lists the names under which the mocks were given that were found (`MockRegistry.mem_names`,
`MockRegistry.mem_inMap`).
-/

namespace StateBench

variable {m : Machine} {keep : String → Bool}

/-! ## Registries -/

namespace MockRegistry

/-- Under each path there is the same mock in both registries, or in the first there is one with a name that is not
kept. -/
def Keeps (registry other : MockRegistry) (keep : String → Bool) : Prop :=
  ∀ place, other.find? place = registry.find? place ∨
    ∃ label outcome, registry.find? place = some (label, outcome) ∧ keep label = false

theorem Keeps.put {registry other : MockRegistry} (h : registry.Keeps other keep) (path : StatePath)
    (binding : MockBinding) : (registry.put path binding).Keeps (other.put path binding) keep := by
  intro place
  rw [find?_put, find?_put]
  split
  · exact .inl rfl
  · exact h place

/-- A mock with a name that is not kept can be left out. -/
theorem Keeps.leaveOut {registry other : MockRegistry} (h : registry.Keeps other keep) (path : StatePath)
    {binding : MockBinding} (hk : keep binding.stateName = false) : (registry.put path binding).Keeps other keep := by
  intro place
  rw [find?_put]
  split
  · exact .inr ⟨_, _, rfl, hk⟩
  · exact h place

/-- Of bindings that are accepted those with names that are kept are accepted as well. -/
theorem keeps_of_register {bindings : List MockBinding} {registry : MockRegistry}
    (h : register m bindings = .ok registry) (keep : String → Bool) :
    ∃ other, register m (bindings.filter fun binding => keep binding.stateName) = .ok other ∧
      registry.Keeps other keep := by
  suffices hs : ∀ start other : MockRegistry, start.Keeps other keep → bindings.foldlM (add m) start = .ok registry →
      ∃ last, (bindings.filter fun binding => keep binding.stateName).foldlM (add m) other = .ok last ∧
        registry.Keeps last keep from
    hs empty empty (fun _ => .inl rfl) h
  clear h
  induction bindings with
  | nil =>
    intro start other hk h
    cases h
    exact ⟨other, rfl, hk⟩
  | cons binding bindings ih =>
    intro start other hk h
    rw [List.foldlM_cons] at h
    obtain ⟨next, ha, h⟩ := ok_of_bind h
    obtain ⟨found, hp, hadd⟩ := add_ok ha
    obtain rfl := Except.ok.inj (ha.symm.trans (hadd start))
    cases hb : keep binding.stateName with
    | false =>
      rw [List.filter_cons_of_neg (by simp [hb])]
      exact ih _ _ (hk.leaveOut found hb) h
    | true =>
      rw [List.filter_cons_of_pos (by simpa using hb), List.foldlM_cons, hadd other]
      exact ih _ _ (hk.put found binding) h

end MockRegistry

/-! ## Requests -/

/-- The request with only those of its mocks whose names are listed. -/
def Request.keepMocks (names : List String) (request : Request) : Request :=
  { request with mocks := request.mocks.filter fun mock => names.contains mock.stateName }

/-- A request with some of its mocks is accepted if it is with all of them, and asks for the same job but for the mocks.
-/
theorem Bench.prepare_keepMocks {request : Request} {job : Job} (h : prepare request = .ok job) (names : List String) :
    ∃ registry, prepare (request.keepMocks names) = .ok { job with mocks := registry } ∧
      job.mocks.Keeps registry names.contains := by
  unfold prepare jobFor at h
  obtain ⟨machine, hm, h⟩ := ok_of_bind h
  obtain ⟨target, ht, h⟩ := ok_of_bind h
  obtain ⟨bindings, hb, h⟩ := ok_of_bind h
  obtain ⟨mocks, hr, h⟩ := ok_of_bind h
  cases h
  obtain ⟨registry, hr', keeps⟩ := MockRegistry.keeps_of_register hr names.contains
  have hbindings : (request.keepMocks names).bindings =
      .ok (bindings.filter fun binding => names.contains binding.stateName) := Request.bindings_filter hb names.contains
  refine ⟨registry, ?_, keeps⟩
  have hm' : Machine.load (request.keepMocks names).definition = .ok machine := ok_of_mapError hm
  have ht' : machine.resolve (request.keepMocks names).stateName = .ok target := ht
  unfold prepare
  rw [hm']
  show jobFor machine (request.keepMocks names) = _
  unfold jobFor
  rw [ht', hbindings]
  show (MockRegistry.register machine _ >>= _) = _
  rw [hr']
  rfl

/-! ## Records of applied mocks -/

namespace AppliedMocks

theorem mem_addName {names : List String} {name other : String} :
    other ∈ addName names name ↔ other ∈ names ∨ other = name := by
  unfold addName
  by_cases hn : name ∈ names
  · rw [if_pos (by simpa using hn)]
    constructor
    · exact .inl
    · rintro (ho | rfl)
      · exact ho
      · exact hn
  · rw [if_neg (by simpa using hn), List.mem_append, List.mem_singleton]

/-- The names of mocks that are on record are those of the uses. -/
theorem mem_names {uses : List MockUse} {name : String} :
    name ∈ (ofUses uses).names ↔ ∃ use ∈ uses, use.name = name := by
  suffices hs : ∀ applied : AppliedMocks, name ∈ (uses.foldl record applied).names ↔
      name ∈ applied.names ∨ ∃ use ∈ uses, use.name = name by
    rw [ofUses, hs]
    simp [empty]
  induction uses with
  | nil => simp
  | cons use uses ih =>
    intro applied
    rw [List.foldl_cons, ih, record, mem_addName, or_assoc, eq_comm (a := name)]
    simp only [List.mem_cons, exists_eq_or_imp]

/-- The names of mocks that are on record for Maps are those of the uses inside Maps. -/
theorem mem_inMap {uses : List MockUse} {name : String} :
    name ∈ (ofUses uses).inMap ↔ ∃ use ∈ uses, use.name = name ∧ use.inMap = true := by
  suffices hs : ∀ applied : AppliedMocks, name ∈ (uses.foldl record applied).inMap ↔
      name ∈ applied.inMap ∨ ∃ use ∈ uses, use.name = name ∧ use.inMap = true by
    rw [ofUses, hs]
    simp [empty]
  induction uses with
  | nil => simp
  | cons use uses ih =>
    intro applied
    rw [List.foldl_cons, ih]
    simp only [List.mem_cons, exists_eq_or_imp, record]
    cases use.inMap with
    | false => simp
    | true => simp [mem_addName, or_assoc, eq_comm (a := name)]

end AppliedMocks

/-- What is found in a lookup is a mock that was given under the name. -/
def MockRegistry.Found (registry : MockRegistry) (label : String) (sought : MockLookup) : Prop :=
  ∃ outcome, registry.find? sought.path = some (label, outcome)

theorem MockRegistry.mem_uses {registry : MockRegistry} {lookups : List MockLookup} {use : MockUse} :
    use ∈ registry.uses lookups ↔
      ∃ sought ∈ lookups, registry.Found use.name sought ∧ use.inMap = sought.inMap := by
  unfold uses Found
  rw [List.mem_filterMap]
  constructor
  · rintro ⟨sought, hs, hf⟩
    obtain ⟨entry, he, rfl⟩ := Option.map_eq_some_iff.1 hf
    exact ⟨sought, hs, ⟨entry.2, he⟩, rfl⟩
  · rintro ⟨sought, hs, ⟨outcome, hf⟩, hi⟩
    refine ⟨sought, hs, ?_⟩
    rw [hf]
    cases use
    cases hi
    rfl

namespace MockRegistry

variable {registry : MockRegistry} {lookups : List MockLookup} {label : String}

/-- The record lists the names of the mocks that were found. -/
theorem mem_names : label ∈ (AppliedMocks.ofUses (registry.uses lookups)).names ↔
    ∃ sought ∈ lookups, registry.Found label sought := by
  rw [AppliedMocks.mem_names]
  constructor
  · rintro ⟨use, hu, rfl⟩
    obtain ⟨sought, hs, hf, -⟩ := mem_uses.1 hu
    exact ⟨sought, hs, hf⟩
  · rintro ⟨sought, hs, hf⟩
    exact ⟨⟨label, sought.inMap⟩, mem_uses.2 ⟨sought, hs, hf, rfl⟩, rfl⟩

/-- The record for Maps lists the names of those that were found in Maps. -/
theorem mem_inMap : label ∈ (AppliedMocks.ofUses (registry.uses lookups)).inMap ↔
    ∃ sought ∈ lookups, registry.Found label sought ∧ sought.inMap = true := by
  rw [AppliedMocks.mem_inMap]
  constructor
  · rintro ⟨use, hu, rfl, hi⟩
    obtain ⟨sought, hs, hf, hm⟩ := mem_uses.1 hu
    exact ⟨sought, hs, hf, hm ▸ hi⟩
  · rintro ⟨sought, hs, hf, hi⟩
    exact ⟨⟨label, sought.inMap⟩, mem_uses.2 ⟨sought, hs, hf, rfl⟩, rfl, hi⟩

end MockRegistry

end StateBench

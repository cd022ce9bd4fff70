import StateBench.Proofs.Machine.Locations

/-!
# What a registry holds

Registering goes through the bindings one by one, and each is put under the qualified name of the state that its own
name stands for (`MockRegistry.add_ok`). So the name that is reported for a mock stands for a path with the qualified
name under which the mock was found (`MockRegistry.binding_of_register`).

Leaving out the bindings of one state (`Request.unmock`) leaves all others as they were, if no other state has the same
qualified name (`MockRegistry.find?_unmock`), and from a record of applied mocks it takes one name
(`AppliedMocks.ofUses_without`).
-/

namespace StateBench

variable {m : Machine} {path other : StatePath} {label : String} {outcome : MockOutcome}

/-! ## Registering -/

namespace MockRegistry

variable {registry next : MockRegistry} {binding : MockBinding} {bindings : List MockBinding}

/-- The registry with the binding for the state at a path. -/
def put (registry : MockRegistry) (path : StatePath) (binding : MockBinding) : MockRegistry :=
  ⟨Fields.insert path.dotted (binding.stateName, binding.outcome) registry.bindings⟩

theorem find?_put (registry : MockRegistry) (path place : StatePath) (binding : MockBinding) :
    (registry.put path binding).find? place =
      if place.dotted = path.dotted then some (binding.stateName, binding.outcome) else registry.find? place := by
  by_cases hd : place.dotted = path.dotted
  · rw [if_pos hd, find?, hd]
    exact Fields.find?_insert_self ..
  · rw [if_neg hd]
    exact Fields.find?_insert_of_ne hd ..

/-- A binding that is accepted is put under the path that its name stands for, whatever was accepted before. -/
theorem add_ok (h : add m registry binding = .ok next) :
    ∃ path, m.resolvePath binding.stateName = .ok path ∧
      ∀ other, add m other binding = .ok (other.put path binding) := by
  unfold add at h
  obtain ⟨target, ht, h⟩ := ok_of_bind h
  obtain ⟨_, hc, -⟩ := ok_of_bind h
  refine ⟨target.path, Machine.resolvePath_of_resolve (ok_of_mapError ht), fun other => ?_⟩
  simp only [add, ht, hc, bind, Except.bind]
  rfl

/-- What is found under a path comes from a binding whose name stands for a path with the same qualified name. -/
theorem binding_of_register (h : register m bindings = .ok registry)
    (hf : registry.find? path = some (label, outcome)) :
    ⟨label, outcome⟩ ∈ bindings ∧ ∃ found, m.resolvePath label = .ok found ∧ found.dotted = path.dotted := by
  suffices hs : ∀ start, bindings.foldlM (add m) start = .ok registry →
      (⟨label, outcome⟩ ∈ bindings ∧ ∃ found, m.resolvePath label = .ok found ∧ found.dotted = path.dotted) ∨
        start.find? path = some (label, outcome) from
    (hs empty h).resolve_right fun he => nomatch he
  clear h
  induction bindings with
  | nil =>
    intro start h
    cases h
    exact .inr hf
  | cons binding bindings ih =>
    intro start h
    rw [List.foldlM_cons] at h
    obtain ⟨next, ha, h⟩ := ok_of_bind h
    obtain ⟨found, hp, hadd⟩ := add_ok ha
    obtain rfl := Except.ok.inj (ha.symm.trans (hadd start))
    rcases ih _ h with ⟨hm, hlater⟩ | hput
    · exact .inl ⟨List.mem_cons_of_mem _ hm, hlater⟩
    · rw [find?_put] at hput
      by_cases hd : path.dotted = found.dotted
      · rw [if_pos hd] at hput
        cases hput
        exact .inl ⟨List.mem_cons_self, found, hp, hd.symm⟩
      · rw [if_neg hd] at hput
        exact .inr hput

end MockRegistry

/-! ## Leaving out the bindings of a state -/

/-- Whether a name stands for a path. -/
def Machine.names (m : Machine) (path : StatePath) (name : String) : Bool :=
  (m.resolvePath name).toOption = some path

/-- The request without its mocks for the state at a path. -/
def Request.unmock (m : Machine) (path : StatePath) (request : Request) : Request :=
  { request with mocks := request.mocks.filter fun mock => !m.names path mock.stateName }

theorem Machine.names_iff {name : String} : m.names path name ↔ m.resolvePath name = .ok path := by
  unfold names
  cases m.resolvePath name with
  | error rejection => simp [Except.toOption]
  | ok found => simp [Except.toOption]

theorem MockConfiguration.stateName_of_toBinding {mock : MockConfiguration} {binding : MockBinding}
    (h : mock.toBinding = .ok binding) : binding.stateName = mock.stateName := by
  unfold toBinding at h
  split at h <;> cases h <;> rfl

/-- A request in which only mocks with some names are left has the bindings with these names. -/
theorem Request.bindings_filter {request : Request} {bindings : List MockBinding}
    (h : request.bindings = .ok bindings) (keep : String → Bool) :
    (request.mocks.filter fun mock => keep mock.stateName).mapM MockConfiguration.toBinding =
      .ok (bindings.filter fun binding => keep binding.stateName) := by
  refine mapM_ok_iff.2 (List.rel_filter (fun mock binding hb => ?_) (mapM_ok_iff.1 h))
  simp only [MockConfiguration.stateName_of_toBinding hb]

/-- A request without the mocks of a state has the other bindings. -/
theorem Request.bindings_unmock {request : Request} {bindings : List MockBinding}
    (h : request.bindings = .ok bindings) (m : Machine) (path : StatePath) :
    (request.unmock m path).bindings = .ok (bindings.filter fun binding => !m.names path binding.stateName) :=
  bindings_filter h fun name => !m.names path name

namespace MockRegistry

/-- One registry has what another one has, but for the state at a path. -/
def Lacks (registry other : MockRegistry) (path : StatePath) : Prop :=
  ∀ place : StatePath, other.find? place = if place.dotted = path.dotted then none else registry.find? place

/-- Without the bindings of a state the registry has all that it had, but for this state. -/
theorem lacks_of_register {bindings : List MockBinding} {registry : MockRegistry}
    (unique : (m.paths.map StatePath.dotted).Nodup) (hpath : path ∈ m.paths)
    (h : register m bindings = .ok registry) :
    ∃ other, register m (bindings.filter fun binding => !m.names path binding.stateName) = .ok other ∧
      registry.Lacks other path := by
  suffices hs : ∀ start other, Lacks start other path → bindings.foldlM (add m) start = .ok registry →
      ∃ last, (bindings.filter fun binding => !m.names path binding.stateName).foldlM (add m) other = .ok last ∧
        registry.Lacks last path from
    hs empty empty (fun place => by split <;> rfl) h
  clear h
  induction bindings with
  | nil =>
    intro start other hl h
    cases h
    exact ⟨other, rfl, hl⟩
  | cons binding bindings ih =>
    intro start other hl h
    rw [List.foldlM_cons] at h
    obtain ⟨next, ha, h⟩ := ok_of_bind h
    obtain ⟨found, hp, hadd⟩ := add_ok ha
    obtain rfl := Except.ok.inj (ha.symm.trans (hadd start))
    by_cases hk : m.names path binding.stateName
    · -- A binding of the state itself changes nothing elsewhere.
      obtain rfl : found = path := Except.ok.inj (hp.symm.trans (Machine.names_iff.1 hk))
      rw [List.filter_cons_of_neg (by simp [hk])]
      refine ih _ other (fun place => ?_) h
      rw [hl place, find?_put]
      split <;> rfl
    · rw [List.filter_cons_of_pos (by simp [hk]), List.foldlM_cons]
      have hne : found.dotted ≠ path.dotted := fun hd =>
        hk (Machine.names_iff.2 (by
          rw [hp, List.inj_on_of_nodup_map unique (Machine.mem_paths_of_resolvePath hp) hpath hd]))
      have hput : Lacks (start.put found binding) (other.put found binding) path := by
        intro place
        rw [find?_put, find?_put, hl place]
        by_cases hd : place.dotted = found.dotted
        · rw [if_pos hd, if_pos hd, if_neg (hd ▸ hne)]
        · rw [if_neg hd, if_neg hd]
      rw [hadd other]
      exact ih _ _ hput h

end MockRegistry

/-! ## Records of applied mocks -/

/-- The record without a name. -/
def AppliedMocks.without (applied : AppliedMocks) (name : String) : AppliedMocks :=
  ⟨applied.names.filter (· ≠ name), applied.inMap.filter (· ≠ name)⟩

/-- The report with a name left out of the mocks that were applied. -/
def Report.without (report : Report) (name : String) : Report :=
  match report with
  | .success result inspected applied => .success result inspected (applied.without name)
  | .failure cause appliedNames => .failure cause (appliedNames.filter (· ≠ name))

theorem Report.without_ofResult (result : Except Failure WalkResult) (inspected : String) (applied : AppliedMocks)
    (name : String) :
    (ofResult result inspected applied).without name = ofResult result inspected (applied.without name) := by
  cases result <;> rfl

namespace AppliedMocks

theorem filter_addName_self (names : List String) (name : String) :
    (addName names name).filter (· ≠ name) = names.filter (· ≠ name) := by
  unfold addName
  split <;> simp

theorem filter_addName_of_ne {name other : String} (h : other ≠ name) (names : List String) :
    (addName names other).filter (· ≠ name) = addName (names.filter (· ≠ name)) other := by
  unfold addName
  by_cases hc : other ∈ names
  · simp [hc, h]
  · simp [hc, h]

theorem without_record_self (applied : AppliedMocks) (use : MockUse) :
    (applied.record use).without use.name = applied.without use.name := by
  unfold record without
  cases use.inMap <;> simp only [filter_addName_self, if_true, Bool.false_eq_true, if_false]

theorem without_record_of_ne {name : String} {use : MockUse} (h : use.name ≠ name) (applied : AppliedMocks) :
    (applied.record use).without name = (applied.without name).record use := by
  unfold record without
  cases use.inMap <;> simp only [filter_addName_of_ne h, if_true, Bool.false_eq_true, if_false]

/-- A name is left out of a record if its uses are. -/
theorem ofUses_without (uses : List MockUse) (name : String) :
    (ofUses uses).without name = ofUses (uses.filter (·.name ≠ name)) := by
  suffices hs : ∀ applied : AppliedMocks, (uses.foldl record applied).without name =
      (uses.filter (·.name ≠ name)).foldl record (applied.without name) from hs empty
  induction uses with
  | nil => exact fun _ => rfl
  | cons use uses ih =>
    intro applied
    rw [List.foldl_cons, ih]
    by_cases hn : use.name = name
    · subst hn
      rw [List.filter_cons_of_neg (by simp), without_record_self]
    · rw [List.filter_cons_of_pos (by simpa using hn), List.foldl_cons, without_record_of_ne hn]

end AppliedMocks

/-- Without the bindings of a state the same uses are reported, but for those of its mock. -/
theorem MockRegistry.uses_of_lacks {bindings : List MockBinding} {registry other : MockRegistry}
    (h : register m bindings = .ok registry) (lacks : registry.Lacks other path)
    (hf : registry.find? path = some (label, outcome)) (lookups : List MockLookup) :
    other.uses lookups = (registry.uses lookups).filter (·.name ≠ label) := by
  obtain ⟨-, own, hown, hdot⟩ := binding_of_register h hf
  have hsame (place : StatePath) (hd : place.dotted = path.dotted) : registry.find? place = some (label, outcome) := by
    rw [← hf, find?, find?, hd]
  induction lookups with
  | nil => rfl
  | cons lookup lookups ih =>
    have huses (registry : MockRegistry) : registry.uses (lookup :: lookups) =
        ((registry.find? lookup.path).map fun entry => ⟨entry.1, lookup.inMap⟩).toList ++ registry.uses lookups := by
      unfold uses
      rw [List.filterMap_cons]
      cases (registry.find? lookup.path) <;> rfl
    rw [huses, huses, List.filter_append, ih, lacks lookup.path]
    refine congrArg (· ++ _) ?_
    by_cases hd : lookup.path.dotted = path.dotted
    · simp [hd, hsame _ hd]
    · rw [if_neg hd]
      cases he : registry.find? lookup.path with
      | none => rfl
      | some entry =>
        obtain ⟨name, mocked⟩ := entry
        have hne : name ≠ label := by
          rintro rfl
          obtain ⟨-, found, hp, hfd⟩ := binding_of_register h he
          obtain rfl : found = own := Except.ok.inj (hp.symm.trans hown)
          exact hd (hfd.symm.trans hdot)
        simp [hne]

end StateBench

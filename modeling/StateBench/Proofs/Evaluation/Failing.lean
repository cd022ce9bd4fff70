import StateBench.Proofs.Evaluation.Parts
import StateBench.Proofs.Evaluation.Stops
import StateBench.Proofs.Machine.Locations

/-!
# How evaluations come to fail

If the evaluation of a state fails, either the state raises the failure itself, or it is a container that has set up its
units, and they have come to the failure (`Stop.raised_or_within`).
-/

namespace StateBench

variable {scope : Scope} {stop : Stop} {failure : Failure}

/-- The state that a Choice leads to is that of one of its choices. -/
theorem Choice.mem_of_first? {input context : Json} {choices : List Choice} {next : String}
    (h : first? input context choices = .ok (some next)) : ∃ choice ∈ choices, choice.next = next := by
  induction choices with
  | nil => cases h
  | cons choice choices ih =>
    obtain ⟨holds, -, h⟩ := ok_of_bind h
    cases holds with
    | true =>
      cases h
      exact ⟨choice, List.mem_cons_self, rfl⟩
    | false =>
      obtain ⟨other, ho, hn⟩ := ih h
      exact ⟨other, List.mem_cons_of_mem _ ho, hn⟩

/-! ## Successors -/

/-- What a state hands over to: a Choice to a state that it names, a Succeed to none, and any other to its successor, if
it has one. A Fail is not among them, as it always fails. -/
inductive State.HandsOver {γ : Type} (s : State γ) : Option String → Prop
  | chosen {choices : List Choice} {fallback : Option String} {name : String} (kind : s.kind = .choice choices fallback)
      (mem : name ∈ choices.map (·.next) ++ fallback.toList) : HandsOver s (some name)
  | succeed (type : s.type = .succeed) : HandsOver s none
  | follows (type : s.type ∉ [.choice, .succeed, .fail]) : HandsOver s s.next

namespace State.HandsOver

variable {γ : Type} {s : State γ}

theorem mem_targets {name : String} (h : s.HandsOver (some name)) : name ∈ s.targets := by
  suffices hs : ∀ next, s.HandsOver next → next = some name → name ∈ s.targets from hs _ h rfl
  rintro next (⟨kind, mem⟩ | _ | _) hn
  · cases hn
    simp only [State.targets, kind, List.mem_append] at mem ⊢
    exact .inl (.inr mem)
  · cases hn
  · simp [State.targets, hn]

/-- A state that hands over to none is a Succeed, or it has no successor and is no Choice and no Fail. -/
theorem of_none (h : s.HandsOver none) :
    s.type = .succeed ∨ s.type ∉ [.choice, .succeed, .fail] ∧ s.next = none := by
  suffices hs : ∀ next, s.HandsOver next → next = none →
      s.type = .succeed ∨ s.type ∉ [.choice, .succeed, .fail] ∧ s.next = none from hs none h rfl
  rintro next (_ | type | type) hn
  · cases hn
  · exact .inl type
  · exact .inr ⟨type, hn⟩

end State.HandsOver

/-! ## Units -/

/-- A unit as it is run. -/
def UnitWalk.unit (scope : Scope) (walk : UnitWalk) : FanUnit Activity := ⟨walk.name, walk.job scope⟩

namespace Stop

theorem units_itemWalks (iterator : Graph) (inputs : List Json) :
    (stop.itemWalks iterator inputs).map (UnitWalk.unit scope) =
      (scope.evaluator.walker iterator).mapUnits stop.visit inputs := List.map_map

theorem units_branchWalks (branches : List Graph) (input : Json) :
    (stop.branchWalks branches input).map (UnitWalk.unit scope) =
      Walker.branchUnits (branches.map scope.evaluator.walker) stop.visit stop.place.inMap input := by
  unfold branchWalks Walker.branchUnits
  rw [List.map_map, List.zipIdx_map, List.map_map]
  refine List.map_congr_left fun (branch, index) _ => ?_
  show FanUnit.mk branch.startAt _ = FanUnit.mk (scope.evaluator.walker branch).startAt _
  rw [Evaluator.startAt_walker]
  rfl

/-! ## States -/

theorem kind_walkable :
    (scope.evaluator.walkable stop.state).kind = stop.state.kind.mapGraphs scope.evaluator.walker := rfl

/-- The failure is raised by the state. -/
def Raised (scope : Scope) (stop : Stop) (failure : Failure) : Prop :=
  ∃ error cause, Raises scope stop error cause ∧ failure = .of error cause stop.path

/-- The failure comes from the units of the state. -/
def RaisedWithin (scope : Scope) (stop : Stop) (failure : Failure) : Prop :=
  ∃ declared walks, SetsUp scope stop declared walks ∧
    ((fanOut stop.path (scope.settings.concurrencyFor declared walks.length) (walks.map (·.unit scope))).run
      stop.time).result = .error failure

/-! ## Tasks and containers -/

variable {seen : Json} (sees : stop.seen scope = .ok seen)
include sees

theorem raised_of_task {spec : TaskSpec} (kind : stop.state.kind = .task spec) (unmocked : stop.mock? scope = none)
    (h : ((scope.runTask stop.visit spec seen).run stop.time).result = .error failure) : stop.Raised scope failure := by
  rcases Scope.error_of_runTask h with ⟨he, rfl⟩ | ⟨executor, he, hr⟩
  · exact ⟨_, _, .noExecutor kind sees unmocked he, rfl⟩
  · match ha : (executor ⟨stop.visit, stop.time, spec, seen⟩).within (spec.patience scope.settings), hr with
    | none, hr =>
      cases hr
      exact ⟨_, _, .tooLate kind sees unmocked he ha, rfl⟩
    | some (.error (.failed error cause)), hr =>
      cases hr
      exact ⟨_, _, .failed kind sees unmocked he ha, rfl⟩
    | some (.error (.unavailable resource detail)), hr =>
      cases hr
      exact ⟨_, _, .unavailable kind sees unmocked he ha, rfl⟩

theorem raised_of_map {spec : MapSpec} {iterator : Graph} (kind : stop.state.kind = .map spec iterator)
    (unmocked : stop.mock? scope = none)
    (h : ((scope.evaluator.runMap stop.visit stop.state.name spec (scope.evaluator.walker iterator) seen).run
      stop.time).result = .error failure) : stop.Raised scope failure ∨ stop.RaisedWithin scope failure := by
  rcases Scope.error_of_mapItems h with ⟨e, he, rfl⟩ | ⟨value, hv, ⟨hn, rfl⟩ | ⟨items, rfl, h⟩⟩
  · exact .inl ⟨_, _, .items kind sees unmocked he, rfl⟩
  · exact .inl ⟨_, _, .notArray kind sees unmocked hv hn, rfl⟩
  · rcases Scope.error_of_orRuntime h with ⟨e, he, rfl⟩ | ⟨inputs, hi, h⟩
    · exact .inl ⟨_, _, .unitInput kind sees unmocked hv he, rfl⟩
    · refine .inr ⟨_, _, .map kind sees unmocked hv hi, ?_⟩
      have hf := Scope.error_of_runUnits h
      rw [← units_itemWalks, List.length_map] at hf
      exact hf

theorem raised_of_parallel {branches : List Graph} (kind : stop.state.kind = .parallel branches)
    (unmocked : stop.mock? scope = none)
    (h : ((scope.evaluator.runParallel stop.visit stop.place.inMap (branches.map scope.evaluator.walker) seen).run
      stop.time).result = .error failure) : stop.RaisedWithin scope failure := by
  refine ⟨_, _, .parallel kind sees unmocked, ?_⟩
  have hf := Scope.error_of_runUnits h
  rw [← units_branchWalks, List.length_map] at hf
  exact hf

theorem raised_of_producing (h : ((stop.producing scope seen).run stop.time).result = .error failure) :
    stop.Raised scope failure ∨ stop.RaisedWithin scope failure := by
  have mocked {activity : Activity Json} (ht : stop.state.type ∈ [.task, .map, .parallel, .fail])
      (h : ((scope.evaluator.mockedOr stop.path stop.place.inMap activity).run stop.time).result = .error failure) :
      stop.Raised scope failure ∨ stop.mock? scope = none ∧ (activity.run stop.time).result = .error failure := by
    rcases Scope.error_of_mockedOr h with ⟨error, cause, hm, rfl⟩ | hf
    · exact .inl ⟨error, cause, .mocked ht sees hm, rfl⟩
    · exact .inr hf
  unfold producing Evaluator.produce at h
  rw [kind_walkable] at h
  cases kind : stop.state.kind with
  | task spec =>
    rw [kind] at h
    rcases mocked (by simp [State.type, kind, Kind.type]) h with hr | ⟨unmocked, h⟩
    · exact .inl hr
    · exact .inl (raised_of_task sees kind unmocked h)
  | map spec iterator =>
    rw [kind] at h
    rcases mocked (by simp [State.type, kind, Kind.type]) h with hr | ⟨unmocked, h⟩
    · exact .inl hr
    · exact raised_of_map sees kind unmocked h
  | parallel branches =>
    rw [kind] at h
    rcases mocked (by simp [State.type, kind, Kind.type]) h with hr | ⟨unmocked, h⟩
    · exact .inl hr
    · exact .inr (raised_of_parallel sees kind unmocked h)
  | _ =>
    rw [kind] at h
    cases h

/-! ## States without a result -/

theorem raised_of_passOn (proceeds : stop.Proceeds scope seen) {next : Option String} {now : Nat}
    (h : ((scope.evaluator.passOn stop.path (scope.evaluator.walkable stop.state) seen next).run now).result =
      .error failure) : stop.Raised scope failure := by
  obtain ⟨e, he, rfl⟩ := Scope.error_of_passOn h
  exact ⟨_, _, .passedOn sees proceeds he, rfl⟩

theorem raised_of_choice {choices : List Choice} {fallback : Option String}
    (kind : stop.state.kind = .choice choices fallback)
    (h : ((scope.evaluator.choose stop.path choices fallback seen (stop.context scope) >>= fun next =>
      scope.evaluator.passOn stop.path (scope.evaluator.walkable stop.state) seen (some next)).run stop.time).result =
        .error failure) : stop.Raised scope failure := by
  rcases Activity.run_bind_error h with h | ⟨next, hn, h⟩
  · rcases Scope.error_of_choose h with ⟨e, he, rfl⟩ | ⟨hn, rfl, rfl⟩
    · exact ⟨_, _, .rule kind sees he, rfl⟩
    · exact ⟨_, _, .noChoice kind sees hn, rfl⟩
  · obtain ⟨chosen, hc, hs⟩ := Scope.ok_of_choose hn
    have proceeds : stop.Proceeds scope seen := by
      rw [Proceeds, kind]
      exact ⟨chosen, hc, by rw [hs]; rfl⟩
    exact raised_of_passOn sees proceeds h

omit sees in
theorem raised_of_runFail {spec : FailSpec} (kind : stop.state.kind = .fail spec)
    (unmocked : ∀ error cause, stop.mock? scope ≠ some (.failure error cause))
    (h : ((scope.evaluator.runFail stop.path spec stop.input (stop.context scope)).run stop.time).result =
      (.error failure : Except Failure StateOutput)) : stop.Raised scope failure := by
  rcases Scope.error_of_runFail h with ⟨e, he, rfl⟩ | ⟨error, he, ⟨e, hc, rfl⟩ | ⟨cause, hc, rfl⟩⟩
  · obtain ⟨p, hp, hs⟩ := failText_error_iff.1 he
    exact ⟨_, _, .errorText kind unmocked hp hs, rfl⟩
  · obtain ⟨p, hp, hs⟩ := failText_error_iff.1 hc
    exact ⟨_, _, .causeText kind unmocked (failText_ok_iff.1 he) hp hs, rfl⟩
  · exact ⟨_, _, .fail kind unmocked (failText_ok_iff.1 he) (failText_ok_iff.1 hc), rfl⟩

/-! ## All states -/

omit sees in
/-- If the evaluation of a state fails, the state raises the failure itself, or it comes from its units. -/
theorem raised_or_within (h : ((stop.activity scope).run stop.time).result = .error failure) :
    stop.Raised scope failure ∨ stop.RaisedWithin scope failure := by
  have hs := State.seen_mapGraphs scope.evaluator.walker stop.state
  rcases Scope.error_of_orRuntime h with ⟨e, he, rfl⟩ | ⟨seen, sees, h⟩
  · exact .inl ⟨_, _, .input ((hs _ _).symm.trans he), rfl⟩
  · replace sees : stop.seen scope = .ok seen := (hs _ _).symm.trans sees
    rw [kind_walkable] at h
    cases kind : stop.state.kind with
    | wait spec =>
      rw [kind] at h
      simp only [Kind.mapGraphs] at h
      split at h
      · next cause hc =>
        cases h
        exact .inl ⟨_, _, .wait kind sees hc, rfl⟩
      · next hc => exact .inl (raised_of_passOn sees (by rw [Proceeds, kind]; exact hc) h)
    | succeed =>
      rw [kind] at h
      exact .inl (raised_of_passOn sees (by rw [Proceeds, kind]; trivial) h)
    | fail spec =>
      rw [kind] at h
      simp only [Kind.mapGraphs] at h
      rw [Scope.run_lookForMock_bind] at h
      split at h
      · next error cause hm =>
        cases h
        exact .inl ⟨_, _, .mocked (by simp [State.type, kind, Kind.type]) sees hm, rfl⟩
      · next unmocked => exact .inl (raised_of_runFail kind unmocked h)
    | choice choices fallback =>
      rw [kind] at h
      exact .inl (raised_of_choice sees kind h)
    | task _ | pass _ | map _ _ | parallel _ =>
      rw [kind] at h
      rcases Scope.error_of_finish h with h | ⟨result, e, hr, he, rfl⟩
      · exact raised_of_producing sees h
      · exact .inl ⟨_, _, .output (by simp [State.type, kind, Kind.type]) sees hr he, rfl⟩

omit sees in
/-- What a state hands over to in a run that succeeds. -/
theorem handsOver {out : StateOutput} (h : ((stop.activity scope).run stop.time).result = .ok out) :
    stop.state.HandsOver out.next := by
  have follows (ht : stop.state.type ∉ [.choice, .succeed, .fail]) (hf : out.next = stop.state.next) :
      stop.state.HandsOver out.next := by
    rw [hf]
    exact .follows ht
  obtain ⟨seen, -, h⟩ := Scope.ok_of_orRuntime h
  rw [kind_walkable] at h
  cases kind : stop.state.kind with
  | wait spec =>
    rw [kind] at h
    simp only [Kind.mapGraphs] at h
    split at h
    · cases h
    · exact follows (by simp [State.type, kind, Kind.type]) (Scope.next_of_passOn h)
  | succeed =>
    rw [kind] at h
    rw [Scope.next_of_passOn h]
    exact .succeed (by rw [State.type, kind, Kind.type])
  | fail spec =>
    rw [kind] at h
    simp only [Kind.mapGraphs] at h
    rw [Scope.run_lookForMock_bind] at h
    split at h
    · cases h
    · exact absurd h Scope.runFail_ne_ok
  | choice choices fallback =>
    rw [kind] at h
    obtain ⟨next, hc, h, -⟩ := Activity.run_bind_ok h
    obtain ⟨chosen, hf, hs⟩ := Scope.ok_of_choose hc
    rw [Scope.next_of_passOn h]
    refine .chosen kind ?_
    rw [List.mem_append, List.mem_map, Option.mem_toList]
    cases chosen with
    | none => exact .inr hs
    | some next =>
      cases hs
      exact .inl (Choice.mem_of_first? hf)
  | task _ | pass _ | map _ _ | parallel _ =>
    rw [kind] at h
    exact follows (by simp [State.type, kind, Kind.type]) (Scope.next_of_finish h)

omit sees in
/-- A state hands over to one of its targets. -/
theorem mem_targets {out : StateOutput} {name : String} (h : ((stop.activity scope).run stop.time).result = .ok out)
    (hn : out.next = some name) : name ∈ stop.state.targets := by
  have hh := handsOver h
  rw [hn] at hh
  exact hh.mem_targets

end Stop

end StateBench

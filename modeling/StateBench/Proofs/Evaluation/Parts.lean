import StateBench.Proofs.Activity.Runs
import StateBench.Scope

/-!
# Results of the parts of states

What a state does is put together from a few parts. For each of them it is said how it comes to fail (`error_of_finish`,
`error_of_mockedOr`, `error_of_runTask` and so on); the results of the others were as they had to be then. A state with
a mock comes to what that says (`mockedOr_of_some`), and one without to what it does itself (`mockedOr_of_none`).
-/

namespace StateBench

variable {scope : Scope} {α β : Type} {now : Nat} {failure : Failure}

/-- What the mock of the state at a path comes to. -/
def MockOutcome.result (path : StatePath) : MockOutcome → Except Failure Json
  | .output value => .ok value
  | .failure error cause => .error (.of error cause path)

namespace Scope

/-! ## Mocks -/

/-- Looking for a mock is done in one turn. -/
theorem lookForMock_eq (path : StatePath) (inMap : Bool) :
    scope.evaluator.lookForMock path inMap =
      fun now => .ended ⟨now, [.lookup ⟨path, inMap⟩], [⟨path, inMap⟩], false⟩
        (.ok ((scope.mocks.find? path).map (·.2))) := rfl

/-- A mocked state comes to what its mock says, whatever it would do itself. -/
theorem mockedOr_of_some {path : StatePath} {label : String} {outcome : MockOutcome}
    (h : scope.mocks.find? path = some (label, outcome)) (inMap : Bool) (activity : Activity Json) :
    scope.evaluator.mockedOr path inMap activity =
      Activity.look ⟨path, inMap⟩ >>= fun _ => .done (outcome.result path) := by
  unfold Evaluator.mockedOr
  funext now
  rw [lookForMock_eq, h]
  cases outcome <;> rfl

theorem mockedOr_of_none {path : StatePath} (h : scope.mocks.find? path = none) (inMap : Bool)
    (activity : Activity Json) :
    scope.evaluator.mockedOr path inMap activity = Activity.look ⟨path, inMap⟩ >>= fun _ => activity := by
  unfold Evaluator.mockedOr
  funext now
  rw [lookForMock_eq, h]
  rfl

/-! ## Parts of states -/

theorem run_orRuntime_ok (origin : StatePath) (value : α) (next : α → Activity β) (now : Nat) :
    (scope.evaluator.orRuntime origin (.ok value) >>= next).run now = (next value).run now :=
  Activity.run_done_bind value next now

theorem run_orRuntime_error (origin : StatePath) (e : AccessError) (next : α → Activity β) (now : Nat) :
    (scope.evaluator.orRuntime origin (.error e) >>= next).run now =
      ⟨.error (.of Failure.runtime e.message origin), now, [], []⟩ := Activity.run_done_error_bind _ next now

theorem error_of_orRuntime {origin : StatePath} {checked : Except AccessError α} {next : α → Activity β}
    (h : ((scope.evaluator.orRuntime origin checked >>= next).run now).result = .error failure) :
    (∃ e, checked = .error e ∧ failure = .of Failure.runtime e.message origin) ∨
      ∃ value, checked = .ok value ∧ ((next value).run now).result = .error failure := by
  cases checked with
  | error e =>
    rw [run_orRuntime_error] at h
    cases h
    exact .inl ⟨e, rfl, rfl⟩
  | ok value =>
    rw [run_orRuntime_ok] at h
    exact .inr ⟨value, rfl, h⟩

theorem ok_of_orRuntime {origin : StatePath} {checked : Except AccessError α} {next : α → Activity β} {result : β}
    (h : ((scope.evaluator.orRuntime origin checked >>= next).run now).result = .ok result) :
    ∃ value, checked = .ok value ∧ ((next value).run now).result = .ok result := by
  cases checked with
  | error e =>
    rw [run_orRuntime_error] at h
    cases h
  | ok value =>
    rw [run_orRuntime_ok] at h
    exact ⟨value, rfl, h⟩

/-- Looking for a mock takes no time. -/
theorem run_lookForMock_bind (path : StatePath) (inMap : Bool) (next : Option MockOutcome → Activity β) (now : Nat) :
    ((scope.evaluator.lookForMock path inMap >>= next).run now).result =
      ((next ((scope.mocks.find? path).map (·.2))).run now).result := by
  have hl : (scope.evaluator.lookForMock path inMap).run now =
      ⟨.ok ((scope.mocks.find? path).map (·.2)), now, [.lookup ⟨path, inMap⟩], [⟨path, inMap⟩]⟩ := rfl
  rw [Activity.run_bind, hl, Run.followedBy_ok rfl]

theorem error_of_mockedOr {path : StatePath} {inMap : Bool} {activity : Activity Json}
    (h : ((scope.evaluator.mockedOr path inMap activity).run now).result = .error failure) :
    (∃ error cause, (scope.mocks.find? path).map (·.2) = some (.failure error cause) ∧ failure = .of error cause path) ∨
      (scope.mocks.find? path).map (·.2) = none ∧ (activity.run now).result = .error failure := by
  unfold Evaluator.mockedOr at h
  rw [run_lookForMock_bind] at h
  cases hm : (scope.mocks.find? path).map (·.2) with
  | none =>
    rw [hm] at h
    exact .inr ⟨rfl, h⟩
  | some outcome =>
    rw [hm] at h
    cases outcome with
    | output value => cases h
    | failure error cause =>
      cases h
      exact .inl ⟨error, cause, rfl, rfl⟩

/-- A state without a mock comes to what it does. -/
theorem ok_of_mockedOr {path : StatePath} {inMap : Bool} {activity : Activity Json} {result : Json}
    (unmocked : (scope.mocks.find? path).map (·.2) = none)
    (h : ((scope.evaluator.mockedOr path inMap activity).run now).result = .ok result) :
    (activity.run now).result = .ok result := by
  unfold Evaluator.mockedOr at h
  rw [run_lookForMock_bind, unmocked] at h
  exact h

theorem error_of_finish {γ : Type} {path : StatePath} {s : State γ} {input : Json} {activity : Activity Json}
    (h : ((scope.evaluator.finish path s input activity).run now).result = .error failure) :
    (activity.run now).result = .error failure ∨
      ∃ result e, (activity.run now).result = .ok result ∧
        s.flow.output input result (scope.evaluator.context s.name) = .error e ∧
        failure = .of Failure.runtime e.message path := by
  rcases Activity.run_bind_error h with hf | ⟨result, hr, hf⟩
  · exact .inl hf
  · rcases error_of_orRuntime hf with ⟨e, he, hf⟩ | ⟨output, -, hf⟩
    · exact .inr ⟨result, e, hr, he, hf⟩
    · cases hf

theorem error_of_passOn {γ : Type} {path : StatePath} {s : State γ} {seen : Json} {next : Option String}
    (h : ((scope.evaluator.passOn path s seen next).run now).result = .error failure) :
    ∃ e, s.flow.selectOutput seen (scope.evaluator.context s.name) = .error e ∧
      failure = .of Failure.runtime e.message path := by
  rcases error_of_orRuntime h with ⟨e, he, hf⟩ | ⟨output, -, hf⟩
  · exact ⟨e, he, hf⟩
  · cases hf

theorem next_of_finish {γ : Type} {path : StatePath} {s : State γ} {input : Json} {activity : Activity Json}
    {out : StateOutput} (h : ((scope.evaluator.finish path s input activity).run now).result = .ok out) :
    out.next = s.next := by
  obtain ⟨result, -, h, -⟩ := Activity.run_bind_ok h
  obtain ⟨output, -, h⟩ := ok_of_orRuntime h
  cases h
  rfl

theorem next_of_passOn {γ : Type} {path : StatePath} {s : State γ} {seen : Json} {next : Option String}
    {out : StateOutput} (h : ((scope.evaluator.passOn path s seen next).run now).result = .ok out) :
    out.next = next := by
  obtain ⟨output, -, h⟩ := ok_of_orRuntime h
  cases h
  rfl

theorem error_of_choose {path : StatePath} {choices : List Choice} {fallback : Option String} {input context : Json}
    (h : ((scope.evaluator.choose path choices fallback input context).run now).result = .error failure) :
    (∃ e, Choice.first? input context choices = .error e ∧ failure = .of Failure.runtime e.message path) ∨
      Choice.first? input context choices = .ok none ∧ fallback = none ∧
        failure = .of Failure.noChoiceMatched "no choice rule matched and no Default is declared" path := by
  rcases error_of_orRuntime h with he | ⟨chosen, hc, hf⟩
  · exact .inl he
  · match chosen, fallback, hf with
    | none, none, hf =>
      cases hf
      exact .inr ⟨hc, rfl, rfl⟩

theorem ok_of_choose {path : StatePath} {choices : List Choice} {fallback : Option String} {input context : Json}
    {next : String} (h : ((scope.evaluator.choose path choices fallback input context).run now).result = .ok next) :
    ∃ chosen, Choice.first? input context choices = .ok chosen ∧ chosen.or fallback = some next := by
  obtain ⟨chosen, hc, hn⟩ := ok_of_orRuntime h
  refine ⟨chosen, hc, ?_⟩
  match chosen, fallback, hn with
  | some _, _, hn | none, some _, hn =>
    cases hn
    rfl

theorem error_of_runFail {path : StatePath} {spec : FailSpec} {input context : Json}
    (h : ((scope.evaluator.runFail path spec input context : Activity α).run now).result = .error failure) :
    (∃ e, failText spec.errorPath spec.error input context = .error e ∧ failure = .of Failure.runtime e.message path) ∨
      ∃ error, failText spec.errorPath spec.error input context = .ok error ∧
        ((∃ e, failText spec.causePath spec.cause input context = .error e ∧
            failure = .of Failure.runtime e.message path) ∨
          ∃ cause, failText spec.causePath spec.cause input context = .ok cause ∧ failure = .of error cause path) := by
  rcases error_of_orRuntime h with he | ⟨error, he, h⟩
  · exact .inl he
  · rcases error_of_orRuntime h with hc | ⟨cause, hc, h⟩
    · exact .inr ⟨error, he, .inl hc⟩
    · cases h
      exact .inr ⟨error, he, .inr ⟨cause, hc, rfl⟩⟩

/-- A Fail never succeeds. -/
theorem runFail_ne_ok {path : StatePath} {spec : FailSpec} {input context : Json} {result : α} :
    ((scope.evaluator.runFail path spec input context).run now).result ≠ .ok result := by
  intro h
  obtain ⟨error, -, h⟩ := ok_of_orRuntime h
  obtain ⟨cause, -, h⟩ := ok_of_orRuntime h
  cases h

/-- A task comes to its result and looks for no mocks, whatever time it takes. -/
theorem run_taskCourse (invocation : Invocation) (delay : Nat) (events : List Event) (result : Except Failure Json) :
    (taskCourse invocation delay events result).toRun.result = result ∧
      (taskCourse invocation delay events result).toRun.lookups = [] := by
  unfold taskCourse
  split <;> exact ⟨rfl, rfl⟩

/-- A task fails as there is no executor, or as its answer says. -/
theorem error_of_runTask {visit : Visit} {task : TaskSpec} {input : Json}
    (h : ((scope.runTask visit task input).run now).result = .error failure) :
    (scope.executor = none ∧ failure = task.withoutExecutor visit.path) ∨
      ∃ executor, scope.executor = some executor ∧
        task.resultOf scope.settings visit.path
          ((executor ⟨visit, now, task, input⟩).within (task.patience scope.settings)) = .error failure := by
  unfold runTask at h
  cases he : scope.executor with
  | none =>
    rw [he] at h
    cases h
    exact .inl ⟨rfl, rfl⟩
  | some executor =>
    rw [he] at h
    exact .inr ⟨executor, rfl, (run_taskCourse ..).1.symm.trans h⟩

theorem error_of_mapItems {path : StatePath} {spec : MapSpec} {input context : Json} {next : List Json → Activity β}
    (h : ((scope.evaluator.mapItems path spec input context >>= next).run now).result = .error failure) :
    (∃ e, RefPath.select spec.itemsPath input context = .error e ∧ failure = .of Failure.runtime e.message path) ∨
      ∃ value, RefPath.select spec.itemsPath input context = .ok value ∧
        (((∀ items, value ≠ .array items) ∧ failure = .of Failure.runtime (spec.notArray value) path) ∨
          ∃ items, value = .array items ∧ ((next items).run now).result = .error failure) := by
  unfold Evaluator.mapItems at h
  cases hs : RefPath.select spec.itemsPath input context with
  | error e =>
    rw [hs, Activity.run_bind, run_orRuntime_error] at h
    cases h
    exact .inl ⟨e, rfl, rfl⟩
  | ok value =>
    rw [hs, Activity.run_bind, run_orRuntime_ok] at h
    refine .inr ⟨value, rfl, ?_⟩
    cases value with
    | array items => exact .inr ⟨items, rfl, h⟩
    | _ =>
      cases h
      exact .inl ⟨fun items hi => (nomatch hi), rfl⟩

theorem ok_of_mapItems {path : StatePath} {spec : MapSpec} {input context : Json} {next : List Json → Activity β}
    {result : β} (h : ((scope.evaluator.mapItems path spec input context >>= next).run now).result = .ok result) :
    ∃ items, RefPath.select spec.itemsPath input context = .ok (.array items) ∧
      ((next items).run now).result = .ok result := by
  unfold Evaluator.mapItems at h
  cases hs : RefPath.select spec.itemsPath input context with
  | error e =>
    rw [hs, Activity.run_bind, run_orRuntime_error] at h
    cases h
  | ok value =>
    rw [hs, Activity.run_bind, run_orRuntime_ok] at h
    cases value with
    | array items => exact ⟨items, rfl, h⟩
    | _ => cases h

theorem error_of_runUnits {path : StatePath} {declared : Nat} {units : List (FanUnit Activity)}
    (h : ((scope.evaluator.runUnits path declared units).run now).result = .error failure) :
    ((fanOut path (scope.settings.concurrencyFor declared units.length) units).run now).result = .error failure := by
  rcases Activity.run_bind_error h with h | ⟨outputs, -, h⟩
  · exact h
  · cases h

/-- A container that succeeds comes to the array of the outputs of its units. -/
theorem ok_of_runUnits {path : StatePath} {declared : Nat} {units : List (FanUnit Activity)} {result : Json}
    (h : ((scope.evaluator.runUnits path declared units).run now).result = .ok result) :
    ∃ outputs, result = .array outputs ∧
      ((fanOut path (scope.settings.concurrencyFor declared units.length) units).run now).result = .ok outputs := by
  obtain ⟨outputs, hf, h, -⟩ := Activity.run_bind_ok h
  cases h
  exact ⟨outputs, rfl, hf⟩

end Scope

end StateBench

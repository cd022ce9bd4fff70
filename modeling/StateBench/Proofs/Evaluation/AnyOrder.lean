import StateBench.Proofs.Evaluation.InTurn
import StateBench.Proofs.Evaluation.Parts
import StateBench.Proofs.FanOut.AnyOrder

/-!
# Evaluations whose tasks take their time

Executors may give the same answers after different times (`Executor.Agree`). Then the units of containers end in other
orders, and other bounds let other units be under way. Whether an evaluation succeeds, and with what, is settled by the
answers all the same: by the tally of running one unit after the other (`related_settled`). So two benches with such
executors and any bounds agree on every report of a success (`Bench.evaluate_agree`).
-/

namespace StateBench

/-- Two executors that give the same answer to a task with an input, or both none in time, after whatever time. -/
def Executor.Agree (settings : Settings) (first second : Executor) : Prop :=
  ∀ i j : Invocation, i.task = j.task → i.input = j.input →
    (first i).within (i.task.patience settings) = (second j).within (j.task.patience settings)

/-- The answers of an executor that come in time are some answers. -/
def Executor.Gives (settings : Settings) (executor : Executor) (answers : Answers) : Prop :=
  ∀ i : Invocation, (executor i).within (i.task.patience settings) = answers i.task i.input

/-- Executors that agree give the same answers. -/
theorem Executor.Agree.gives {settings : Settings} {first second : Executor} (h : Agree settings first second) :
    ∃ answers, first.Gives settings answers ∧ second.Gives settings answers := by
  let asked (task : TaskSpec) (input : Json) : Invocation := ⟨⟨[], []⟩, 0, task, input⟩
  refine ⟨fun task input => (second (asked task input)).within (task.patience settings), fun i => h _ _ rfl rfl,
    fun j => ?_⟩
  exact (h (asked j.task j.input) j rfl rfl).symm.trans (h _ (asked j.task j.input) rfl rfl)

/-! ## Evaluating -/

section Settled

variable {settings : Settings} {executor : Executor} {answers : Answers} (h : executor.Gives settings answers)
  (maxConcurrency : Nat)
include h

theorem settledBy_runTask (job : Bench.Job) (visit : Visit) (task : TaskSpec) (input : Json) :
    ((Bench.scope ⟨some executor, settings.withBound maxConcurrency⟩ job).runTask visit task input).SettledBy
      (.done (Tally.runTask (some answers) settings visit task input)) := by
  let scope := Bench.scope ⟨some executor, settings.withBound maxConcurrency⟩ job
  have hr (now : Nat) : ((scope.runTask visit task input).run now).result =
        task.resultOf settings visit.path (answers task input) ∧
      ((scope.runTask visit task input).run now).lookups = [] := by
    have ha : (executor ⟨visit, now, task, input⟩).within (task.patience scope.settings) = answers task input := h _
    show (Scope.taskCourse _ _ _ (task.resultOf scope.settings visit.path _)).toRun.result = _ ∧
      (Scope.taskCourse _ _ _ _).toRun.lookups = []
    rw [ha]
    exact Scope.run_taskCourse ..
  exact ⟨fun hv now => ⟨(hr now).1.trans hv, (hr now).2⟩, fun hf now => ⟨_, (hr now).1.trans hf⟩⟩

/-- What an evaluation does is settled by what it does with one unit after the other. -/
theorem related_settled (job : Bench.Job) :
    Related @Activity.SettledBy (Bench.scope ⟨some executor, settings.withBound maxConcurrency⟩ job).evaluator
      (Tally.evaluator (some answers) settings job) where
  executionInput := rfl
  pure value := .done (.ok value)
  bind := .bind
  done := .done
  lookForMock path inMap := (Activity.SettledBy.look ⟨path, inMap⟩).bind fun _ => .done _
  runTask visit task input := settledBy_runTask h maxConcurrency job visit task input
  fanOut container limit _ _ _ h := settledBy_fanOut container limit h
  loop _ _ _ position h := .loop h _ _ position

end Settled

/-! ## Reports -/

/-- The request fails. -/
def Bench.Fails (outcome : Except Rejection Report) : Prop := ∃ cause names, outcome = .ok (.failure cause names)

/-- A request comes to the same as with one unit after the other, or fails in both ways. -/
theorem Bench.evaluate_settled {settings : Settings} {executor : Executor} {answers : Answers}
    (h : executor.Gives settings answers) (maxConcurrency : Nat) (request : Request) :
    let outcome := (⟨some executor, settings.withBound maxConcurrency⟩ : Bench).evaluate request
    let settled := Tally.evaluate (some answers) settings request
    outcome = settled ∨ Fails outcome ∧ Fails settled := by
  intro outcome settled
  unfold outcome settled Tally.evaluate
  rw [evaluate_eq]
  cases prepare request with
  | error rejection => exact .inl rfl
  | ok job =>
    have hp := (related_settled h maxConcurrency job).perform job
    cases ht : ((Tally.evaluator (some answers) settings job).perform job).result with
    | ok walk =>
      obtain ⟨hr, hl⟩ := hp.succeeds ht 0
      left
      simp only [Except.map, Tally.report, perform, hr, hl, ht]
    | error failure =>
      obtain ⟨other, ho⟩ := hp.fails ht 0
      right
      simp only [Except.map, Tally.report, perform, ho, ht, Report.ofResult]
      exact ⟨⟨_, _, rfl⟩, ⟨_, _, rfl⟩⟩

/-- With executors that give the same answers after different times, and with different bounds, a request succeeds
alike: with the same output, steps and mocks in the same order. So it also fails alike, though it may fail in another
unit. -/
theorem Bench.evaluate_agree {settings : Settings} {first second : Executor} (h : first.Agree settings second)
    (bound other : Nat) (request : Request) :
    let outcome := (⟨some first, settings.withBound bound⟩ : Bench).evaluate request
    let outcome' := (⟨some second, settings.withBound other⟩ : Bench).evaluate request
    (∀ walk inspected applied, outcome = .ok (.success walk inspected applied) ↔
      outcome' = .ok (.success walk inspected applied)) ∧ (Fails outcome ↔ Fails outcome') := by
  intro outcome outcome'
  obtain ⟨answers, hf, hs⟩ := h.gives
  have hd : outcome = outcome' ∨ Fails outcome ∧ Fails outcome' := by
    rcases evaluate_settled hf bound request, evaluate_settled hs other request with ⟨h₁ | ⟨f₁, ft⟩, h₂ | ⟨f₂, ft'⟩⟩
    · exact .inl (h₁.trans h₂.symm)
    · exact .inr ⟨(congrArg Fails h₁).mpr ft', f₂⟩
    · exact .inr ⟨f₁, (congrArg Fails h₂).mpr ft⟩
    · exact .inr ⟨f₁, f₂⟩
  rcases hd with he | ⟨hf₁, hf₂⟩
  · rw [he]
    exact ⟨fun _ _ _ => .rfl, .rfl⟩
  · refine ⟨fun walk inspected applied => ?_, fun _ => hf₂, fun _ => hf₁⟩
    obtain ⟨cause₁, names₁, h₁⟩ := hf₁
    obtain ⟨cause₂, names₂, h₂⟩ := hf₂
    rw [h₁, h₂]
    simp

/-- The executor whose answers come in time, after some delays. -/
def Answering.delayed (answering : Answering) (settings : Settings) (delay : Invocation → Nat) : Executor := fun i =>
  ⟨min (delay i) (i.task.patience settings), answering i.task i.input⟩

theorem Answering.agree_delayed (answering : Answering) (settings : Settings) (delay other : Invocation → Nat) :
    (answering.delayed settings delay).Agree settings (answering.delayed settings other) := by
  intro i j ht hi
  simp only [delayed, Reply.within, ht, hi, Nat.min_le_right, if_true]

theorem evaluate_agree_taskForEach :
    let slowFirst := checkTrue.delayed .standard fun i => if i.visit.trail.contains 1 then 20 else 50
    let slowSecond := checkTrue.delayed .standard fun i => if i.visit.trail.contains 1 then 50 else 20
    let outcome := (⟨some slowFirst, Settings.standard.withBound 2⟩ : Bench).evaluate (checkThree (taskForEach 3))
    let outcome' := (⟨some slowSecond, Settings.standard.withBound 3⟩ : Bench).evaluate (checkThree (taskForEach 3))
    slowFirst.Agree .standard slowSecond ∧
      (∀ walk inspected applied, outcome = .ok (.success walk inspected applied) ↔
        outcome' = .ok (.success walk inspected applied)) ∧ (Bench.Fails outcome ↔ Bench.Fails outcome') :=
  have h := checkTrue.agree_delayed .standard _ _
  ⟨h, Bench.evaluate_agree h 2 3 (checkThree (taskForEach 3))⟩

end StateBench

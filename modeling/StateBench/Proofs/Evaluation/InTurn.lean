import Mathlib
import StateBench.Proofs.FanOut.Instant
import StateBench.Proofs.Machine.Bounds

/-!
# Evaluations whose tasks are answered at once

With an executor that answers at once, or with none, nothing is waited for: what a state, a walk or a container does
ends in the turn in which it starts, and comes to the tally of running one unit after the other (`related_instant`).
That tally does not depend on any bound (`IgnoresBounds.perform`). So the report on a request is that of the units in
turn, whatever the bounds in the settings and in the definition are (`Bench.evaluate_instant`).
-/

namespace StateBench

/-- Answers that come at once, and depend on the task and its input alone. -/
abbrev Answering := TaskSpec → Json → Except TaskError Json

/-- The executor with some answers. -/
def Answering.executor (answering : Answering) : Executor := fun invocation =>
  ⟨0, answering invocation.task invocation.input⟩

/-- Answers that come at once are in time. -/
def Answering.inTime (answering : Answering) : Answers := fun task input => some (answering task input)

/-- Settings that differ at most in their bound. -/
def Settings.withBound (settings : Settings) (maxConcurrency : Nat) : Settings := { settings with maxConcurrency }

/-! ## Evaluating at once -/

section Instant

variable (answering : Option Answering) (settings : Settings)

theorem instantly_runTask {scope : Scope} (he : scope.executor = answering.map Answering.executor) (visit : Visit)
    (task : TaskSpec) (input : Json) :
    (scope.runTask visit task input).Instantly
      (.done (Tally.runTask (answering.map Answering.inTime) scope.settings visit task input)) := by
  unfold Scope.runTask
  rw [he]
  cases answering with
  | none => exact .done _
  | some answering =>
    intro now
    refine ⟨[.answer visit, .call ⟨visit, now, task, input⟩], ?_⟩
    simp [Answering.executor, Answering.inTime, Reply.within, Scope.taskCourse, Turn.merge, Turn.idle, Tally.runTask,
      Tally.done]

/-- What an evaluation does ends at once, and comes to what it does with one unit after the other. -/
theorem related_instant (maxConcurrency : Nat) (job : Bench.Job) :
    Related @Activity.Instantly
      (Bench.scope ⟨answering.map Answering.executor, settings.withBound maxConcurrency⟩ job).evaluator
      (Tally.evaluator (answering.map Answering.inTime) settings job) where
  executionInput := rfl
  pure value := .done (.ok value)
  bind := .bind
  done := .done
  lookForMock path inMap := (Activity.Instantly.look ⟨path, inMap⟩).bind fun _ => .done _
  runTask visit task input := instantly_runTask answering rfl visit task input
  fanOut container limit _ _ _ h := instantly_fanOut container limit h
  loop _ _ _ position h := .loop h _ _ position

end Instant

/-! ## Evaluating without bounds -/

namespace Evaluator

variable {m : Type → Type} [Monad m] {ev : Evaluator m}

theorem walkable_unbounded {s : State Graph}
    (hw : ∀ inner ∈ s.kind.graphs, ev.walker inner.unbounded = ev.walker inner) :
    ev.walkable s.unbounded = (ev.walkable s).withoutBound := by
  have hk : (s.kind.mapGraphs Graph.unbounded).withoutBound.mapGraphs ev.walker =
      (s.kind.mapGraphs ev.walker).withoutBound := by
    rw [Kind.mapGraphs_withoutBound, Kind.mapGraphs_congr hw]
  exact congrArg (fun kind => { ev.walkable s with kind }) hk

theorem walkable_unbounded_states {g : Graph}
    (hw : ∀ s ∈ g.states, ∀ inner ∈ s.kind.graphs, ev.walker inner.unbounded = ev.walker inner) :
    g.unbounded.states.map ev.walkable = (g.states.map ev.walkable).map State.withoutBound := by
  rw [Graph.unbounded_eq, List.map_map, List.map_map]
  exact List.map_congr_left fun s hs => walkable_unbounded (hw s hs)

/-- Nothing depends on the number of units that may be under way at a time. -/
def IgnoresBounds (ev : Evaluator m) : Prop := ∀ container limit other units,
  ev.fanOut container limit units = ev.fanOut container other units

namespace IgnoresBounds

variable (h : ev.IgnoresBounds)
include h

theorem runUnits (path : StatePath) (declared other : Nat) (units : List (FanUnit m)) :
    ev.runUnits path declared units = ev.runUnits path other units := by
  unfold Evaluator.runUnits
  rw [h path _ (ev.settings.concurrencyFor other units.length)]

theorem runMap (visit : Visit) (name : String) (spec : MapSpec) (other : Nat) (iterator : Walker m) (seen : Json) :
    ev.runMap visit name { spec with maxConcurrency := other } iterator seen =
      ev.runMap visit name spec iterator seen := by
  unfold Evaluator.runMap
  simp only [h.runUnits visit.path spec.maxConcurrency other]
  rfl

theorem produce (place : Place) (taken : Nat) (s : State (Walker m)) (seen : Json) :
    ev.produce place taken s.withoutBound seen = ev.produce place taken s seen := by
  obtain ⟨name, kind, next, flow, retry, catchers⟩ := s
  cases kind with
  | map spec iterator =>
    exact congrArg (ev.mockedOr (place.pathOf name) place.inMap) (h.runMap _ name spec 0 iterator seen)
  | _ => rfl

theorem runState (place : Place) (taken : Nat) (s : State (Walker m)) (input : Json) :
    ev.runState place taken s.withoutBound input = ev.runState place taken s input := by
  have hp := h.produce place taken s
  obtain ⟨name, kind, next, flow, retry, catchers⟩ := s
  unfold Evaluator.runState
  simp only [hp]
  cases kind <;> rfl

theorem walk (states : List (State (Walker m))) (start : String) :
    ev.walk (states.map State.withoutBound) start = ev.walk states start := by
  have hn (name : String) : State.named? (states.map State.withoutBound) name =
      (State.named? states name).map State.withoutBound :=
    State.named?_map State.withoutBound (fun _ => rfl) states name
  have hs : ev.walkStep (states.map State.withoutBound) = ev.walkStep states := by
    funext place position
    unfold Evaluator.walkStep
    rw [hn]
    cases State.named? states position.state with
    | none => rfl
    | some s =>
      simp only [Option.map_some, h.runState, State.type_withoutBound, Evaluator.goOn, hn, Option.isSome_map]
  funext place input
  unfold Evaluator.walk
  rw [hn, hs, Option.isSome_map]

/-- A graph is walked alike with and without bounds. -/
theorem walker (g : Graph) : ev.walker g.unbounded = ev.walker g := by
  induction g using Graph.induction with
  | step g ih => rw [ev.walker_eq, ev.walker_eq g, walkable_unbounded_states ih, h.walk, Graph.unbounded_eq]

/-- A job is done alike with and without bounds. -/
theorem perform (job : Bench.Job) : ev.perform job.unbounded = ev.perform job := by
  have hw (s : State Graph) : ∀ inner ∈ s.kind.graphs, ev.walker inner.unbounded = ev.walker inner :=
    fun inner _ => h.walker inner
  unfold Evaluator.perform
  cases hm : job.mode with
  | state =>
    simp only [Bench.Job.unbounded, hm]
    show ev.runSingle job.target.ancestors job.target.state.unbounded job.input = _
    unfold Evaluator.runSingle
    rw [walkable_unbounded (hw _), h.runState, State.type_unbounded]
    rfl
  | subgraph =>
    simp only [Bench.Job.unbounded, hm]
    show ev.walkGraph job.target.graph.unbounded job.target.state.name ⟨job.target.ancestors, [], false⟩ job.input = _
    unfold Evaluator.walkGraph
    rw [walkable_unbounded_states fun s _ => hw s, h.walk]

end IgnoresBounds

end Evaluator

/-! ## Reports -/

namespace Tally

variable (answers : Option Answers) (settings : Settings)

theorem report_unbounded (job : Bench.Job) : report answers settings job.unbounded = report answers settings job := by
  have hb : (evaluator answers settings job).IgnoresBounds := fun _ _ _ _ => rfl
  have hp : (evaluator answers settings job.unbounded).perform job.unbounded =
      (evaluator answers settings job).perform job := hb.perform job
  funext inspected
  unfold report
  rw [hp]
  rfl

/-- Reports on units in turn do not depend on the bounds of Maps. -/
theorem evaluate_of_sameButBounds {definition : Json} {request : Request}
    (h : SameButBounds definition request.definition) :
    evaluate answers settings { request with definition } = evaluate answers settings request := by
  have hu (request : Request) : evaluate answers settings request =
      ((Bench.prepare request).map Bench.Job.unbounded).map fun job =>
        report answers settings job request.stateName := by
    unfold evaluate
    cases Bench.prepare request with
    | error rejection => rfl
    | ok job => exact congrArg Except.ok (congrFun (report_unbounded answers settings job).symm _)
  rw [hu, hu request, Bench.prepare_of_sameButBounds h]

end Tally

namespace Bench

/-- A run comes to the tally of running one unit after the other if the executor answers at once, by the task and its
input alone, or if there is none. -/
theorem run_inTurn (answering : Option Answering) (settings : Settings) (maxConcurrency : Nat) (job : Job) (now : Nat) :
    let run := (perform ⟨answering.map Answering.executor, settings.withBound maxConcurrency⟩ job).run now
    let tally := (Tally.evaluator (answering.map Answering.inTime) settings job).perform job
    run.result = tally.result ∧ run.lookups = tally.lookups := by
  intro run tally
  obtain ⟨events, hp⟩ := (related_instant answering settings maxConcurrency job).perform job now
  have hr : run = ⟨tally.result, now, events.reverse, tally.lookups.reverse.reverse⟩ := congrArg Course.toRun hp
  rw [hr, List.reverse_reverse]
  exact ⟨rfl, rfl⟩

/-- The report on a request is that of running one unit after the other if the executor answers at once, by the task and
its input alone, or if there is none. -/
theorem evaluate_inTurn (answering : Option Answering) (settings : Settings) (maxConcurrency : Nat)
    (request : Request) :
    (⟨answering.map Answering.executor, settings.withBound maxConcurrency⟩ : Bench).evaluate request =
      Tally.evaluate (answering.map Answering.inTime) settings request := by
  rw [evaluate_eq, Tally.evaluate]
  refine congrArg (Except.map · _) (funext fun job => ?_)
  obtain ⟨hresult, hlookups⟩ := run_inTurn answering settings maxConcurrency job 0
  rw [hresult, hlookups]
  rfl

/-- With such an executor, or with none, the report on a request is that of running one unit after the other, whatever
the bounds in the settings and in the definition are. -/
theorem evaluate_instant {definition : Json} {request : Request} (h : SameButBounds definition request.definition)
    (answering : Option Answering) (settings : Settings) (maxConcurrency : Nat) :
    (⟨answering.map Answering.executor, settings.withBound maxConcurrency⟩ : Bench).evaluate
        { request with definition } = Tally.evaluate (answering.map Answering.inTime) settings request := by
  rw [evaluate_inTurn, Tally.evaluate_of_sameButBounds _ _ h]

end Bench

/-- A Map with a bound that runs a task for every item of its input. -/
def taskForEach (bound : Nat) : Json :=
  let task := Json.record [("Type", .string "Task"), ("Resource", .string "check"), ("End", .bool true)]
  let processor := Json.record [("StartAt", .string "One"), ("States", .record [("One", task)])]
  let each := Json.record [("Type", .string "Map"), ("MaxConcurrency", .int bound), ("ItemProcessor", processor),
    ("End", .bool true)]
  .record [("StartAt", .string "Each"), ("States", .record [("Each", each)])]

/-- Tasks that fail for every input but true. -/
def checkTrue : Answering := fun _ input =>
  match input with
  | .bool true => .ok input
  | _ => .error (.failed "NotTrue" "")

/-- A request to check three items, of which the second is not true. -/
def checkThree (definition : Json) : Request :=
  .forState definition (.array [.bool true, .bool false, .bool true]) "Each"

theorem evaluate_instant_taskForEach :
    SameButBounds (taskForEach 1) (taskForEach 2) ∧
      (⟨some checkTrue.executor, Settings.standard.withBound 0⟩ : Bench).evaluate (checkThree (taskForEach 1)) =
        Tally.evaluate (some checkTrue.inTime) .standard (checkThree (taskForEach 2)) := by
  have h : SameButBounds (taskForEach 1) (checkThree (taskForEach 2)).definition := by
    unfold SameButBounds
    cbv
  exact ⟨h, Bench.evaluate_instant h (some checkTrue) .standard 0⟩

end StateBench

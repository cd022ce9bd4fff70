import StateBench.Bench
import StateBench.Proofs.FanOut.Gathering

/-!
# Where evaluations fail

An evaluation stops at states, one after the other in a walk and one inside the other in containers (`Stop`). A failure
is raised at one of them, by what the state there does itself (`Raises`) or because there are no steps left
(`FailsWith`). The way to it leads through containers that it stops (`Leads`), each of which has taken the outputs of
some of its units before (`Frame`).
-/

namespace StateBench

/-- A state that is evaluated in a run. -/
structure Stop where
  place : Place
  state : State Graph
  /-- The number of states that were visited before in the walk. -/
  taken : Nat
  /-- The number of states that the walk may still visit, this one included. -/
  left : Nat
  input : Json
  time : Nat

namespace Stop

def path (stop : Stop) : StatePath := stop.place.pathOf stop.state.name

def visit (stop : Stop) : Visit := ⟨stop.path, stop.place.trail ++ [stop.taken]⟩

/-- The document that the state can refer to besides its input. -/
def context (scope : Scope) (stop : Stop) : Json := contextDocument scope.executionInput stop.state.name none

/-- What the state sees of its input. -/
def seen (scope : Scope) (stop : Stop) : Except AccessError Json := stop.state.seen stop.input (stop.context scope)

/-- The mock of the state. -/
def mock? (scope : Scope) (stop : Stop) : Option MockOutcome := (scope.mocks.find? stop.path).map (·.2)

/-- What the state does. -/
def activity (scope : Scope) (stop : Stop) : Activity StateOutput :=
  scope.evaluator.runState stop.place stop.taken (scope.evaluator.walkable stop.state) stop.input

/-- What the state comes to before its output is processed. -/
def producing (scope : Scope) (stop : Stop) (seen : Json) : Activity Json :=
  scope.evaluator.produce stop.place stop.taken (scope.evaluator.walkable stop.state) seen

/-- The state has no result, and goes on with what it sees. -/
def Proceeds (scope : Scope) (stop : Stop) (seen : Json) : Prop :=
  match stop.state.kind with
  | .wait spec => spec.check seen (stop.context scope) = .ok ()
  | .succeed => True
  | .choice choices fallback =>
    ∃ chosen, Choice.first? seen (stop.context scope) choices = .ok chosen ∧ (chosen.or fallback).isSome
  | _ => False

end Stop

/-! ## Texts of Fails -/

section Texts

variable {path declared : Option String} {input context : Json}

/-- What a text of a Fail is. Without a path it is the text that is declared, if there is one. A path takes its place
and leads to the text, or to a value of another kind, which is printed. -/
inductive IsFailText (path declared : Option String) (input context : Json) : String → Prop
  | declared (noPath : path = none) : IsFailText path declared input context (declared.getD "")
  | found {p text : String} (given : path = some p) (leads : RefPath.select p input context = .ok (.string text)) :
      IsFailText path declared input context text
  | printed {p : String} {value : Json} (given : path = some p) (leads : RefPath.select p input context = .ok value)
      (noText : ∀ text, value ≠ .string text) : IsFailText path declared input context value.compact

theorem failText_ok_iff {text : String} :
    failText path declared input context = .ok text ↔ IsFailText path declared input context text := by
  constructor
  · intro h
    cases path with
    | none =>
      cases h
      exact .declared rfl
    | some p =>
      obtain ⟨value, hv, h⟩ := ok_of_bind h
      cases value with
      | string s =>
        cases h
        exact .found rfl hv
      | _ =>
        cases h
        exact .printed rfl hv (by simp)
  · intro h
    cases h with
    | declared noPath =>
      subst noPath
      rfl
    | found given leads =>
      subst given
      exact bind_ok_iff.2 ⟨_, leads, rfl⟩
    | @printed p value given leads noText =>
      subst given
      refine bind_ok_iff.2 ⟨value, leads, ?_⟩
      cases value with
      | string text => exact absurd rfl (noText text)
      | _ => rfl

/-- A text is missing only where there is a path for it, and for the reason that the path cannot be followed. -/
theorem failText_error_iff {e : AccessError} :
    failText path declared input context = .error e ↔
      ∃ p, path = some p ∧ RefPath.select p input context = .error e := by
  constructor
  · intro h
    cases path with
    | none => cases h
    | some p =>
      refine ⟨p, rfl, ?_⟩
      rw [failText] at h
      cases hv : RefPath.select p input context with
      | error other =>
        rw [hv] at h
        cases h
        rfl
      | ok value =>
        rw [hv] at h
        cases value <;> cases h
  · rintro ⟨p, rfl, h⟩
    rw [failText, h]
    rfl

end Texts

variable (scope : Scope)

/-! ## Failures of states -/

/-- The errors and causes that a state raises itself. -/
inductive Raises (stop : Stop) : String → String → Prop
  /-- The state cannot see its input. -/
  | input {e : AccessError} (fails : stop.seen scope = .error e) : Raises stop Failure.runtime e.message
  /-- The mock of the state is a failure. -/
  | mocked {seen : Json} {error cause : String} (type : stop.state.type ∈ [.task, .map, .parallel, .fail])
      (sees : stop.seen scope = .ok seen) (mock : stop.mock? scope = some (.failure error cause)) :
      Raises stop error cause
  /-- There is no executor for the task. -/
  | noExecutor {spec : TaskSpec} {seen : Json} (kind : stop.state.kind = .task spec)
      (sees : stop.seen scope = .ok seen) (unmocked : stop.mock? scope = none) (executor : scope.executor = none) :
      Raises stop Failure.taskFailed ("no task executor is configured for resource '" ++ spec.resource ++ "'")
  /-- The executor answers that the task has failed. -/
  | failed {spec : TaskSpec} {seen : Json} {executor : Executor} {error cause : String}
      (kind : stop.state.kind = .task spec) (sees : stop.seen scope = .ok seen) (unmocked : stop.mock? scope = none)
      (asks : scope.executor = some executor)
      (answer : (executor ⟨stop.visit, stop.time, spec, seen⟩).within (spec.patience scope.settings) =
        some (.error (.failed error cause))) : Raises stop error cause
  /-- The executor answers that the task cannot be run. -/
  | unavailable {spec : TaskSpec} {seen : Json} {executor : Executor} {resource detail : String}
      (kind : stop.state.kind = .task spec) (sees : stop.seen scope = .ok seen) (unmocked : stop.mock? scope = none)
      (asks : scope.executor = some executor)
      (answer : (executor ⟨stop.visit, stop.time, spec, seen⟩).within (spec.patience scope.settings) =
        some (.error (.unavailable resource detail))) :
      Raises stop Failure.taskFailed (TaskError.unavailable resource detail).message
  /-- The answer of the executor does not come in time. -/
  | tooLate {spec : TaskSpec} {seen : Json} {executor : Executor}
      (kind : stop.state.kind = .task spec) (sees : stop.seen scope = .ok seen) (unmocked : stop.mock? scope = none)
      (asks : scope.executor = some executor)
      (answer : (executor ⟨stop.visit, stop.time, spec, seen⟩).within (spec.patience scope.settings) = none) :
      Raises stop Failure.timeout
        ("task did not complete within " ++ toString (scope.settings.timeoutFor spec.timeoutSeconds) ++ "s")
  /-- The state is a Fail. -/
  | fail {spec : FailSpec} {error cause : String} (kind : stop.state.kind = .fail spec)
      (unmocked : ∀ error cause, stop.mock? scope ≠ some (.failure error cause))
      (errorText : IsFailText spec.errorPath spec.error stop.input (stop.context scope) error)
      (causeText : IsFailText spec.causePath spec.cause stop.input (stop.context scope) cause) :
      Raises stop error cause
  /-- The error of a Fail cannot be found. -/
  | errorText {spec : FailSpec} {p : String} {e : AccessError} (kind : stop.state.kind = .fail spec)
      (unmocked : ∀ error cause, stop.mock? scope ≠ some (.failure error cause)) (path : spec.errorPath = some p)
      (fails : RefPath.select p stop.input (stop.context scope) = .error e) : Raises stop Failure.runtime e.message
  /-- The cause of a Fail cannot be found. -/
  | causeText {spec : FailSpec} {error p : String} {e : AccessError} (kind : stop.state.kind = .fail spec)
      (unmocked : ∀ error cause, stop.mock? scope ≠ some (.failure error cause))
      (errorText : IsFailText spec.errorPath spec.error stop.input (stop.context scope) error)
      (path : spec.causePath = some p) (fails : RefPath.select p stop.input (stop.context scope) = .error e) :
      Raises stop Failure.runtime e.message
  /-- The duration of a Wait is not there. -/
  | wait {spec : WaitSpec} {seen : Json} {cause : String} (kind : stop.state.kind = .wait spec)
      (sees : stop.seen scope = .ok seen) (fails : spec.check seen (stop.context scope) = .error cause) :
      Raises stop Failure.runtime cause
  /-- A rule of a Choice cannot be decided. -/
  | rule {choices : List Choice} {fallback : Option String} {seen : Json} {e : AccessError}
      (kind : stop.state.kind = .choice choices fallback) (sees : stop.seen scope = .ok seen)
      (fails : Choice.first? seen (stop.context scope) choices = .error e) : Raises stop Failure.runtime e.message
  /-- No rule of a Choice holds. -/
  | noChoice {choices : List Choice} {seen : Json} (kind : stop.state.kind = .choice choices none)
      (sees : stop.seen scope = .ok seen) (none : Choice.first? seen (stop.context scope) choices = .ok none) :
      Raises stop Failure.noChoiceMatched "no choice rule matched and no Default is declared"
  /-- The items of a Map cannot be found. -/
  | items {spec : MapSpec} {iterator : Graph} {seen : Json} {e : AccessError}
      (kind : stop.state.kind = .map spec iterator) (sees : stop.seen scope = .ok seen)
      (unmocked : stop.mock? scope = none)
      (fails : RefPath.select spec.itemsPath seen (stop.context scope) = .error e) :
      Raises stop Failure.runtime e.message
  /-- The items of a Map are no array. -/
  | notArray {spec : MapSpec} {iterator : Graph} {seen value : Json} (kind : stop.state.kind = .map spec iterator)
      (sees : stop.seen scope = .ok seen) (unmocked : stop.mock? scope = none)
      (items : RefPath.select spec.itemsPath seen (stop.context scope) = .ok value)
      (noArray : ∀ items, value ≠ .array items) : Raises stop Failure.runtime (spec.notArray value)
  /-- The input of a unit of a Map cannot be made. -/
  | unitInput {spec : MapSpec} {iterator : Graph} {seen : Json} {items : List Json} {e : AccessError}
      (kind : stop.state.kind = .map spec iterator) (sees : stop.seen scope = .ok seen)
      (unmocked : stop.mock? scope = none)
      (array : RefPath.select spec.itemsPath seen (stop.context scope) = .ok (.array items))
      (fails : scope.evaluator.unitInputs stop.state.name spec seen items = .error e) :
      Raises stop Failure.runtime e.message
  /-- The output of a state with a result cannot be made. -/
  | output {seen result : Json} {e : AccessError} (type : stop.state.type ∈ [.task, .pass, .map, .parallel])
      (sees : stop.seen scope = .ok seen) (succeeds : ((stop.producing scope seen).run stop.time).result = .ok result)
      (fails : stop.state.flow.output stop.input result (stop.context scope) = .error e) :
      Raises stop Failure.runtime e.message
  /-- The output of a state without a result cannot be made. -/
  | passedOn {seen : Json} {e : AccessError} (sees : stop.seen scope = .ok seen) (proceeds : stop.Proceeds scope seen)
      (fails : stop.state.flow.selectOutput seen (stop.context scope) = .error e) :
      Raises stop Failure.runtime e.message

/-- The errors and causes with which a run ends at a stop. -/
inductive FailsWith (stop : Stop) : String → String → Prop
  | raises {error cause : String} (more : 0 < stop.left) (raises : Raises scope stop error cause) :
      FailsWith stop error cause
  /-- The walk has no steps left to visit the state. -/
  | stepLimit (none : stop.left = 0) :
      FailsWith stop Failure.runtime ("exceeded maximum step count (" ++ toString scope.settings.maxSteps ++ ")")

/-! ## Units -/

/-- What a unit of a container does: it walks a graph from its start. -/
structure UnitWalk where
  /-- The start of a branch, or the index of an item. -/
  name : String
  graph : Graph
  place : Place
  input : Json

def UnitWalk.job (walk : UnitWalk) : Activity Json := (scope.evaluator.walker walk.graph).walk walk.place walk.input

/-- The units of a Map, one for each item. -/
def Stop.itemWalks (stop : Stop) (iterator : Graph) (inputs : List Json) : List UnitWalk :=
  inputs.zipIdx.map fun (input, index) => ⟨toString index, iterator, unitPlace stop.visit true index, input⟩

/-- The units of a Parallel, one for each branch. -/
def Stop.branchWalks (stop : Stop) (branches : List Graph) (input : Json) : List UnitWalk :=
  branches.zipIdx.map fun (branch, index) =>
    ⟨branch.startAt, branch, unitPlace stop.visit stop.place.inMap index, input⟩

/-- What the units of a container are, and the bound that it sets itself. -/
inductive SetsUp (stop : Stop) : Nat → List UnitWalk → Prop
  | map {spec : MapSpec} {iterator : Graph} {seen : Json} {items inputs : List Json}
      (kind : stop.state.kind = .map spec iterator) (sees : stop.seen scope = .ok seen)
      (unmocked : stop.mock? scope = none)
      (array : RefPath.select spec.itemsPath seen (stop.context scope) = .ok (.array items))
      (makes : scope.evaluator.unitInputs stop.state.name spec seen items = .ok inputs) :
      SetsUp stop spec.maxConcurrency (stop.itemWalks iterator inputs)
  | parallel {branches : List Graph} {seen : Json} (kind : stop.state.kind = .parallel branches)
      (sees : stop.seen scope = .ok seen) (unmocked : stop.mock? scope = none) :
      SetsUp stop 0 (stop.branchWalks branches seen)

/-! ## Ways -/

/-- A walk goes on from one of its stops to the next. -/
inductive Stop.Next (g : Graph) : Stop → Stop → Prop
  | intro {stop : Stop} {out : StateOutput} {name : String} {s : State Graph} {left : Nat}
      (more : stop.left = left + 1) (succeeds : ((stop.activity scope).run stop.time).result = .ok out)
      (next : out.next = some name) (state : g.get? name = some s) :
      Next g stop ⟨stop.place, s, stop.taken + 1, left, out.output, ((stop.activity scope).run stop.time).finish⟩

/-- The stops of a walk through a graph that starts at a time. -/
inductive Walk (g : Graph) (start : String) (place : Place) (input : Json) (now : Nat) : Stop → Prop
  | start {s : State Graph} (state : g.get? start = some s) :
      Walk g start place input now ⟨place, s, 0, scope.settings.maxSteps, input, now⟩
  | next {stop other : Stop} (walk : Walk g start place input now stop) (next : stop.Next scope g other) :
      Walk g start place input now other

/-- The loop in which a container starts its units. -/
def Stop.opening (stop : Stop) (declared : Nat) (walks : List UnitWalk) : Loop Json :=
  .start (scope.settings.concurrencyFor declared walks.length) (walks.map (·.job scope)) stop.time

/-- A container is stopped by the failure of a unit that was started at a time. What it has taken before are runs of
other units, which have succeeded. -/
structure StoppedBy (origin : Loop Json) (walks : List UnitWalk) (taken : List (Landing Json)) (failed : Landing Json)
    (walk : UnitWalk) (start : Nat) (failure : Failure) : Prop where
  ends : ∃ loop, origin.Reaches loop ∧ loop.Ends (.stopped taken failed failure)
  own : ∀ landing ∈ taken, landing.IsOf origin (walks.map (·.job scope)) ∧ ∃ value, landing.result = .ok value
  distinct : ((failed :: taken).map (·.index)).Nodup
  unit : walks[failed.index]? = some walk
  launches : origin.Launches failed.index (walk.job scope) start
  landing : failed = .ofJob failed.index (walk.job scope) start

/-- A container and the units that it has taken before it is stopped. -/
structure Frame where
  container : StatePath
  units : List String
  taken : List (Landing Json)

/-- The output of a unit, if it was taken. -/
def Frame.partialAt? (frame : Frame) (index : Nat) : Option PartialResult := do
  let unit ← frame.units[index]?
  let landing ← frame.taken.find? (·.index = index)
  return ⟨frame.container, unit, ← landing.output?⟩

/-- The outputs of the units that were taken, in the order of the units. -/
def Frame.partials (frame : Frame) : List PartialResult :=
  (List.range frame.units.length).filterMap frame.partialAt?

/-- A run leads from a stop through containers to one inside it, at which it fails. The frames are those of the
containers, the innermost first: what each has taken when the unit on the way stops it. -/
inductive Leads : Stop → List Frame → Stop → Prop
  | here {stop : Stop} : Leads stop [] stop
  | inside {stop first last : Stop} {frames : List Frame} {declared start : Nat} {walks : List UnitWalk}
      {walk : UnitWalk} {taken : List (Landing Json)} {failed : Landing Json} {failure : Failure}
      (left : 0 < stop.left) (setsUp : SetsUp scope stop declared walks)
      (stopped : StoppedBy scope (stop.opening scope declared walks) walks taken failed walk start failure)
      (enters : Walk scope walk.graph walk.graph.startAt walk.place walk.input start first)
      (leads : Leads first frames last) :
      Leads stop (frames ++ [⟨stop.path, walks.map (·.name), taken⟩]) last

/-- The stops of a job outside all containers: the state alone, or those of the walk that starts at it. -/
inductive Bench.Job.StopsAt (job : Bench.Job) : Stop → Prop
  | alone (mode : job.mode = .state) :
      StopsAt job ⟨⟨job.target.ancestors, [], false⟩, job.target.state, 0, 1, job.input, 0⟩
  | onWalk {stop : Stop} (mode : job.mode = .subgraph)
      (walk : Walk scope job.target.graph job.target.state.name ⟨job.target.ancestors, [], false⟩ job.input 0 stop) :
      StopsAt job stop

end StateBench

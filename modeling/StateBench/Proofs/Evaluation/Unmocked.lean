import Mathlib
import StateBench.Proofs.Evaluation.InTurn
import StateBench.Proofs.Evaluation.Parts
import StateBench.Proofs.FanOut.Silent
import StateBench.Proofs.Machine.Locations
import StateBench.Proofs.Mock.Registry

/-!
# Mocks and executors that answer for them

A mocked Task comes to what its mock says in the turn in which it is come to. So does a Task whose executor answers at
once, but for what passes to the executor in that turn. So the mock of a Task can be left out if the executor answers
for it (`Executor.answering`): the evaluation is the same but for its events (`related_unmock`), and the report is the
same but for the name of the mock (`Bench.evaluate_unmock`).

The executor is told the resource of a Task and not which mock it stands in for. So no other Task may have the resource
(`Machine.OwnResource`).
-/

namespace StateBench

/-! ## Answering for a mock -/

/-- What an executor has to answer to come to what a mock says. -/
def MockOutcome.answer : MockOutcome → Except TaskError Json
  | .output value => .ok value
  | .failure error cause => .error (.failed error cause)

theorem MockOutcome.answer_result (outcome : MockOutcome) (path : StatePath) :
    outcome.answer.mapError (TaskError.toFailure path) = outcome.result path := by
  cases outcome <;> rfl

/-- The executor, but that all tasks with a resource are answered at once, and alike. -/
def Executor.answering (executor : Executor) (resource : String) (answer : Except TaskError Json) : Executor :=
  fun invocation => if invocation.task.resource = resource then ⟨0, answer⟩ else executor invocation

/-- The state at a path is a Task, and no other Task of the machine has its resource. -/
structure Machine.OwnResource (m : Machine) (path : StatePath) (spec : TaskSpec) : Prop where
  task : ∃ s, m.root.Declares path s ∧ s.kind = .task spec
  only : ∀ other s task, m.root.Declares other s → s.kind = .task task → task.resource = spec.resource → other = path

namespace Bench

variable {executor : Executor} {settings : Settings} {job : Job} {visit : Visit} {task : TaskSpec} {resource : String}
  {answer : Except TaskError Json}

/-- A task with the resource comes to the answer in its turn. -/
theorem silent_runTask_answering (h : task.resource = resource) (input : Json) :
    ((scope ⟨some (executor.answering resource answer), settings⟩ job).evaluator.runTask visit task input).silent =
      .done (answer.mapError (TaskError.toFailure visit.path)) := by
  funext now
  have hreply : executor.answering resource answer ⟨visit, now, task, input⟩ = ⟨0, answer⟩ := if_pos h
  show (Course.silent (Scope.taskCourse _ _ _ _)) = _
  rw [hreply]
  simp [Reply.within, Scope.taskCourse, TaskSpec.resultOf, Course.silent, Turn.silent, Turn.merge, Turn.idle,
    Activity.done]

/-- A task with another resource is run as before. -/
theorem runTask_answering_of_ne (h : task.resource ≠ resource) (registry : MockRegistry) (input : Json) :
    (scope ⟨some (executor.answering resource answer), settings⟩ { job with mocks := registry }).evaluator.runTask
        visit task input = (scope ⟨some executor, settings⟩ job).evaluator.runTask visit task input := by
  funext now
  have hreply : executor.answering resource answer ⟨visit, now, task, input⟩ = executor ⟨visit, now, task, input⟩ :=
    if_neg h
  show Scope.taskCourse _ _ _ _ = Scope.taskCourse _ _ _ _
  rw [hreply]
  rfl

/-- Where the same mock is found, states that do the same but for their events still do. -/
theorem silent_mockedOr_congr {first other : Scope} {path : StatePath}
    (h : other.mocks.find? path = first.mocks.find? path) (inMap : Bool) {x y : Activity Json}
    (hxy : x.silent = y.silent) :
    (first.evaluator.mockedOr path inMap x).silent = (other.evaluator.mockedOr path inMap y).silent := by
  cases hf : first.mocks.find? path with
  | none =>
    rw [Scope.mockedOr_of_none hf, Scope.mockedOr_of_none (h.trans hf)]
    exact Activity.silent_bind_congr rfl fun _ => hxy
  | some entry =>
    rw [Scope.mockedOr_of_some hf, Scope.mockedOr_of_some (h.trans hf)]

/-! ## Leaving out a mock -/

section Unmock

variable {m : Machine} {path : StatePath} {spec : TaskSpec} {label : String} {outcome : MockOutcome}
  {registry : MockRegistry} (sound : m.root.Sound) (unique : (m.paths.map StatePath.dotted).Nodup)
  (own : m.OwnResource path spec) (mocked : job.mocks.find? path = some (label, outcome))
  (lacks : job.mocks.Lacks registry path)

omit sound own in
include unique lacks in
/-- All other states of the machine have the mocks that they had. -/
theorem find?_of_lacks {place : StatePath} {s : State Graph} (hp : path ∈ m.paths) (hd : m.root.Declares place s)
    (hne : place ≠ path) : registry.find? place = job.mocks.find? place := by
  have hmem : place ∈ m.paths := Graph.mem_pathsBelow hd []
  rw [lacks place, if_neg fun hdot => hne (List.inj_on_of_nodup_map unique hmem hp hdot)]

include sound unique own mocked lacks

/-- An evaluation without the mock of a Task is the same but for its events if the executor answers for the Task. -/
theorem related_unmock (executor : Executor) (settings : Settings) :
    RelatedOn (fun _ x y => x.silent = y.silent) (fun path _ => m.root.Declares path)
      (scope ⟨some executor, settings⟩ job).evaluator
      (scope ⟨some (executor.answering spec.resource outcome.answer), settings⟩
        { job with mocks := registry }).evaluator := by
  obtain ⟨target, hdeclares, hkind⟩ := own.task
  have hmem : path ∈ m.paths := Graph.mem_pathsBelow hdeclares []
  have hfind {place s} (hd : m.root.Declares place s) (hne : place ≠ path) :
      registry.find? place = job.mocks.find? place := find?_of_lacks unique lacks hmem hd hne
  have htype {place s} (hd : m.root.Declares place s) (hs : s.type ≠ .task) : place ≠ path := by
    rintro rfl
    obtain rfl := sound.declares_unique hd hdeclares
    exact hs (by rw [State.type, hkind]; rfl)
  have hnone : registry.find? path = none := by rw [lacks path, if_pos rfl]
  exact {
    executionInput := rfl
    pure := fun _ => rfl
    bind := Activity.silent_bind_congr
    done := fun _ => rfl
    fail := fun {place inMap s} hd hs => by
      have hne : place ≠ path := htype hd (by rw [hs]; decide)
      have hl : (registry.find? place).map (·.2) = (job.mocks.find? place).map (·.2) := by rw [hfind hd hne]
      rw [Scope.lookForMock_eq, Scope.lookForMock_eq, scope, scope, hl]
    task := fun {place inMap s task} hd hk trail input => by
      by_cases hplace : place = path
      · subst hplace
        obtain rfl := sound.declares_unique hd hdeclares
        obtain rfl : task = spec := Kind.task.inj (hk.symm.trans hkind)
        rw [Scope.mockedOr_of_some mocked, Scope.mockedOr_of_none hnone]
        refine Activity.silent_bind_congr rfl fun _ => ?_
        rw [silent_runTask_answering rfl, MockOutcome.answer_result]
        rfl
      · have hres : task.resource ≠ spec.resource := fun hr => hplace (own.only place s task hd hk hr)
        rw [runTask_answering_of_ne hres]
        exact silent_mockedOr_congr (hfind hd hplace) inMap rfl
    container := fun {place inMap s} hd hs x y hx => by
      have hne : place ≠ path := htype hd fun ht => absurd (ht ▸ hs) (by decide)
      exact silent_mockedOr_congr (hfind hd hne) inMap (hx fun inner hi name child hc => hd.snoc hi hc)
    fanOut := fun place declared units others hu => by
      have hjobs : units.map (·.job.silent) = others.map (·.job.silent) :=
        map_eq_of_forall₂ (hu.imp fun _ _ hr => hr.2)
      rw [hu.length_eq]
      exact silent_fanOut_congr place _ hu.names hjobs
    loop := fun place _ _ position hs => Activity.silent_loop_congr hs _ _ position }

end Unmock

/-! ## Requests -/

section Requests

variable {machine : Machine} {request : Request} {path : StatePath} {label : String} {outcome : MockOutcome}
  {spec : TaskSpec} (load : Machine.load request.definition = .ok machine)
  (unique : (machine.paths.map StatePath.dotted).Nodup)
include load unique

/-- A request without the mocks of a state asks for the same job, but for that mock. -/
theorem prepare_unmock (hp : path ∈ machine.paths) (h : prepare request = .ok job) :
    ∃ bindings registry, MockRegistry.register machine bindings = .ok job.mocks ∧ job.mocks.Lacks registry path ∧
      prepare (request.unmock machine path) = .ok { job with mocks := registry } := by
  have hl : Machine.load (request.unmock machine path).definition = .ok machine := load
  unfold prepare at h ⊢
  rw [load] at h
  rw [hl]
  change jobFor machine request = .ok job at h
  show ∃ bindings registry, _ ∧ _ ∧ jobFor machine (request.unmock machine path) = _
  unfold jobFor at h ⊢
  obtain ⟨target, ht, h⟩ := ok_of_bind h
  obtain ⟨bindings, hb, h⟩ := ok_of_bind h
  obtain ⟨mocks, hm, h⟩ := ok_of_bind h
  cases h
  obtain ⟨registry, hr, lacks⟩ := MockRegistry.lacks_of_register unique hp hm
  refine ⟨bindings, registry, hm, lacks, ?_⟩
  have ht' : machine.resolve (request.unmock machine path).stateName = .ok target := ht
  rw [ht', Request.bindings_unmock hb]
  show (MockRegistry.register machine _ >>= _) = _
  rw [hr]
  rfl

/-- A Task with a mock and the same Task without it, and an executor that answers for it at once what the mock says,
make no difference in the report but for the name of the mock. -/
theorem evaluate_unmock (own : machine.OwnResource path spec) (h : prepare request = .ok job)
    (mocked : job.mocks.find? path = some (label, outcome)) (executor : Executor) (settings : Settings) :
    (⟨some (executor.answering spec.resource outcome.answer), settings⟩ : Bench).evaluate
        (request.unmock machine path) =
      ((⟨some executor, settings⟩ : Bench).evaluate request).map (·.without label) := by
  obtain ⟨s, hdeclares, -⟩ := own.task
  have hmem : path ∈ machine.paths := Graph.mem_pathsBelow hdeclares []
  have sound : machine.root.Sound := Machine.sound_of_load load
  obtain ⟨bindings, registry, hregister, lacks, hunmocked⟩ := prepare_unmock load unique hmem h
  obtain ⟨m, hm, ht, -⟩ := ok_of_prepare h
  obtain rfl : m = machine := Except.ok.inj (hm.symm.trans load)
  obtain ⟨hpath, hstate, -, transfer⟩ := Graph.declares_of_locate? (Machine.locate?_of_resolve ht)
  let plain := perform ⟨some (executor.answering spec.resource outcome.answer), settings⟩ { job with mocks := registry }
  have related := related_unmock sound unique own mocked lacks executor settings
  -- The states at which the job starts are declared in the machine.
  have hsilent : (perform ⟨some executor, settings⟩ job).silent = plain.silent :=
    related.perform (fun _ => transfer (.intro hstate .self)) fun _ name child hc => transfer (.intro hc .self)
  obtain ⟨hresult, -, hlookups⟩ := Activity.run_of_silent_eq hsilent 0
  rw [evaluate_eq, evaluate_eq, h, hunmocked]
  refine congrArg Except.ok (Eq.trans ?_ (Report.without_ofResult _ _ _ label).symm)
  rw [hresult, hlookups, AppliedMocks.ofUses_without, ← MockRegistry.uses_of_lacks hregister lacks mocked]
  rfl

end Requests

end Bench

/-- The task of a Map that runs it for every item. -/
def checkOne : State Graph := ⟨"One", .task ⟨"check", none, none⟩, none, .standard, [], []⟩

/-- The machine with such a Map. -/
def checkMachine (bound : Nat) : Machine :=
  ⟨none, "Each", [⟨"Each", .map ⟨"$", none, bound⟩ ⟨"One", [checkOne]⟩, none, .standard, [], []⟩]⟩

theorem load_taskForEach : Machine.load (taskForEach 2) = .ok (checkMachine 2) := by cbv

theorem ownResource_checkMachine (bound : Nat) :
    (checkMachine bound).OwnResource ["Each", "One"] ⟨"check", none, none⟩ where
  task := ⟨checkOne, .intro rfl (.inside List.mem_cons_self rfl .self), rfl⟩
  only other s task hd hk _ := by
    obtain ⟨state, below⟩ := hd
    obtain rfl := State.name_of_named? state
    obtain rfl := List.mem_singleton.1 (State.mem_of_named? state)
    cases below with
    | self => cases hk
    | inside graph state below =>
      obtain rfl := List.mem_singleton.1 graph
      obtain rfl := State.name_of_named? state
      obtain rfl := List.mem_singleton.1 (State.mem_of_named? state)
      cases below with
      | self => rfl
      | inside graph => cases graph

/-- A request to check three items in a Map whose task is mocked. -/
def checkMocked : Request := (checkThree (taskForEach 2)).withMock (.output "One" .null)

/-- The mock of a task in a Map can be left out. -/
theorem evaluate_unmock_checkMocked :
    ∃ job, Machine.load checkMocked.definition = .ok (checkMachine 2) ∧
      ((checkMachine 2).paths.map StatePath.dotted).Nodup ∧
      (checkMachine 2).OwnResource ["Each", "One"] ⟨"check", none, none⟩ ∧
      Bench.prepare checkMocked = .ok job ∧ job.mocks.find? ["Each", "One"] = some ("One", .output .null) ∧
      ∀ (executor : Executor) settings,
        (⟨some (executor.answering "check" (.ok .null)), settings⟩ : Bench).evaluate
            (checkMocked.unmock (checkMachine 2) ["Each", "One"]) =
          ((⟨some executor, settings⟩ : Bench).evaluate checkMocked).map (·.without "One") := by
  have hload : Machine.load checkMocked.definition = .ok (checkMachine 2) := load_taskForEach
  have hpaths : (checkMachine 2).paths.map StatePath.dotted = ["Each", "Each.One"] := by cbv
  have hunique : ((checkMachine 2).paths.map StatePath.dotted).Nodup := by
    rw [hpaths]
    decide
  have hmocked : (Bench.prepare checkMocked).map (fun job => job.mocks.find? ["Each", "One"]) =
      .ok (some ("One", .output .null)) := by cbv
  obtain ⟨job, hj, hm⟩ := ok_of_map hmocked
  have hown := ownResource_checkMachine 2
  have h := Bench.evaluate_unmock hload hunique hown hj hm
  exact ⟨job, hload, hunique, hown, hj, hm, h⟩

end StateBench

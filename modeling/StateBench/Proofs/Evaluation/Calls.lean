import Mathlib
import StateBench.Proofs.Evaluation.Origins
import StateBench.Proofs.FanOut.Events

/-!
# Which tasks are asked for

A container that is mocked is not entered. So a job comes to states only that have no mocked container around them
(`Bench.Job.Opens`), down from where the evaluation starts. It looks for mocks of these only, and it asks its executor
for those of these that are Tasks without a mock of their own (`shows_perform`). If there is no such Task, the executor
is never asked, and what the job comes to does not depend on it (`perform_eq`).
-/

namespace StateBench

namespace Bench.Job

/-! ## Open states -/

/-- The states that a job can come to without entering a container that is mocked, and whether they are in a Map that
the job enters. -/
inductive Opens (job : Job) : Region
  | alone (mode : job.mode = .state) :
      Opens job (job.target.ancestors ++ [job.target.state.name]) false job.target.state
  | onWalk {name : String} {s : State Graph} (mode : job.mode = .subgraph)
      (state : job.target.graph.get? name = some s) : Opens job (job.target.ancestors ++ [name]) false s
  | inside {path : StatePath} {inMap : Bool} {s child : State Graph} {inner : Graph} {name : String}
      (opens : Opens job path inMap s) (unmocked : job.mocks.find? path = none) (graph : inner ∈ s.kind.graphs)
      (state : inner.get? name = some child) : Opens job (path ++ [name]) (s.unitsInMap inMap) child

/-- The state at a path is mocked, or a container around it down from where the evaluation starts. -/
def Shielded (job : Job) (path : StatePath) : Prop :=
  ∃ around rest, around ≠ [] ∧ path = job.target.ancestors ++ around ++ rest ∧
    (job.mocks.find? (job.target.ancestors ++ around)).isSome

variable {job : Job} {path : StatePath} {inMap : Bool} {s : State Graph}

theorem not_shielded_ancestors : ¬ job.Shielded job.target.ancestors := by
  rintro ⟨around, rest, hne, hp, -⟩
  rw [List.append_assoc] at hp
  have hnil : around ++ rest = [] := List.self_eq_append_right.1 hp
  exact hne (List.append_eq_nil_iff.1 hnil).1

/-- A state without a mock is not shielded if those around it are not. -/
theorem not_shielded_append (hs : ¬ job.Shielded path) {name : String}
    (unmocked : job.mocks.find? (path ++ [name]) = none) : ¬ job.Shielded (path ++ [name]) := by
  rintro ⟨around, rest, hne, hp, hm⟩
  rcases List.eq_nil_or_concat rest with rfl | ⟨before, last, rfl⟩
  · rw [List.append_nil] at hp
    rw [← hp, unmocked] at hm
    cases hm
  · rw [List.concat_eq_append, ← List.append_assoc] at hp
    obtain ⟨rfl, -⟩ := List.append_inj' hp rfl
    exact hs ⟨around, before, hne, rfl, hm⟩

/-- An open state without a mock is not shielded. -/
theorem Opens.not_shielded (h : job.Opens path inMap s) (unmocked : job.mocks.find? path = none) :
    ¬ job.Shielded path := by
  induction h with
  | alone mode => exact not_shielded_append not_shielded_ancestors unmocked
  | onWalk mode state => exact not_shielded_append not_shielded_ancestors unmocked
  | inside opens hm graph state ih => exact not_shielded_append (ih hm) unmocked

/-- A container that is open and not mocked has open states in it. -/
theorem Opens.includes (h : job.Opens path inMap s) (unmocked : job.mocks.find? path = none) {inner : Graph}
    (hi : inner ∈ s.kind.graphs) : Region.Includes job.Opens path (s.unitsInMap inMap) inner := fun _ _ hs =>
  h.inside unmocked hi hs

/-- Open states are covered by the job. -/
theorem Opens.covers (hpath : job.target.path = job.target.ancestors ++ [job.target.state.name])
    (h : job.Opens path inMap s) : job.Covers path s := by
  unfold Covers
  induction h with
  | alone mode =>
    rw [mode]
    exact ⟨[], by rw [hpath, List.append_nil], .self⟩
  | onWalk mode state =>
    rw [mode]
    exact ⟨_, rfl, .intro state .self⟩
  | inside opens unmocked graph state ih =>
    cases hm : job.mode with
    | state =>
      simp only [hm] at ih ⊢
      obtain ⟨rest, rfl, hb⟩ := ih
      exact ⟨_, List.append_assoc .., hb.snoc graph state⟩
    | subgraph =>
      simp only [hm] at ih ⊢
      obtain ⟨rest, rfl, hd⟩ := ih
      exact ⟨_, List.append_assoc .., hd.snoc graph state⟩

/-- Calls are for open Tasks that are not mocked, and lookups for open states. -/
def Shown (job : Job) : Event → Prop
  | .call i => ∃ inMap s, job.Opens i.visit.path inMap s ∧ s.kind = .task i.task ∧
      job.mocks.find? i.visit.path = none
  | .answer _ => True
  | .lookup sought => ∃ s, job.Opens sought.path sought.inMap s

end Bench.Job

namespace Bench

variable (job : Job) (settings : Settings)

/-! ## Events -/

theorem shows_taskCourse {allowed : Event → Prop} {invocation : Invocation} (h : allowed (.call invocation))
    (delay : Nat) {events : List Event} (he : ∀ event ∈ events, allowed event) (result : Except Failure Json) :
    (Scope.taskCourse invocation delay events result).Shows allowed := by
  have asked : Turn.Shows allowed { Turn.idle invocation.time with events := [.call invocation] } := by
    intro event hm
    cases List.mem_singleton.1 hm
    exact h
  have settled : Turn.Shows allowed { Turn.idle (invocation.time + delay) with events } := he
  unfold Scope.taskCourse
  split
  · exact Turn.Shows.merge asked settled
  · exact ⟨asked, settled⟩

theorem shows_runTask {scope : Scope} {allowed : Event → Prop} {visit : Visit} {task : TaskSpec} {input : Json}
    (call : ∀ now, allowed (.call ⟨visit, now, task, input⟩)) (answer : allowed (.answer visit)) :
    (scope.runTask visit task input).Shows allowed := by
  unfold Scope.runTask
  cases scope.executor with
  | none => exact .done _
  | some executor =>
    refine fun now => shows_taskCourse (call now) _ (fun event he => ?_) _
    split at he
    · cases List.mem_singleton.1 he
      exact answer
    · cases he

theorem shows_mockedOr {scope : Scope} {allowed : Event → Prop} {path : StatePath} {inMap : Bool}
    {activity : Activity Json} (hl : allowed (.lookup ⟨path, inMap⟩))
    (h : scope.mocks.find? path = none → activity.Shows allowed) :
    (scope.evaluator.mockedOr path inMap activity).Shows allowed := by
  cases hm : scope.mocks.find? path with
  | none =>
    rw [Scope.mockedOr_of_none hm]
    exact .bind (.look hl) fun _ => h hm
  | some mock =>
    rw [Scope.mockedOr_of_some hm]
    exact .bind (.look hl) fun _ => .done _

/-- What an evaluation puts together asks for open Tasks and looks for the mocks of open states only. -/
theorem related_shows (executor : Option Executor) :
    RelatedOn (fun α (x _ : Activity α) => x.Shows job.Shown) job.Opens (scope ⟨executor, settings⟩ job).evaluator
      (scope ⟨executor, settings⟩ job).evaluator where
  executionInput := rfl
  pure value := .done (.ok value)
  bind := .bind
  done := .done
  fail {_ _ s} opens _ := .bind (.look ⟨s, opens⟩) fun _ => .done _
  task {_ inMap s _} opens kind _ _ :=
    shows_mockedOr ⟨s, opens⟩ fun unmocked => shows_runTask (fun _ => ⟨inMap, s, opens, kind, unmocked⟩) trivial
  container {_ _ s} opens _ _ _ hx :=
    shows_mockedOr ⟨s, opens⟩ fun unmocked => hx fun _ hi => opens.includes unmocked hi
  fanOut path declared units others hu := by
    refine shows_fanOut path _ fun unit hm => ?_
    obtain ⟨_, -, hr⟩ := hu.of_mem hm
    exact hr
  loop _ _ _ position h := .loop h _ _ position

/-- A job asks for open Tasks and looks for the mocks of open states only. -/
theorem shows_perform (executor : Option Executor) : (perform ⟨executor, settings⟩ job).Shows job.Shown :=
  (related_shows job settings executor).perform .alone fun mode _ _ hs => .onWalk mode hs

/-! ## Jobs without calls -/

section Unasked

variable (h : ∀ {path inMap s spec}, job.Opens path inMap s → s.kind = .task spec → (job.mocks.find? path).isSome)
include h

/-- Evaluations with two executors are the same where all open Tasks are mocked. -/
theorem related_unasked (first second : Option Executor) :
    RelatedOn (fun α (x y : Activity α) => x = y) job.Opens (scope ⟨first, settings⟩ job).evaluator
      (scope ⟨second, settings⟩ job).evaluator where
  executionInput := rfl
  pure _ := rfl
  bind hx hf := by rw [hx, funext hf]
  done _ := rfl
  fail _ _ := rfl
  task {path inMap s spec} opens kind trail input := by
    obtain ⟨mock, hm⟩ := Option.isSome_iff_exists.1 (h opens kind)
    rw [Scope.mockedOr_of_some hm, Scope.mockedOr_of_some hm]
  container {path inMap s} opens _ x y hx := by
    cases hm : job.mocks.find? path with
    | none => rw [Scope.mockedOr_of_none hm, Scope.mockedOr_of_none hm, hx fun inner hi => opens.includes hm hi]
    | some mock => rw [Scope.mockedOr_of_some hm, Scope.mockedOr_of_some hm]
  fanOut path declared units others hu := by
    have he : units = others :=
      List.forall₂_eq_eq_eq ▸ hu.imp fun _ _ hr => congrArg₂ FanUnit.mk hr.1 hr.2
    rw [he]
    rfl
  loop place step next position hs := by
    rw [funext hs]
    rfl

/-- What a job comes to does not depend on an executor that is never asked. -/
theorem perform_eq (first second : Option Executor) :
    perform ⟨first, settings⟩ job = perform ⟨second, settings⟩ job :=
  (related_unasked job settings h first second).perform .alone fun mode _ _ hs => .onWalk mode hs

end Unasked

/-! ## Requests -/

/-- A Task that is asked for is covered by the job and not shielded: it has no mock, and none of the containers around
it has one. Where all covered Tasks are shielded, there are no calls, and executors make no difference. -/
theorem calls_of_resolve {machine : Machine} {name : String} {job : Job} (h : machine.resolve name = .ok job.target)
    (settings : Settings) :
    (∀ executor now, ∀ i ∈ ((perform ⟨executor, settings⟩ job).run now).calls,
      ∃ s, job.Covers i.visit.path s ∧ s.kind = .task i.task ∧ ¬ job.Shielded i.visit.path) ∧
    ((∀ path s spec, job.Covers path s → s.kind = .task spec → job.Shielded path) →
      (∀ executor now, ((perform ⟨executor, settings⟩ job).run now).calls = []) ∧
      (∀ first second, perform ⟨first, settings⟩ job = perform ⟨second, settings⟩ job) ∧
      ∀ request, prepare request = .ok job → ∀ first second now,
        evaluateAt ⟨first, settings⟩ now request = evaluateAt ⟨second, settings⟩ now request) := by
  obtain ⟨hpath, -⟩ := Graph.declares_of_locate? (Machine.locate?_of_resolve h)
  have hcalls : ∀ executor now, ∀ i ∈ ((perform ⟨executor, settings⟩ job).run now).calls,
      ∃ s, job.Covers i.visit.path s ∧ s.kind = .task i.task ∧ ¬ job.Shielded i.visit.path := by
    intro executor now i hi
    obtain ⟨inMap, s, opens, kind, unmocked⟩ :=
      (shows_perform job settings executor).of_mem_events (Run.mem_calls.1 hi)
    exact ⟨s, opens.covers hpath, kind, opens.not_shielded unmocked⟩
  refine ⟨hcalls, fun shielded => ?_⟩
  have hmocked : ∀ {path inMap s spec}, job.Opens path inMap s → s.kind = .task spec →
      (job.mocks.find? path).isSome := by
    intro path inMap s spec opens kind
    by_contra hm
    have unmocked : job.mocks.find? path = none := by simpa using hm
    exact opens.not_shielded unmocked (shielded path s spec (opens.covers hpath) kind)
  have heq (first second : Option Executor) : perform ⟨first, settings⟩ job = perform ⟨second, settings⟩ job :=
    perform_eq job settings hmocked first second
  refine ⟨fun executor now => List.eq_nil_iff_forall_not_mem.2 fun i hi => ?_, heq,
    fun request hp first second now => ?_⟩
  · obtain ⟨s, covers, kind, unshielded⟩ := hcalls executor now i hi
    exact unshielded (shielded _ s _ covers kind)
  · unfold evaluateAt
    rw [hp]
    show Except.ok _ = Except.ok _
    rw [heq first second]

end Bench

/-- A request to check three items in a Map that is mocked. -/
def checkNone : Request := (checkThree (taskForEach 2)).withMock (.output "Each" (.array []))

/-- Nothing is asked for a Map that is mocked. -/
theorem calls_of_taskForEach_mocked :
    ∃ machine job, Machine.load (taskForEach 2) = .ok machine ∧ machine.resolve "Each" = .ok job.target ∧
      Bench.prepare checkNone = .ok job ∧
      (∀ path s spec, job.Covers path s → s.kind = .task spec → job.Shielded path) ∧
      ∀ first second now,
        (⟨first, .standard⟩ : Bench).evaluateAt now checkNone =
          (⟨second, .standard⟩ : Bench).evaluateAt now checkNone := by
  have hp : (Bench.prepare checkNone).map
      (fun job => (job.mode, job.target.path, (job.mocks.find? ["Each"]).isSome)) = .ok (.state, ["Each"], true) := by
    cbv
  obtain ⟨job, hj, he⟩ := ok_of_map hp
  obtain ⟨machine, hm, ht, -⟩ := Bench.ok_of_prepare hj
  simp only [Prod.mk.injEq] at he
  obtain ⟨hmode, hpath, hmock⟩ := he
  have shielded : ∀ path s spec, job.Covers path s → s.kind = .task spec → job.Shielded path := by
    intro path s spec covers _
    unfold Bench.Job.Covers at covers
    rw [hmode] at covers
    obtain ⟨rest, rfl, -⟩ := covers
    have ha : job.target.ancestors = [] := by rw [Target.ancestors, hpath]; rfl
    exact ⟨["Each"], rest, by simp, by rw [hpath, ha]; rfl, by rw [ha]; exact hmock⟩
  exact ⟨machine, job, hm, ht, hj, shielded, ((Bench.calls_of_resolve ht .standard).2 shielded).2.2 _ hj⟩

end StateBench

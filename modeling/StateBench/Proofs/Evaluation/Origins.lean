import StateBench.Proofs.Evaluation.Explained
import StateBench.Proofs.Evaluation.InTurn

/-!
# Where failures come from

A container on the way to a failure is around the state that fails (`Leads.state_below`): the path of the failure is
that of a state of the machine, among those that the job covers (`Bench.Job.Covers`). The error and the cause are those
that this state raises (`Bench.raised_of_failure`).
-/

namespace StateBench

variable {scope : Scope} {stop first last : Stop} {frames : List Frame}

/-! ## Paths -/

/-- The first stop of a unit is right below its container. -/
theorem SetsUp.path_of_enters {declared start : Nat} {walks : List UnitWalk} {walk : UnitWalk}
    (h : SetsUp scope stop declared walks) (hw : walk ∈ walks)
    (enters : Walk scope walk.graph walk.graph.startAt walk.place walk.input start first) :
    first.path = stop.path ++ [first.state.name] := by
  rw [Stop.path, Place.pathOf, enters.state.1, (h.mem_graphs hw).2]

/-- A run leads from a stop to states inside it. -/
theorem Leads.state_below (h : Leads scope stop frames last) :
    ∃ rest, last.path = stop.path ++ rest ∧ stop.state.Below rest last.state := by
  induction h with
  | here => exact ⟨[], (List.append_nil _).symm, .self⟩
  | inside _ setsUp stopped enters _ ih =>
    obtain ⟨rest, hp, hb⟩ := ih
    refine ⟨_, ?_, .inside (setsUp.mem_graphs stopped.mem).1 enters.state.2 hb⟩
    rw [hp, setsUp.path_of_enters stopped.mem enters, List.append_assoc, List.singleton_append]

namespace Bench

/-! ## Jobs -/

/-- The states that a job can come to: the target and those in it, or those of its graph and those in them. -/
def Job.Covers (job : Job) (path : StatePath) (s : State Graph) : Prop :=
  match job.mode with
  | .state => ∃ rest, path = job.target.path ++ rest ∧ job.target.state.Below rest s
  | .subgraph => ∃ rest, path = job.target.ancestors ++ rest ∧ job.target.graph.Declares rest s

/-- The states that a job comes to are covered by it and declared in its graph. -/
theorem Job.covers_of_leads {job : Job} (hpath : job.target.path = job.target.ancestors ++ [job.target.state.name])
    (ht : job.target.graph.get? job.target.state.name = some job.target.state) (hs : job.StopsAt scope stop)
    (hl : Leads scope stop frames last) :
    job.Covers last.path last.state ∧
      ∃ rest, last.path = job.target.ancestors ++ rest ∧ job.target.graph.Declares rest last.state := by
  obtain ⟨rest, hp, hb⟩ := hl.state_below
  obtain ⟨hc, hg⟩ := hs.state ht
  have hdeclares : ∃ rest, last.path = job.target.ancestors ++ rest ∧ job.target.graph.Declares rest last.state := by
    refine ⟨_, ?_, .intro hg hb⟩
    rw [hp, Stop.path, Place.pathOf, hc, List.append_assoc, List.singleton_append]
  refine ⟨?_, hdeclares⟩
  unfold Covers
  cases hs with
  | alone mode =>
    rw [mode]
    exact ⟨rest, by rw [hp, hpath]; rfl, hb⟩
  | onWalk mode _ =>
    rw [mode]
    exact hdeclares

variable {bench : Bench} {request : Request} {cause : Failure} {names : List String}

/-- A failure that is reported has the path of a state of the machine that the job covers, and the error and the cause
that this state raises when the run comes to it. -/
theorem raised_of_failure (h : bench.evaluate request = .ok (.failure cause names)) :
    ∃ machine job stop frames last, Machine.load request.definition = .ok machine ∧ prepare request = .ok job ∧
      machine.resolve request.stateName = .ok job.target ∧ job.StopsAt (bench.scope job) stop ∧
      Leads (bench.scope job) stop frames last ∧
      FailsWith (bench.scope job) last cause.error cause.cause ∧ cause.origin = last.path ∧
      machine.root.Declares cause.origin last.state ∧ cause.origin ∈ machine.paths ∧
      job.mode = request.mode ∧ job.Covers cause.origin last.state := by
  obtain ⟨machine, job, stop, frames, last, hload, hp, hr, hs, he⟩ := explained_of_failure h
  obtain ⟨_, _, _, hmode, -⟩ := ok_of_prepare hp
  obtain ⟨hpath, ht, -, transfer⟩ := Graph.declares_of_locate? (Machine.locate?_of_resolve hr)
  obtain ⟨hcovers, rest, hrest, hd⟩ := Job.covers_of_leads hpath ht hs he.leads
  have hdeclares : machine.root.Declares cause.origin last.state := by
    rw [he.origin, hrest]
    exact transfer hd
  have hmem : cause.origin ∈ machine.paths := Graph.mem_pathsBelow hdeclares []
  rw [← he.origin] at hcovers
  exact ⟨machine, job, stop, frames, last, hload, hp, hr, hs, he.leads, he.fails, he.origin, hdeclares, hmem,
    hmode, hcovers⟩

end Bench

/-- The tasks of a Map fail if there is no executor for them. -/
theorem raised_of_taskForEach_unanswered :
    ∃ machine job stop frames last, Machine.load (taskForEach 2) = .ok machine ∧
      Bench.prepare { checkThree (taskForEach 2) with mode := .subgraph } = .ok job ∧
      machine.resolve "Each" = .ok job.target ∧ job.StopsAt (Bench.standard.scope job) stop ∧
      Leads (Bench.standard.scope job) stop frames last ∧
      FailsWith (Bench.standard.scope job) last Failure.taskFailed
        "no task executor is configured for resource 'check'" ∧
      ["Each", "One"] = last.path ∧ machine.root.Declares ["Each", "One"] last.state ∧
      ["Each", "One"] ∈ machine.paths ∧ job.mode = .subgraph ∧ job.Covers ["Each", "One"] last.state := by
  have h : Bench.standard.evaluate { checkThree (taskForEach 2) with mode := .subgraph } = .ok (.failure
      ⟨Failure.taskFailed, "no task executor is configured for resource 'check'", ["Each", "One"], []⟩ []) :=
    (Bench.evaluate_inTurn none .standard 16 _).trans (by cbv)
  exact Bench.raised_of_failure h

end StateBench

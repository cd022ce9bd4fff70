import Mathlib
import StateBench.Proofs.Evaluation.Chains
import StateBench.Proofs.Evaluation.InTurn
import StateBench.Proofs.FanOut.Succeeding

/-!
# Evaluations with more steps

The most steps that the settings allow are allowed to each walk for itself. A walk that comes to its end takes as many
steps as it needs, so it takes the same ones if it could take more, and so do the walks in the units of containers. An
evaluation that succeeds is therefore the same with more steps (`Bench.evaluateAt_withMaxSteps`). One that fails may
have failed for want of steps, and with more steps it may succeed, or come to another failure.
-/

namespace StateBench

/-- The report is on a success just if the evaluation came to a result. -/
theorem Report.isSuccess_ofResult {result : Except Failure WalkResult} {inspected : String} {applied : AppliedMocks} :
    (ofResult result inspected applied).isSuccess ↔ ∃ walk, result = .ok walk := by
  cases result <;> simp [ofResult, isSuccess]

namespace Bench

/-- The bench with another number of steps that a walk may take. -/
def withMaxSteps (bench : Bench) (steps : Nat) : Bench :=
  { bench with settings := { bench.settings with maxSteps := steps } }

section Jobs

variable (bench : Bench) (job : Job) {more : Nat} (le : bench.settings.maxSteps ≤ more)
include le

/-- What an evaluation puts together is the same with more steps where it succeeds. -/
theorem related_withMaxSteps :
    RelatedOn (fun _ => Activity.SucceedsAs) (fun _ _ _ => True) (bench.scope job).evaluator
      ((bench.withMaxSteps more).scope job).evaluator where
  executionInput := rfl
  pure _ := .refl _
  bind := .bind
  done _ := .refl _
  fail _ _ := .refl _
  task _ _ _ _ := .refl _
  container _ _ x y hxy := by
    have hx : x.SucceedsAs y := hxy fun _ _ _ _ _ => trivial
    refine .bind (.refl _) fun outcome => ?_
    rcases outcome with _ | ⟨_ | ⟨error, cause⟩⟩
    · exact hx
    · exact .refl _
    · exact .refl _
  fanOut path declared units others hu := by
    rw [hu.length_eq]
    exact succeedsAs_fanOut path _ hu
  -- The messages of walks with no steps left are not the same, but these walks fail.
  loop _ _ _ position hs := .loop hs _ _ le position

theorem perform_withMaxSteps : (bench.perform job).SucceedsAs ((bench.withMaxSteps more).perform job) :=
  (bench.related_withMaxSteps job le).perform (fun _ => trivial) fun _ _ _ _ => trivial

end Jobs

/-- A request whose evaluation succeeds is evaluated in the same way if more steps are allowed. -/
theorem evaluateAt_withMaxSteps {bench : Bench} {request : Request} {now more : Nat} {evaluation : Evaluation}
    (h : bench.evaluateAt now request = .ok evaluation) (succeeds : evaluation.report.isSuccess = true)
    (le : bench.settings.maxSteps ≤ more) : (bench.withMaxSteps more).evaluateAt now request = .ok evaluation := by
  obtain ⟨job, hj, h⟩ := ok_of_bind h
  cases h
  obtain ⟨walk, hr⟩ := Report.isSuccess_ofResult.1 succeeds
  have hcourse : bench.perform job now = (bench.withMaxSteps more).perform job now :=
    bench.perform_withMaxSteps job le now walk hr
  have hrun : (bench.perform job).run now = ((bench.withMaxSteps more).perform job).run now :=
    congrArg Course.toRun hcourse
  rw [evaluateAt_of_prepare hj, ← hrun]

end Bench

/-- A request to walk a graph that takes four steps for each of two items. -/
def markTwo : Request := .forState markEach (.array [.record [], .record []]) "Each"

/-- A bench on which walks may take four steps. -/
def fourSteps : Bench := Bench.standard.withMaxSteps 4

/-- The request needs four steps for each item, and comes to the same with a thousand. -/
theorem evaluateAt_withMaxSteps_markTwo :
    ∃ evaluation, fourSteps.evaluateAt 0 markTwo = .ok evaluation ∧ evaluation.report.isSuccess = true ∧
      fourSteps.settings.maxSteps ≤ 1000 ∧ (fourSteps.withMaxSteps 1000).evaluateAt 0 markTwo = .ok evaluation := by
  have hsucceeds : (Bench.prepare markTwo).map (fun job =>
      ((Tally.evaluator none fourSteps.settings job).perform job).result.isOk) = .ok true := by cbv
  obtain ⟨job, hj, hok⟩ := ok_of_map hsucceeds
  have hresult : ((fourSteps.perform job).run 0).result =
      ((Tally.evaluator none fourSteps.settings job).perform job).result :=
    (Bench.run_inTurn none fourSteps.settings fourSteps.settings.maxConcurrency job 0).1
  have hsuccess : (Report.ofResult ((fourSteps.perform job).run 0).result markTwo.stateName
      (.ofUses (job.mocks.uses ((fourSteps.perform job).run 0).lookups))).isSuccess = true := by
    rw [Report.isSuccess_ofResult, hresult]
    exact ok_of_isOk hok
  have h := Bench.evaluateAt_of_prepare hj fourSteps 0
  exact ⟨_, h, hsuccess, by decide, Bench.evaluateAt_withMaxSteps h hsuccess (by decide)⟩

/-- With three steps the request fails. -/
example : (Bench.prepare markTwo).map (fun job =>
    ((Tally.evaluator none (fourSteps.withMaxSteps 3).settings job).perform job).result.isOk) = .ok false := by
  cbv

end StateBench

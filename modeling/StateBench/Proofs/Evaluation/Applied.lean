import Mathlib
import StateBench.Proofs.Evaluation.Calls
import StateBench.Proofs.FanOut.Agreement
import StateBench.Proofs.FanOut.Prompt
import StateBench.Proofs.Mock.Kept

/-!
# Which mocks are applied

The mocks on the record of an evaluation are those that were looked up on the way (`lookedUp_iff`), and each lookup is
marked as one in a Map if a Map around its state is entered (`Opens.inMap_iff`). An evaluation depends on the mocks that
it looks up, and not on others (`run_eq_of_mocks`). So mocks under names that nothing was found under can be left out of
a request without any difference (`evaluateAt_keepMocks`), and those on the record are enough (`applied_of_evaluateAt`).

The record is complete after a success. After a failure, lookups in units that were stopped may be missing on it; there
are no such units if no answer was waited for. What is on the record is listed on the wire (`Report.Lists`), after a
success also what is on it for Maps. A report on a failure says nothing about Maps (`mapMocks_of_failure`).
-/

namespace StateBench

/-! ## Reports -/

namespace Report

/-- On the wire the report has a list under a key, and a label is in it. -/
def Lists (report : Report) (key label : String) : Prop :=
  ∃ labels, report.toJson.field? key = some (.array labels) ∧ .string label ∈ labels

variable {before after : List (String × Json)} {key label : String} {names : List String}

theorem mem_keys_namesEntry {other : String} (h : other ∈ (namesEntry key names).map Prod.fst) : other = key := by
  unfold namesEntry at h
  split at h
  · cases h
  · exact List.mem_singleton.1 h

/-- A list stands under its key among entries with other keys, and a list without entries is left out. -/
theorem field?_namesEntry (hb : key ∉ before.map Prod.fst) (ha : key ∉ after.map Prod.fst) :
    (Json.record (before ++ namesEntry key names ++ after)).field? key =
      if names = [] then none else some (.array (names.map .string)) := by
  show Fields.find? key (Fields.ofList _) = _
  cases names with
  | nil =>
    rw [namesEntry, List.isEmpty_nil, if_pos rfl, List.append_nil]
    refine Fields.find?_ofList_eq_none ?_
    rw [List.map_append, List.mem_append, not_or]
    exact ⟨hb, ha⟩
  | cons name names =>
    rw [namesEntry, if_neg (by simp), if_neg (List.cons_ne_nil name names), List.append_assoc]
    exact Fields.find?_ofList_of_last ha _

variable {report : Report}

theorem lists_iff (h : report.toJson.field? key = if names = [] then none else some (.array (names.map .string))) :
    report.Lists key label ↔ label ∈ names := by
  rw [Lists, h]
  split
  · next he => simp [he]
  · simp

variable {walk : WalkResult} {inspected : String} {applied : AppliedMocks} {failure : Failure}

theorem lists_names_of_success :
    (success walk inspected applied).Lists "appliedMockNames" label ↔ label ∈ applied.names := by
  refine lists_iff (field?_namesEntry ?_ fun hk => ?_)
  · cases walk.next <;> simp
  · exact absurd (mem_keys_namesEntry hk) (by decide)

theorem lists_inMap_of_success :
    (success walk inspected applied).Lists "mapMocksApplied" label ↔ label ∈ applied.inMap := by
  have hnames : "mapMocksApplied" ∉ (namesEntry "appliedMockNames" applied.names).map Prod.fst := fun hk =>
    absurd (mem_keys_namesEntry hk) (by decide)
  refine lists_iff ?_
  rw [toJson, ← List.append_nil (_ ++ namesEntry "mapMocksApplied" _)]
  refine field?_namesEntry ?_ List.not_mem_nil
  rw [List.map_append, List.mem_append, not_or]
  refine ⟨?_, hnames⟩
  cases walk.next <;> simp

theorem lists_names_of_failure :
    (Report.failure failure names).Lists "appliedMockNames" label ↔ label ∈ names := by
  refine lists_iff ?_
  rw [toJson, ← List.append_nil (_ ++ namesEntry "appliedMockNames" _)]
  refine field?_namesEntry ?_ List.not_mem_nil
  split <;> simp

theorem lists_names_ofResult {result : Except Failure WalkResult} :
    (ofResult result inspected applied).Lists "appliedMockNames" label ↔ label ∈ applied.names := by
  cases result with
  | ok walk => exact lists_names_of_success
  | error failure => exact lists_names_of_failure

/-- A report on a failure says nothing about Maps. -/
theorem field?_inMap_of_failure : (Report.failure failure names).toJson.field? "mapMocksApplied" = none := by
  refine Fields.find?_ofList_eq_none ?_
  rw [List.map_append, List.mem_append, not_or]
  constructor
  · split <;> simp
  · exact fun hk => absurd (mem_keys_namesEntry hk) (by decide)

end Report

/-- The bench has to wait for the answer to a call, or until it is too late for it. -/
def Bench.WaitsFor (bench : Bench) (i : Invocation) : Prop :=
  ∃ executor, bench.executor = some executor ∧ 0 < min (executor i).delay (i.task.patience bench.settings)

namespace Bench

section Evaluations

variable (bench : Bench) (job : Job)

/-! ### The record -/

/-- A task looks for no mocks. -/
theorem recorded_runTask (visit : Visit) (task : TaskSpec) (input : Json) :
    ((bench.scope job).runTask visit task input).Recorded := by
  have hshows : ((bench.scope job).runTask visit task input).Shows fun event => event.lookup? = none :=
    shows_runTask (fun _ => rfl) rfl
  refine .of_nil (fun now => ?_) fun now => List.eq_nil_iff_forall_not_mem.2 fun sought hs => ?_
  · unfold Scope.runTask
    cases (bench.scope job).executor with
    | none => rfl
    | some executor => exact (Scope.run_taskCourse ..).2
  · have hnone := hshows.of_mem_events (Run.mem_lookedUp.1 hs)
    cases hnone

/-- What an evaluation puts together has its lookups on the record. -/
theorem related_recorded : Related (fun _ (x _ : Activity _) => x.Recorded) (bench.scope job).evaluator
    (bench.scope job).evaluator where
  executionInput := rfl
  pure value := .done (.ok value)
  bind := .bind
  done := .done
  lookForMock path inMap := (Activity.Recorded.look ⟨path, inMap⟩).bind fun _ => .done _
  runTask := bench.recorded_runTask job
  fanOut container limit _ units others hu := by
    refine recorded_fanOut container limit fun unit hm => ?_
    obtain ⟨_, -, hr⟩ := hu.of_mem hm
    exact hr
  loop _ _ _ position h := .loop h _ _ position

theorem prompt_taskCourse {waits : Invocation → Prop} {invocation : Invocation} {delay : Nat}
    (hw : delay ≠ 0 → waits invocation) {events : List Event} (he : ∀ sought, Event.lookup sought ∉ events)
    (result : Except Failure Json) : (Scope.taskCourse invocation delay events result).Prompt waits := by
  have hasked : Turn.Complete { Turn.idle invocation.time with events := [.call invocation] } := by
    intro sought hs
    cases List.mem_singleton.1 hs
  have hsettled : Turn.Complete { Turn.idle (invocation.time + delay) with events } := fun sought hs =>
    absurd hs (he sought)
  unfold Scope.taskCourse
  split
  · exact .inr ⟨_, _, rfl, hasked.merge hsettled⟩
  · next hd => exact .inl ⟨invocation, List.mem_singleton_self _, hw hd⟩

/-- A task that is not waited for is over in the turn in which it is asked for. -/
theorem prompt_runTask (visit : Visit) (task : TaskSpec) (input : Json) :
    ((bench.scope job).runTask visit task input).Prompt bench.WaitsFor := by
  unfold Scope.runTask
  cases he : (bench.scope job).executor with
  | none => exact .done _
  | some executor =>
    refine fun now => prompt_taskCourse (fun hd => ⟨executor, he, Nat.pos_of_ne_zero hd⟩) (fun sought hs => ?_) _
    split at hs
    · cases List.mem_singleton.1 hs
    · cases hs

/-- What an evaluation puts together ends in its first turn, or else waits for an answer. -/
theorem related_prompt : Related (fun _ (x _ : Activity _) => x.Prompt bench.WaitsFor) (bench.scope job).evaluator
    (bench.scope job).evaluator where
  executionInput := rfl
  pure value := .done (.ok value)
  bind := .bind
  done := .done
  lookForMock path inMap := (Activity.Prompt.look ⟨path, inMap⟩).bind fun _ => .done _
  runTask := bench.prompt_runTask job
  fanOut container limit _ units others hu := by
    refine prompt_fanOut container limit fun unit hm => ?_
    obtain ⟨_, -, hr⟩ := hu.of_mem hm
    exact hr
  loop _ _ _ position h := .loop h _ _ position

/-- The mocks on the record of a run are those that were looked up in it, if the run has succeeded or no answer was
waited for. -/
theorem lookedUp_iff {now : Nat}
    (settled : (∃ walk, ((bench.perform job).run now).result = .ok walk) ∨
      ∀ i ∈ ((bench.perform job).run now).calls, ¬ bench.WaitsFor i) (sought : MockLookup) :
    sought ∈ ((bench.perform job).run now).lookups ↔ sought ∈ ((bench.perform job).run now).lookedUp := by
  have hrecorded : (bench.perform job).Recorded := (bench.related_recorded job).perform job
  have hprompt : (bench.perform job).Prompt bench.WaitsFor := (bench.related_prompt job).perform job
  refine ⟨(hrecorded now).seen sought, fun hs => ?_⟩
  rcases settled with ⟨walk, hw⟩ | hcalls
  · exact (hrecorded now).complete walk hw sought hs
  · exact hprompt.complete hcalls sought hs

/-! ### The mocks that matter -/

/-- A lookup finds another mock in a registry than in that of the job. -/
def Job.Strays (job : Job) (registry : MockRegistry) (sought : MockLookup) : Prop :=
  registry.find? sought.path ≠ job.mocks.find? sought.path

/-- Evaluations with two registries agree until they look for a mock that is not the same in both. -/
theorem related_agree (registry : MockRegistry) :
    RelatedOn (fun _ => Activity.AgreeUntil (job.Strays registry)) (fun _ _ _ => True) (bench.scope job).evaluator
      (bench.scope { job with mocks := registry }).evaluator := by
  have lookForMock (path : StatePath) (inMap : Bool) :
      ((bench.scope job).evaluator.lookForMock path inMap).AgreeUntil (job.Strays registry)
        ((bench.scope { job with mocks := registry }).evaluator.lookForMock path inMap) := by
    by_cases hf : registry.find? path = job.mocks.find? path
    · rw [Scope.lookForMock_eq, Scope.lookForMock_eq, scope, scope, hf]
      exact .refl _
    · have hstrays : job.Strays registry ⟨path, inMap⟩ := hf
      exact .look hstrays _ _
  have mocked (path : StatePath) (inMap : Bool) {x y : Activity Json} (hxy : x.AgreeUntil (job.Strays registry) y) :
      ((bench.scope job).evaluator.mockedOr path inMap x).AgreeUntil (job.Strays registry)
        ((bench.scope { job with mocks := registry }).evaluator.mockedOr path inMap y) := by
    refine (lookForMock path inMap).bind fun outcome => ?_
    rcases outcome with _ | ⟨_ | ⟨error, cause⟩⟩
    · exact hxy
    · exact .refl _
    · exact .refl _
  exact {
    executionInput := rfl
    pure := fun _ => .refl _
    bind := .bind
    done := fun _ => .refl _
    fail := fun _ _ => lookForMock _ _
    task := fun _ _ _ _ => mocked _ _ (.refl _)
    container := fun _ _ _ _ hx => mocked _ _ (hx fun _ _ _ _ _ => trivial)
    fanOut := fun path declared units others hu => by
      rw [hu.length_eq]
      exact agree_fanOut path _ hu
    loop := fun _ _ _ position hs => .loop hs _ _ position }

/-- A run depends on the mocks that are looked up in it, and on no others. -/
theorem run_eq_of_mocks {registry : MockRegistry} {now : Nat}
    (h : ∀ sought ∈ ((bench.perform job).run now).lookedUp,
      registry.find? sought.path = job.mocks.find? sought.path) :
    (bench.perform job).run now = (bench.perform { job with mocks := registry }).run now := by
  have hagree : (bench.perform job).AgreeUntil (job.Strays registry) (bench.perform { job with mocks := registry }) :=
    (bench.related_agree job registry).perform (fun _ => trivial) fun _ _ _ _ => trivial
  exact hagree.eq fun sought hs => not_not_intro (h sought hs)

end Evaluations

/-! ## Lookups in Maps -/

namespace Job

/-- A Map that the job covers is around the state at a path. -/
def InMap (job : Job) (path : StatePath) : Prop :=
  ∃ around rest s, path = around ++ rest ∧ rest ≠ [] ∧ job.Covers around s ∧ s.type = .map

/-- The target of the job is declared in its graph, which is sound. -/
structure Located (job : Job) : Prop where
  path : job.target.path = job.target.ancestors ++ [job.target.state.name]
  state : job.target.graph.get? job.target.state.name = some job.target.state
  sound : job.target.graph.Sound

theorem located_of_prepare {request : Request} {job : Job} (h : prepare request = .ok job) : job.Located := by
  obtain ⟨machine, hm, ht, -⟩ := ok_of_prepare h
  obtain ⟨hpath, hstate, hsound, -⟩ := Graph.declares_of_locate? (Machine.locate?_of_resolve ht)
  exact ⟨hpath, hstate, hsound (Machine.sound_of_load hm)⟩

variable {job : Job} {path : StatePath} {inMap : Bool} {s first last : State Graph}

/-- The job covers one state under each path. -/
theorem Located.covers_unique (h : job.Located) (hf : job.Covers path first) (hl : job.Covers path last) :
    first = last := by
  unfold Covers at hf hl
  cases hm : job.mode with
  | state =>
    simp only [hm] at hf hl
    obtain ⟨rest, rfl, hf⟩ := hf
    obtain ⟨other, he, hl⟩ := hl
    obtain rfl : rest = other := List.append_cancel_left he
    exact h.sound.below_unique (Graph.mem_of_get? h.state) hf hl
  | subgraph =>
    simp only [hm] at hf hl
    obtain ⟨rest, rfl, hf⟩ := hf
    obtain ⟨other, he, hl⟩ := hl
    obtain rfl : rest = other := List.append_cancel_left he
    exact h.sound.declares_unique hf hl

/-- What the job covers is below the states around its target. -/
theorem Located.length_lt (h : job.Located) (hc : job.Covers path s) :
    job.target.ancestors.length < path.length := by
  unfold Covers at hc
  cases hm : job.mode with
  | state =>
    simp only [hm] at hc
    obtain ⟨rest, rfl, -⟩ := hc
    rw [h.path, List.length_append, List.length_append, List.length_singleton]
    omega
  | subgraph =>
    simp only [hm] at hc
    obtain ⟨rest, rfl, hd⟩ := hc
    cases hd with
    | intro state below =>
      rw [List.length_append, List.length_cons]
      omega

/-- No Map that the job covers is around a state at which it starts. -/
theorem Located.not_inMap (h : job.Located) (name : String) : ¬ job.InMap (job.target.ancestors ++ [name]) := by
  rintro ⟨around, rest, s, hp, hne, hc, -⟩
  have hlt := h.length_lt hc
  have hlen := congrArg List.length hp
  have hrest := List.length_pos_iff.2 hne
  rw [List.length_append, List.length_append, List.length_singleton] at hlen
  omega

/-- The Maps around a state in a container are those around the container, and the container itself if it is one. -/
theorem Located.inMap_append (h : job.Located) (hc : job.Covers path s) (name : String) :
    job.InMap (path ++ [name]) ↔ job.InMap path ∨ s.type = .map := by
  constructor
  · rintro ⟨around, rest, outer, hp, hne, houter, htype⟩
    obtain ⟨before, found, rfl⟩ := (List.eq_nil_or_concat' rest).resolve_left hne
    rw [← List.append_assoc] at hp
    obtain ⟨rfl, -⟩ := List.append_inj' hp rfl
    by_cases hb : before = []
    · subst hb
      rw [List.append_nil] at hc
      exact .inr (h.covers_unique houter hc ▸ htype)
    · exact .inl ⟨around, before, outer, rfl, hb, houter, htype⟩
  · rintro (⟨around, rest, outer, rfl, hne, houter, htype⟩ | htype)
    · exact ⟨around, rest ++ [name], outer, List.append_assoc .., by simp, houter, htype⟩
    · exact ⟨path, [name], s, rfl, by simp, hc, htype⟩

/-- An open state is marked as one in a Map if a Map that the job covers is around it. -/
theorem Opens.inMap_iff (h : job.Opens path inMap s) (located : job.Located) : inMap = true ↔ job.InMap path := by
  induction h with
  | alone mode => simp [located.not_inMap]
  | onWalk mode state => simp [located.not_inMap]
  | inside opens unmocked graph state ih =>
    rw [located.inMap_append (opens.covers located.path), ← ih]
    simp [State.unitsInMap]

end Job

/-- A lookup in a run is marked as one in a Map if a Map that the job covers is around its state. -/
theorem inMap_of_lookedUp (bench : Bench) {job : Job} (located : job.Located) {now : Nat} {sought : MockLookup}
    (hs : sought ∈ ((bench.perform job).run now).lookedUp) : sought.inMap = true ↔ job.InMap sought.path := by
  obtain ⟨s, opens⟩ := (shows_perform job bench.settings bench.executor).of_mem_events (Run.mem_lookedUp.1 hs)
  exact opens.inMap_iff located

/-! ## Requests -/

variable {bench : Bench} {request : Request} {now : Nat} {evaluation : Evaluation}

/-- Mocks under names that nothing was found under can be left out of a request. -/
theorem evaluateAt_keepMocks {job : Job} (h : prepare request = .ok job) {names : List String}
    (found : ∀ label, ∀ sought ∈ ((bench.perform job).run now).lookedUp, job.mocks.Found label sought → label ∈ names) :
    bench.evaluateAt now (request.keepMocks names) = bench.evaluateAt now request := by
  let run := (bench.perform job).run now
  obtain ⟨registry, hkept, keeps⟩ := prepare_keepMocks h names
  have hsame : ∀ sought ∈ run.lookedUp, registry.find? sought.path = job.mocks.find? sought.path := by
    intro sought hs
    refine (keeps sought.path).resolve_right ?_
    rintro ⟨label, outcome, hf, hk⟩
    have hlabel : label ∈ names := found label sought hs ⟨outcome, hf⟩
    rw [List.contains_eq_mem, decide_eq_false_iff_not] at hk
    exact hk hlabel
  have hrun : run = (bench.perform { job with mocks := registry }).run now := bench.run_eq_of_mocks job hsame
  -- What is on the record was looked up, so the same is found for it.
  have hrecorded : run.Recorded := (bench.related_recorded job).perform job now
  have huses : registry.uses run.lookups = job.mocks.uses run.lookups := by
    refine List.filterMap_congr fun sought hs => ?_
    rw [hsame sought (hrecorded.seen sought hs)]
  rw [evaluateAt_of_prepare hkept, evaluateAt_of_prepare h, ← hrun, huses]
  rfl

/-- In an evaluation that succeeds, or in which no answer is waited for, a name is on the record of applied mocks if a
state was seen to look for its mock that has one under this name, and it is on the record for Maps if this was in a Map
that was run. The report lists the names on the record. After a success it also lists those on the record for Maps; a
report on a failure has no such list. With the mocks that are listed alone the evaluation is the same. -/
theorem applied_of_evaluateAt (h : bench.evaluateAt now request = .ok evaluation)
    (settled : (∃ walk, evaluation.run.result = .ok walk) ∨ ∀ i ∈ evaluation.run.calls, ¬ bench.WaitsFor i) :
    ∃ job applied, prepare request = .ok job ∧
      (∀ label, label ∈ applied.names ↔ ∃ sought ∈ evaluation.run.lookedUp, job.mocks.Found label sought) ∧
      (∀ label, label ∈ applied.inMap ↔
        ∃ sought ∈ evaluation.run.lookedUp, job.mocks.Found label sought ∧ job.InMap sought.path) ∧
      (∀ label, evaluation.report.Lists "appliedMockNames" label ↔ label ∈ applied.names) ∧
      (∀ walk, evaluation.run.result = .ok walk → evaluation.report = .success walk request.stateName applied ∧
        ∀ label, evaluation.report.Lists "mapMocksApplied" label ↔ label ∈ applied.inMap) ∧
      (∀ failure, evaluation.run.result = .error failure → evaluation.report = .failure failure applied.names ∧
        evaluation.report.toJson.field? "mapMocksApplied" = none) ∧
      bench.evaluateAt now (request.keepMocks applied.names) = .ok evaluation := by
  obtain ⟨job, hj, h⟩ := ok_of_bind h
  cases h
  let run := (bench.perform job).run now
  let applied := AppliedMocks.ofUses (job.mocks.uses run.lookups)
  have hseen : ∀ sought, sought ∈ run.lookups ↔ sought ∈ run.lookedUp := bench.lookedUp_iff job settled
  have hnames (label : String) : label ∈ applied.names ↔ ∃ sought ∈ run.lookedUp, job.mocks.Found label sought := by
    rw [MockRegistry.mem_names]
    simp only [hseen]
  have hinMap (label : String) : label ∈ applied.inMap ↔
      ∃ sought ∈ run.lookedUp, job.mocks.Found label sought ∧ job.InMap sought.path := by
    rw [MockRegistry.mem_inMap]
    have located := Job.located_of_prepare hj
    constructor
    · rintro ⟨sought, hs, hf, hi⟩
      have hlooked := (hseen sought).1 hs
      exact ⟨sought, hlooked, hf, (bench.inMap_of_lookedUp located hlooked).1 hi⟩
    · rintro ⟨sought, hs, hf, hi⟩
      exact ⟨sought, (hseen sought).2 hs, hf, (bench.inMap_of_lookedUp located hs).2 hi⟩
  have hkept : bench.evaluateAt now (request.keepMocks applied.names) = bench.evaluateAt now request :=
    evaluateAt_keepMocks hj fun label sought hs hf => (hnames label).2 ⟨sought, hs, hf⟩
  have hok (walk : WalkResult) (hw : run.result = .ok walk) :
      Report.ofResult run.result request.stateName applied = .success walk request.stateName applied :=
    congrArg (Report.ofResult · request.stateName applied) hw
  have herror (failure : Failure) (hf : run.result = .error failure) :
      Report.ofResult run.result request.stateName applied = .failure failure applied.names :=
    congrArg (Report.ofResult · request.stateName applied) hf
  refine ⟨job, applied, hj, hnames, hinMap, fun label => Report.lists_names_ofResult, fun walk hw => ?_,
    fun failure hf => ?_, hkept.trans (evaluateAt_of_prepare hj bench now)⟩
  · exact ⟨hok walk hw, fun label => hok walk hw ▸ Report.lists_inMap_of_success⟩
  · exact ⟨herror failure hf, herror failure hf ▸ Report.field?_inMap_of_failure⟩

/-- Without an executor a job comes to its tally, and so does the report. -/
theorem standard_inTurn (job : Job) (inspected : String) :
    let run := (standard.perform job).run 0
    let tally := (Tally.evaluator none .standard job).perform job
    run.result = tally.result ∧ run.lookups = tally.lookups ∧
      Report.ofResult run.result inspected (.ofUses (job.mocks.uses run.lookups)) =
        Tally.report none .standard job inspected := by
  intro run tally
  obtain ⟨hresult, hlookups⟩ : run.result = tally.result ∧ run.lookups = tally.lookups :=
    run_inTurn none .standard Settings.standard.maxConcurrency job 0
  refine ⟨hresult, hlookups, ?_⟩
  rw [hresult, hlookups]
  rfl

end Bench

/-- A request to check three items in a Map whose task has two mocks under different names. -/
def checkTwice : Request :=
  ((checkThree (taskForEach 2)).withMock (.output "One" .null)).withMock (.output "Each.One" (.bool true))

/-- Of two mocks for one task the later is applied, and the other can be left out. -/
theorem applied_of_checkTwice :
    ∃ evaluation walk job applied, Bench.standard.evaluateAt 0 checkTwice = .ok evaluation ∧
      evaluation.run.result = .ok walk ∧ Bench.prepare checkTwice = .ok job ∧
      evaluation.report = .success walk "Each" applied ∧ "Each.One" ∈ applied.names ∧ "One" ∉ applied.names ∧
      evaluation.report.Lists "mapMocksApplied" "Each.One" ∧
      (∃ sought ∈ evaluation.run.lookedUp, job.mocks.Found "Each.One" sought ∧ job.InMap sought.path) ∧
      Bench.standard.evaluateAt 0 (checkTwice.keepMocks applied.names) = .ok evaluation := by
  have hfacts : (Bench.prepare checkTwice).map (fun job =>
      (((Tally.evaluator none .standard job).perform job).result.isOk,
        (Tally.report none .standard job "Each").toJson.field? "appliedMockNames",
        (Tally.report none .standard job "Each").toJson.field? "mapMocksApplied")) =
      .ok (true, some (.array [.string "Each.One"]), some (.array [.string "Each.One"])) := by
    cbv
  obtain ⟨job, hj, hf⟩ := ok_of_map hfacts
  simp only [Prod.mk.injEq] at hf
  obtain ⟨hok, hnames, hmap⟩ := hf
  obtain ⟨hresult, -, hreport⟩ := Bench.standard_inTurn job "Each"
  rw [← hreport] at hnames hmap
  rw [← hresult] at hok
  obtain ⟨walk, hwalk⟩ := ok_of_isOk hok
  have h := Bench.evaluateAt_of_prepare hj Bench.standard 0
  obtain ⟨found, applied, hfound, -, hinMap, hlists, hsuccess, -, hkept⟩ :=
    Bench.applied_of_evaluateAt h (.inl ⟨walk, hwalk⟩)
  obtain rfl : job = found := Except.ok.inj (hj.symm.trans hfound)
  obtain ⟨hshape, hmaps⟩ := hsuccess walk hwalk
  have hlisted : Report.Lists _ "mapMocksApplied" "Each.One" := ⟨_, hmap, List.mem_singleton_self _⟩
  refine ⟨_, walk, job, applied, h, hwalk, hj, hshape, (hlists _).1 ⟨_, hnames, List.mem_singleton_self _⟩,
    fun hone => ?_, hlisted, (hinMap _).1 ((hmaps _).1 hlisted), hkept⟩
  -- What is on the record is listed, and the earlier name is not.
  obtain ⟨labels, hlabels, hm⟩ := (hlists _).2 hone
  obtain rfl : [.string "Each.One"] = labels := Json.array.inj (Option.some.inj (hnames.symm.trans hlabels))
  simp at hm

/-- A request to check three items in a Map whose task is mocked to fail. -/
def checkUnready : Request := (checkThree (taskForEach 2)).withMock (.error "One" "NotReady" "")

/-- The report on a failure does not list the mocks that were applied in Maps, though one was applied there. -/
theorem mapMocks_of_failure :
    ∃ job evaluation, Bench.prepare checkUnready = .ok job ∧
      Bench.standard.evaluateAt 0 checkUnready = .ok evaluation ∧ evaluation.report.isSuccess = false ∧
      (∀ i ∈ evaluation.run.calls, ¬ Bench.standard.WaitsFor i) ∧
      (∃ sought ∈ evaluation.run.lookedUp, job.mocks.Found "One" sought ∧ job.InMap sought.path) ∧
      evaluation.report.toJson.field? "appliedMockNames" = some (.array [.string "One"]) ∧
      evaluation.report.toJson.field? "mapMocksApplied" = none := by
  have hfacts : (Bench.prepare checkUnready).map (fun job =>
      (((Tally.evaluator none .standard job).perform job).lookups, (job.mocks.find? ["Each", "One"]).map (·.1),
        (Tally.report none .standard job "Each").isSuccess,
        (Tally.report none .standard job "Each").toJson.field? "appliedMockNames",
        (Tally.report none .standard job "Each").toJson.field? "mapMocksApplied")) =
      .ok ([⟨["Each"], false⟩, ⟨["Each", "One"], true⟩], some "One", false, some (.array [.string "One"]), none) := by
    cbv
  obtain ⟨job, hj, hf⟩ := ok_of_map hfacts
  simp only [Prod.mk.injEq] at hf
  obtain ⟨hlookups, hfound, hfails, hnames, hmap⟩ := hf
  obtain ⟨-, hrecord, hreport⟩ := Bench.standard_inTurn job "Each"
  have h := Bench.evaluateAt_of_prepare hj Bench.standard 0
  have hwaits : ∀ i ∈ ((Bench.standard.perform job).run 0).calls, ¬ Bench.standard.WaitsFor i := by
    rintro i - ⟨executor, he, -⟩
    cases he
  -- The lookup in the Map is on the record, so it was seen.
  have hseen : ⟨["Each", "One"], true⟩ ∈ ((Bench.standard.perform job).run 0).lookedUp := by
    refine (Bench.standard.lookedUp_iff job (.inr hwaits) _).1 ?_
    rw [hrecord, hlookups]
    decide
  have hin : job.InMap ["Each", "One"] :=
    (Bench.standard.inMap_of_lookedUp (Bench.Job.located_of_prepare hj) hseen).1 rfl
  obtain ⟨⟨label, outcome⟩, hmock, rfl⟩ := Option.map_eq_some_iff.1 hfound
  rw [← hreport] at hfails hnames hmap
  exact ⟨job, _, hj, h, hfails, hwaits, ⟨_, hseen, ⟨outcome, hmock⟩, hin⟩, hnames, hmap⟩

end StateBench

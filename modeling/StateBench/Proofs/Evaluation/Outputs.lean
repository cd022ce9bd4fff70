import Mathlib
import StateBench.Proofs.Evaluation.Chains
import StateBench.Proofs.Evaluation.InTurn

/-!
# Outputs of containers

A Map or a Parallel that succeeds comes to an array with one output for each of its units, at the place of the unit. A
unit is a walk through a graph, and its output is that of the walk alone (`UnitWalk.ComesTo`): a container adds nothing
but the time at which it starts the unit (`UnitWalk.comesTo_of_fanOut`). What the units are, and what they are given, is
read off the state (`Stop.outputs_of_producing`): an item selector finds the item and its index in the context
(`RefPath.select_contextDocument`).
-/

namespace StateBench

variable {scope : Scope}

/-! ## Contexts -/

theorem follow?_contextDocument (executionInput : Json) (name : String) (item : Option (Nat × Json)) :
    (contextDocument executionInput name item).follow? [.field "Execution", .field "Input"] = some executionInput ∧
      (contextDocument executionInput name item).follow? [.field "State", .field "Name"] = some (.string name) ∧
      ∀ index value, item = some (index, value) →
        (contextDocument executionInput name item).follow? [.field "Map", .field "Item", .field "Index"] =
          some (.int index) ∧
        (contextDocument executionInput name item).follow? [.field "Map", .field "Item", .field "Value"] =
          some value := by
  rcases item with _ | ⟨index, value⟩ <;>
    simp [contextDocument, Json.follow?, Json.step?, Json.field?, Json.record, Fields.find?_ofList, Fields.find?]

namespace RefPath

theorem select_of_follow? {path : String} {steps : List PathStep} {context value : Json}
    (h : read path = .ok ⟨true, steps⟩) (hf : context.follow? steps = some value) (input : Json) :
    select path input context = .ok value := by
  have hl : lookup path input context = .ok (some value) := by
    rw [← hf, lookup, parse, h]
    rfl
  rw [select, hl]
  rfl

/-- In its context a state finds the input of the request and its own name and, where a unit of a Map is set up, the
item and its index. -/
theorem select_contextDocument (executionInput input : Json) (name : String) (item : Option (Nat × Json)) :
    select "$$.Execution.Input" input (contextDocument executionInput name item) = .ok executionInput ∧
      select "$$.State.Name" input (contextDocument executionInput name item) = .ok (.string name) ∧
      ∀ index value, item = some (index, value) →
        select "$$.Map.Item.Index" input (contextDocument executionInput name item) = .ok (.int index) ∧
        select "$$.Map.Item.Value" input (contextDocument executionInput name item) = .ok value := by
  have hexecution : read "$$.Execution.Input" = .ok ⟨true, [.field "Execution", .field "Input"]⟩ := by decide +kernel
  have hstate : read "$$.State.Name" = .ok ⟨true, [.field "State", .field "Name"]⟩ := by decide +kernel
  have hindex : read "$$.Map.Item.Index" = .ok ⟨true, [.field "Map", .field "Item", .field "Index"]⟩ := by
    decide +kernel
  have hvalue : read "$$.Map.Item.Value" = .ok ⟨true, [.field "Map", .field "Item", .field "Value"]⟩ := by
    decide +kernel
  obtain ⟨hinput, hname, hitem⟩ := follow?_contextDocument executionInput name item
  refine ⟨select_of_follow? hexecution hinput input, select_of_follow? hstate hname input, fun index value h => ?_⟩
  obtain ⟨hi, hv⟩ := hitem index value h
  exact ⟨select_of_follow? hindex hi input, select_of_follow? hvalue hv input⟩

end RefPath

/-! ## Units alone -/

/-- Walking the graph of a unit alone from its start, on the input of the unit and from the time at which its container
starts it, comes to an output. -/
def UnitWalk.ComesTo (scope : Scope) (origin : Loop Json) (index : Nat) (walk : UnitWalk) (output : Json) : Prop :=
  ∃ start result, origin.Launches index (walk.job scope) start ∧
    ((scope.walkGraph walk.graph walk.graph.startAt walk.place walk.input).run start).result = .ok result ∧
    result.output = output

/-- A unit succeeds with the output of its walk. -/
theorem UnitWalk.walk_of_job {walk : UnitWalk} {start : Nat} {output : Json}
    (h : ((walk.job scope).run start).result = .ok output) :
    ∃ result, ((scope.walkGraph walk.graph walk.graph.startAt walk.place walk.input).run start).result = .ok result ∧
      result.output = output := by
  unfold job at h
  rw [Evaluator.walker_eq] at h
  obtain ⟨result, hr, h, -⟩ := Activity.run_bind_ok h
  exact ⟨result, hr, Except.ok.inj h⟩

/-- A container that succeeds has one output for each of its walks, which the walk comes to alone. -/
theorem UnitWalk.comesTo_of_fanOut {container : StatePath} {limit now : Nat} {walks : List UnitWalk}
    {outputs : List Json} (h : ((fanOut container limit (walks.map (·.unit scope))).run now).result = .ok outputs) :
    outputs.length = walks.length ∧ ∀ (index : Nat) walk, walks[index]? = some walk →
      ∃ output, outputs[index]? = some output ∧
        walk.ComesTo scope (.start limit (walks.map (·.job scope)) now) index output := by
  obtain ⟨hlength, houtputs⟩ := outputs_of_fanOut h
  rw [List.length_map] at hlength
  refine ⟨hlength, fun index walk hw => ?_⟩
  have hu : (walks.map (·.unit scope))[index]? = some (walk.unit scope) := by rw [List.getElem?_map, hw]; rfl
  obtain ⟨start, output, launches, hresult, ho⟩ := houtputs index (walk.unit scope) hu
  rw [List.map_map] at launches
  obtain ⟨result, hr, hout⟩ := UnitWalk.walk_of_job hresult
  exact ⟨output, ho, start, result, launches, hr, hout⟩

/-! ## Containers -/

namespace Stop

variable {stop : Stop}

theorem getElem?_itemWalks {iterator : Graph} {inputs : List Json} {index : Nat} {input : Json}
    (h : inputs[index]? = some input) :
    (stop.itemWalks iterator inputs)[index]? =
      some ⟨toString index, iterator, unitPlace stop.visit true index, input⟩ := by
  simp [itemWalks, List.getElem?_zipIdx, h]

theorem getElem?_branchWalks {branches : List Graph} {input : Json} {index : Nat} {branch : Graph}
    (h : branches[index]? = some branch) :
    (stop.branchWalks branches input)[index]? =
      some ⟨branch.startAt, branch, unitPlace stop.visit stop.place.inMap index, input⟩ := by
  simp [branchWalks, List.getElem?_zipIdx, h]

/-- The inputs of the units of a Map are made one by one from its items. -/
theorem getElem?_unitInputs {name : String} {spec : MapSpec} {seen : Json} {items inputs : List Json}
    (h : scope.evaluator.unitInputs name spec seen items = .ok inputs) :
    inputs.length = items.length ∧ ∀ (index : Nat) item, items[index]? = some item →
      ∃ input, inputs[index]? = some input ∧ scope.evaluator.unitInput name spec seen index item = .ok input := by
  have hinputs := mapM_ok_iff.1 h
  refine ⟨by simpa using hinputs.length_eq.symm, fun index item hi => ?_⟩
  have hitem : items.zipIdx[index]? = some (item, index) := by simp [List.getElem?_zipIdx, hi]
  exact getElem?_of_forall₂ hinputs.flip hitem

/-- A Map that succeeds has found its items and made the inputs of its units, and comes to their outputs. -/
theorem outputs_of_runMap {spec : MapSpec} {iterator : Graph} {seen raw : Json}
    (h : ((scope.evaluator.runMap stop.visit stop.state.name spec (scope.evaluator.walker iterator) seen).run
      stop.time).result = .ok raw) :
    ∃ items inputs outputs, RefPath.select spec.itemsPath seen (stop.context scope) = .ok (.array items) ∧
      scope.evaluator.unitInputs stop.state.name spec seen items = .ok inputs ∧ raw = .array outputs ∧
      outputs.length = inputs.length ∧ ∀ (index : Nat) walk, (stop.itemWalks iterator inputs)[index]? = some walk →
        ∃ output, outputs[index]? = some output ∧
          walk.ComesTo scope (stop.opening scope spec.maxConcurrency (stop.itemWalks iterator inputs)) index
            output := by
  obtain ⟨items, hitems, h⟩ := Scope.ok_of_mapItems h
  obtain ⟨inputs, hinputs, h⟩ := Scope.ok_of_orRuntime h
  obtain ⟨outputs, hraw, h⟩ := Scope.ok_of_runUnits h
  rw [← units_itemWalks, List.length_map] at h
  obtain ⟨hlength, houtputs⟩ := UnitWalk.comesTo_of_fanOut h
  have hwalks : (stop.itemWalks iterator inputs).length = inputs.length := by simp [itemWalks]
  exact ⟨items, inputs, outputs, hitems, hinputs, hraw, hlength.trans hwalks, houtputs⟩

/-- A Parallel that succeeds comes to the outputs of its branches. -/
theorem outputs_of_runParallel {branches : List Graph} {seen raw : Json}
    (h : ((scope.evaluator.runParallel stop.visit stop.place.inMap (branches.map scope.evaluator.walker) seen).run
      stop.time).result = .ok raw) :
    ∃ outputs, raw = .array outputs ∧ outputs.length = branches.length ∧
      ∀ (index : Nat) walk, (stop.branchWalks branches seen)[index]? = some walk →
        ∃ output, outputs[index]? = some output ∧
          walk.ComesTo scope (stop.opening scope 0 (stop.branchWalks branches seen)) index output := by
  obtain ⟨outputs, hraw, h⟩ := Scope.ok_of_runUnits h
  rw [← units_branchWalks, List.length_map] at h
  obtain ⟨hlength, houtputs⟩ := UnitWalk.comesTo_of_fanOut h
  have hwalks : (stop.branchWalks branches seen).length = branches.length := by simp [branchWalks]
  exact ⟨outputs, hraw, hlength.trans hwalks, houtputs⟩

/-- A Map or a Parallel without a mock that succeeds comes to an array with one output for each of its items or
branches, at the place of that. The output is that of walking the graph alone from its start: of a Map the iterator, on
the item or what the ItemSelector makes of it, with the item and its index in the context, and of a Parallel the branch,
on what the state sees of its input. -/
theorem outputs_of_producing {seen raw : Json} (unmocked : stop.mock? scope = none)
    (sees : stop.seen scope = .ok seen) (succeeds : ((stop.producing scope seen).run stop.time).result = .ok raw) :
    (∀ spec iterator, stop.state.kind = .map spec iterator →
      stop.state.flow.selectInput stop.input (stop.context scope) = .ok seen ∧
      ∃ items inputs outputs, RefPath.select spec.itemsPath seen (stop.context scope) = .ok (.array items) ∧
        raw = .array outputs ∧ inputs.length = items.length ∧ outputs.length = items.length ∧
        ∀ index item, items[index]? = some item → ∃ input output,
          inputs[index]? = some input ∧ (spec.itemSelector = none → input = item) ∧
          (∀ selector, spec.itemSelector = some selector →
            let context := contextDocument scope.executionInput stop.state.name (some (index, item))
            RefPath.select "$$.Map.Item.Index" seen context = .ok (.int index) ∧
            RefPath.select "$$.Map.Item.Value" seen context = .ok item ∧
            Template.render seen context selector = .ok input) ∧
          outputs[index]? = some output ∧
          UnitWalk.ComesTo scope (stop.opening scope spec.maxConcurrency (stop.itemWalks iterator inputs)) index
            ⟨toString index, iterator, unitPlace stop.visit true index, input⟩ output) ∧
    ∀ branches, stop.state.kind = .parallel branches →
      stop.state.flow.effectiveInput stop.input (stop.context scope) = .ok seen ∧
      ∃ outputs, raw = .array outputs ∧ outputs.length = branches.length ∧
        ∀ index branch, branches[index]? = some branch → ∃ output, outputs[index]? = some output ∧
          UnitWalk.ComesTo scope (stop.opening scope 0 (stop.branchWalks branches seen)) index
            ⟨branch.startAt, branch, unitPlace stop.visit stop.place.inMap index, seen⟩ output := by
  unfold Stop.seen State.seen at sees
  unfold producing Evaluator.produce at succeeds
  rw [kind_walkable] at succeeds
  constructor
  · intro spec iterator kind
    rw [kind] at sees succeeds
    have hmap := Scope.ok_of_mockedOr unmocked succeeds
    obtain ⟨items, inputs, outputs, hitems, hinputs, hraw, hlength, houtputs⟩ := outputs_of_runMap hmap
    obtain ⟨hcount, hinput⟩ := getElem?_unitInputs hinputs
    refine ⟨sees, items, inputs, outputs, hitems, hraw, hcount, hlength.trans hcount, fun index item hi => ?_⟩
    obtain ⟨input, hin, hmakes⟩ := hinput index item hi
    obtain ⟨output, ho, hcomes⟩ := houtputs index _ (getElem?_itemWalks hin)
    unfold Evaluator.unitInput at hmakes
    refine ⟨input, output, hin, fun hnone => ?_, fun selector hsome => ?_, ho, hcomes⟩
    · rw [hnone] at hmakes
      exact (Except.ok.inj hmakes).symm
    · rw [hsome] at hmakes
      obtain ⟨-, -, hcontext⟩ :=
        RefPath.select_contextDocument scope.executionInput seen stop.state.name (some (index, item))
      obtain ⟨hindex, hvalue⟩ := hcontext index item rfl
      exact ⟨hindex, hvalue, hmakes⟩
  · intro branches kind
    rw [kind] at sees succeeds
    have hparallel := Scope.ok_of_mockedOr unmocked succeeds
    obtain ⟨outputs, hraw, hlength, houtputs⟩ := outputs_of_runParallel hparallel
    refine ⟨sees, outputs, hraw, hlength, fun index branch hb => ?_⟩
    exact houtputs index _ (getElem?_branchWalks hb)

/-- What a state comes to with an executor that answers at once, or with none, is its tally with one unit after the
other. -/
theorem producing_inTurn (answering : Option Answering) (settings : Settings) (maxConcurrency : Nat) (job : Bench.Job)
    (stop : Stop) (seen : Json) :
    let scope := Bench.scope ⟨answering.map Answering.executor, settings.withBound maxConcurrency⟩ job
    let ev := Tally.evaluator (answering.map Answering.inTime) settings job
    ((stop.producing scope seen).run stop.time).result =
      (ev.produce stop.place stop.taken (ev.walkable stop.state) seen).result := by
  intro scope ev
  have related := (related_instant answering settings maxConcurrency job).relatedOn
  have instantly : (stop.producing scope seen).Instantly
      (ev.produce stop.place stop.taken (ev.walkable stop.state) seen) :=
    related.produce trivial (fun inner _ => related.walker inner _ _) stop.taken seen
  obtain ⟨events, he⟩ := instantly stop.time
  exact congrArg (fun course => course.toRun.result) he

end Stop

/-- A Map gives its first item a mark that the second one has, and keeps their order. -/
theorem outputs_of_producing_markEach :
    let scope : Scope := ⟨.empty, none, .standard, .null⟩
    let marked := Json.record [("set", .bool true)]
    let items := Json.array [.record [], .record [("set", .int 1)]]
    let stop : Stop := ⟨⟨[], [], false⟩, markState, 0, 1, items, 0⟩
    Machine.load markEach = .ok markMachine ∧ markMachine.root.get? "Each" = some markState ∧
      stop.mock? scope = none ∧ stop.seen scope = .ok items ∧
      ((stop.producing scope items).run stop.time).result = .ok (.array [marked, .record [("set", .int 1)]]) ∧
      ∃ origin, UnitWalk.ComesTo scope origin 0 ⟨"0", markGraph, unitPlace ⟨["Each"], [0]⟩ true 0, .record []⟩
        marked := by
  intro scope marked items stop
  have hmock : stop.mock? scope = none := by cbv
  have hseen : stop.seen scope = .ok items := by cbv
  have hrun : ((stop.producing scope items).run stop.time).result =
      .ok (.array [marked, .record [("set", .int 1)]]) := by
    let job : Bench.Job := ⟨⟨["Each"], markMachine.root, markState⟩, .empty, .state, .null⟩
    refine (Stop.producing_inTurn none .standard 16 job stop items).trans ?_
    cbv
  obtain ⟨-, found, inputs, outputs, hitems, hraw, -, -, h⟩ :=
    (Stop.outputs_of_producing hmock hseen hrun).1 ⟨"$", none, 0⟩ markGraph rfl
  have hselect : RefPath.select "$" items (stop.context scope) = .ok items := by cbv
  obtain rfl : [.record [], .record [("set", .int 1)]] = found :=
    Json.array.inj (Except.ok.inj (hselect.symm.trans hitems))
  obtain rfl : [marked, .record [("set", .int 1)]] = outputs := Json.array.inj hraw
  obtain ⟨input, output, -, hinput, -, houtput, hcomes⟩ := h 0 (.record []) rfl
  obtain rfl : marked = output := Option.some.inj houtput
  obtain rfl : input = .record [] := hinput rfl
  exact ⟨load_markEach, rfl, hmock, hseen, hrun, _, hcomes⟩

end StateBench

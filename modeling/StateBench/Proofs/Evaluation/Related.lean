import StateBench.Bench
import StateBench.Proofs.Results

/-!
# Evaluations by two evaluators

Evaluations are put together from the parts of an engine. So what relates the parts of two evaluators, and is kept when
they are put together, relates whole evaluations: those of states, given that it relates the walks of the graphs in them
(`RelatedOn.runState`), those of walks (`RelatedOn.walk`), by induction those of graphs (`RelatedOn.walker`), and those
of jobs (`RelatedOn.perform`).

A job comes to some states only, and to each of them either in units of Maps or outside. So it is enough that the parts
are related in a `Region`, the states with their paths that there are (`RelatedOn`). A container that is mocked does not
come to the states in it: they have to be in the region just if it is entered. Parts that are related wherever they
stand are so on every region (`Related.perform`).
-/

namespace StateBench

variable {m n : Type → Type} [Monad m] [Monad n] {R : (α : Type) → m α → n α → Prop}

/-- Units of two containers are related one by one. -/
def UnitsRelated (R : (α : Type) → m α → n α → Prop) : List (FanUnit m) → List (FanUnit n) → Prop :=
  List.Forall₂ fun first second => first.name = second.name ∧ R Json first.job second.job

namespace UnitsRelated

omit [Monad m] [Monad n]

theorem names {units : List (FanUnit m)} {others : List (FanUnit n)} (h : UnitsRelated R units others) :
    units.map (·.name) = others.map (·.name) := map_eq_of_forall₂ (h.imp fun _ _ hu => hu.1)

/-- A unit has its counterpart under the same index. -/
theorem getElem? {units : List (FanUnit m)} {others : List (FanUnit n)} (h : UnitsRelated R units others) {index : Nat}
    {unit : FanUnit m} (hu : units[index]? = some unit) :
    ∃ other, others[index]? = some other ∧ R Json unit.job other.job := by
  obtain ⟨other, ho, hr⟩ := getElem?_of_forall₂ h.flip hu
  exact ⟨other, ho, hr.2⟩

/-- Each unit has a counterpart. -/
theorem of_mem {units : List (FanUnit m)} {others : List (FanUnit n)} (h : UnitsRelated R units others)
    {unit : FanUnit m} (hu : unit ∈ units) : ∃ other ∈ others, R Json unit.job other.job := by
  obtain ⟨other, ho, hr⟩ := mem_of_forall₂ h.flip hu
  exact ⟨other, ho, hr.2⟩

end UnitsRelated

/-! ## Regions -/

/-- States with their paths, and whether they are visited in a unit of a Map. -/
abbrev Region := StatePath → Bool → State Graph → Prop

/-- The states of a graph are in the region, given the path of the graph's owner and whether the graph is walked in a
unit of a Map. -/
def Region.Includes (region : Region) (owner : StatePath) (inMap : Bool) (g : Graph) : Prop :=
  ∀ name s, g.get? name = some s → region (owner ++ [name]) inMap s

/-- Whether the graphs of a state are walked in units of a Map, given whether the state is visited in one. -/
def State.unitsInMap {γ : Type} (s : State γ) (inMap : Bool) : Bool := inMap || s.type = .map

/-- Two ways of walking a graph under the path of its owner, in a unit of a Map or not. -/
structure Walker.RelatedAt (R : (α : Type) → m α → n α → Prop) (owner : StatePath) (inMap : Bool) (first : Walker m)
    (second : Walker n) : Prop where
  startAt : first.startAt = second.startAt
  walk : ∀ place, place.container = owner → place.inMap = inMap → ∀ input,
    R Json (first.walk place input) (second.walk place input)

/-- What two evaluators make of the parts of evaluations in a region is related, and stays so when the parts are put
together. -/
structure RelatedOn (R : (α : Type) → m α → n α → Prop) (region : Region) (ev : Evaluator m) (other : Evaluator n) :
    Prop where
  executionInput : ev.executionInput = other.executionInput
  pure : ∀ {α : Type} (value : α), R α (pure value) (pure value)
  bind : ∀ {α β : Type} {x : m α} {y : n α} {f : α → m β} {g : α → n β},
    R α x y → (∀ value, R β (f value) (g value)) → R β (x >>= f) (y >>= g)
  done : ∀ {α : Type} (result : Except Failure α), R α (ev.done result) (other.done result)
  fail : ∀ {path : StatePath} {inMap : Bool} {s : State Graph}, region path inMap s → s.type = .fail →
    R _ (ev.lookForMock path inMap) (other.lookForMock path inMap)
  task : ∀ {path : StatePath} {inMap : Bool} {s : State Graph} {spec : TaskSpec}, region path inMap s →
    s.kind = .task spec → ∀ trail input, R Json (ev.mockedOr path inMap (ev.runTask ⟨path, trail⟩ spec input))
      (other.mockedOr path inMap (other.runTask ⟨path, trail⟩ spec input))
  /-- What a container does has to be related if its graphs belong to the region. -/
  container : ∀ {path : StatePath} {inMap : Bool} {s : State Graph}, region path inMap s →
    s.type ∈ [.map, .parallel] → ∀ {x : m Json} {y : n Json},
      ((∀ inner ∈ s.kind.graphs, region.Includes path (s.unitsInMap inMap) inner) → R Json x y) →
      R Json (ev.mockedOr path inMap x) (other.mockedOr path inMap y)
  fanOut : ∀ path declared {units : List (FanUnit m)} {others : List (FanUnit n)}, UnitsRelated R units others →
    R _ (ev.fanOut path (ev.settings.concurrencyFor declared units.length) units)
      (other.fanOut path (other.settings.concurrencyFor declared others.length) others)
  loop : ∀ place {step : Position → m (Position ⊕ WalkResult)} {next : Position → n (Position ⊕ WalkResult)} position,
    (∀ position, R _ (step position) (next position)) →
      R _ (ev.loop step (ev.tooManySteps place) ev.settings.maxSteps position)
        (other.loop next (other.tooManySteps place) other.settings.maxSteps position)

namespace RelatedOn

variable {region : Region} {ev : Evaluator m} {other : Evaluator n} (h : RelatedOn R region ev other)
include h

/-! ## Parts of states -/

theorem error {α : Type} (error cause : String) (origin : StatePath) :
    R α (ev.fail error cause origin) (other.fail error cause origin) := h.done _

theorem orRuntime {α : Type} (origin : StatePath) (result : Except AccessError α) :
    R α (ev.orRuntime origin result) (other.orRuntime origin result) := h.done _

theorem context (name : String) : ev.context name = other.context name := by
  rw [Evaluator.context, Evaluator.context, h.executionInput]

theorem choose (path : StatePath) (choices : List Choice) (fallback : Option String) (input context : Json) :
    R String (ev.choose path choices fallback input context) (other.choose path choices fallback input context) := by
  refine h.bind (h.orRuntime path _) fun chosen => ?_
  match chosen, fallback with
  | some next, _ => exact h.pure next
  | none, some next => exact h.pure next
  | none, none => exact h.error ..

theorem runFail {α : Type} (path : StatePath) (spec : FailSpec) (input context : Json) :
    R α (ev.runFail path spec input context) (other.runFail path spec input context) :=
  h.bind (h.orRuntime path _) fun error => h.bind (h.orRuntime path _) fun cause => h.error error cause path

theorem mapItems (path : StatePath) (spec : MapSpec) (input context : Json) :
    R _ (ev.mapItems path spec input context) (other.mapItems path spec input context) := by
  refine h.bind (h.orRuntime path _) fun value => ?_
  cases value with
  | array items => exact h.pure items
  | _ => exact h.error ..

theorem finish {γ δ : Type} (path : StatePath) (s : State Graph) (f : Graph → γ) (g : Graph → δ) (input : Json)
    {activity : m Json} {otherActivity : n Json} (ha : R Json activity otherActivity) :
    R _ (ev.finish path (s.mapGraphs f) input activity) (other.finish path (s.mapGraphs g) input otherActivity) := by
  refine h.bind ha fun result => ?_
  rw [h.context]
  exact h.bind (h.orRuntime path _) fun output => h.pure _

theorem passOn {γ δ : Type} (path : StatePath) (s : State Graph) (f : Graph → γ) (g : Graph → δ) (seen : Json)
    (next : Option String) :
    R _ (ev.passOn path (s.mapGraphs f) seen next) (other.passOn path (s.mapGraphs g) seen next) := by
  unfold Evaluator.passOn
  rw [h.context]
  exact h.bind (h.orRuntime path _) fun output => h.pure _

/-! ## Containers -/

theorem runUnits (path : StatePath) (declared : Nat) {units : List (FanUnit m)} {others : List (FanUnit n)}
    (hu : UnitsRelated R units others) :
    R Json (ev.runUnits path declared units) (other.runUnits path declared others) :=
  h.bind (h.fanOut path declared hu) fun _ => h.pure _

omit [Monad m] [Monad n] h in
theorem unitsRelated_map {visit : Visit} {first : Walker m} {second : Walker n}
    (hw : first.RelatedAt R visit.path true second) (inputs : List Json) :
    UnitsRelated R (first.mapUnits visit inputs) (second.mapUnits visit inputs) := by
  refine List.forall₂_map_left_iff.2 (List.forall₂_map_right_iff.2 (List.forall₂_same.2 fun unit _ => ?_))
  exact ⟨rfl, hw.walk _ rfl rfl _⟩

omit [Monad m] [Monad n] h in
theorem unitsRelated_branches {visit : Visit} {inMap : Bool} {f : Graph → Walker m} {g : Graph → Walker n}
    {branches : List Graph} (hw : ∀ branch ∈ branches, (f branch).RelatedAt R visit.path inMap (g branch))
    (input : Json) :
    UnitsRelated R (Walker.branchUnits (branches.map f) visit inMap input)
      (Walker.branchUnits (branches.map g) visit inMap input) := by
  unfold Walker.branchUnits
  rw [List.zipIdx_map, List.zipIdx_map, List.map_map, List.map_map]
  refine List.forall₂_map_left_iff.2 (List.forall₂_map_right_iff.2 (List.forall₂_same.2 fun unit hu => ?_))
  have hb := hw unit.1 (List.fst_mem_of_mem_zipIdx hu)
  exact ⟨hb.startAt, hb.walk _ rfl rfl _⟩

theorem runMap {visit : Visit} (name : String) (spec : MapSpec) {first : Walker m} {second : Walker n}
    (hw : first.RelatedAt R visit.path true second) (input : Json) :
    R Json (ev.runMap visit name spec first input) (other.runMap visit name spec second input) := by
  unfold Evaluator.runMap
  rw [h.context]
  refine h.bind (h.mapItems ..) fun items => ?_
  have hi : ev.unitInputs name spec input items = other.unitInputs name spec input items := by
    unfold Evaluator.unitInputs Evaluator.unitInput
    rw [h.executionInput]
  rw [hi]
  exact h.bind (h.orRuntime ..) fun inputs => h.runUnits _ _ (unitsRelated_map hw inputs)

/-! ## States -/

section States

variable {f : Graph → Walker m} {g : Graph → Walker n} {s : State Graph} {place : Place}
  (hr : region (place.pathOf s.name) place.inMap s)
  (hw : ∀ inner ∈ s.kind.graphs, region.Includes (place.pathOf s.name) (s.unitsInMap place.inMap) inner →
    (f inner).RelatedAt R (place.pathOf s.name) (s.unitsInMap place.inMap) (g inner))
include hr hw

theorem produce (taken : Nat) (seen : Json) :
    R Json (ev.produce place taken (s.mapGraphs f) seen) (other.produce place taken (s.mapGraphs g) seen) := by
  unfold Evaluator.produce
  cases hk : s.kind with
  | task spec =>
    simp only [State.mapGraphs, hk, Kind.mapGraphs]
    exact h.task hr hk _ _
  | map spec iterator =>
    simp only [State.mapGraphs, hk, Kind.mapGraphs]
    refine h.container hr (by simp [State.type, hk, Kind.type]) fun hi => ?_
    have hm : iterator ∈ s.kind.graphs := by simp [hk, Kind.graphs]
    have hin : s.unitsInMap place.inMap = true := by simp [State.unitsInMap, State.type, hk, Kind.type]
    have hrelated := hw iterator hm (hi iterator hm)
    rw [hin] at hrelated
    exact h.runMap _ spec hrelated seen
  | parallel branches =>
    simp only [State.mapGraphs, hk, Kind.mapGraphs]
    refine h.container hr (by simp [State.type, hk, Kind.type]) fun hi => ?_
    refine h.runUnits _ _ (unitsRelated_branches (fun branch hb => ?_) seen)
    have hm : branch ∈ s.kind.graphs := by simpa [hk, Kind.graphs] using hb
    have hin : s.unitsInMap place.inMap = place.inMap := by simp [State.unitsInMap, State.type, hk, Kind.type]
    have hrelated := hw branch hm (hi branch hm)
    rw [hin] at hrelated
    exact hrelated
  | _ =>
    simp only [State.mapGraphs, hk, Kind.mapGraphs]
    exact h.pure _

/-- A state is evaluated alike if the graphs in it are walked alike. -/
theorem runState (taken : Nat) (input : Json) :
    R _ (ev.runState place taken (s.mapGraphs f) input) (other.runState place taken (s.mapGraphs g) input) := by
  have hp := h.produce hr hw taken
  unfold Evaluator.runState
  simp only [h.context, State.seen_mapGraphs]
  refine h.bind (h.orRuntime ..) fun seen => ?_
  cases hk : s.kind with
  | wait spec =>
    simp only [State.mapGraphs, hk, Kind.mapGraphs]
    cases spec.check seen (other.context s.name) with
    | error cause => exact h.error ..
    | ok _ => exact h.passOn _ s f g seen s.next
  | succeed =>
    simp only [State.mapGraphs, hk, Kind.mapGraphs]
    exact h.passOn _ s f g seen none
  | fail spec =>
    simp only [State.mapGraphs, hk, Kind.mapGraphs]
    refine h.bind (h.fail hr (by simp [State.type, hk, Kind.type])) fun outcome => ?_
    rcases outcome with _ | ⟨_ | ⟨error, cause⟩⟩
    · exact h.runFail ..
    · exact h.runFail ..
    · exact h.error ..
  | choice choices fallback =>
    simp only [State.mapGraphs, hk, Kind.mapGraphs]
    refine h.bind (h.choose ..) fun next => ?_
    exact h.passOn _ s f g seen (some next)
  | _ =>
    have hf := h.finish (place.pathOf s.name) s f g input (hp seen)
    simp only [State.mapGraphs, hk, Kind.mapGraphs] at hf ⊢
    exact hf

end States

/-! ## Walks -/

theorem undeclared {α : Type} (place : Place) (name : String) :
    R α (ev.undeclared place name) (other.undeclared place name) := h.error ..

theorem goOn {states : List (State (Walker m))} {others : List (State (Walker n))}
    (hs : ∀ name, (State.named? states name).isSome = (State.named? others name).isSome) (place : Place)
    (position : Position) (type : StateType) (out : StateOutput) :
    R _ (ev.goOn states place position type out) (other.goOn others place position type out) := by
  unfold Evaluator.goOn
  cases out.next with
  | none => exact h.pure _
  | some next =>
    simp only [hs]
    split
    · exact h.pure _
    · exact h.error ..

section Walks

variable {f : Graph → Walker m} {g : Graph → Walker n} {graph : Graph} {place : Place}
  (hr : region.Includes place.container place.inMap graph)
  (hw : ∀ s ∈ graph.states, ∀ inner ∈ s.kind.graphs, ∀ owner inMap, region.Includes owner inMap inner →
    (f inner).RelatedAt R owner inMap (g inner))
include hr hw

theorem walkStep (position : Position) :
    R _ (ev.walkStep (graph.states.map (·.mapGraphs f)) place position)
      (other.walkStep (graph.states.map (·.mapGraphs g)) place position) := by
  unfold Evaluator.walkStep
  rw [State.named?_mapGraphs, State.named?_mapGraphs]
  cases hs : State.named? graph.states position.state with
  | none => exact h.undeclared ..
  | some s =>
    have hm := List.mem_of_find?_eq_some hs
    have hn : s.name = position.state := by simpa using List.find?_some hs
    have hp : region (place.pathOf s.name) place.inMap s := hr s.name s (hn ▸ hs)
    refine h.bind (h.runState hp (fun inner hi => hw s hm inner hi _ _) _ _) fun out => ?_
    rw [State.type_mapGraphs, State.type_mapGraphs]
    refine h.goOn (fun name => ?_) place position s.type out
    rw [State.named?_mapGraphs, State.named?_mapGraphs, Option.isSome_map, Option.isSome_map]

/-- States are walked alike if the graphs in them are. -/
theorem walk (start : String) (input : Json) :
    R _ (ev.walk (graph.states.map (·.mapGraphs f)) start place input)
      (other.walk (graph.states.map (·.mapGraphs g)) start place input) := by
  unfold Evaluator.walk
  rw [State.named?_mapGraphs, State.named?_mapGraphs, Option.isSome_map, Option.isSome_map]
  split
  · exact h.loop place _ (h.walkStep hr hw)
  · exact h.undeclared ..

end Walks

/-- Every graph of the region is walked alike. -/
theorem walker (g : Graph) (owner : StatePath) (inMap : Bool) (hr : region.Includes owner inMap g) :
    (ev.walker g).RelatedAt R owner inMap (other.walker g) := by
  induction g using Graph.induction generalizing owner inMap with
  | step g ih =>
    rw [ev.walker_eq, other.walker_eq]
    refine ⟨rfl, fun place hp hi input => h.bind ?_ fun result => h.pure _⟩
    subst hp hi
    exact h.walk hr ih _ input

theorem walkGraph {g : Graph} {place : Place} (hr : region.Includes place.container place.inMap g) (start : String)
    (input : Json) : R _ (ev.walkGraph g start place input) (other.walkGraph g start place input) :=
  h.walk hr (fun _ _ inner _ => h.walker inner) start input

theorem runSingle {container : StatePath} {s : State Graph} (hr : region (container ++ [s.name]) false s)
    (input : Json) : R _ (ev.runSingle container s input) (other.runSingle container s input) := by
  let place : Place := ⟨container, [], false⟩
  have hp : region (place.pathOf s.name) place.inMap s := hr
  exact h.bind (h.runState hp (fun inner _ => h.walker inner _ _) 0 input) fun _ => h.pure _

/-- A job is done alike if the states at which it starts are in the region. -/
theorem perform {job : Bench.Job}
    (alone : job.mode = .state → region (job.target.ancestors ++ [job.target.state.name]) false job.target.state)
    (onWalk : job.mode = .subgraph → region.Includes job.target.ancestors false job.target.graph) :
    R _ (ev.perform job) (other.perform job) := by
  unfold Evaluator.perform
  cases hm : job.mode with
  | state => exact h.runSingle (alone hm) _
  | subgraph =>
    let place : Place := ⟨job.target.ancestors, [], false⟩
    have hr : region.Includes place.container place.inMap job.target.graph := onWalk hm
    exact h.walkGraph hr _ _

end RelatedOn

/-! ## Parts that are related everywhere -/

/-- What two evaluators make of the parts of evaluations is related wherever they stand. -/
structure Related (R : (α : Type) → m α → n α → Prop) (ev : Evaluator m) (other : Evaluator n) : Prop where
  executionInput : ev.executionInput = other.executionInput
  pure : ∀ {α : Type} (value : α), R α (pure value) (pure value)
  bind : ∀ {α β : Type} {x : m α} {y : n α} {f : α → m β} {g : α → n β},
    R α x y → (∀ value, R β (f value) (g value)) → R β (x >>= f) (y >>= g)
  done : ∀ {α : Type} (result : Except Failure α), R α (ev.done result) (other.done result)
  lookForMock : ∀ path inMap, R _ (ev.lookForMock path inMap) (other.lookForMock path inMap)
  runTask : ∀ visit task input, R Json (ev.runTask visit task input) (other.runTask visit task input)
  fanOut : ∀ container limit otherLimit {units : List (FanUnit m)} {others : List (FanUnit n)},
    UnitsRelated R units others → R _ (ev.fanOut container limit units) (other.fanOut container otherLimit others)
  loop : ∀ place {step : Position → m (Position ⊕ WalkResult)} {next : Position → n (Position ⊕ WalkResult)} position,
    (∀ position, R _ (step position) (next position)) →
      R _ (ev.loop step (ev.tooManySteps place) ev.settings.maxSteps position)
        (other.loop next (other.tooManySteps place) other.settings.maxSteps position)

namespace Related

variable {ev : Evaluator m} {other : Evaluator n} (h : Related R ev other)
include h

theorem mockedOr (path : StatePath) (inMap : Bool) {activity : m Json} {otherActivity : n Json}
    (ha : R Json activity otherActivity) :
    R Json (ev.mockedOr path inMap activity) (other.mockedOr path inMap otherActivity) := by
  refine h.bind (h.lookForMock path inMap) fun outcome => ?_
  match outcome with
  | some (.output value) => exact h.pure value
  | some (.failure error cause) => exact h.done _
  | none => exact ha

theorem relatedOn : RelatedOn R (fun _ _ _ => True) ev other where
  executionInput := h.executionInput
  pure := h.pure
  bind := h.bind
  done := h.done
  fail _ _ := h.lookForMock ..
  task _ _ _ _ := h.mockedOr _ _ (h.runTask ..)
  container _ _ _ _ hx := h.mockedOr _ _ (hx fun _ _ _ _ _ => trivial)
  fanOut path _ _ _ := h.fanOut path _ _
  loop := h.loop

/-- Every job is done alike. -/
theorem perform (job : Bench.Job) : R _ (ev.perform job) (other.perform job) :=
  h.relatedOn.perform (fun _ => trivial) fun _ _ _ _ => trivial

end Related

end StateBench

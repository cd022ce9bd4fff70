import StateBench.Proofs.Evaluation.Failing
import StateBench.Proofs.Machine.Locations

/-!
# Failures explained

A failure is explained (`Explained`) by a way from the stop at which the evaluation starts to the one at which it fails,
and by what the containers on the way have taken. In a sound machine every failure has an explanation
(`Graph.Sound.explained`): a walk fails at one of its stops (`Walk.stop_of_error`), and a state by itself or in a unit
of its own (`stopped_of_error`).
-/

namespace StateBench

variable {scope : Scope} {g : Graph} {failure : Failure}

/-- How a failure came about. -/
structure Explained (scope : Scope) (stop : Stop) (failure : Failure) (frames : List Frame) (last : Stop) : Prop where
  leads : Leads scope stop frames last
  fails : FailsWith scope last failure.error failure.cause
  origin : failure.origin = last.path
  partials : failure.partials = frames.flatMap Frame.partials

/-! ## Walks -/

/-- The evaluation fails at a stop, or has no steps left for it. -/
def Stop.FailsHere (scope : Scope) (stop : Stop) (failure : Failure) : Prop :=
  (0 < stop.left ∧ ((stop.activity scope).run stop.time).result = .error failure) ∨
    (stop.left = 0 ∧ failure = .of Failure.runtime
      ("exceeded maximum step count (" ++ toString scope.settings.maxSteps ++ ")") stop.path)

namespace Walk

variable {start : String} {place : Place} {input : Json} {now : Nat} {stop : Stop}

/-- A walk stays in its place, at states of its graph. -/
theorem state (h : Walk scope g start place input now stop) :
    stop.place = place ∧ g.get? stop.state.name = some stop.state := by
  induction h with
  | start state =>
    rw [Graph.name_of_get? state]
    exact ⟨rfl, state⟩
  | next walk next ih =>
    cases next with
    | intro _ _ _ state =>
      rw [Graph.name_of_get? state]
      exact ⟨ih.1, state⟩

end Walk

namespace Stop

variable {stop : Stop} (steps : List Step)

/-- Where the walk has got to at a stop. -/
def position (stop : Stop) : Position := ⟨stop.state.name, stop.input, stop.taken, steps⟩

theorem named?_walkable (name : String) :
    State.named? (g.states.map scope.evaluator.walkable) name = (g.get? name).map scope.evaluator.walkable :=
  State.named?_mapGraphs _ g.states name

/-- A step of the walk evaluates the state and goes on. -/
theorem walkStep_eq (hs : g.get? stop.state.name = some stop.state) :
    scope.evaluator.walkStep (g.states.map scope.evaluator.walkable) stop.place (stop.position steps) =
      stop.activity scope >>= fun out => scope.evaluator.goOn (g.states.map scope.evaluator.walkable) stop.place
        (stop.position steps) (scope.evaluator.walkable stop.state).type out := by
  unfold Evaluator.walkStep position
  rw [named?_walkable, hs]
  rfl

/-- Where the walk goes after a stop. -/
def following (stop : Stop) (type : StateType) (out : StateOutput) : Position ⊕ WalkResult :=
  let later := ⟨stop.path, type, out.next⟩ :: steps
  match out.next with
  | none => .inr ⟨out.output, none, later.reverse⟩
  | some name => .inl ⟨name, out.output, stop.taken + 1, later⟩

/-- In a linked graph a walk never goes on to a name that no state has. -/
theorem goOn_eq (hl : g.Linked) (hs : g.get? stop.state.name = some stop.state) {out : StateOutput}
    (h : ((stop.activity scope).run stop.time).result = .ok out) (type : StateType) :
    scope.evaluator.goOn (g.states.map scope.evaluator.walkable) stop.place (stop.position steps) type out =
      .done (.ok (stop.following steps type out)) := by
  unfold Evaluator.goOn following
  cases hn : out.next with
  | none => rfl
  | some name =>
    have ht := hl.targets stop.state (Graph.mem_of_get? hs) name (mem_targets h hn)
    simp only [named?_walkable, Option.isSome_map, show (g.get? name).isSome = true from ht, if_true]
    rfl

/-- The loop of a walk through a graph. -/
def loop (scope : Scope) (g : Graph) (place : Place) (left : Nat) (position : Position) : Activity WalkResult :=
  .loop (scope.evaluator.walkStep (g.states.map scope.evaluator.walkable) place) (scope.evaluator.tooManySteps place)
    left position

/-- A walk runs on from a stop with the run of its state, and from there to its end or from the next position. -/
theorem run_loop_succ (hl : g.Linked) (hs : g.get? stop.state.name = some stop.state) (left : Nat) :
    (loop scope g stop.place (left + 1) (stop.position steps)).run stop.time =
      ((stop.activity scope).run stop.time).followedBy fun out =>
        match stop.following steps stop.state.type out with
        | .inl position => (loop scope g stop.place left position).run ((stop.activity scope).run stop.time).finish
        | .inr result => ⟨.ok result, ((stop.activity scope).run stop.time).finish, [], []⟩ := by
  rw [loop, Activity.loop_succ, walkStep_eq steps hs, Activity.run_bind, Activity.run_bind]
  cases ho : ((stop.activity scope).run stop.time).result with
  | error failure => simp only [Run.followedBy, ho]
  | ok out =>
    have htype : (scope.evaluator.walkable stop.state).type = stop.state.type := State.type_mapGraphs ..
    rw [Run.followedBy_ok ho, Run.followedBy_ok ho, goOn_eq steps hl hs ho, Activity.run_done, htype]
    cases stop.following steps stop.state.type out with
    | inl position => simp [Run.followedBy, loop]
    | inr result => simp [Run.followedBy]

/-- A walk is the loop from its start. -/
theorem walkGraph_eq_loop {start : String} (hs : (g.get? start).isSome) (place : Place) (input : Json) :
    scope.evaluator.walkGraph g start place input =
      loop scope g place scope.settings.maxSteps ⟨start, input, 0, []⟩ := by
  unfold Evaluator.walkGraph Evaluator.walk
  rw [named?_walkable, Option.isSome_map, if_pos hs]
  rfl

end Stop

namespace Walk

variable {start : String} {place : Place} {input : Json} {now : Nat} {stop : Stop}

/-- A walk that fails after a stop fails at that stop or at a later one. -/
theorem stop_of_loop_error (hl : g.Linked) (hw : Walk scope g start place input now stop) (steps : List Step)
    (h : ((Stop.loop scope g stop.place stop.left (stop.position steps)).run stop.time).result = .error failure) :
    ∃ last, Walk scope g start place input now last ∧ last.FailsHere scope failure := by
  obtain ⟨hplace, hs⟩ := hw.state
  -- A step that goes on leads to the next stop, which has one step less left.
  induction hn : stop.left generalizing stop steps with
  | zero =>
    rw [hn, Stop.loop, Activity.loop_zero] at h
    cases h
    exact ⟨stop, hw, .inr ⟨hn, rfl⟩⟩
  | succ left ih =>
    rw [hn, Stop.run_loop_succ steps hl hs] at h
    cases ho : ((stop.activity scope).run stop.time).result with
    | error own =>
      rw [Run.followedBy_error ho] at h
      cases h
      exact ⟨stop, hw, .inl ⟨by omega, ho⟩⟩
    | ok out =>
      rw [Run.followedBy_ok ho, Stop.following] at h
      cases hnext : out.next with
      | none =>
        rw [hnext] at h
        cases h
      | some name =>
        rw [hnext] at h
        have ht := hl.targets stop.state (Graph.mem_of_get? hs) name (Stop.mem_targets ho hnext)
        obtain ⟨s, hg⟩ := Option.isSome_iff_exists.1 ht
        obtain rfl := Graph.name_of_get? hg
        have hw' := hw.next (.intro hn ho hnext hg)
        exact ih hw' _ h hw'.state.1 hw'.state.2 rfl

/-- A walk that fails does so at one of its stops. -/
theorem stop_of_error (hl : g.Linked) {start : String} (hs : (g.get? start).isSome) {place : Place} {input : Json}
    {now : Nat} (h : ((scope.evaluator.walkGraph g start place input).run now).result = .error failure) :
    ∃ last, Walk scope g start place input now last ∧ last.FailsHere scope failure := by
  obtain ⟨s, hg⟩ := Option.isSome_iff_exists.1 hs
  rw [Stop.walkGraph_eq_loop hs] at h
  obtain rfl := Graph.name_of_get? hg
  exact stop_of_loop_error hl (.start hg) [] h

end Walk

/-! ## Frames -/

/-- The partial results of a container are those of its frame. -/
theorem partialResults_eq {container : StatePath} {names : List String} {taken : List (Landing Json)}
    (nodup : (taken.map (·.index)).Nodup) (lt : ∀ landing ∈ taken, landing.index < names.length) :
    partialResults container names taken = Frame.partials ⟨container, names, taken⟩ := by
  unfold partialResults Frame.partials
  rw [Landing.inOrder_eq_filterMap nodup lt, List.filterMap_filterMap]
  refine List.filterMap_congr fun index _ => ?_
  unfold Frame.partialAt?
  cases hf : taken.find? (·.index = index) with
  | none => cases names[index]? <;> simp
  | some landing =>
    have hi : landing.index = index := by simpa using List.find?_some hf
    simp [hi]

namespace SetsUp

variable {stop : Stop} {declared : Nat} {walks : List UnitWalk} {walk : UnitWalk}

/-- The units of a container walk the graphs in it, under its path. -/
theorem mem_graphs (h : SetsUp scope stop declared walks) (hw : walk ∈ walks) :
    walk.graph ∈ stop.state.kind.graphs ∧ walk.place.container = stop.path := by
  cases h with
  | map kind =>
    obtain ⟨unit, -, rfl⟩ := List.mem_map.1 hw
    exact ⟨by simp [kind, Kind.graphs], rfl⟩
  | parallel kind =>
    obtain ⟨unit, hu, rfl⟩ := List.mem_map.1 hw
    exact ⟨by simpa [kind, Kind.graphs] using List.fst_mem_of_mem_zipIdx hu, rfl⟩

end SetsUp

/-- A unit that fails does so at a stop of its walk. -/
theorem UnitWalk.stop_of_error {walk : UnitWalk} (hs : walk.graph.Sound) {start : Nat}
    (h : ((walk.job scope).run start).result = .error failure) :
    ∃ first, Walk scope walk.graph walk.graph.startAt walk.place walk.input start first ∧
      first.FailsHere scope failure := by
  unfold job at h
  rw [Evaluator.walker_eq] at h
  rcases Activity.run_bind_error h with h | ⟨result, -, h⟩
  · exact Walk.stop_of_error hs.linked hs.linked.start h
  · cases h

theorem StoppedBy.mem {origin : Loop Json} {walks : List UnitWalk} {taken : List (Landing Json)}
    {failed : Landing Json} {walk : UnitWalk} {start : Nat}
    (h : StoppedBy scope origin walks taken failed walk start failure) : walk ∈ walks := List.mem_of_getElem? h.unit

/-- A container that fails is stopped by one of its units, and adds what it has taken before to the failure of that. -/
theorem stopped_of_error {container : StatePath} {limit now : Nat} {walks : List UnitWalk}
    (h : ((fanOut container limit (walks.map (·.unit scope))).run now).result = .error failure) :
    ∃ taken failed walk start inner,
      StoppedBy scope (.start limit (walks.map (·.job scope)) now) walks taken failed walk start inner ∧
      ((walk.job scope).run start).result = .error inner ∧
      failure = inner.addPartials (Frame.partials ⟨container, walks.map (·.name), taken⟩) := by
  obtain ⟨loop, outcome, reaches, ends, hres, -⟩ := run_fanOut container limit (walks.map (·.unit scope)) now
  have hj : (walks.map (·.unit scope)).map (·.job) = walks.map (·.job scope) := List.map_map
  have hn : (walks.map (·.unit scope)).map (·.name) = walks.map (·.name) := List.map_map
  rw [hj] at reaches
  rw [h, hn] at hres
  cases outcome with
  | completed landings => cases hres
  | stopped taken failed inner =>
    cases hres
    have sound := (Loop.Sound.start _ _ _).of_reaches reaches
    obtain ⟨⟨job, start, hjob, launches, landing⟩, hf, distinct⟩ := sound.nodup_of_stopped ends
    rw [List.getElem?_map, Option.map_eq_some_iff] at hjob
    obtain ⟨walk, unit, rfl⟩ := hjob
    rw [landing] at hf
    have own := sound.own_of_ends ends
    have lt : ∀ other ∈ taken, other.index < (walks.map (·.name)).length := by
      intro other ho
      obtain ⟨job, _, hjob, -⟩ := (own other ho).1
      simpa using (List.getElem?_eq_some_iff.1 hjob).1
    rw [partialResults_eq (List.nodup_cons.1 distinct).2 lt]
    have stopped : StoppedBy scope _ walks taken failed walk start inner :=
      ⟨⟨loop, reaches, ends⟩, own, distinct, unit, launches, landing⟩
    exact ⟨taken, failed, walk, start, inner, stopped, hf, rfl⟩

/-! ## Explanations -/

/-- Every failure at a state of a sound graph has an explanation. -/
theorem Graph.Sound.explained (hg : g.Sound) {stop : Stop} (hs : stop.state ∈ g.states)
    (h : stop.FailsHere scope failure) : ∃ frames last, Explained scope stop failure frames last := by
  -- A unit that fails walks a graph inside this one, so the induction is on the graph.
  induction g using Graph.induction generalizing stop failure with
  | step g ih =>
    rcases h with ⟨more, h⟩ | ⟨none, rfl⟩
    · rcases Stop.raised_or_within h with ⟨error, cause, hr, rfl⟩ | ⟨declared, walks, setsUp, h⟩
      · exact ⟨[], stop, .here, .raises more hr, rfl, rfl⟩
      · obtain ⟨taken, failed, walk, start, inner, stopped, hf, rfl⟩ := stopped_of_error h
        obtain ⟨hgraph, -⟩ := setsUp.mem_graphs stopped.mem
        have hwalk := hg.within hs hgraph
        obtain ⟨first, enters, fails⟩ := UnitWalk.stop_of_error hwalk hf
        obtain ⟨frames, last, hl⟩ := ih stop.state hs walk.graph hgraph hwalk (Graph.mem_of_get? enters.state.2) fails
        have leads := Leads.inside more setsUp stopped enters hl.leads
        refine ⟨_, last, leads, hl.fails, hl.origin, ?_⟩
        rw [List.flatMap_append, List.flatMap_singleton, ← hl.partials]
        rfl
    · exact ⟨[], stop, .here, .stepLimit none, rfl, rfl⟩

/-- A state of a job that stops at one is that of its graph. -/
theorem Bench.Job.StopsAt.state {job : Bench.Job} {stop : Stop} (h : job.StopsAt scope stop)
    (ht : job.target.graph.get? job.target.state.name = some job.target.state) :
    stop.place.container = job.target.ancestors ∧ job.target.graph.get? stop.state.name = some stop.state := by
  cases h with
  | alone _ => exact ⟨rfl, ht⟩
  | onWalk _ walk => exact ⟨congrArg Place.container walk.state.1, walk.state.2⟩

namespace Bench

variable {bench : Bench} {request : Request} {cause : Failure} {names : List String}

/-- What a job fails with is a failure at one of its stops. -/
theorem stop_of_error {job : Job} (hg : job.target.graph.Sound)
    (ht : job.target.graph.get? job.target.state.name = some job.target.state)
    (h : ((bench.perform job).run 0).result = .error cause) :
    ∃ stop, job.StopsAt (bench.scope job) stop ∧ stop.FailsHere (bench.scope job) cause := by
  unfold perform Evaluator.perform at h
  cases hm : job.mode with
  | state =>
    rw [hm] at h
    rcases Activity.run_bind_error h with h | ⟨out, -, h⟩
    · exact ⟨_, .alone hm, .inl ⟨Nat.one_pos, h⟩⟩
    · cases h
  | subgraph =>
    rw [hm] at h
    obtain ⟨stop, hw, hf⟩ := Walk.stop_of_error hg.linked (by rw [ht]; rfl) h
    exact ⟨stop, .onWalk hm hw, hf⟩

/-- Every failure that is reported has an explanation. -/
theorem explained_of_failure (h : bench.evaluate request = .ok (.failure cause names)) :
    ∃ machine job stop frames last, Machine.load request.definition = .ok machine ∧ prepare request = .ok job ∧
      machine.resolve request.stateName = .ok job.target ∧ job.StopsAt (bench.scope job) stop ∧
      Explained (bench.scope job) stop cause frames last := by
  rw [evaluate_eq] at h
  obtain ⟨job, hp, h⟩ := ok_of_map h
  obtain ⟨machine, hl, hr, -⟩ := ok_of_prepare hp
  obtain ⟨-, ht, hsound, -⟩ := Graph.declares_of_locate? (Machine.locate?_of_resolve hr)
  have hg := hsound (Machine.sound_of_load hl)
  have hf : ((bench.perform job).run 0).result = .error cause := by
    cases hres : ((bench.perform job).run 0).result with
    | ok walk =>
      rw [hres] at h
      cases h
    | error failure =>
      rw [hres] at h
      cases h
      rfl
  obtain ⟨stop, hs, hh⟩ := stop_of_error hg ht hf
  obtain ⟨frames, last, he⟩ := hg.explained (Graph.mem_of_get? (hs.state ht).2) hh
  exact ⟨machine, job, stop, frames, last, hl, hp, hr, hs, he⟩

end Bench

end StateBench

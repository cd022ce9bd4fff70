import StateBench.Proofs.Evaluation.Related
import StateBench.Proofs.FanOut.Silent

/-!
# Evaluations that go on after others

An executor that is asked in the course of a walk may answer by the number of states visited before. A state that is
evaluated alone, and not for the first time, has the executor to itself, but the executor has been asked before: it
answers as in a walk in which so many states were visited (`Executor.after`). So a state in a walk is evaluated as it is
alone after the states before it, but for the number that the executor is told (`Scope.silent_runState_after`).
-/

namespace StateBench

/-! ## Visits -/

/-- A trail on which so many more states were visited before in the outermost walk. -/
def trailAfter (count : Nat) (trail : List Nat) : List Nat := trail.modifyHead (· + count)

/-- The visit, with so many more states visited before in the outermost walk. -/
def Visit.after (count : Nat) (visit : Visit) : Visit := ⟨visit.path, trailAfter count visit.trail⟩

/-- The place, with so many more states visited before in the outermost walk. -/
def Place.after (count : Nat) (place : Place) : Place := { place with trail := trailAfter count place.trail }

/-- What is appended to a trail is inside the outermost walk. -/
theorem trailAfter_append {count : Nat} {trail : List Nat} (h : trail ≠ []) (inner : List Nat) :
    trailAfter count (trail ++ inner) = trailAfter count trail ++ inner := by
  cases trail with
  | nil => exact absurd rfl h
  | cons first rest => rfl

theorem unitPlace_after {count : Nat} {visit : Visit} (h : visit.trail ≠ []) (inMap : Bool) (index : Nat) :
    unitPlace (visit.after count) inMap index = (unitPlace visit inMap index).after count := by
  unfold unitPlace Place.after Visit.after
  rw [trailAfter_append h]

/-! ## Evaluators -/

/-- The evaluator whose tasks are asked for after so many more states. -/
def Evaluator.after {m : Type → Type} (ev : Evaluator m) (count : Nat) : Evaluator m :=
  { ev with runTask := fun visit => ev.runTask (visit.after count) }

namespace Evaluator

variable {m : Type → Type} [Monad m] {ev : Evaluator m} {count : Nat}

/-- The second way of walking a graph is the first with so many more states visited before. -/
structure WalksAfter (count : Nat) (first second : Walker m) : Prop where
  startAt : first.startAt = second.startAt
  walk : ∀ place, place.trail ≠ [] → ∀ input, first.walk (place.after count) input = second.walk place input

/-! ## Units -/

section Units

variable {visit : Visit} (hv : visit.trail ≠ [])
include hv

omit [Monad m] in
theorem mapUnits_after {first second : Walker m} (h : WalksAfter count first second) (inputs : List Json) :
    first.mapUnits (visit.after count) inputs = second.mapUnits visit inputs := by
  unfold Walker.mapUnits
  refine List.map_congr_left fun (input, index) _ => ?_
  show FanUnit.mk (toString index) _ = FanUnit.mk (toString index) _
  rw [unitPlace_after hv, h.walk _ (by simp [unitPlace])]

omit [Monad m] in
theorem branchUnits_after {f g : Graph → Walker m} {branches : List Graph}
    (h : ∀ branch ∈ branches, WalksAfter count (f branch) (g branch)) (inMap : Bool) (input : Json) :
    Walker.branchUnits (branches.map f) (visit.after count) inMap input =
      Walker.branchUnits (branches.map g) visit inMap input := by
  unfold Walker.branchUnits
  rw [List.zipIdx_map, List.zipIdx_map, List.map_map, List.map_map]
  refine List.map_congr_left fun unit hu => ?_
  have hb := h unit.1 (List.fst_mem_of_mem_zipIdx hu)
  show FanUnit.mk (f unit.1).startAt _ = FanUnit.mk (g unit.1).startAt _
  rw [hb.startAt, unitPlace_after hv, hb.walk _ (by simp [unitPlace])]

end Units

/-! ## States -/

section States

variable {s : State Graph} {place later : Place} {taken number : Nat}
  (hw : ∀ inner ∈ s.kind.graphs, WalksAfter count (ev.walker inner) ((ev.after count).walker inner))
  (hcontainer : later.container = place.container) (hinMap : later.inMap = place.inMap)
  (htrail : later.trail ++ [number] = trailAfter count (place.trail ++ [taken]))
include hw hcontainer hinMap htrail

theorem produce_after (seen : Json) :
    ev.produce later number (ev.walkable s) seen =
      (ev.after count).produce place taken ((ev.after count).walkable s) seen := by
  let visit : Visit := ⟨place.pathOf s.name, place.trail ++ [taken]⟩
  have hpath : later.pathOf s.name = visit.path := congrArg (· ++ [s.name]) hcontainer
  have hv : visit.trail ≠ [] := by simp [visit]
  unfold produce walkable State.mapGraphs
  simp only [htrail, hpath, hinMap]
  cases hk : s.kind with
  | map spec iterator =>
    have hunits := mapUnits_after hv (hw iterator (by simp [hk, Kind.graphs]))
    show ev.mockedOr _ _ (ev.runMap (visit.after count) ..) = _
    simp only [runMap, hunits]
    rfl
  | parallel branches =>
    have hunits := branchUnits_after hv fun branch hb => hw branch (by simpa [hk, Kind.graphs] using hb)
    show ev.mockedOr _ _ (ev.runParallel (visit.after count) ..) = _
    simp only [runParallel, hunits]
    rfl
  | _ => rfl

/-- A state is evaluated in the same way after so many more states. -/
theorem runState_after (input : Json) :
    ev.runState later number (ev.walkable s) input =
      (ev.after count).runState place taken ((ev.after count).walkable s) input := by
  have hpath : later.pathOf = place.pathOf := funext fun name => congrArg (· ++ [name]) hcontainer
  have hproduce := produce_after hw hcontainer hinMap htrail
  unfold runState
  simp only [walkable, State.seen_mapGraphs, hpath, hinMap]
  refine bind_congr fun seen => ?_
  cases hk : s.kind with
  | task _ | pass _ | map _ _ | parallel _ =>
    have hf := congrArg (ev.finish (place.pathOf s.name) (ev.walkable s) input) (hproduce seen)
    simp only [walkable, State.mapGraphs, hk, Kind.mapGraphs] at hf ⊢
    exact hf
  | _ =>
    simp only [State.mapGraphs, hk, Kind.mapGraphs]
    rfl

end States

/-! ## Walks -/

section Walks

variable {g : Graph} {place : Place} (hp : place.trail ≠ [])
  (hw : ∀ s ∈ g.states, ∀ inner ∈ s.kind.graphs, WalksAfter count (ev.walker inner) ((ev.after count).walker inner))
include hp hw

theorem walkStep_after (position : Position) :
    ev.walkStep (g.states.map ev.walkable) (place.after count) position =
      (ev.after count).walkStep (g.states.map (ev.after count).walkable) place position := by
  have htrail : (place.after count).trail ++ [position.taken] = trailAfter count (place.trail ++ [position.taken]) :=
    (trailAfter_append hp _).symm
  have hnamed (name : String) : (State.named? (g.states.map ev.walkable) name).isSome =
      (State.named? (g.states.map (ev.after count).walkable) name).isSome := by
    unfold walkable
    rw [State.named?_mapGraphs, State.named?_mapGraphs, Option.isSome_map, Option.isSome_map]
  have hgoOn (type : StateType) (out : StateOutput) :
      ev.goOn (g.states.map ev.walkable) (place.after count) position type out =
        (ev.after count).goOn (g.states.map (ev.after count).walkable) place position type out := by
    unfold goOn
    simp only [hnamed]
    rfl
  unfold walkStep
  simp only [hgoOn]
  unfold walkable
  rw [State.named?_mapGraphs, State.named?_mapGraphs]
  cases hs : State.named? g.states position.state with
  | none => rfl
  | some s =>
    have hcontainer : (place.after count).container = place.container := rfl
    have hinMap : (place.after count).inMap = place.inMap := rfl
    have hstate : ev.runState (place.after count) position.taken (ev.walkable s) position.input =
        (ev.after count).runState place position.taken ((ev.after count).walkable s) position.input :=
      runState_after (hw s (List.mem_of_find?_eq_some hs)) hcontainer hinMap htrail position.input
    simp only [Option.map_some, State.type_mapGraphs]
    exact congrArg (· >>= _) hstate

theorem walk_after (start : String) (input : Json) :
    ev.walk (g.states.map ev.walkable) start (place.after count) input =
      (ev.after count).walk (g.states.map (ev.after count).walkable) start place input := by
  have hstep := funext (walkStep_after hp hw)
  unfold walk
  rw [hstep]
  unfold walkable
  rw [State.named?_mapGraphs, State.named?_mapGraphs, Option.isSome_map, Option.isSome_map]
  rfl

end Walks

/-- Every graph is walked in the same way after so many more states. -/
theorem walksAfter_walker (count : Nat) (g : Graph) : WalksAfter count (ev.walker g) ((ev.after count).walker g) := by
  induction g using Graph.induction with
  | step g ih =>
    rw [walker_eq, walker_eq]
    refine ⟨rfl, fun place hp input => ?_⟩
    exact congrArg (· >>= _) (walk_after hp ih g.startAt input)

end Evaluator

/-! ## Scopes -/

/-- The executor, after so many more states were visited in the outermost walk. -/
def Executor.after (executor : Executor) (count : Nat) : Executor := fun invocation =>
  executor { invocation with visit := invocation.visit.after count }

namespace Scope

/-- The scope, with the executor after so many more states. -/
def after (scope : Scope) (count : Nat) : Scope := { scope with executor := scope.executor.map (·.after count) }

variable {scope : Scope} {count : Nat}

/-- The executor that is told of more states before and the executor after those states give the same answers. -/
theorem silent_runTask_after (visit : Visit) (task : TaskSpec) (input : Json) :
    (scope.runTask (visit.after count) task input).silent = ((scope.after count).runTask visit task input).silent := by
  have hc (first second : Invocation) (delay : Nat) (events : List Event) (other : List Event)
      (result : Except Failure Json) (ht : first.time = second.time) :
      (taskCourse first delay events result).silent = (taskCourse second delay other result).silent := by
    unfold taskCourse
    rw [ht]
    split <;> rfl
  unfold runTask after
  cases scope.executor with
  | none => rfl
  | some executor =>
    funext now
    exact hc _ _ _ _ _ _ rfl

/-- The two ways of going on differ only in what passes to the executor. -/
theorem related_after (scope : Scope) (count : Nat) :
    RelatedOn (fun _ x y => x.silent = y.silent) (fun _ _ _ => True) (scope.evaluator.after count)
      (scope.after count).evaluator := by
  have mocked (path : StatePath) (inMap : Bool) {x y : Activity Json} (hxy : x.silent = y.silent) :
      ((scope.evaluator.after count).mockedOr path inMap x).silent =
        ((scope.after count).evaluator.mockedOr path inMap y).silent := by
    refine Activity.silent_bind_congr rfl fun outcome => ?_
    rcases outcome with _ | ⟨_ | ⟨error, cause⟩⟩
    · exact hxy
    · rfl
    · rfl
  exact {
    executionInput := rfl
    pure := fun _ => rfl
    bind := Activity.silent_bind_congr
    done := fun _ => rfl
    fail := fun _ _ => rfl
    task := fun _ _ trail input => mocked _ _ (silent_runTask_after ..)
    container := fun _ _ _ _ hx => mocked _ _ (hx fun _ _ _ _ _ => trivial)
    fanOut := fun path declared units others hu => by
      have hjobs : units.map (·.job.silent) = others.map (·.job.silent) :=
        map_eq_of_forall₂ (hu.imp fun _ _ hr => hr.2)
      rw [hu.length_eq]
      exact silent_fanOut_congr path _ hu.names hjobs
    loop := fun place _ _ position hs => Activity.silent_loop_congr hs _ _ position }

/-- A state in a walk is evaluated as it is alone, after the states before it, but for what passes to the executor. -/
theorem silent_runState_after (container : StatePath) (inMap : Bool) (taken : Nat) (s : State Graph) (input : Json) :
    (scope.evaluator.runState ⟨container, [], inMap⟩ taken (scope.evaluator.walkable s) input).silent =
      ((scope.after taken).evaluator.runState ⟨container, [], inMap⟩ 0 ((scope.after taken).evaluator.walkable s)
        input).silent := by
  have htrail : [] ++ [taken] = trailAfter taken ([] ++ [0]) :=
    congrArg (fun number => [number]) (Nat.zero_add taken).symm
  let place : Place := ⟨container, [], inMap⟩
  have hafter : scope.evaluator.runState place taken (scope.evaluator.walkable s) input =
      (scope.evaluator.after taken).runState place 0 ((scope.evaluator.after taken).walkable s) input :=
    Evaluator.runState_after (fun inner _ => Evaluator.walksAfter_walker taken inner) rfl rfl htrail input
  have hrelated := scope.related_after taken
  rw [hafter]
  have hwalker : ∀ inner ∈ s.kind.graphs,
      Region.Includes (fun _ _ _ => True) (place.pathOf s.name) (s.unitsInMap place.inMap) inner →
      ((scope.evaluator.after taken).walker inner).RelatedAt (fun _ x y => x.silent = y.silent) (place.pathOf s.name)
        (s.unitsInMap place.inMap) ((scope.after taken).evaluator.walker inner) :=
    fun inner _ hi => hrelated.walker inner _ _ hi
  exact hrelated.runState trivial hwalker 0 input

end Scope

end StateBench

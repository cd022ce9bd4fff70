import StateBench.Json

/-!
# Definition documents

A definition document declares a graph of states. Some states own further graphs: a Map its iterator, a Parallel its
branches. What a state holds besides its transition and its graphs is kept as it is written.

`GraphDecl.fold` computes a value from the inside of a graph outwards, and `GraphDecl.fold_eq` says how.
-/

namespace StateBench

inductive StateType where
  | task
  | choice
  | map
  | parallel
  | pass
  | wait
  | succeed
  | fail
  deriving DecidableEq, Repr

namespace StateType

def name : StateType → String
  | .task => "Task"
  | .choice => "Choice"
  | .map => "Map"
  | .parallel => "Parallel"
  | .pass => "Pass"
  | .wait => "Wait"
  | .succeed => "Succeed"
  | .fail => "Fail"

def ofName? : String → Option StateType
  | "Task" => some .task
  | "Choice" => some .choice
  | "Map" => some .map
  | "Parallel" => some .parallel
  | "Pass" => some .pass
  | "Wait" => some .wait
  | "Succeed" => some .succeed
  | "Fail" => some .fail
  | _ => none

/-- Whether a walk goes on from a state of this type along `Next` or stops at `End`. Choices go on by their rules, and
Succeed and Fail stop by themselves. -/
def hasTransition : StateType → Bool
  | .choice => false
  | .succeed => false
  | .fail => false
  | _ => true

end StateType

/-- The type of a state, with the graphs that a state of the type owns. -/
inductive DeclKind (γ : Type) where
  | task
  | choice
  | map (iterator : γ)
  | parallel (branches : List γ)
  | pass
  | wait
  | succeed
  | fail
  deriving Repr

def DeclKind.type {γ : Type} : DeclKind γ → StateType
  | .task => .task
  | .choice => .choice
  | .map _ => .map
  | .parallel _ => .parallel
  | .pass => .pass
  | .wait => .wait
  | .succeed => .succeed
  | .fail => .fail

/-- The declaration of a state, its graphs being given by something else. -/
structure StateDecl (γ : Type) where
  name : String
  next : Option String
  /-- Whether the state is declared the last one of a walk. -/
  isLast : Bool
  comment : Option String
  kind : DeclKind γ
  /-- What is not read yet, in the order of the document. -/
  fields : Fields Json
  deriving Repr

namespace StateDecl

variable {γ : Type}

def type (d : StateDecl γ) : StateType := d.kind.type

def field? (d : StateDecl γ) (key : String) : Option Json := Fields.find? key d.fields

end StateDecl

/-- The declaration of a graph. -/
structure GraphDecl where
  startAt : String
  states : List (StateDecl GraphDecl)

namespace GraphDecl

def get? (g : GraphDecl) (name : String) : Option (StateDecl GraphDecl) := g.states.find? (·.name = name)

end GraphDecl

/-- A definition document. -/
structure Document where
  comment : Option String
  version : Option String
  /-- The time for the whole machine, which is recorded and not enforced. -/
  timeoutSeconds : Option Nat
  graph : GraphDecl

/-! ## Folding -/

def DeclKind.mapGraphs {γ δ : Type} (f : γ → δ) : DeclKind γ → DeclKind δ
  | .task => .task
  | .choice => .choice
  | .map iterator => .map (f iterator)
  | .parallel branches => .parallel (branches.map f)
  | .pass => .pass
  | .wait => .wait
  | .succeed => .succeed
  | .fail => .fail

def StateDecl.mapGraphs {γ δ : Type} (f : γ → δ) (d : StateDecl γ) : StateDecl δ :=
  { d with kind := d.kind.mapGraphs f }

namespace GraphDecl

section Fold

variable {α : Type} (f : String → List (StateDecl α) → α)

mutual
/-- The value of a graph, given the values of the graphs in it. -/
def fold : GraphDecl → α
  | ⟨startAt, states⟩ => f startAt (foldStates states)

def foldStates : List (StateDecl GraphDecl) → List (StateDecl α)
  | [] => []
  | d :: rest => foldState d :: foldStates rest

def foldState : StateDecl GraphDecl → StateDecl α
  | ⟨name, next, isLast, comment, kind, fields⟩ => ⟨name, next, isLast, comment, foldKind kind, fields⟩

def foldKind : DeclKind GraphDecl → DeclKind α
  | .task => .task
  | .choice => .choice
  | .map iterator => .map (fold iterator)
  | .parallel branches => .parallel (foldGraphs branches)
  | .pass => .pass
  | .wait => .wait
  | .succeed => .succeed
  | .fail => .fail

def foldGraphs : List GraphDecl → List α
  | [] => []
  | g :: rest => fold g :: foldGraphs rest
end

theorem foldGraphs_eq : ∀ gs : List GraphDecl, foldGraphs f gs = gs.map (fold f)
  | [] => by rw [foldGraphs, List.map_nil]
  | g :: gs => by rw [foldGraphs, foldGraphs_eq gs, List.map_cons]

theorem foldStates_eq : ∀ ds : List (StateDecl GraphDecl), foldStates f ds = ds.map (·.mapGraphs (fold f))
  | [] => by rw [foldStates, List.map_nil]
  | ⟨_, _, _, _, kind, _⟩ :: ds => by
    rw [foldStates, foldStates_eq ds, foldState, List.map_cons]
    cases kind <;> simp [foldKind, foldGraphs_eq, StateDecl.mapGraphs, DeclKind.mapGraphs]

/-- The value of a graph is `f` of its start and its states, each graph in them replaced by its value. -/
theorem fold_eq (g : GraphDecl) : fold f g = f g.startAt (g.states.map (·.mapGraphs (fold f))) := by
  cases g
  rw [fold, foldStates_eq]

end Fold

end GraphDecl

end StateBench

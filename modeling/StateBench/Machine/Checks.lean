import StateBench.Machine

/-!
# Links between states

The links of a graph have to lead to states of the same graph, and no state may come back to itself along links that are
always taken. Loops through a Choice are allowed, because data can end them. The states of all branches of a Parallel
have names of their own.
-/

namespace StateBench

namespace State

variable {γ : Type}

/-- The names that a state may hand over to: its successor, those of its choices, and those of its catchers. -/
def targets (s : State γ) : List String :=
  let chosen := match s.kind with
    | .choice choices fallback => choices.map (·.next) ++ fallback.toList
    | _ => []
  s.next.toList ++ chosen ++ s.catchers.map (·.next)

/-- The first state with a link that leads out of the graph, and that link. -/
def danglingLink? (states : List (State γ)) : Option (String × String) :=
  states.findSome? fun s => (s.targets.find? fun name => (named? states name).isNone).map (s.name, ·)

/-- The states with other names. -/
def others (name : String) (states : List (State γ)) : List (State γ) := states.filter (·.name ≠ name)

theorem length_others_lt {states : List (State γ)} {name : String} {s : State γ}
    (h : named? states name = some s) : (others name states).length < states.length := by
  have hs : s.name = name := by simpa using List.find?_some h
  exact List.length_filter_lt_length_iff_exists.2 ⟨s, List.mem_of_find?_eq_some h, by simp [hs]⟩

/-- Goes along the successors from a name until they end or come to a name that is cleared, and gives the names on the
way. A way that comes back to one of its own names is given as an error. -/
def follow (unseen : List (State γ)) (cleared way : List String) (current : Option String) :
    Except (List String) (List String) :=
  match current with
  | none => .ok way
  | some name =>
    if cleared.contains name then .ok way
    else if way.contains name then .error (way ++ [name])
    else
      match _h : named? unseen name with
      | none => .ok way
      | some s => follow (others name unseen) cleared (way ++ [name]) s.next
termination_by unseen.length
decreasing_by exact length_others_lt _h

/-- The first cycle that is found from one of the starts; the names on ways without one are cleared. -/
def cycleFrom? (states : List (State γ)) (cleared : List String) : List (State γ) → Option (List String)
  | [] => none
  | start :: starts =>
    match follow states cleared [] (some start.name) with
    | .error way => some way
    | .ok way => cycleFrom? states (cleared ++ way) starts

/-- A way along successors that comes back to one of its states, if there is one. -/
def cycle? (states : List (State γ)) : Option (List String) := cycleFrom? states [] states

end State

/-- The first element that occurs a second time, in the order of the second occurrences. -/
def firstRepeated? (seen : List String) : List String → Option String
  | [] => none
  | name :: names => if seen.contains name then some name else firstRepeated? (name :: seen) names

/-- A name that two states of some branches share. -/
def Graph.sharedName? (branches : List Graph) : Option String :=
  firstRepeated? [] (branches.flatMap fun branch => branch.states.map (·.name))

end StateBench

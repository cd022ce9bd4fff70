import Mathlib.Data.List.Chain
import Mathlib.Logic.Relation
import StateBench.Proofs.Machine.Links

/-!
# Cycles of successors

Every state of a graph is a start of a search along successors (`State.Search`). A search goes on in turns, each of
which puts one more state on its way, so it comes to an end (`Search.wellFounded_turn`). It ends

* at a state on its own way, and then the way comes back (`State.ComesBack`, `Search.comesBack_of_error`);
* where there is no successor, or at a name that an earlier search has cleared. From none of the names on the way can
  one go on for ever then (`Search.clear_of_ok`), as one cannot from those that were cleared. So what is cleared may be
  left out of later searches.

A search that comes back shows a cycle, and if none does, no state can be come to from itself
(`State.not_transGen_of_cycle?_eq_none`, `ComesBack.exists_transGen`).
-/

namespace StateBench

namespace State

variable {γ : Type}

/-! ## Successors -/

/-- The state with a name always goes on to the one with another name. -/
def GoesTo (states : List (State γ)) (first second : String) : Prop :=
  ∃ s, named? states first = some s ∧ s.next = some second

/-- One cannot go on for ever from a name. -/
def Clear (states : List (State γ)) (name : String) : Prop :=
  Acc (fun later earlier => GoesTo states earlier later) name

/-- A way along successors whose last state is on it before. -/
structure ComesBack (states : List (State γ)) (way : List String) : Prop where
  chain : way.IsChain (GoesTo states)
  last : ∃ front name, way = front ++ [name] ∧ name ∈ front

variable {states : List (State γ)} {cleared : List String} {name other : String}

/-- From a name that is clear one does not come back to it. -/
theorem Clear.not_transGen (h : Clear states name) : ¬ Relation.TransGen (GoesTo states) name name := by
  induction h with
  | intro name _ ih =>
    intro hback
    obtain ⟨next, hnext, hrest⟩ := Relation.TransGen.head'_iff.1 hback
    exact ih next hnext (Relation.TransGen.tail' hrest hnext)

/-- A name is clear if its successor is. -/
theorem Clear.of_next {s : State γ} (hs : named? states name = some s) (h : ∀ next ∈ s.next, Clear states next) :
    Clear states name := by
  refine ⟨name, fun later ⟨other, ho, hnext⟩ => ?_⟩
  obtain rfl := Option.some.inj (hs.symm.trans ho)
  exact h later hnext

/-- A name that no state has is clear. -/
theorem Clear.of_none (h : named? states name = none) : Clear states name := by
  refine ⟨name, fun later ⟨s, hs, _⟩ => ?_⟩
  rw [h] at hs
  cases hs

/-- Each name on a way along successors is come to from all names before it. -/
theorem pairwise_of_isChain {way : List String} (h : way.IsChain (GoesTo states)) :
    way.Pairwise (Relation.TransGen (GoesTo states)) :=
  List.isChain_iff_pairwise.1 (h.imp fun _ _ => .single)

/-- The last name of a way that comes back is come to from itself. -/
theorem ComesBack.exists_transGen {way : List String} (h : ComesBack states way) :
    ∃ name, Relation.TransGen (GoesTo states) name name := by
  obtain ⟨front, name, rfl, hm⟩ := h.last
  exact ⟨name, (List.pairwise_append.1 (pairwise_of_isChain h.chain)).2.2 name hm name List.mem_cons_self⟩

/-! ## Searches -/

/-- A search along successors. -/
structure Search where
  /-- The names that it has come through. -/
  way : List String
  /-- The name that comes next, if the way goes on. -/
  current : Option String

namespace Search

/-- One turn of a search: it goes on to the successor of the next name, or it ends with its way. -/
def turn (states : List (State γ)) (cleared : List String) (search : Search) :
    Search ⊕ Except (List String) (List String) :=
  match search.current with
  | none => .inr (.ok search.way)
  | some name =>
    if cleared.contains name then .inr (.ok search.way)
    else if search.way.contains name then .inr (.error (search.way ++ [name]))
    else
      match named? states name with
      | none => .inr (.ok search.way)
      | some s => .inl ⟨search.way ++ [name], s.next⟩

/-- The states that a search has not come through. -/
def unseen (states : List (State γ)) (way : List String) : List (State γ) := states.filter fun s => !way.contains s.name

/-- What a search comes to. -/
def result (states : List (State γ)) (cleared : List String) (search : Search) : Except (List String) (List String) :=
  follow (unseen states search.way) cleared search.way search.current

variable {search next : Search}

/-- A name that is not on the way stands for the same state among those that are not on it. -/
theorem named?_unseen {way : List String} (h : name ∉ way) : named? (unseen states way) name = named? states name := by
  unfold named? unseen
  rw [List.find?_filter]
  refine congrArg (List.find? · states) (funext fun s => ?_)
  by_cases hs : s.name = name
  · simp [hs, h]
  · simp [hs]

theorem others_unseen (way : List String) : others name (unseen states way) = unseen states (way ++ [name]) := by
  unfold others unseen
  rw [List.filter_filter]
  refine congrArg (List.filter · states) (funext fun s => ?_)
  by_cases hs : s.name = name <;> simp [hs]

/-- A search comes to what it comes to after its turn. -/
theorem result_eq (states : List (State γ)) (cleared : List String) (search : Search) :
    search.result states cleared = (search.turn states cleared).elim (·.result states cleared) id := by
  obtain ⟨way, current⟩ := search
  unfold result turn
  cases current with
  | none => rw [follow, Sum.elim_inr, id]
  | some name =>
    rw [follow]
    by_cases hc : cleared.contains name
    · simp only [hc, if_true, Sum.elim_inr, id]
    · by_cases hw : way.contains name
      · simp only [hc, hw, if_true, if_false, Sum.elim_inr, id, Bool.false_eq_true]
      · have hn : named? (unseen states way) name = named? states name := named?_unseen (by simpa using hw)
        simp only [hc, hw, if_false, Bool.false_eq_true]
        split <;> rename_i hu <;> rw [hn] at hu <;> simp only [hu, Sum.elim_inr, Sum.elim_inl, id, others_unseen]

/-- A turn with which a search goes on. -/
theorem going (h : search.turn states cleared = .inl next) :
    ∃ name s, search.current = some name ∧ name ∉ search.way ∧ named? states name = some s ∧
      next = ⟨search.way ++ [name], s.next⟩ := by
  unfold turn at h
  split at h
  · cases h
  · next name hcurrent =>
    split at h
    · cases h
    · split at h
      · cases h
      · next hway =>
        split at h
        · cases h
        · next s hs =>
          cases h
          exact ⟨name, s, hcurrent, by simpa using hway, hs, rfl⟩

/-- A turn with which a search ends. -/
theorem ending {names : Except (List String) (List String)} (h : search.turn states cleared = .inr names) :
    (∃ name, search.current = some name ∧ name ∈ search.way ∧ names = .error (search.way ++ [name])) ∨
      names = .ok search.way ∧ ∀ name ∈ search.current, name ∈ cleared ∨ named? states name = none := by
  unfold turn at h
  split at h
  · next hcurrent =>
    cases h
    exact .inr ⟨rfl, by simp [hcurrent]⟩
  · next name hcurrent =>
    split at h
    · next hcleared =>
      cases h
      exact .inr ⟨rfl, by simpa [hcurrent] using .inl (by simpa using hcleared)⟩
    · split at h
      · next hway =>
        cases h
        exact .inl ⟨name, hcurrent, by simpa using hway, rfl⟩
      · split at h
        · next hs =>
          cases h
          exact .inr ⟨rfl, by simpa [hcurrent] using .inr hs⟩
        · cases h

/-- Each turn with which a search goes on leaves fewer states that it has not come through. -/
theorem length_unseen_lt (h : search.turn states cleared = .inl next) :
    (unseen states next.way).length < (unseen states search.way).length := by
  obtain ⟨name, s, -, hway, hs, rfl⟩ := going h
  rw [← others_unseen]
  exact length_others_lt ((named?_unseen hway).trans hs)

/-- No search goes on for ever. -/
theorem wellFounded_turn (states : List (State γ)) (cleared : List String) :
    WellFounded fun (later earlier : Search) => earlier.turn states cleared = .inl later :=
  Subrelation.wf length_unseen_lt (measure fun search : Search => (unseen states search.way).length).wf

/-! ## What searches find -/

/-- A search that goes along successors comes back if it ends with an error. -/
theorem comesBack_of_error {names : List String} (hw : (search.way ++ search.current.toList).IsChain (GoesTo states))
    (h : search.result states cleared = .error names) : ComesBack states names := by
  -- The induction is on the turns; each keeps that the way and what comes next are a chain.
  induction search using (wellFounded_turn states cleared).induction with
  | h search ih =>
    rw [result_eq] at h
    cases ht : search.turn states cleared with
    | inl next =>
      rw [ht] at h
      refine ih next ht ?_ h
      obtain ⟨name, s, hcurrent, -, hs, rfl⟩ := going ht
      rw [hcurrent] at hw
      cases hn : s.next with
      | none => simpa using hw
      | some later => simpa using List.isChain_append_cons_cons.2 ⟨hw, ⟨s, hs, hn⟩, .singleton later⟩
    | inr found =>
      rw [ht] at h
      rcases ending ht with ⟨name, hcurrent, hm, rfl⟩ | ⟨rfl, -⟩
      · cases h
        rw [hcurrent] at hw
        exact ⟨hw, search.way, name, rfl, hm⟩
      · cases h

/-- A search that ends without an error has come through names that are clear only, if those are that it took for
cleared. -/
theorem clear_of_ok {names : List String} (hc : ∀ name ∈ cleared, Clear states name)
    (h : search.result states cleared = .ok names) :
    (∀ name ∈ names, name ∈ search.way ∨ Clear states name) ∧ ∀ name ∈ search.current, Clear states name := by
  -- The induction is on the turns; what comes next is known to be clear when its successor is.
  induction search using (wellFounded_turn states cleared).induction with
  | h search ih =>
    rw [result_eq] at h
    cases ht : search.turn states cleared with
    | inl next =>
      rw [ht] at h
      obtain ⟨hnames, hnext⟩ := ih next ht h
      obtain ⟨name, s, hcurrent, -, hs, rfl⟩ := going ht
      have hname : Clear states name := .of_next hs hnext
      refine ⟨fun other ho => ?_, by simpa [hcurrent] using hname⟩
      rcases hnames other ho with hway | hclear
      · rcases List.mem_append.1 hway with hway | heq
        · exact .inl hway
        · obtain rfl := List.mem_singleton.1 heq
          exact .inr hname
      · exact .inr hclear
    | inr found =>
      rw [ht] at h
      rcases ending ht with ⟨name, -, -, rfl⟩ | ⟨rfl, hend⟩
      · cases h
      · cases h
        refine ⟨fun name hn => .inl hn, fun name hn => ?_⟩
        rcases hend name hn with hcleared | hnone
        · exact hc name hcleared
        · exact .of_none hnone

/-- The search from a start. -/
theorem follow_start (states : List (State γ)) (cleared : List String) (name : String) :
    follow states cleared [] (some name) = result states cleared ⟨[], some name⟩ := by
  have hall : unseen states [] = states := List.filter_eq_self.2 fun s _ => rfl
  unfold result
  rw [hall]

end Search

/-! ## Checks -/

/-- The searches from some starts find no cycle only if the starts are clear. -/
theorem clear_of_cycleFrom?_eq_none {starts : List (State γ)} (hc : ∀ name ∈ cleared, Clear states name)
    (h : cycleFrom? states cleared starts = none) : ∀ s ∈ starts, Clear states s.name := by
  induction starts generalizing cleared with
  | nil => exact fun s hs => nomatch hs
  | cons start starts ih =>
    rw [cycleFrom?, Search.follow_start] at h
    cases hf : Search.result states cleared ⟨[], some start.name⟩ with
    | error way =>
      rw [hf] at h
      cases h
    | ok way =>
      rw [hf] at h
      obtain ⟨hway, hstart⟩ := Search.clear_of_ok hc hf
      have hcleared : ∀ name ∈ cleared ++ way, Clear states name := by
        intro name hn
        rcases List.mem_append.1 hn with hn | hn
        · exact hc name hn
        · exact (hway name hn).resolve_left List.not_mem_nil
      exact List.forall_mem_cons.2 ⟨hstart start.name rfl, ih hcleared h⟩

/-- What the searches from some starts find is a way that comes back. -/
theorem comesBack_of_cycleFrom?_eq_some {starts : List (State γ)} {way : List String}
    (h : cycleFrom? states cleared starts = some way) : ComesBack states way := by
  induction starts generalizing cleared with
  | nil => cases h
  | cons start starts ih =>
    rw [cycleFrom?, Search.follow_start] at h
    cases hf : Search.result states cleared ⟨[], some start.name⟩ with
    | error found =>
      rw [hf] at h
      cases h
      exact Search.comesBack_of_error (.singleton start.name) hf
    | ok found =>
      rw [hf] at h
      exact ih h

/-- Where no cycle is found, no state comes back to itself. -/
theorem not_transGen_of_cycle?_eq_none (h : cycle? states = none) (name : String) :
    ¬ Relation.TransGen (GoesTo states) name name := by
  intro hback
  have hclear := clear_of_cycleFrom?_eq_none (List.forall_mem_nil _) h
  obtain ⟨_, ⟨s, hs, _⟩, _⟩ := Relation.TransGen.head'_iff.1 hback
  obtain rfl := name_of_named? hs
  exact (hclear s (mem_of_named? hs)).not_transGen hback

end State

namespace Graph

/-- A graph that passes the checks has no cycle. -/
theorem cycle?_of_checkLinks_ok {owner : String} {g checked : Graph} (h : checkLinks owner g = .ok checked) :
    State.cycle? g.states = none := by
  unfold checkLinks at h
  split at h
  · cases h
  · split at h
    · cases h
    · split at h
      · cases h
      · next hc => exact hc

/-- The cycle for which a graph is refused is the one that is found, under qualified names. -/
theorem cycle?_of_checkLinks_error {owner : String} {g : Graph} {names : List String}
    (h : checkLinks owner g = .error (.cycle names)) :
    ∃ way, State.cycle? g.states = some way ∧ names = way.map (qualify owner) := by
  unfold checkLinks at h
  split at h
  · cases h
  · split at h
    · cases h
    · split at h
      · next way hc =>
        cases h
        exact ⟨way, hc, rfl⟩
      · cases h

/-- No cycle is found in a graph if and only if no state of it can be come to from itself along successors. What is
found otherwise is a way along successors that comes back, and so is what is reported of a graph that is refused for it.
The searches are made in turns, in each of which the graph is asked for the state with the next name, and they come to
an end whatever names were cleared before. -/
theorem cycle?_eq_none_iff (g : Graph) :
    (State.cycle? g.states = none ↔ ∀ name, ¬ Relation.TransGen (State.GoesTo g.states) name name) ∧
      (∀ way, State.cycle? g.states = some way → State.ComesBack g.states way) ∧
      (∀ owner names, g.checkLinks owner = .error (.cycle names) →
        ∃ way, State.ComesBack g.states way ∧ names = way.map (qualify owner)) ∧
      ∀ cleared,
        (WellFounded fun (later earlier : State.Search) => earlier.turn g.states cleared = .inl later) ∧
        (∀ search : State.Search, search.result g.states cleared =
          (search.turn g.states cleared).elim (·.result g.states cleared) id) ∧
        ∀ name,
          State.follow g.states cleared [] (some name) = State.Search.result g.states cleared ⟨[], some name⟩ := by
  have hfound (way : List String) (h : State.cycle? g.states = some way) : State.ComesBack g.states way :=
    State.comesBack_of_cycleFrom?_eq_some h
  refine ⟨⟨State.not_transGen_of_cycle?_eq_none, fun h => ?_⟩, hfound, fun owner names h => ?_, fun cleared =>
    ⟨State.Search.wellFounded_turn g.states cleared, State.Search.result_eq g.states cleared,
      State.Search.follow_start g.states cleared⟩⟩
  · cases hc : State.cycle? g.states with
    | none => rfl
    | some way =>
      obtain ⟨name, hback⟩ := (hfound way hc).exists_transGen
      exact absurd hback (h name)
  · obtain ⟨way, hc, rfl⟩ := cycle?_of_checkLinks_error h
    exact ⟨way, hfound way hc, rfl⟩

end Graph

end StateBench

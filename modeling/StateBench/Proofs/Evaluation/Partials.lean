import StateBench.Proofs.Evaluation.Origins

/-!
# Partial results

The containers on the way to a failure are those whose paths begin the path of the state that fails, down from where the
evaluation started (`Leads.containers`). Each adds the outputs of the units that it has taken. No two partial results
are about the same unit of the same container: the containers are told apart by their qualified names, which get longer
from the outside to the inside, and the units of one container by their names (`SetsUp.nodup_names`).
-/

namespace StateBench

/-! ## Containers -/

namespace StatePath

/-- The paths from one around a path down to it, without the last: the innermost first. -/
def around (outer : StatePath) : StatePath → List StatePath
  | [] => []
  | name :: rest => around (outer ++ [name]) rest ++ [outer]

variable {outer path rest : StatePath}

theorem prefix_of_mem_around (h : path ∈ around outer rest) : outer <+: path := by
  induction rest generalizing outer with
  | nil => cases h
  | cons name rest ih =>
    rcases List.mem_append.1 h with h | h
    · exact (List.prefix_append outer [name]).trans (ih h)
    · obtain rfl := List.mem_singleton.1 h
      exact List.prefix_rfl

/-- The qualified name of a state is longer than those of the states around it. -/
theorem dotted_append_ne (ho : outer ≠ []) (hr : rest ≠ []) : (outer ++ rest).dotted ≠ outer.dotted := by
  intro h
  have hl := congrArg String.length h
  rw [dotted, String.intercalate_append_of_ne_nil ho hr] at hl
  simp only [dotted, String.length_append, show ".".length = 1 from rfl] at hl
  omega

theorem pairwise_around (ho : outer ≠ []) (rest : StatePath) :
    (around outer rest).Pairwise fun first second => first.dotted ≠ second.dotted := by
  induction rest generalizing outer with
  | nil => exact .nil
  | cons name rest ih =>
    refine List.pairwise_append.2 ⟨ih (by simp), List.pairwise_singleton .., ?_⟩
    intro path hp other hother
    obtain ⟨more, rfl⟩ := prefix_of_mem_around hp
    rw [List.mem_singleton.1 hother, List.append_assoc]
    exact dotted_append_ne ho (by simp)

end StatePath

variable {scope : Scope} {stop last : Stop} {frames : List Frame}

/-- The containers on the way from a stop to one inside it are those around the latter, from the former on. -/
theorem Leads.containers (h : Leads scope stop frames last) {rest : StatePath} (hr : last.path = stop.path ++ rest) :
    frames.map (·.container) = StatePath.around stop.path rest := by
  induction h generalizing rest with
  | here =>
    obtain rfl : rest = [] := by simpa using hr
    rfl
  | inside _ setsUp stopped enters leads ih =>
    -- What is left of the path begins with the state at which the unit on the way has started.
    obtain ⟨inner, hp, -⟩ := leads.state_below
    have hf := setsUp.path_of_enters stopped.mem enters
    rw [hp, hf, List.append_assoc] at hr
    obtain rfl := List.append_cancel_left hr
    rw [List.map_append, ih hp, hf]
    rfl

/-! ## Units -/

theorem Graph.nodup_starts {branches : List Graph} (hs : sharedName? branches = none)
    (hb : ∀ branch ∈ branches, branch.Linked) : (branches.map (·.startAt)).Nodup := by
  have hn := (nodup_of_firstRepeated?_eq_none hs).1
  refine List.pairwise_map.2 ((List.nodup_flatMap.1 hn).2.imp_of_mem fun {first second} hf hs disjoint he => ?_)
  have hm {branch : Graph} (hm : branch ∈ branches) : branch.startAt ∈ branch.states.map (·.name) := by
    obtain ⟨s, hs⟩ := Option.isSome_iff_exists.1 (hb branch hm).start
    exact List.mem_map.2 ⟨s, mem_of_get? hs, name_of_get? hs⟩
  exact disjoint (hm hf) (he ▸ hm hs)

theorem toString_injective {m n : Nat} (h : toString m = toString n) : m = n := by
  have hd : Nat.toDigits 10 m = Nat.toDigits 10 n := by
    rw [← Nat.toList_repr, ← Nat.toList_repr]
    exact congrArg String.toList h
  rw [← Nat.ofDigitChars_ten_toDigits (n := m), hd, Nat.ofDigitChars_ten_toDigits]

/-- The units of a container in a sound graph have different names. -/
theorem SetsUp.nodup_names {g : Graph} (hg : g.Sound) (hs : stop.state ∈ g.states) {declared : Nat}
    {walks : List UnitWalk} (h : SetsUp scope stop declared walks) : (walks.map (·.name)).Nodup := by
  cases h with
  | @map spec iterator seen items inputs kind sees unmocked array makes =>
    have hn : (stop.itemWalks iterator inputs).map (·.name) = (List.range inputs.length).map toString := by
      rw [Stop.itemWalks, List.map_map, List.range_eq_range', ← List.zipIdx_map_snd 0 inputs, List.map_map]
      rfl
    rw [hn]
    exact List.nodup_range.map fun _ _ => toString_injective
  | @parallel branches seen kind sees unmocked =>
    have hn : (stop.branchWalks branches seen).map (·.name) = branches.map (·.startAt) := by
      rw [Stop.branchWalks, List.map_map]
      conv => rhs; rw [← List.zipIdx_map_fst 0 branches, List.map_map]
      rfl
    rw [hn]
    exact Graph.nodup_starts (hg.linked.branches _ hs _ kind) fun branch hb =>
      (hg.within hs (by simpa [kind, Kind.graphs] using hb)).linked

/-- The units of every container on the way have different names. -/
theorem Leads.nodup_units (h : Leads scope stop frames last) {g : Graph} (hg : g.Sound) (hs : stop.state ∈ g.states) :
    ∀ frame ∈ frames, frame.units.Nodup := by
  induction h generalizing g with
  | here => exact fun frame hf => nomatch hf
  | inside _ setsUp stopped enters _ ih =>
    intro frame hf
    rcases List.mem_append.1 hf with hf | hf
    · have hw := hg.within hs (setsUp.mem_graphs stopped.mem).1
      exact ih hw (Graph.mem_of_get? enters.state.2) frame hf
    · rw [List.mem_singleton.1 hf]
      exact setsUp.nodup_names hg hs

/-! ## Partial results -/

namespace PartialResult

/-- What a partial result is about, as it is reported. -/
def key (p : PartialResult) : String × String := (p.container.dotted, p.unit)

end PartialResult

namespace Frame

variable {frame : Frame}

theorem of_partialAt? {index : Nat} {p : PartialResult} (h : frame.partialAt? index = some p) :
    p.container = frame.container ∧ frame.units[index]? = some p.unit := by
  obtain ⟨unit, hu, h⟩ := Option.bind_eq_some_iff.1 h
  obtain ⟨landing, -, h⟩ := Option.bind_eq_some_iff.1 h
  obtain ⟨output, -, h⟩ := Option.bind_eq_some_iff.1 h
  cases h
  exact ⟨rfl, hu⟩

theorem container_of_mem_partials {p : PartialResult} (h : p ∈ frame.partials) : p.container = frame.container := by
  obtain ⟨index, -, h⟩ := List.mem_filterMap.1 h
  exact (of_partialAt? h).1

/-- A container has one partial result for a unit, where its units have different names. -/
theorem nodup_partials (h : frame.units.Nodup) : (frame.partials.map PartialResult.key).Nodup := by
  refine List.Nodup.of_map Prod.snd ?_
  rw [List.map_map, partials, List.map_filterMap]
  refine List.Nodup.filterMap (fun first second unit hf hs => ?_) List.nodup_range
  obtain ⟨p, hp, rfl⟩ := Option.map_eq_some_iff.1 hf
  obtain ⟨q, hq, hk⟩ := Option.map_eq_some_iff.1 hs
  have hfirst := (of_partialAt? hp).2
  have hsecond : frame.units[second]? = some p.unit := (of_partialAt? hq).2.trans (congrArg some hk)
  exact (List.getElem?_inj (List.getElem?_eq_some_iff.1 hfirst).1 h).1 (hfirst.trans hsecond.symm)

end Frame

/-- No two partial results on the way are about the same unit of the same container. -/
theorem Leads.nodup_partials (h : Leads scope stop frames last) {g : Graph} (hg : g.Sound)
    (hs : stop.state ∈ g.states) : ((frames.flatMap Frame.partials).map PartialResult.key).Nodup := by
  obtain ⟨rest, hr, -⟩ := h.state_below
  have hc : frames.Pairwise fun first second => first.container.dotted ≠ second.container.dotted := by
    rw [← List.pairwise_map (f := Frame.container) (R := fun first second => first.dotted ≠ second.dotted),
      h.containers hr]
    exact StatePath.pairwise_around (by simp [Stop.path, Place.pathOf]) rest
  rw [List.map_flatMap]
  refine List.nodup_flatMap.2 ⟨fun frame hf => Frame.nodup_partials (h.nodup_units hg hs frame hf), ?_⟩
  refine hc.imp fun hne key hf hs => ?_
  obtain ⟨p, hp, rfl⟩ := List.mem_map.1 hf
  obtain ⟨q, hq, hk⟩ := List.mem_map.1 hs
  have hd : q.container.dotted = p.container.dotted := congrArg Prod.fst hk
  rw [Frame.container_of_mem_partials hp, Frame.container_of_mem_partials hq] at hd
  exact hne hd.symm

/-- The partial results of a failure that is reported are those of the containers around the state that fails, from
where the evaluation started on, the innermost first, and no two are about the same unit. -/
theorem Bench.partials_of_failure {bench : Bench} {request : Request} {cause : Failure} {names : List String}
    (h : bench.evaluate request = .ok (.failure cause names)) :
    ∃ job stop frames last rest, prepare request = .ok job ∧ job.StopsAt (bench.scope job) stop ∧
      Leads (bench.scope job) stop frames last ∧ FailsWith (bench.scope job) last cause.error cause.cause ∧
      cause.origin = last.path ∧ last.path = stop.path ++ rest ∧
      frames.map (·.container) = StatePath.around stop.path rest ∧ cause.partials = frames.flatMap Frame.partials ∧
      (cause.partials.map PartialResult.key).Nodup := by
  obtain ⟨machine, job, stop, frames, last, hload, hp, hr, hs, he⟩ := explained_of_failure h
  obtain ⟨-, ht, hsound, -⟩ := Graph.declares_of_locate? (Machine.locate?_of_resolve hr)
  obtain ⟨rest, hrest, -⟩ := he.leads.state_below
  have hstate := Graph.mem_of_get? (hs.state ht).2
  have hnodup := he.leads.nodup_partials (hsound (Machine.sound_of_load hload)) hstate
  rw [← he.partials] at hnodup
  exact ⟨job, stop, frames, last, rest, hp, hs, he.leads, he.fails, he.origin, hrest, he.leads.containers hrest,
    he.partials, hnodup⟩

/-- The first item of a Map is true and the second is not: the failure of the second comes with the output of the first.
-/
theorem partials_of_taskForEach :
    let bench : Bench := ⟨some checkTrue.executor, .standard⟩
    let partials : List PartialResult := [⟨["Each"], "0", .bool true⟩]
    ∃ job stop frames last rest, Bench.prepare (checkThree (taskForEach 1)) = .ok job ∧
      job.StopsAt (bench.scope job) stop ∧ Leads (bench.scope job) stop frames last ∧
      FailsWith (bench.scope job) last "NotTrue" "" ∧ ["Each", "One"] = last.path ∧ last.path = stop.path ++ rest ∧
      frames.map (·.container) = StatePath.around stop.path rest ∧ partials = frames.flatMap Frame.partials ∧
      (partials.map PartialResult.key).Nodup := by
  intro bench partials
  have h : bench.evaluate (checkThree (taskForEach 1)) =
      .ok (.failure ⟨"NotTrue", "", ["Each", "One"], partials⟩ []) :=
    (Bench.evaluate_inTurn (some checkTrue) .standard 16 _).trans (by cbv)
  exact Bench.partials_of_failure h

end StateBench

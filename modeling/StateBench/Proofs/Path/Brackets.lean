import StateBench.Proofs.Path.Spelling

/-!
# Paths with all steps in brackets

A path can be written with all its steps in brackets (`RefPath.inBrackets`), so that a name may have points and opening
brackets in it, or be empty. It is read back as long as no name has a closing bracket in it: that ends the step, between
quotes too, and what is left of the name is no step (`RefPath.readSteps_closes`). So just the paths without closing
brackets in their names are read back, and all others are refused (`RefPath.read_inBrackets`).
-/

namespace StateBench

/-- The step in brackets, a name between single quotes. -/
def PathStep.inBrackets : PathStep → String
  | .field name => "['" ++ name ++ "']"
  | .index n => "[" ++ toString n ++ "]"

/-- The text of a path in which all steps are in brackets. -/
def RefPath.inBrackets (p : RefPath) : String :=
  (if p.inContext then "$$" else "$") ++ String.join (p.steps.map PathStep.inBrackets)

namespace PathStep

variable {step : PathStep}

/-- A name that can stand between single quotes, or an index of 64 bits. -/
def Quotable : PathStep → Prop
  | .field name => '\'' ∉ name.toList
  | .index n => n ≤ Numeral.bound

/-- A name with a closing bracket in it. -/
def Closes : PathStep → Prop
  | .field name => ']' ∈ name.toList
  | .index _ => False

theorem toList_inBrackets_field (name : String) :
    (field name).inBrackets.toList = '[' :: ('\'' :: (name.toList ++ ['\'']) ++ [']']) := by
  simp [inBrackets]

theorem toList_inBrackets_index (n : Nat) : (index n).inBrackets.toList = '[' :: (Nat.toDigits 10 n ++ [']']) := by
  simp [inBrackets]

theorem spells_inBrackets (h : step.Quotable) (hc : ¬ step.Closes) : step.Spells step.inBrackets.toList := by
  cases step with
  | field name =>
    have hwithin : ']' ∉ '\'' :: (name.toList ++ ['\'']) := by simpa [Closes] using hc
    have hquoted : Bracketed (.field (String.ofList name.toList)) ('\'' :: (name.toList ++ ['\''])) :=
      .quoted name.toList (.inl rfl)
    rw [String.ofList_toList] at hquoted
    rw [toList_inBrackets_field]
    exact .bracketed hwithin hquoted
  | index n =>
    have hall : ∀ c ∈ Nat.toDigits 10 n, c.isDigit = true := fun c hm =>
      Nat.isDigit_of_mem_toDigits (by decide) (by decide) hm
    have hwithin : ']' ∉ Nat.toDigits 10 n := fun hm => by cases hall ']' hm
    rw [toList_inBrackets_index]
    exact .bracketed hwithin (.numeral (.inl rfl) Nat.toDigits_ne_nil hall Nat.ofDigitChars_ten_toDigits h)

end PathStep

namespace RefPath

variable {p : RefPath} {step : PathStep} {steps : List PathStep}

/-- The steps in brackets, one after the other. -/
def bracketParts (steps : List PathStep) : List (List Char) := steps.map fun step => step.inBrackets.toList

theorem bracketParts_cons (step : PathStep) (steps : List PathStep) :
    bracketParts (step :: steps) = step.inBrackets.toList :: bracketParts steps := rfl

theorem toList_inBrackets (p : RefPath) : p.inBrackets.toList = root p.inContext ++ (bracketParts p.steps).flatten := by
  have hparts : (p.steps.map PathStep.inBrackets).flatMap String.toList = (bracketParts p.steps).flatten := by
    rw [List.flatMap_map, List.flatMap_def, bracketParts]
  rw [inBrackets, String.toList_append, String.toList_join, hparts]
  cases p.inContext <;> rfl

/-- What is in brackets begins with a bracket. -/
theorem head?_bracketParts (steps : List PathStep) : ∀ c ∈ (bracketParts steps).flatten.head?, c = '[' := by
  intro c hc
  cases steps with
  | nil => cases hc
  | cons step steps =>
    cases step <;>
      simp only [bracketParts_cons, List.flatten_cons, PathStep.toList_inBrackets_field,
        PathStep.toList_inBrackets_index, List.cons_append, List.head?_cons, Option.mem_some_iff] at hc <;>
      exact hc.symm

theorem endsName_bracketParts (steps : List PathStep) : EndsName (bracketParts steps).flatten := by
  intro c hc
  rw [head?_bracketParts steps c hc]
  rfl

theorem read_inBrackets_eq (p : RefPath) :
    read p.inBrackets = (readSteps (bracketParts p.steps).flatten).map (⟨p.inContext, ·⟩) := by
  rw [read, toList_inBrackets]
  refine readChars_root _ fun _ hd => ?_
  cases head?_bracketParts p.steps '$' hd

/-- After an opening quote that is not closed there is no step. -/
theorem bracketStep?_openQuote {before : List Char} (h : '\'' ∉ before) : bracketStep? ('\'' :: before) = none := by
  refine Option.eq_none_iff_forall_ne_some.2 fun step hs => ?_
  generalize hinner : '\'' :: before = inner at hs
  cases bracketStep?_eq_some_iff.1 hs with
  | quoted name hquote =>
    obtain ⟨rfl, rfl⟩ := List.cons.inj hinner
    simp at h
  | numeral hsign hne hall hvalue hbound => exact head?_numeral_ne hsign hall (.inl rfl) (hinner ▸ rfl)

/-- A closing bracket ends the step, between quotes too. -/
theorem readSteps_closes (h : step.Quotable) (hc : step.Closes) (rest : List Char) :
    readSteps (step.inBrackets.toList ++ rest) = .error .badBracket := by
  cases step with
  | field name =>
    obtain ⟨before, after, he, hbefore⟩ := List.eq_append_cons_of_mem hc
    have hquote : '\'' ∉ before := fun hm => h (he ▸ List.mem_append_left _ hm)
    have hwithin : ']' ∉ '\'' :: before := by simpa using hbefore
    have hread := readSteps_bracket hwithin (after ++ ['\'', ']'] ++ rest)
    rw [bracketStep?_openQuote hquote, Option.elim_none] at hread
    rw [PathStep.toList_inBrackets_field, he]
    simpa using hread
  | index n => cases hc

/-- Steps in brackets are refused if one of them has a closing bracket in its name. -/
theorem readSteps_refused (h : ∀ step ∈ steps, step.Quotable) (hc : ∃ step ∈ steps, step.Closes) :
    readSteps (bracketParts steps).flatten = .error .badBracket := by
  induction steps with
  | nil => simp at hc
  | cons step steps ih =>
    obtain ⟨hstep, hsteps⟩ := List.forall_mem_cons.1 h
    rw [bracketParts_cons, List.flatten_cons]
    by_cases hfirst : step.Closes
    · exact readSteps_closes hstep hfirst _
    · have hrest : ∃ step ∈ steps, step.Closes := by simpa [hfirst] using hc
      rw [readSteps_of_spells (PathStep.spells_inBrackets hstep hfirst) (endsName_bracketParts steps), ih hsteps hrest]
      rfl

/-- A path in brackets, no name of which has a quote in it, is read back just if no name has a closing bracket in it;
with a closing bracket in a name it is no path. -/
theorem read_inBrackets (h : ∀ step ∈ p.steps, step.Quotable) :
    (read p.inBrackets = .ok p ↔ ∀ step ∈ p.steps, ¬ step.Closes) ∧
      (read p.inBrackets = .error .badBracket ↔ ∃ step ∈ p.steps, step.Closes) := by
  rw [read_inBrackets_eq]
  by_cases hc : ∃ step ∈ p.steps, step.Closes
  · rw [readSteps_refused h hc]
    simpa [Except.map] using hc
  · have hspells : List.Forall₂ PathStep.Spells p.steps (bracketParts p.steps) := by
      rw [bracketParts, List.forall₂_map_right_iff, List.forall₂_same]
      exact fun step hm => PathStep.spells_inBrackets (h step hm) fun hs => hc ⟨step, hm, hs⟩
    rw [readSteps_flatten hspells]
    simpa [Except.map] using hc

/-- Names with points, an opening bracket and a double quote in them, and one without characters. -/
def oddNames : RefPath := ⟨false, [.field "order.by", .field "", .index 20, .field "a[\"b"]⟩

theorem read_inBrackets_oddNames :
    (∀ step ∈ oddNames.steps, step.Quotable) ∧ (∀ step ∈ oddNames.steps, ¬ step.Closes) ∧
      oddNames.inBrackets = "$['order.by'][''][20]['a[\"b']" ∧ read oddNames.inBrackets = .ok oddNames := by
  have hquotable : ∀ step ∈ oddNames.steps, step.Quotable := by simp [oddNames, PathStep.Quotable, Numeral.bound]
  have hfree : ∀ step ∈ oddNames.steps, ¬ step.Closes := by simp [oddNames, PathStep.Closes]
  exact ⟨hquotable, hfree, by decide +kernel, (read_inBrackets hquotable).1.2 hfree⟩

/-- A field whose name has a closing bracket in it cannot be addressed in brackets. -/
theorem read_closingBracket :
    (PathStep.field "a]b").Quotable ∧ inBrackets ⟨false, [.field "a]b"]⟩ = "$['a]b']" ∧
      read (inBrackets ⟨false, [.field "a]b"]⟩) ≠ .ok ⟨false, [.field "a]b"]⟩ := by
  have htext : inBrackets ⟨false, [.field "a]b"]⟩ = "$['a]b']" := by decide +kernel
  have hread : read "$['a]b']" = .error .badBracket := by decide +kernel
  rw [htext, hread]
  exact ⟨by simp [PathStep.Quotable], rfl, nofun⟩

end RefPath

end StateBench

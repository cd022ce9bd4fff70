import Mathlib.Data.List.Forall2
import Mathlib.Data.List.TakeWhile
import StateBench.Path
import StateBench.Proofs.Json.Tokens
import StateBench.Proofs.Results

/-!
# The texts of paths

A step is spelled with a point and a name, or in brackets: a name between two equal quotes, or a numeral
(`PathStep.Bracketed`, `PathStep.Spells`). The text of a path is its root and then the spellings of its steps, one after
the other (`RefPath.Spelled`). The text before the next step tells where a spelling ends: a name ends before a point or
an opening bracket, so at whatever a next step begins with, and a bracket ends at the first closing one
(`RefPath.readSteps_dot`, `RefPath.readSteps_bracket`). So paths are read just from their texts, and a text can be cut
into spellings in one way only (`RefPath.read_ok_iff_spelled`).
-/

namespace StateBench

/-! ## Numerals -/

namespace Numeral

variable {s : List Char} {value n : Nat}

theorem digitValue?_of_not_isDigit {c : Char} (h : ¬ c.isDigit = true) : digitValue? c = none := by
  rw [digitValue?, if_neg]
  simpa [Char.isDigit, Char.le_def] using h

theorem digitsFrom?_eq_some_iff :
    digitsFrom? value s = some n ↔ (∀ c ∈ s, c.isDigit = true) ∧ Nat.ofDigitChars 10 s value = n := by
  induction s generalizing value with
  | nil => simp [digitsFrom?]
  | cons c s ih =>
    by_cases h : c.isDigit = true
    · rw [digitsFrom?, Json.digitValue?_of_isDigit h, Option.bind_some, ih, Nat.ofDigitChars_cons, Nat.mul_comm]
      simp [h]
    · simp [digitsFrom?, digitValue?_of_not_isDigit h, h]

theorem digits?_eq_some_iff :
    digits? s = some n ↔ s ≠ [] ∧ (∀ c ∈ s, c.isDigit = true) ∧ Nat.ofDigitChars 10 s 0 = n := by
  cases s with
  | nil => simp [digits?]
  | cons c s => simp [digits?, digitsFrom?_eq_some_iff]

theorem filter_digits?_eq_some_iff :
    (digits? s).filter (· ≤ bound) = some n ↔ s ≠ [] ∧ (∀ c ∈ s, c.isDigit = true) ∧ Nat.ofDigitChars 10 s 0 = n ∧
      n ≤ bound := by
  simp [Option.filter_eq_some_iff, digits?_eq_some_iff, and_assoc]

theorem read?_of_head? (h : s.head? ≠ some '+') : read? s = (digits? s).filter (· ≤ bound) := by
  unfold read?
  split
  · exact absurd rfl h
  · rfl

/-- A numeral is an optional plus sign before digits whose number is within the bound. -/
theorem read?_eq_some_iff :
    read? s = some n ↔ ∃ sign digits, s = sign ++ digits ∧ (sign = [] ∨ sign = ['+']) ∧ digits ≠ [] ∧
      (∀ c ∈ digits, c.isDigit = true) ∧ Nat.ofDigitChars 10 digits 0 = n ∧ n ≤ bound := by
  constructor
  · intro h
    by_cases hs : s.head? = some '+'
    · obtain ⟨digits, rfl⟩ := List.head?_eq_some_iff.1 hs
      exact ⟨['+'], digits, rfl, .inr rfl, filter_digits?_eq_some_iff.1 h⟩
    · rw [read?_of_head? hs] at h
      exact ⟨[], s, rfl, .inl rfl, filter_digits?_eq_some_iff.1 h⟩
  · rintro ⟨sign, digits, rfl, rfl | rfl, h⟩
    · -- a plus sign is no digit
      have hs : digits.head? ≠ some '+' := fun hs => by cases h.2.1 '+' (List.mem_of_head? hs)
      exact (read?_of_head? hs).trans (filter_digits?_eq_some_iff.2 h)
    · exact filter_digits?_eq_some_iff.2 h

end Numeral

/-! ## Spellings -/

namespace PathStep

/-- What stands between the brackets of a step. -/
inductive Bracketed : PathStep → List Char → Prop
  | quoted {quote : Char} (name : List Char) (h : quote = '\'' ∨ quote = '"') :
    Bracketed (.field (String.ofList name)) (quote :: (name ++ [quote]))
  | numeral {sign digits : List Char} {n : Nat} (plus : sign = [] ∨ sign = ['+']) (nonempty : digits ≠ [])
      (all : ∀ c ∈ digits, c.isDigit = true) (value : Nat.ofDigitChars 10 digits 0 = n) (bound : n ≤ Numeral.bound) :
    Bracketed (.index n) (sign ++ digits)

/-- How a step is spelled. -/
inductive Spells : PathStep → List Char → Prop
  | dotted {name : List Char} (nonempty : name ≠ []) (noWildcard : name ≠ ['*'])
      (plain : ∀ c ∈ name, c ≠ '.' ∧ c ≠ '[') : Spells (.field (String.ofList name)) ('.' :: name)
  | bracketed {step : PathStep} {inner : List Char} (within : ']' ∉ inner) (h : Bracketed step inner) :
    Spells step ('[' :: (inner ++ [']']))

end PathStep

namespace RefPath

variable {quote : Char} {inner name rest text : List Char} {step : PathStep} {steps : List PathStep}
  {parts others : List (List Char)} {p q : RefPath}

/-- The sign that a path starts with. -/
def root (inContext : Bool) : List Char := if inContext then ['$', '$'] else ['$']

/-- The text is the root and then, part by part, the spellings of the steps. -/
structure Spelled (p : RefPath) (parts : List (List Char)) (text : List Char) : Prop where
  text_eq : text = root p.inContext ++ parts.flatten
  single : p.inContext = false → parts.flatten.head? ≠ some '$'
  spells : List.Forall₂ PathStep.Spells p.steps parts

/-! ## Brackets -/

theorem unquote?_eq_some_iff : unquote? quote inner = some name ↔ inner = quote :: (name ++ [quote]) := by
  cases inner with
  | nil => simp [unquote?]
  | cons c s =>
    rw [unquote?]
    constructor
    · intro h
      split at h
      · next hq =>
        obtain ⟨rfl, hlast⟩ := hq
        obtain ⟨own, rfl⟩ := List.getLast?_eq_some_iff.1 hlast
        rw [List.dropLast_concat] at h
        cases h
        rfl
      · cases h
    · intro h
      cases h
      simp

theorem unquote?_eq_none (h : inner.head? ≠ some quote) : unquote? quote inner = none := by
  cases inner with
  | nil => rfl
  | cons c s =>
    have hne : c ≠ quote := by simpa using h
    rw [unquote?, if_neg (fun hc => hne hc.1)]

theorem head?_numeral_ne {sign digits : List Char} (hsign : sign = [] ∨ sign = ['+'])
    (hall : ∀ c ∈ digits, c.isDigit = true) (hquote : quote = '\'' ∨ quote = '"') :
    (sign ++ digits).head? ≠ some quote := by
  rcases hsign with rfl | rfl
  · intro h
    have hdigit : quote.isDigit = true := hall quote (List.mem_of_head? h)
    rcases hquote with rfl | rfl <;> cases hdigit
  · rcases hquote with rfl | rfl <;> simp

theorem bracketStep?_eq_some_iff : bracketStep? inner = some step ↔ step.Bracketed inner := by
  constructor
  · intro h
    unfold bracketStep? at h
    split at h
    · next name hname =>
      cases h
      rcases Option.or_eq_some_iff.1 hname with hq | ⟨-, hq⟩
      · rw [unquote?_eq_some_iff.1 hq]
        exact .quoted name (.inl rfl)
      · rw [unquote?_eq_some_iff.1 hq]
        exact .quoted name (.inr rfl)
    · obtain ⟨n, hn, rfl⟩ := Option.map_eq_some_iff.1 h
      obtain ⟨sign, digits, rfl, hsign, hne, hall, hv, hbound⟩ := Numeral.read?_eq_some_iff.1 hn
      exact .numeral hsign hne hall hv hbound
  · intro h
    cases h with
    | quoted name hquote =>
      have hq (quote : Char) : unquote? quote (quote :: (name ++ [quote])) = some name := unquote?_eq_some_iff.2 rfl
      rcases hquote with rfl | rfl
      · rw [bracketStep?, hq, Option.some_or]
      · have hnone : unquote? '\'' ('"' :: (name ++ ['"'])) = none := unquote?_eq_none (by simp)
        rw [bracketStep?, hnone, hq, Option.none_or]
    | numeral hsign hne hall hv hbound =>
      have hread := Numeral.read?_eq_some_iff.2 ⟨_, _, rfl, hsign, hne, hall, hv, hbound⟩
      have hsingle := unquote?_eq_none (head?_numeral_ne hsign hall (.inl rfl))
      have hdouble := unquote?_eq_none (head?_numeral_ne hsign hall (.inr rfl))
      rw [bracketStep?, hsingle, hdouble, hread]
      rfl

/-! ## Steps -/

/-- A name in front of the text ends there. -/
def EndsName (rest : List Char) : Prop := ∀ c ∈ rest.head?, inName c = false

/-- What a step begins with ends a name. -/
theorem endsName_flatten (h : List.Forall₂ PathStep.Spells steps parts) : EndsName parts.flatten := by
  cases h with
  | nil => simp [EndsName]
  | cons h _ => cases h <;> simp [EndsName, inName]

theorem readSteps_dot (hne : name ≠ []) (hwild : name ≠ ['*']) (hplain : ∀ c ∈ name, inName c = true)
    (hrest : EndsName rest) :
    readSteps ('.' :: (name ++ rest)) = (readSteps rest).map (.field (String.ofList name) :: ·) := by
  obtain ⟨htake, hdrop⟩ := takeWhile_append_of_head? hplain hrest
  rw [readSteps, htake, hdrop]
  simp only [if_neg hne, if_neg hwild]

theorem takeWhile_bracket (h : ']' ∉ inner) (rest : List Char) :
    (inner ++ ']' :: rest).takeWhile (· ≠ ']') = inner ∧ (inner ++ ']' :: rest).dropWhile (· ≠ ']') = ']' :: rest := by
  refine takeWhile_append_of_head? (fun c hc => ?_) (by simp)
  rw [decide_eq_true_eq]
  rintro rfl
  exact h hc

theorem readSteps_bracket (h : ']' ∉ inner) (rest : List Char) :
    readSteps ('[' :: (inner ++ ']' :: rest)) =
      (bracketStep? inner).elim (.error .badBracket) fun step => (readSteps rest).map (step :: ·) := by
  obtain ⟨htake, hdrop⟩ := takeWhile_bracket h rest
  rw [readSteps]
  split
  · next he =>
    rw [hdrop] at he
    cases he
  · next he =>
    rw [hdrop] at he
    cases he
    rw [htake]
    cases bracketStep? inner <;> rfl

theorem readSteps_of_spells (h : step.Spells text) (hrest : EndsName rest) :
    readSteps (text ++ rest) = (readSteps rest).map (step :: ·) := by
  cases h with
  | dotted hne hwild hplain => exact readSteps_dot hne hwild (fun c hc => by simpa [inName] using hplain c hc) hrest
  | bracketed within h =>
    rw [List.cons_append, List.append_assoc, List.singleton_append, readSteps_bracket within,
      bracketStep?_eq_some_iff.2 h, Option.elim_some]

/-- Spellings one after the other are read as their steps. -/
theorem readSteps_flatten (h : List.Forall₂ PathStep.Spells steps parts) : readSteps parts.flatten = .ok steps := by
  induction h with
  | nil => rw [List.flatten_nil, readSteps]
  | cons hstep hrest ih =>
    rw [List.flatten_cons, readSteps_of_spells hstep (endsName_flatten hrest), ih]
    rfl

/-- A text that is read can be cut into the spellings of its steps. -/
theorem exists_parts_of_readSteps (h : readSteps text = .ok steps) :
    ∃ parts, text = parts.flatten ∧ List.Forall₂ PathStep.Spells steps parts := by
  fun_induction readSteps text generalizing steps with
  | case1 =>
    cases h
    exact ⟨[], rfl, .nil⟩
  | case4 s name hne hwild =>
    rename_i ih
    obtain ⟨steps, hs, rfl⟩ := ok_of_map h
    obtain ⟨parts, hparts, hspells⟩ := ih hs
    have hplain : ∀ c ∈ name, c ≠ '.' ∧ c ≠ '[' := fun c hc => by
      simpa [inName] using List.mem_takeWhile_imp hc
    refine ⟨('.' :: name) :: parts, ?_, .cons (.dotted hne hwild hplain) hspells⟩
    rw [List.flatten_cons, List.cons_append, ← hparts, List.takeWhile_append_dropWhile]
  | case7 s c rest hrest step hstep ih =>
    obtain ⟨steps, hs, rfl⟩ := ok_of_map h
    obtain ⟨parts, rfl, hspells⟩ := ih hs
    have hwithin : ']' ∉ s.takeWhile (· ≠ ']') := fun hm => by simpa using List.mem_takeWhile_imp hm
    have hclose := List.head?_dropWhile_not (· ≠ ']') s
    rw [hrest] at hclose
    obtain rfl : c = ']' := by simpa using hclose
    refine ⟨_, ?_, .cons (.bracketed hwithin (bracketStep?_eq_some_iff.1 hstep)) hspells⟩
    rw [List.flatten_cons, List.cons_append, List.append_assoc, List.singleton_append, ← hrest,
      List.takeWhile_append_dropWhile]
  | _ => cases h

theorem readSteps_ok_iff :
    readSteps text = .ok steps ↔ ∃ parts, text = parts.flatten ∧ List.Forall₂ PathStep.Spells steps parts := by
  refine ⟨exists_parts_of_readSteps, ?_⟩
  rintro ⟨parts, rfl, h⟩
  exact readSteps_flatten h

/-- The spelling that a text begins with. -/
def firstPart : List Char → List Char
  | '.' :: s => '.' :: s.takeWhile inName
  | '[' :: s => '[' :: (s.takeWhile (· ≠ ']') ++ [']'])
  | _ => []

theorem firstPart_append (h : step.Spells text) (hrest : EndsName rest) : firstPart (text ++ rest) = text := by
  cases h with
  | dotted hne hwild hplain =>
    have hname : ∀ c ∈ _, inName c = true := fun c hc => by simpa [inName] using hplain c hc
    rw [List.cons_append, firstPart, (takeWhile_append_of_head? hname hrest).1]
  | bracketed within h =>
    rw [List.cons_append, List.append_assoc, List.singleton_append, firstPart, (takeWhile_bracket within rest).1]

/-- A text can be cut into spellings of steps in one way only. -/
theorem parts_unique (h : List.Forall₂ PathStep.Spells steps parts) (ho : List.Forall₂ PathStep.Spells steps others)
    (he : parts.flatten = others.flatten) : parts = others := by
  induction h generalizing others with
  | nil =>
    cases ho
    rfl
  | cons hstep hrest ih =>
    cases ho with
    | cons hother horest =>
      rw [List.flatten_cons, List.flatten_cons] at he
      have hfirst := congrArg firstPart he
      rw [firstPart_append hstep (endsName_flatten hrest), firstPart_append hother (endsName_flatten horest)] at hfirst
      obtain rfl := hfirst
      rw [ih horest (List.append_cancel_left he)]

/-! ## Paths -/

theorem readChars_root (inContext : Bool) (h : inContext = false → text.head? ≠ some '$') :
    readChars (root inContext ++ text) = (readSteps text).map (⟨inContext, ·⟩) := by
  cases inContext with
  | true => rfl
  | false =>
    show readChars ('$' :: text) = _
    unfold readChars
    split
    · next he =>
      cases he
      exact absurd rfl (h rfl)
    · next he =>
      cases he
      rfl
    · next he => exact absurd rfl (he text)

theorem readChars_ok_iff : readChars text = .ok p ↔ ∃ parts, p.Spelled parts text := by
  constructor
  · intro h
    unfold readChars at h
    split at h
    · obtain ⟨steps, hs, rfl⟩ := ok_of_map h
      obtain ⟨parts, rfl, hspells⟩ := readSteps_ok_iff.1 hs
      exact ⟨parts, rfl, nofun, hspells⟩
    · next s hs' =>
      obtain ⟨steps, hs, rfl⟩ := ok_of_map h
      obtain ⟨parts, rfl, hspells⟩ := readSteps_ok_iff.1 hs
      refine ⟨parts, rfl, fun _ hd => ?_, hspells⟩
      obtain ⟨rest, hr⟩ := List.head?_eq_some_iff.1 hd
      exact hs' rest hr
    · cases h
  · rintro ⟨parts, rfl, hrest, hspells⟩
    rw [readChars_root _ hrest, readSteps_flatten hspells]
    rfl

/-- A text is read as a path just if it is one of its texts; it is the text of one path only, and there is one way only
to cut it into spellings of the steps. -/
theorem read_ok_iff_spelled (path : String) :
    (∀ p, read path = .ok p ↔ ∃ parts, p.Spelled parts path.toList) ∧
      ∀ (p q : RefPath) parts others, p.Spelled parts path.toList → q.Spelled others path.toList →
        p = q ∧ parts = others := by
  refine ⟨fun p => readChars_ok_iff, fun p q parts others h ho => ?_⟩
  have hp : readChars path.toList = .ok p := readChars_ok_iff.2 ⟨parts, h⟩
  have hq : readChars path.toList = .ok q := readChars_ok_iff.2 ⟨others, ho⟩
  obtain rfl : p = q := Except.ok.inj (hp.symm.trans hq)
  have he : root p.inContext ++ parts.flatten = root p.inContext ++ others.flatten := h.text_eq.symm.trans ho.text_eq
  exact ⟨rfl, parts_unique h.spells ho.spells (List.append_cancel_left he)⟩

example : read "$.order['line items'][+02].a]b" =
    .ok ⟨false, [.field "order", .field "line items", .index 2, .field "a]b"]⟩ := by decide +kernel

end RefPath

end StateBench

import StateBench.Pattern

/-!
# The texts that a pattern stands for

A pattern stands for texts (`Pattern.StandsFor`), and so does a list of tokens (`Token.Cover`). A scan can still succeed
if its tokens cover its text, or if the latest trial succeeds further on in its text (`Scan.Open`). No step changes
whether it can (`Scan.promises_step`): what the tokens since an earlier star cover further on is, after a star, also
found from the later star on, so that earlier trials are not needed any more (`Scan.cover_of_later`).
-/

namespace StateBench

/-- The texts that a pattern stands for, the pattern being read from its start. -/
inductive Pattern.StandsFor : List Char → List Char → Prop
  | nil : StandsFor [] []
  | star {p t : List Char} (run : List Char) : StandsFor p t → StandsFor ('*' :: p) (run ++ t)
  | escaped {p t : List Char} (c : Char) : StandsFor p t → StandsFor ('\\' :: c :: p) (c :: t)
  | lone : StandsFor ['\\'] ['\\']
  | char {p t : List Char} {c : Char} (star : c ≠ '*') (escape : c ≠ '\\') : StandsFor p t → StandsFor (c :: p) (c :: t)

/-! ## Tokens -/

namespace Token

/-- The texts that tokens stand for. -/
def Cover : List Token → List Char → Prop
  | [], text => text = []
  | .char c :: tokens, text => ∃ rest, text = c :: rest ∧ Cover tokens rest
  | .run :: tokens, text => ∃ rest, rest <:+ text ∧ Cover tokens rest

variable {tokens : List Token} {text : List Char}

theorem cover_chars {chars : List Char} :
    Cover (chars.map .char ++ tokens) text ↔ ∃ rest, text = chars ++ rest ∧ Cover tokens rest := by
  induction chars generalizing text with
  | nil => simp
  | cons c chars ih =>
    constructor
    · rintro ⟨after, rfl, h⟩
      obtain ⟨rest, rfl, hrest⟩ := ih.1 h
      exact ⟨rest, rfl, hrest⟩
    · rintro ⟨rest, rfl, h⟩
      exact ⟨chars ++ rest, rfl, ih.2 ⟨rest, rfl, h⟩⟩

theorem cover_nil_iff : Cover tokens [] ↔ tokens.all (· = .run) = true := by
  induction tokens with
  | nil => simp [Cover]
  | cons token tokens ih => cases token <;> simp [Cover, ← ih]

end Token

/-- A pattern stands for what its tokens cover. -/
theorem Pattern.standsFor_iff_cover {pattern text : List Char} :
    StandsFor pattern text ↔ Token.Cover (tokens pattern) text := by
  constructor
  · intro h
    induction h with
    | nil => rfl
    | star run _ ih => exact ⟨_, List.suffix_append run _, ih⟩
    | escaped c _ ih => exact ⟨_, rfl, ih⟩
    | lone => exact ⟨[], rfl, rfl⟩
    | char star escape _ ih =>
      rw [tokens]
      · exact ⟨_, rfl, ih⟩
      all_goals simp_all
  · intro h
    fun_induction tokens pattern generalizing text with
    | case1 =>
      obtain rfl := h
      exact .nil
    | case2 =>
      obtain ⟨_, rfl, rfl⟩ := h
      exact .lone
    | case3 c pattern ih =>
      obtain ⟨rest, rfl, h⟩ := h
      exact .escaped c (ih h)
    | case4 pattern ih =>
      obtain ⟨rest, ⟨run, rfl⟩, h⟩ := h
      exact .star run (ih h)
    | case5 c pattern lone escaped star ih =>
      obtain ⟨rest, rfl, h⟩ := h
      refine .char star ?_ (ih h)
      rintro rfl
      cases pattern with
      | nil => exact lone rfl rfl
      | cons d pattern => exact escaped d pattern rfl rfl

/-! ## Scans -/

/-- The trial succeeds further on in its text. -/
def Trial.Later (t : Trial) : Prop :=
  ∃ rest, rest <:+ t.text ∧ rest.length < t.text.length ∧ Token.Cover t.tokens rest

theorem Trial.later_iff {t : Trial} (h : t.text ≠ []) : t.Later ↔ Token.Cover (.run :: t.tokens) t.text.tail := by
  obtain ⟨tokens, text⟩ := t
  cases text with
  | nil => exact absurd rfl h
  | cons c text =>
    constructor
    · rintro ⟨rest, hr, hlt, hcover⟩
      rcases List.suffix_cons_iff.1 hr with rfl | hr
      · exact absurd hlt (Nat.lt_irrefl _)
      · exact ⟨rest, hr, hcover⟩
    · rintro ⟨rest, hr, hcover⟩
      exact ⟨rest, hr.trans (List.suffix_cons c text), Nat.lt_succ_of_le hr.length_le, hcover⟩

namespace Scan

variable {s : Scan}

/-- There may still be a match. -/
def Open (s : Scan) : Prop := Token.Cover s.tokens s.text ∨ ∃ t ∈ s.trial, t.Later

/-- A trial succeeds from its text on. -/
theorem open_trying {t : Trial} : (trying t).Open ↔ Token.Cover (.run :: t.tokens) t.text := by
  constructor
  · rintro (h | ⟨t, ⟨⟩, rest, hr, -, h⟩)
    · exact ⟨_, List.suffix_refl _, h⟩
    · exact ⟨rest, hr, h⟩
  · rintro ⟨rest, hr, h⟩
    rcases Nat.lt_or_eq_of_le hr.length_le with hlt | heq
    · exact .inr ⟨t, rfl, rest, hr, hlt, h⟩
    · obtain rfl := hr.eq_of_length heq
      exact .inl h

/-- What a trial finds further on leaves a shorter end of the text to the tokens that are left. -/
theorem cover_of_later {t : Trial} (ht : t ∈ s.trial) (h : t.Later) :
    ∃ rest, rest <:+ s.text ∧ rest.length < s.text.length ∧ Token.Cover s.tokens rest := by
  obtain ⟨taken, htokens, htext⟩ := s.taken t ht
  obtain ⟨later, hsuffix, hlt, hcover⟩ := h
  rw [htokens] at hcover
  obtain ⟨rest, rfl, hrest⟩ := Token.cover_chars.1 hcover
  have hle : rest.length < s.text.length := by
    simp only [htext, List.length_append] at hlt
    omega
  refine ⟨rest, ?_, hle, hrest⟩
  have h₁ : rest <:+ taken ++ s.text := (List.suffix_append taken rest).trans (htext ▸ hsuffix)
  exact List.suffix_of_suffix_length_le h₁ (List.suffix_append taken s.text) (Nat.le_of_lt hle)

/-- What an answer or a next scan says of a match. -/
def Promises : Scan ⊕ Bool → Prop := Sum.elim Open (· = true)

/-- Where the text does not go on as the tokens do, only the latest trial may lead to a match. -/
theorem promises_retry (s : Scan) (hne : s.text ≠ []) (hs : ¬ Token.Cover s.tokens s.text) :
    Promises (retry s.trial) ↔ s.Open := by
  cases ht : s.trial with
  | none => simp [Promises, retry, Open, ht, hs]
  | some t =>
    have htext : t.text ≠ [] := by
      obtain ⟨taken, -, htext⟩ := s.taken t ht
      simp [htext, hne]
    have hopen : s.Open ↔ t.Later := by simp [Open, ht, hs]
    rw [hopen]
    exact open_trying.trans (Trial.later_iff htext).symm

/-- A step does not change whether there may be a match. -/
theorem promises_step (s : Scan) : Promises s.step ↔ s.Open := by
  rcases s with ⟨tokens, _ | ⟨c, text⟩, trial, taken⟩
  · -- at the end of the text, nothing is left of it for the trial
    refine Token.cover_nil_iff.symm.trans ⟨.inl, ?_⟩
    rintro (h | ⟨t, ht, h⟩)
    · exact h
    · obtain ⟨rest, -, hlt, -⟩ := cover_of_later ht h
      cases hlt
  · rcases tokens with _ | ⟨d | _, tokens⟩
    · exact promises_retry ⟨[], c :: text, trial, taken⟩ (by simp) (by simp [Token.Cover])
    · simp only [step]
      split
      · next hc =>
        obtain rfl := hc
        simp [Promises, Open, take, Token.Cover]
      · next hc =>
        exact promises_retry ⟨.char d :: tokens, c :: text, trial, taken⟩ (by simp)
          (by simp [Token.Cover, Ne.symm hc])
    · refine open_trying.trans ⟨.inl, ?_⟩
      rintro (h | ⟨t, ht, h⟩)
      · exact h
      · -- from this star on, the rest that the earlier one leads to is found as well
        obtain ⟨rest, hr, -, last, hl, hcover⟩ := cover_of_later ht h
        exact ⟨last, hl.trans hr, hcover⟩

/-! ## Runs -/

/-- Finitely many steps lead to an answer. -/
inductive Ends : Scan → Bool → Prop
  | now {s : Scan} {answer : Bool} (h : s.step = .inr answer) : Ends s answer
  | later {s next : Scan} {answer : Bool} (h : s.step = .inl next) (rest : Ends next answer) : Ends s answer

theorem ends_run (s : Scan) : s.Ends s.run := by
  fun_induction run s with
  | case1 s next h ih => exact .later h ih
  | case2 s answer h => exact .now h

theorem Ends.answer_iff {answer : Bool} (h : s.Ends answer) : answer = true ↔ s.Open := by
  induction h with
  | @now s answer h =>
    have hs := promises_step s
    rw [h] at hs
    exact hs
  | @later s next answer h _ ih =>
    have hs := promises_step s
    rw [h] at hs
    exact ih.trans hs

theorem open_start {pattern text : String} :
    (start pattern text).Open ↔ Token.Cover (Pattern.tokens pattern.toList) text.toList := by
  simp [Open, start]

end Scan

/-- Going through a text ends on every pattern and text, with a match just where the pattern stands for the text. -/
theorem Pattern.isMatch_iff_standsFor (pattern text : String) :
    (Scan.start pattern text).Ends (isMatch pattern text) ∧
      (isMatch pattern text = true ↔ StandsFor pattern.toList text.toList) := by
  have hends : (Scan.start pattern text).Ends (isMatch pattern text) := Scan.ends_run _
  exact ⟨hends, hends.answer_iff.trans (Scan.open_start.trans standsFor_iff_cover.symm)⟩

example : Pattern.isMatch "log-*-end" "log-2024-01-end" = true := by cbv

end StateBench

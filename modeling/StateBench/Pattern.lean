/-!
# Patterns with wildcards

A star stands for any run of characters, a backslash for the character after it (or for itself at the end), and any
other character for itself. A text is gone through from its start, each star standing for no character at first. Where
the text does not go on as the tokens do, the latest star takes one character more, and the tokens after it are tried
again from there; what earlier stars stand for is never changed again.

* `Pattern.tokens`: the tokens of a pattern;
* `Scan.step`: one step through a text, which gives the next scan or the answer;
* `Scan.rank_of_step`: each step comes nearer to the end;
* `Pattern.isMatch`: whether a pattern matches a whole text.
-/

namespace StateBench

/-- One token of a pattern. -/
inductive Token where
  | char (c : Char)
  | run
  deriving DecidableEq, Repr

/-- The tokens of a pattern. -/
def Pattern.tokens : List Char → List Token
  | [] => []
  | '\\' :: [] => [.char '\\']
  | '\\' :: c :: s => .char c :: tokens s
  | '*' :: s => .run :: tokens s
  | c :: s => .char c :: tokens s

/-- The tokens after a star, and the text on which they are tried. -/
structure Trial where
  tokens : List Token
  text : List Char

/-- How far a text has been gone through. -/
structure Scan where
  /-- The tokens that are left. -/
  tokens : List Token
  /-- The text that is left. -/
  text : List Char
  /-- The latest trial. -/
  trial : Option Trial
  /-- Since then only characters have been taken, the same ones of the tokens and of the text. -/
  taken : ∀ t ∈ trial, ∃ taken, t.tokens = taken.map .char ++ tokens ∧ t.text = taken ++ text := by simp

namespace Scan

/-- Nothing has been taken since the trial. -/
def trying (t : Trial) : Scan where
  tokens := t.tokens
  text := t.text
  trial := some t
  taken _ h := ⟨[], by cases h; exact ⟨rfl, rfl⟩⟩

/-- The star before the tokens of the latest trial takes one character more; without a star there is no match. -/
def retry : Option Trial → Scan ⊕ Bool
  | none => .inr false
  | some t => .inl (trying ⟨t.tokens, t.text.tail⟩)

/-- A character is taken of the tokens and of the text. -/
def take {c : Char} (tokens : List Token) (text : List Char) (trial : Option Trial)
    (h : ∀ t ∈ trial, ∃ taken, t.tokens = taken.map .char ++ .char c :: tokens ∧ t.text = taken ++ c :: text) :
    Scan where
  tokens := tokens
  text := text
  trial := trial
  taken t ht := by
    obtain ⟨taken, htokens, htext⟩ := h t ht
    exact ⟨taken ++ [c], by simpa using htokens, by simpa using htext⟩

/-- A text is gone through from its start. -/
def start (pattern text : String) : Scan where
  tokens := Pattern.tokens pattern.toList
  text := text.toList
  trial := none

/-- The next scan, or whether there is a match. -/
def step : Scan → Scan ⊕ Bool
  | ⟨tokens, [], _, _⟩ => .inr (tokens.all (· = .run))
  | ⟨.char d :: tokens, c :: text, trial, h⟩ =>
    if hc : d = c then .inl (take tokens text trial (hc ▸ h)) else retry trial
  | ⟨.run :: tokens, c :: text, _, _⟩ => .inl (trying ⟨tokens, c :: text⟩)
  | ⟨[], _ :: _, trial, _⟩ => retry trial

/-- The stars that are left, and for the same number of them the text of the latest trial and the text that is left. -/
def rank (s : Scan) : Nat × Nat × Nat :=
  (s.tokens.count .run, s.trial.elim 0 (·.text.length), s.text.length)

/-- Each step lowers the rank: a star is passed, or a trial begins further on in the text, or a character is taken. -/
theorem rank_of_step {s next : Scan} (h : s.step = .inl next) :
    Prod.Lex (· < ·) (Prod.Lex (· < ·) (· < ·)) next.rank s.rank := by
  have hretry {tokens : List Token} {c : Char} {text : List Char} {trial : Option Trial} {taken}
      (h : retry trial = .inl next) :
      Prod.Lex (· < ·) (Prod.Lex (· < ·) (· < ·)) next.rank (Scan.rank ⟨tokens, c :: text, trial, taken⟩) := by
    cases trial with
    | none => cases h
    | some t =>
      cases h
      obtain ⟨between, htokens, htext⟩ := taken t rfl
      -- no star has been passed since the trial began
      have hcount : t.tokens.count .run = tokens.count .run := by simp [htokens, List.count_eq_zero]
      simp only [rank, trying, hcount, Option.elim_some]
      exact .right _ (.left _ _ (by simp [htext]))
  rcases s with ⟨tokens, _ | ⟨c, text⟩, trial, taken⟩
  · rcases tokens <;> simp [step] at h
  · rcases tokens with _ | ⟨d | _, tokens⟩
    · exact hretry h
    · simp only [step] at h
      split at h
      · cases h
        exact .right _ (.right _ (by simp [take]))
      · exact hretry h
    · cases h
      exact .left _ _ (by simp [trying])

/-- Goes on to the answer. -/
def run (s : Scan) : Bool :=
  match _h : s.step with
  | .inl next => next.run
  | .inr answer => answer
termination_by s.rank
decreasing_by exact rank_of_step _h

end Scan

/-- Whether a pattern matches a whole text. -/
def Pattern.isMatch (pattern text : String) : Bool := (Scan.start pattern text).run

end StateBench

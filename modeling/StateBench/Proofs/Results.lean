import Mathlib.Data.List.Forall2
import Mathlib.Data.List.Nodup
import Mathlib.Data.List.TakeWhile

/-!
# Results of steps

A result is read and checked in steps, of which each can end with an error. When all goes well, each step had a value,
and those of steps that were taken for all elements of a list go with the elements one by one. What is then looked for
by a key is found, if no key occurs twice. Results of steps that are taken for related values are alike (`Alike`): the
same error, or related values again.
-/

namespace StateBench

variable {α β γ ε δ : Type}

theorem ok_of_bind {x : Except ε α} {f : α → Except ε β} {result : β} (h : x >>= f = .ok result) :
    ∃ value, x = .ok value ∧ f value = .ok result := by
  cases x with
  | error e => cases h
  | ok value => exact ⟨value, rfl, h⟩

theorem bind_ok_iff {x : Except ε α} {f : α → Except ε β} {result : β} :
    x >>= f = .ok result ↔ ∃ value, x = .ok value ∧ f value = .ok result := by
  refine ⟨ok_of_bind, ?_⟩
  rintro ⟨value, rfl, h⟩
  exact h

theorem ok_of_mapError {x : Except ε α} {f : ε → δ} {value : α} (h : x.mapError f = .ok value) : x = .ok value := by
  cases x with
  | error e => cases h
  | ok other =>
    cases h
    rfl

theorem ok_of_map {x : Except ε α} {f : α → β} {result : β} (h : x.map f = .ok result) :
    ∃ value, x = .ok value ∧ f value = result := by
  cases x with
  | error e => cases h
  | ok value =>
    cases h
    exact ⟨value, rfl, rfl⟩

theorem error_of_map {x : Except ε α} {f : α → β} {e : ε} (h : x.map f = .error e) : x = .error e := by
  cases x with
  | error other =>
    cases h
    rfl
  | ok value => cases h

theorem mapError_bind (x : Except ε α) (next : α → Except ε β) (f : ε → δ) :
    (x >>= next).mapError f = x.mapError f >>= fun value => (next value).mapError f := by
  cases x <;> rfl

theorem mapError_map (x : Except ε α) (g : α → β) (f : ε → δ) : (x.map g).mapError f = (x.mapError f).map g := by
  cases x <;> rfl

theorem mapError_mapError (x : Except ε α) (f : ε → δ) (g : δ → γ) :
    (x.mapError f).mapError g = x.mapError fun e => g (f e) := by
  cases x <;> rfl

theorem ok_of_isOk {x : Except ε α} (h : x.isOk = true) : ∃ value, x = .ok value := by
  cases x with
  | error e => cases h
  | ok value => exact ⟨value, rfl⟩

theorem mapM_ok_iff {f : α → Except ε β} {xs : List α} {ys : List β} :
    xs.mapM f = .ok ys ↔ List.Forall₂ (fun x y => f x = .ok y) xs ys := by
  constructor
  · intro h
    induction xs generalizing ys with
    | nil =>
      cases h
      exact .nil
    | cons x xs ih =>
      rw [List.mapM_cons] at h
      obtain ⟨first, hx, h⟩ := ok_of_bind h
      obtain ⟨rest, hr, h⟩ := ok_of_bind h
      cases h
      exact .cons hx (ih hr)
  · intro h
    induction h with
    | nil => rfl
    | cons hx _ ih =>
      rw [List.mapM_cons, hx]
      exact congrArg (Except.bind · fun rest => .ok (_ :: rest)) ih

/-- What goes with the element at an index of the second list is at the same index of the first one. -/
theorem getElem?_of_forall₂ {R : α → β → Prop} {xs : List α} {ys : List β} (h : List.Forall₂ R xs ys) {index : Nat}
    {y : β} (hy : ys[index]? = some y) : ∃ x, xs[index]? = some x ∧ R x y := by
  induction h generalizing index with
  | nil => cases hy
  | cons hr _ ih =>
    cases index with
    | zero =>
      cases hy
      exact ⟨_, rfl, hr⟩
    | succ index => exact ih hy

theorem mem_of_forall₂ {R : α → β → Prop} {xs : List α} {ys : List β} (h : List.Forall₂ R xs ys) {y : β} (hy : y ∈ ys) :
    ∃ x ∈ xs, R x y := by
  obtain ⟨index, hi⟩ := List.getElem?_of_mem hy
  obtain ⟨x, hx, hr⟩ := getElem?_of_forall₂ h hi
  exact ⟨x, List.mem_of_getElem? hx, hr⟩

theorem forall₂_comp {R : α → β → Prop} {S : β → γ → Prop} {xs : List α} {ys : List β} {zs : List γ}
    (h : List.Forall₂ R xs ys) (hs : List.Forall₂ S ys zs) :
    List.Forall₂ (fun x z => ∃ y, R x y ∧ S y z) xs zs := by
  induction h generalizing zs with
  | nil =>
    cases hs
    exact .nil
  | cons hr _ ih =>
    cases hs with
    | cons hz hs => exact .cons ⟨_, hr, hz⟩ (ih hs)

/-- What goes with the elements of the second list are elements of the first. -/
theorem forall₂_of_mem {R : α → β → Prop} {xs : List α} {ys : List β} (h : List.Forall₂ R xs ys) :
    List.Forall₂ (fun x y => x ∈ xs ∧ R x y) xs ys :=
  (List.forall₂_and_left xs ys).2 ⟨fun _ hx => hx, h⟩

theorem map_eq_of_forall₂ {f : α → γ} {g : β → γ} {xs : List α} {ys : List β}
    (h : List.Forall₂ (fun x y => f x = g y) xs ys) : xs.map f = ys.map g := by
  rw [← List.forall₂_eq_eq_eq]
  exact List.forall₂_map_left_iff.2 (List.forall₂_map_right_iff.2 h)

/-- Where each element of a list has something to go with, all of them do at once. -/
theorem exists_forall₂_iff {R : α → β → Prop} {xs : List α} :
    (∃ ys, List.Forall₂ R xs ys) ↔ ∀ x ∈ xs, ∃ y, R x y := by
  induction xs with
  | nil => simp
  | cons x xs ih =>
    rw [List.forall_mem_cons, ← ih]
    constructor
    · rintro ⟨_, hr | ⟨hr, hrest⟩⟩
      exact ⟨⟨_, hr⟩, _, hrest⟩
    · rintro ⟨⟨y, hr⟩, ys, hrest⟩
      exact ⟨y :: ys, .cons hr hrest⟩

/-- What goes with an element stands between what goes with those before and with those after it. -/
theorem forall₂_split {R : α → β → Prop} {before after : List α} {x : α} {zs : List β}
    (h : List.Forall₂ R (before ++ x :: after) zs) :
    ∃ first y last, zs = first ++ y :: last ∧ R x y ∧ List.Forall₂ R after last := by
  induction before generalizing zs with
  | nil =>
    cases h with
    | cons hr hrest => exact ⟨[], _, _, rfl, hr, hrest⟩
  | cons z before ih =>
    cases h with
    | cons _ hrest =>
      obtain ⟨first, y, last, rfl, hr, hlast⟩ := ih hrest
      exact ⟨_ :: first, y, last, rfl, hr, hlast⟩

/-- Elements that go with each other do so under the same indices. -/
theorem forall₂_zipIdx {R : α → β → Prop} {xs : List α} {ys : List β} (h : List.Forall₂ R xs ys) (start : Nat) :
    List.Forall₂ (fun first second => first.1 = second.1 ∧ R first.2 second.2)
      ((xs.zipIdx start).map fun pair => (pair.2, pair.1)) ((ys.zipIdx start).map fun pair => (pair.2, pair.1)) := by
  induction h generalizing start with
  | nil => exact .nil
  | cons hr _ ih => exact .cons ⟨rfl, hr⟩ (ih (start + 1))

/-- A list that is filtered by a function with a value for each of its elements loses none of them. -/
theorem forall₂_filterMap {f : α → Option β} {xs : List α} (h : ∀ x ∈ xs, (f x).isSome) :
    List.Forall₂ (fun x y => f x = some y) xs (xs.filterMap f) := by
  induction xs with
  | nil => exact .nil
  | cons x xs ih =>
    obtain ⟨y, hy⟩ := Option.isSome_iff_exists.1 (h x List.mem_cons_self)
    rw [List.filterMap_cons_some hy]
    exact .cons hy (ih fun other ho => h other (List.mem_cons_of_mem _ ho))

/-- Before the first element of a kind there are elements of another kind only. -/
theorem exists_first_cons {P Q : α → Prop} {x : α} {xs : List α} :
    (∃ before y after, x :: xs = before ++ y :: after ∧ (∀ z ∈ before, P z) ∧ Q y) ↔
      Q x ∨ P x ∧ ∃ before y after, xs = before ++ y :: after ∧ (∀ z ∈ before, P z) ∧ Q y := by
  constructor
  · rintro ⟨before, y, after, he, hp, hq⟩
    cases before with
    | nil =>
      cases he
      exact .inl hq
    | cons z before =>
      cases he
      exact .inr ⟨hp x List.mem_cons_self, before, y, after, rfl, fun z hz => hp z (List.mem_cons_of_mem _ hz), hq⟩
  · rintro (hq | ⟨hx, before, y, after, rfl, hp, hq⟩)
    · exact ⟨[], x, xs, rfl, by simp, hq⟩
    · exact ⟨x :: before, y, after, rfl, by simpa [hx] using hp, hq⟩

/-- What is taken from the front ends where something else begins. -/
theorem takeWhile_append_of_head? {p : α → Bool} {xs ys : List α} (hx : ∀ x ∈ xs, p x = true)
    (hy : ∀ y ∈ ys.head?, p y = false) : (xs ++ ys).takeWhile p = xs ∧ (xs ++ ys).dropWhile p = ys := by
  rw [List.takeWhile_append_of_pos hx, List.dropWhile_append_of_pos hx]
  cases ys with
  | nil => simp
  | cons y ys => simp [hy y rfl]

/-! ## Keys -/

/-- In a list in which no key occurs twice, each element is the first one with its key. -/
theorem find?_of_nodup_keys [DecidableEq β] {key : α → β} {xs : List α} (h : (xs.map key).Nodup) {x : α} (hx : x ∈ xs) :
    xs.find? (key · = key x) = some x := by
  have hsome : (xs.find? (key · = key x)).isSome := List.find?_isSome.2 ⟨x, hx, by simp⟩
  obtain ⟨found, hf⟩ := Option.isSome_iff_exists.1 hsome
  have hk : key found = key x := by simpa using List.find?_some hf
  rw [hf, List.inj_on_of_nodup_map h (List.mem_of_find?_eq_some hf) hx hk]

/-! ## Related values -/

theorem eq_of_rel {R : α → α → Prop} {x y : Option α} (h : Option.Rel R x y)
    (hr : ∀ {value other}, R value other → other = value) : y = x := by
  cases h with
  | none => rfl
  | some h => rw [hr h]

theorem length_eq_of_rel {R : Nat → α → β → Prop} {xs : List α} {ys : List β}
    (h : ∀ index : Nat, Option.Rel (R index) xs[index]? ys[index]?) : xs.length = ys.length := by
  have hnone (index : Nat) : xs[index]? = none ↔ ys[index]? = none := by
    have hi := h index
    generalize xs[index]? = x at hi
    generalize ys[index]? = y at hi
    cases hi <;> simp
  simp only [List.getElem?_eq_none_iff] at hnone
  exact Nat.le_antisymm ((hnone _).2 (Nat.le_refl _)) ((hnone _).1 (Nat.le_refl _))

/-! ## Alike results -/

/-- Both results are the same error, or values that are related. -/
inductive Alike (R : α → β → Prop) : Except ε α → Except ε β → Prop
  | error (e : ε) : Alike R (.error e) (.error e)
  | ok {value : α} {other : β} (h : R value other) : Alike R (.ok value) (.ok other)

namespace Alike

theorem bind {R : α → β → Prop} {S : γ → δ → Prop} {x : Except ε α} {y : Except ε β} {f : α → Except ε γ}
    {g : β → Except ε δ} (h : Alike R x y) (hf : ∀ {value other}, R value other → Alike S (f value) (g other)) :
    Alike S (x >>= f) (y >>= g) := by
  cases h with
  | error e => exact .error e
  | ok hr => exact hf hr

/-- A step that is the same before related ones. -/
theorem bind_same {S : γ → δ → Prop} (x : Except ε α) {f : α → Except ε γ} {g : α → Except ε δ}
    (hf : ∀ value, Alike S (f value) (g value)) : Alike S (x >>= f) (x >>= g) := by
  cases x with
  | error e => exact .error e
  | ok value => exact hf value

theorem refl {R : α → α → Prop} (hr : ∀ value, R value value) (x : Except ε α) : Alike R x x := by
  cases x with
  | error e => exact .error e
  | ok value => exact .ok (hr value)

theorem map {R : α → β → Prop} {S : γ → δ → Prop} {x : Except ε α} {y : Except ε β} {f : α → γ} {g : β → δ}
    (h : Alike R x y) (hf : ∀ {value other}, R value other → S (f value) (g other)) : Alike S (x.map f) (y.map g) := by
  cases h with
  | error e => exact .error e
  | ok hr => exact .ok (hf hr)

theorem mapM {R : α → β → Prop} {S : γ → δ → Prop} {f : α → Except ε γ} {g : β → Except ε δ}
    (hf : ∀ {x y}, R x y → Alike S (f x) (g y)) {xs : List α} {ys : List β} (h : List.Forall₂ R xs ys) :
    Alike (List.Forall₂ S) (xs.mapM f) (ys.mapM g) := by
  induction h with
  | nil => exact .ok .nil
  | cons hr _ ih =>
    rw [List.mapM_cons, List.mapM_cons]
    exact (hf hr).bind fun hs => ih.bind fun hrest => .ok (.cons hs hrest)

end Alike

end StateBench

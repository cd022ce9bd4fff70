import StateBench.Json.Reader
import StateBench.Proofs.Results

/-!
# Documents that are read are canonical

However the keys of an object stand in a text, they ascend in the document that is read from it, at every depth
(`Json.canonical_of_read`). What a reader gives has a property wherever it succeeds (`Json.Reader.Gives`); the reader of
values gives canonical documents, by induction on the nesting. Entries in any order keep their values when they are put
in order (`Fields.find?_ofList`), and entries in order stay as they are (`Fields.ofList_eq_self`).
-/

namespace StateBench

/-! ## Fields -/

namespace Fields

variable {α : Type}

theorem mem_ofList {entries : List (String × α)} {entry : String × α} (h : entry ∈ ofList entries) :
    entry ∈ entries := by
  suffices hs : ∀ fields : Fields α,
      entry ∈ entries.foldl (fun fields entry => fields.insert entry.1 entry.2) fields →
        entry ∈ entries ∨ entry ∈ fields by
    exact (hs [] h).resolve_right (List.not_mem_nil)
  clear h
  induction entries with
  | nil => exact fun _ h => .inr h
  | cons first entries ih =>
    intro fields h
    rcases ih _ h with h | h
    · exact .inl (List.mem_cons_of_mem _ h)
    · rcases mem_insert h with rfl | h
      · exact .inl List.mem_cons_self
      · exact .inr h

theorem mem_of_find? {fields : Fields α} {key : String} {value : α} (h : fields.find? key = some value) :
    (key, value) ∈ fields := by
  induction fields with
  | nil => cases h
  | cons entry fields ih =>
    rw [find?] at h
    split at h
    · next hk =>
      cases h
      exact hk ▸ List.mem_cons_self
    · exact List.mem_cons_of_mem _ (ih h)

theorem exists_of_mem_keys {fields : Fields α} {key : String} (h : key ∈ fields.map Prod.fst) :
    ∃ value, (key, value) ∈ fields := by
  simpa using h

/-- Where no key occurs twice, each field is found under its key. -/
theorem find?_of_mem {fields : Fields α} (h : Ascending fields) {key : String} {value : α}
    (hm : (key, value) ∈ fields) : fields.find? key = some value := by
  induction fields with
  | nil => cases hm
  | cons entry fields ih =>
    obtain ⟨hlt, hrest⟩ := ascending_cons.1 h
    rw [find?]
    rcases List.mem_cons.1 hm with rfl | hm
    · rw [if_pos rfl]
    · have hne : entry.1 ≠ key := fun he => String.lt_irrefl _ (he ▸ hlt (key, value) hm)
      rw [if_neg hne]
      exact ih hrest hm

theorem nodup_keys {fields : Fields α} (h : Ascending fields) : (fields.map Prod.fst).Nodup := by
  refine List.Pairwise.imp ?_ h
  rintro key _ hlt rfl
  exact String.lt_irrefl key hlt

theorem find?_eq_none_iff {fields : Fields α} {key : String} : fields.find? key = none ↔ key ∉ fields.map Prod.fst := by
  induction fields with
  | nil => simp [find?]
  | cons entry fields ih =>
    by_cases h : entry.1 = key
    · simp [find?, h]
    · simp [find?, h, ih, Ne.symm h]

/-- Among entries with keys of their own, each is found as it is given, in whatever order they are given. -/
theorem find?_ofList {entries : List (String × α)} (h : (entries.map Prod.fst).Nodup) (key : String) :
    (ofList entries).find? key = find? key entries := by
  suffices hs : ∀ fields : Fields α,
      (entries.foldl (fun fields entry => fields.insert entry.1 entry.2) fields).find? key =
        (find? key entries).or (fields.find? key) by
    exact (hs []).trans Option.or_none
  induction entries with
  | nil => exact fun fields => (Option.none_or).symm
  | cons entry entries ih =>
    intro fields
    obtain ⟨hnew, hrest⟩ := List.nodup_cons.1 h
    rw [List.foldl_cons, ih hrest, find?]
    split
    · next hk =>
      obtain rfl := hk
      rw [find?_eq_none_iff.2 hnew, find?_insert_self]
      rfl
    · next hk => rw [find?_insert_of_ne (Ne.symm hk)]

theorem find?_ofList_eq_none {entries : List (String × α)} {key : String} (h : key ∉ entries.map Prod.fst) :
    (ofList entries).find? key = none := by
  refine find?_eq_none_iff.2 fun hk => ?_
  obtain ⟨value, hm⟩ := exists_of_mem_keys hk
  exact h (List.mem_map_of_mem (mem_ofList hm))

/-- Of the entries with one key, the last one is found. -/
theorem find?_ofList_of_last {before after : List (String × α)} {key : String} (h : key ∉ after.map Prod.fst)
    (value : α) : (ofList (before ++ (key, value) :: after)).find? key = some value := by
  rw [ofList, List.foldl_append, List.foldl_cons]
  suffices hs : ∀ fields : Fields α,
      (after.foldl (fun fields entry => fields.insert entry.1 entry.2) fields).find? key = fields.find? key by
    exact (hs _).trans (find?_insert_self key value _)
  induction after with
  | nil => exact fun _ => rfl
  | cons entry after ih =>
    intro fields
    obtain ⟨hne, hrest⟩ := List.ne_and_not_mem_of_not_mem_cons h
    rw [List.foldl_cons, ih hrest, find?_insert_of_ne hne]

/-- Fields are known from what is found among them. -/
theorem eq_of_find?_eq {fields others : Fields α} (h : Ascending fields) (ho : Ascending others)
    (he : ∀ key, fields.find? key = others.find? key) : fields = others := by
  have hmem : ∀ entry, entry ∈ fields ↔ entry ∈ others := fun entry =>
    ⟨fun hm => mem_of_find? (he entry.1 ▸ find?_of_mem h hm), fun hm => mem_of_find? (he entry.1 ▸ find?_of_mem ho hm)⟩
  have hperm : fields.Perm others :=
    (List.perm_ext_iff_of_nodup (nodup_keys h).of_map (nodup_keys ho).of_map).2 hmem
  have hlt : ∀ entry other : String × α, entry.1 < other.1 → other.1 < entry.1 → entry = other := fun _ _ hlt hgt =>
    absurd (String.lt_trans hlt hgt) (String.lt_irrefl _)
  exact hperm.eq_of_pairwise (fun entry other _ _ => hlt entry other) (List.pairwise_map.1 h) (List.pairwise_map.1 ho)

/-- A key that comes after all others goes to the end. -/
theorem insert_eq_append {fields : Fields α} {key : String} (h : ∀ entry ∈ fields, entry.1 < key) (value : α) :
    fields.insert key value = fields ++ [(key, value)] := by
  induction fields with
  | nil => rfl
  | cons entry fields ih =>
    have hlt : entry.1 < key := h entry List.mem_cons_self
    have hne : entry.1 ≠ key := fun he => String.lt_irrefl _ (he ▸ hlt)
    have hnot : ¬ key < entry.1 := fun hgt => String.lt_irrefl _ (String.lt_trans hlt hgt)
    rw [insert, if_neg hne, if_neg hnot, ih fun other ho => h other (List.mem_cons_of_mem _ ho)]
    rfl

/-- Entries whose keys ascend stay as they are. -/
theorem ofList_eq_self {entries : Fields α} (h : Ascending entries) : ofList entries = entries := by
  suffices hs : ∀ fields : Fields α, Ascending (fields ++ entries) →
      entries.foldl (fun fields entry => fields.insert entry.1 entry.2) fields = fields ++ entries from
    hs [] h
  clear h
  induction entries with
  | nil => simp
  | cons entry entries ih =>
    intro fields h
    have hlast : ∀ other ∈ fields, other.1 < entry.1 := by
      rw [Ascending, List.map_append, List.pairwise_append] at h
      exact fun other ho => h.2.2 _ (List.mem_map_of_mem ho) _ List.mem_cons_self
    rw [List.foldl_cons, insert_eq_append hlast, ih _ (by simpa using h), List.append_assoc, List.singleton_append]

end Fields

namespace Json

/-! ## Parts of canonical documents -/

namespace Canonical

variable {j : Json} {fields : List (String × Json)} {items : List Json} {key : String}

theorem ascending (h : (Json.object fields).Canonical) : Fields.Ascending fields := by
  cases h with
  | object keys _ => exact keys

theorem value {value : Json} (h : (Json.object fields).Canonical) (hm : (key, value) ∈ fields) :
    value.Canonical := by
  cases h with
  | object _ values => exact values _ hm

theorem field {value : Json} (h : j.Canonical) (hf : j.field? key = some value) : value.Canonical := by
  cases j with
  | object fields => exact h.value (Fields.mem_of_find? hf)
  | _ => cases hf

theorem item (h : (Json.array items).Canonical) (hm : j ∈ items) : j.Canonical := by
  cases h with
  | array h => exact h j hm

end Canonical

theorem canonical_record {entries : List (String × Json)} (h : ∀ entry ∈ entries, entry.2.Canonical) :
    (record entries).Canonical :=
  .object (Fields.ascending_ofList entries) fun field hm => h field (Fields.mem_ofList hm)

/-! ## Readers -/

/-- Where the reader succeeds, its value has a property. -/
def Reader.Gives {α : Type} (good : α → Prop) (reader : Reader α) : Prop :=
  ∀ {s value rest}, reader s = .ok (value, rest) → good value

theorem gives_wordReader {good : Json → Prop} {value : Json} (h : good value) (word : List Char) :
    Reader.Gives good (wordReader value word) := by
  intro s found rest hr
  induction word generalizing s with
  | nil =>
    cases hr
    exact h
  | cons w word ih =>
    cases s with
    | nil => cases hr
    | cons c s =>
      rw [wordReader] at hr
      split at hr
      · exact ih hr
      · cases hr

section Readers

variable {element : Reader Json} (h : element.Gives Canonical)
include h

theorem gives_readMoreItems (n : Nat) :
    Reader.Gives (fun items => ∀ j ∈ items, j.Canonical) (readMoreItems element n) := by
  induction n with
  | zero =>
    intro s items rest hr
    cases hr
  | succ n ih =>
    intro s items rest hr
    rw [readMoreItems] at hr
    split at hr
    · cases hr
    · cases hr
      exact fun j hj => nomatch hj
    · split at hr
      · cases hr
      · cases hr
      · obtain ⟨⟨item, after⟩, hi, hr⟩ := ok_of_bind hr
        obtain ⟨⟨more, last⟩, hm, hr⟩ := ok_of_bind hr
        cases hr
        intro j hj
        rcases List.mem_cons.1 hj with rfl | hj
        · exact h hi
        · exact ih hm j hj
    · cases hr

theorem gives_itemsReader : Reader.Gives (fun items => ∀ j ∈ items, j.Canonical) (itemsReader element) := by
  intro s items rest hr
  unfold itemsReader at hr
  split at hr
  · cases hr
  · cases hr
    exact fun j hj => nomatch hj
  · obtain ⟨⟨item, after⟩, hi, hr⟩ := ok_of_bind hr
    obtain ⟨⟨more, last⟩, hm, hr⟩ := ok_of_bind hr
    cases hr
    intro j hj
    rcases List.mem_cons.1 hj with rfl | hj
    · exact h hi
    · exact gives_readMoreItems h _ hm j hj

theorem gives_fieldReader : Reader.Gives (fun field => field.2.Canonical) (fieldReader element) := by
  intro s field rest hr
  unfold fieldReader at hr
  obtain ⟨⟨key, after⟩, -, hr⟩ := ok_of_bind hr
  simp only at hr
  split at hr
  · cases hr
  · obtain ⟨⟨value, last⟩, hv, hr⟩ := ok_of_bind hr
    cases hr
    exact h hv
  · cases hr

theorem gives_readMoreFields (n : Nat) :
    Reader.Gives (fun fields => ∀ field ∈ fields, field.2.Canonical) (readMoreFields element n) := by
  induction n with
  | zero =>
    intro s fields rest hr
    cases hr
  | succ n ih =>
    intro s fields rest hr
    rw [readMoreFields] at hr
    split at hr
    · cases hr
    · cases hr
      exact fun field hf => nomatch hf
    · split at hr
      · cases hr
      · cases hr
      · obtain ⟨⟨first, after⟩, hi, hr⟩ := ok_of_bind hr
        obtain ⟨⟨more, last⟩, hm, hr⟩ := ok_of_bind hr
        cases hr
        intro field hf
        rcases List.mem_cons.1 hf with rfl | hf
        · exact gives_fieldReader h hi
        · exact ih hm field hf
      · cases hr
    · cases hr

theorem gives_fieldsReader :
    Reader.Gives (fun fields => ∀ field ∈ fields, field.2.Canonical) (fieldsReader element) := by
  intro s fields rest hr
  unfold fieldsReader at hr
  split at hr
  · cases hr
  · cases hr
    exact fun field hf => nomatch hf
  · obtain ⟨⟨first, after⟩, hi, hr⟩ := ok_of_bind hr
    obtain ⟨⟨more, last⟩, hm, hr⟩ := ok_of_bind hr
    cases hr
    intro field hf
    rcases List.mem_cons.1 hf with rfl | hf
    · exact gives_fieldReader h hi
    · exact gives_readMoreFields h _ hm field hf
  · cases hr

end Readers

/-- Values are canonical if those inside them are. -/
theorem gives_valueReaderWith {inner : Option (Reader Json)}
    (h : ∀ element, inner = some element → element.Gives Canonical) : (valueReaderWith inner).Gives Canonical := by
  intro s value rest hr
  unfold valueReaderWith at hr
  split at hr
  · cases hr
  · split at hr
    · exact gives_wordReader .null _ hr
    · exact gives_wordReader (.bool true) _ hr
    · exact gives_wordReader (.bool false) _ hr
    · obtain ⟨⟨text, after⟩, -, hr⟩ := ok_of_map hr
      cases hr
      exact .string text
    · obtain ⟨⟨n, after⟩, -, hr⟩ := ok_of_map hr
      cases hr
      exact .number n
    · split at hr
      · cases hr
      · obtain ⟨⟨items, after⟩, hi, hr⟩ := ok_of_map hr
        cases hr
        exact .array (gives_itemsReader (h _ rfl) hi)
    · split at hr
      · cases hr
      · obtain ⟨⟨fields, after⟩, hf, hr⟩ := ok_of_map hr
        cases hr
        exact .object (Fields.ascending_ofList fields) fun field hm =>
          gives_fieldsReader (h _ rfl) hf field (Fields.mem_ofList hm)
    · split at hr
      · obtain ⟨⟨n, after⟩, -, hr⟩ := ok_of_map hr
        cases hr
        exact .number n
      · cases hr

theorem gives_valueReader (depth : Nat) : (valueReader depth).Gives Canonical := by
  induction depth with
  | zero =>
    refine gives_valueReaderWith fun element he => ?_
    cases he
  | succ depth ih =>
    refine gives_valueReaderWith fun element he => ?_
    cases he
    exact ih

/-- A document that is read is canonical. -/
theorem canonical_of_read {text : String} {j : Json} (h : read text = .ok j) : j.Canonical := by
  unfold read readNested at h
  simp only at h
  split at h
  · cases h
  · next value rest hv =>
    split at h
    · cases h
      exact gives_valueReader nestingBound hv
    · cases h

end Json

end StateBench

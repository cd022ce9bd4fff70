import Mathlib.Data.String.Basic
import StateBench.Template
import StateBench.Proofs.Json.Canonical

/-!
# What a template stands for

An entry of a template whose key ends in `.$` asks for a value (`Template.Asks`), and gets one if it holds a path that
leads to something (`Template.Gives`). A template can be filled in just if every entry that asks for a value gets one
(`Template.exists_render_iff`). What it then stands for is said object by object (`Template.Renders`): the keys are
those that are filled in and those that are copied, and a key that is both is filled in. That is so because the key
without the ending comes first in the order of keys, and of two entries with one key the later stays
(`Template.find?_of_entry`).
-/

namespace StateBench

/-- A path that is selected leads to something. -/
theorem RefPath.select_ok_iff {path : String} {input context value : Json} :
    select path input context = .ok value ↔
      ∃ p, read path = .ok p ∧ (if p.inContext then context else input).follow? p.steps = some value := by
  rw [select, lookup, parse]
  cases read path with
  | error fault => simp [Except.mapError, bind, Except.bind]
  | ok p =>
    cases h : (if p.inContext then context else input).follow? p.steps with
    | none => simp [Except.mapError, bind, Except.bind, pure, Except.pure, h, throw, throwThe, MonadExceptOf.throw]
    | some found => simp [Except.mapError, bind, Except.bind, pure, Except.pure, h]

namespace Template

variable {input context template entry value result : Json} {fields : Fields Json} {items : List Json}
  {key name : String}

/-! ## Keys -/

/-- The key ends in `.$`. -/
def IsPathKey (key : String) : Prop := ∃ name, key = name ++ ".$"

theorem target?_eq_some_iff : target? key = some name ↔ key = name ++ ".$" := by
  rw [target?, ← String.toList_inj, String.toList_append]
  constructor
  · intro h
    split at h
    · next rest he =>
      cases h
      rw [List.reverse_eq_iff] at he
      simp [he]
    · cases h
  · intro h
    simp [h]

theorem target?_eq_none_iff : target? key = none ↔ ¬ IsPathKey key := by
  simp [Option.eq_none_iff_forall_ne_some, target?_eq_some_iff, IsPathKey]

theorem append_ending_inj (h : key ++ ".$" = name ++ ".$") : key = name :=
  Option.some.inj ((target?_eq_some_iff.2 rfl).symm.trans (target?_eq_some_iff.2 h))

/-- A key comes before the one that fills it in. -/
theorem lt_append_ending (key : String) : key < key ++ ".$" := by
  rw [String.lt_iff_toList_lt, String.toList_append]
  have h : ([] : List Char) < ".$".toList := by decide
  simpa using List.append_left_lt h

/-! ## Entries -/

/-- The entry of a key that ends in `.$` gets a value: it holds a path, not an intrinsic function, and the path leads to
the value in the input or in the context. -/
def Gives (input context entry value : Json) : Prop :=
  ∃ path p, entry = .string path ∧ ¬ "States.".toList <+: path.toList ∧ RefPath.read path = .ok p ∧
    (if p.inContext then context else input).follow? p.steps = some value

theorem fill_ok_iff : fill key entry input context = .ok value ↔ Gives input context entry value := by
  cases entry with
  | string path =>
    have hintrinsic : isIntrinsic path = true ↔ "States.".toList <+: path.toList := List.isPrefixOf_iff_prefix
    rw [fill]
    simp only [Json.string?]
    split
    · next h =>
      refine ⟨nofun, ?_⟩
      rintro ⟨_, p, he, hstart, -⟩
      cases he
      exact absurd (hintrinsic.1 h) hstart
    · next h =>
      rw [RefPath.select_ok_iff]
      constructor
      · rintro ⟨p, hread, hvalue⟩
        exact ⟨path, p, rfl, fun hstart => h (hintrinsic.2 hstart), hread, hvalue⟩
      · rintro ⟨_, p, he, -, hread, hvalue⟩
        cases he
        exact ⟨p, hread, hvalue⟩
  | _ => simp [fill, Json.string?, Gives]

theorem Gives.unique (h : Gives input context entry value) {other : Json} (ho : Gives input context entry other) :
    value = other := by
  obtain ⟨path, p, rfl, -, hread, hvalue⟩ := h
  obtain ⟨_, q, he, -, hread', hother⟩ := ho
  cases he
  obtain rfl : p = q := Except.ok.inj (hread.symm.trans hread')
  exact Option.some.inj (hvalue.symm.trans hother)

/-- What a field of an object is rendered as. -/
def Entry (input context : Json) (field entry : String × Json) : Prop :=
  field.1 = entry.1 ++ ".$" ∧ Gives input context field.2 entry.2 ∨
    ¬ IsPathKey field.1 ∧ field.1 = entry.1 ∧ render input context field.2 = .ok entry.2

theorem renderItems_ok_iff {results : List Json} :
    renderItems input context items = .ok results ↔
      List.Forall₂ (fun item result => render input context item = .ok result) items results := by
  induction items generalizing results with
  | nil =>
    rw [renderItems]
    simp [eq_comm]
  | cons item items ih =>
    rw [renderItems]
    constructor
    · intro h
      obtain ⟨first, hf, h⟩ := ok_of_bind h
      obtain ⟨rest, hr, h⟩ := ok_of_bind h
      cases h
      exact .cons hf (ih.1 hr)
    · rintro (_ | ⟨hf, hr⟩)
      exact bind_ok_iff.2 ⟨_, hf, bind_ok_iff.2 ⟨_, ih.2 hr, rfl⟩⟩

theorem renderFields_cons_ok_iff {entries : List (String × Json)} :
    renderFields input context ((key, value) :: fields) = .ok entries ↔
      ∃ entry rest, Entry input context (key, value) entry ∧ renderFields input context fields = .ok rest ∧
        entry :: rest = entries := by
  rw [renderFields]
  constructor
  · intro h
    split at h
    · next name hname =>
      obtain ⟨entry, he, h⟩ := ok_of_bind h
      obtain ⟨rest, hr, h⟩ := ok_of_bind h
      obtain ⟨given, hg, rfl⟩ := ok_of_map he
      exact ⟨(name, given), rest, .inl ⟨target?_eq_some_iff.1 hname, fill_ok_iff.1 hg⟩, hr, Except.ok.inj h⟩
    · next hnone =>
      obtain ⟨entry, he, h⟩ := ok_of_bind h
      obtain ⟨rest, hr, h⟩ := ok_of_bind h
      obtain ⟨result, hresult, rfl⟩ := ok_of_map he
      exact ⟨(key, result), rest, .inr ⟨target?_eq_none_iff.1 hnone, rfl, hresult⟩, hr, Except.ok.inj h⟩
  · rintro ⟨⟨own, result⟩, rest, ⟨hkey, hgives⟩ | ⟨hkey, hown, hresult⟩, hr, rfl⟩
    · have hfill : fill key value input context = .ok result := fill_ok_iff.2 hgives
      simp only [target?_eq_some_iff.2 hkey, hfill, hr]
      rfl
    · obtain rfl : key = own := hown
      have hrender : render input context value = .ok result := hresult
      simp only [target?_eq_none_iff.2 hkey, hrender, hr]
      rfl

theorem renderFields_ok_iff {entries : List (String × Json)} :
    renderFields input context fields = .ok entries ↔ List.Forall₂ (Entry input context) fields entries := by
  induction fields generalizing entries with
  | nil =>
    rw [renderFields]
    simp [eq_comm]
  | cons field fields ih =>
    rw [renderFields_cons_ok_iff]
    constructor
    · rintro ⟨entry, rest, hentry, hr, rfl⟩
      exact .cons hentry (ih.1 hr)
    · rintro (_ | ⟨hentry, hrest⟩)
      exact ⟨_, _, hentry, ih.2 hrest, rfl⟩

/-! ## Filling in -/

/-- The template asks for a value with an entry whose key ends in `.$`, in an object at any depth that is not itself
under such a key. -/
inductive Asks : Json → Json → Prop
  | here {fields : Fields Json} {key : String} {entry : Json} (h : (key, entry) ∈ fields) (path : IsPathKey key) :
    Asks (.object fields) entry
  | field {fields : Fields Json} {key : String} {inner entry : Json} (h : (key, inner) ∈ fields)
      (copied : ¬ IsPathKey key) (rest : Asks inner entry) : Asks (.object fields) entry
  | item {items : List Json} {inner entry : Json} (h : inner ∈ items) (rest : Asks inner entry) :
    Asks (.array items) entry

/-- Every entry that asks for a value gets one. -/
def Fillable (input context template : Json) : Prop :=
  ∀ entry, Asks template entry → ∃ value, Gives input context entry value

theorem fillable_array_iff : Fillable input context (.array items) ↔ ∀ item ∈ items, Fillable input context item := by
  constructor
  · exact fun h item hm entry ha => h entry (.item hm ha)
  · rintro h entry (_ | _ | ⟨hm, ha⟩)
    exact h _ hm entry ha

theorem fillable_object_iff :
    Fillable input context (.object fields) ↔ ∀ field ∈ fields,
      (IsPathKey field.1 → ∃ value, Gives input context field.2 value) ∧
        (¬ IsPathKey field.1 → Fillable input context field.2) := by
  constructor
  · exact fun h field hm => ⟨fun hpath => h _ (.here hm hpath), fun hcopied entry ha => h entry (.field hm hcopied ha)⟩
  · rintro h entry (⟨hm, hpath⟩ | ⟨hm, hcopied, ha⟩)
    · exact (h _ hm).1 hpath
    · exact (h _ hm).2 hcopied entry ha

theorem render_array_ok_iff :
    render input context (.array items) = .ok result ↔
      ∃ results, List.Forall₂ (fun item result => render input context item = .ok result) items results ∧
        .array results = result := by
  rw [render]
  simp only [← renderItems_ok_iff]
  exact ⟨ok_of_map, fun ⟨results, hr, he⟩ => by rw [hr, Except.map, he]⟩

theorem render_object_ok_iff :
    render input context (.object fields) = .ok result ↔
      ∃ entries, List.Forall₂ (Entry input context) fields entries ∧ .record entries = result := by
  rw [render]
  simp only [← renderFields_ok_iff]
  exact ⟨ok_of_map, fun ⟨entries, hr, he⟩ => by rw [hr, Except.map, he]⟩

/-- A field of an object has an entry if it gets its value or can be filled in itself. -/
theorem exists_entry_iff {field : String × Json} :
    (∃ entry, Entry input context field entry) ↔ (IsPathKey field.1 → ∃ value, Gives input context field.2 value) ∧
      (¬ IsPathKey field.1 → ∃ result, render input context field.2 = .ok result) := by
  constructor
  · rintro ⟨entry, ⟨hkey, hgives⟩ | ⟨hkey, -, hresult⟩⟩
    · exact ⟨fun _ => ⟨entry.2, hgives⟩, fun hcopied => absurd ⟨entry.1, hkey⟩ hcopied⟩
    · exact ⟨fun hpath => absurd hpath hkey, fun _ => ⟨entry.2, hresult⟩⟩
  · rintro ⟨hpath, hcopied⟩
    by_cases h : IsPathKey field.1
    · obtain ⟨value, hgives⟩ := hpath h
      obtain ⟨name, hkey⟩ := h
      exact ⟨(name, value), .inl ⟨hkey, hgives⟩⟩
    · obtain ⟨result, hresult⟩ := hcopied h
      exact ⟨(field.1, result), .inr ⟨h, rfl, hresult⟩⟩

/-- A template can be filled in just if every entry that asks for a value gets one. -/
theorem exists_render_iff (h : template.Canonical) :
    (∃ result, render input context template = .ok result) ↔ Fillable input context template := by
  induction h with
  | null | bool | number | string => exact ⟨fun _ _ ha => (by cases ha), fun _ => ⟨_, by rw [render] <;> nofun⟩⟩
  | @array items _ ih =>
    rw [fillable_array_iff, ← forall₂_congr ih, ← exists_forall₂_iff]
    simp [render_array_ok_iff]
  | @object fields _ _ ih =>
    have hfields : (∃ entries, List.Forall₂ (Entry input context) fields entries) ↔
        Fillable input context (.object fields) := by
      rw [exists_forall₂_iff, fillable_object_iff]
      refine forall₂_congr fun field hm => exists_entry_iff.trans ?_
      exact and_congr_right' (imp_congr_right fun _ => ih field hm)
    simp [render_object_ok_iff, hfields]

/-! ## What is filled in -/

/-- What a template stands for. An object has the keys that are filled in and those that are copied, each once; what
fills in a key is its value, whether or not there is a value to copy. -/
inductive Renders (input context : Json) : Json → Json → Prop
  | null : Renders input context .null .null
  | bool (b : Bool) : Renders input context (.bool b) (.bool b)
  | number (n : Number) : Renders input context (.number n) (.number n)
  | string (s : String) : Renders input context (.string s) (.string s)
  | array {items results : List Json} (length : items.length = results.length)
      (each : ∀ (index : Nat) item result, items[index]? = some item → results[index]? = some result →
        Renders input context item result) : Renders input context (.array items) (.array results)
  | object {fields results : Fields Json} (ordered : Fields.Ascending results)
      (keys : ∀ key, key ∈ results.map Prod.fst ↔
        key ++ ".$" ∈ fields.map Prod.fst ∨ ¬ IsPathKey key ∧ key ∈ fields.map Prod.fst)
      (filled : ∀ key entry value, (key ++ ".$", entry) ∈ fields → (key, value) ∈ results →
        Gives input context entry value)
      (copied : ∀ key inner result, ¬ IsPathKey key → key ++ ".$" ∉ fields.map Prod.fst → (key, inner) ∈ fields →
        (key, result) ∈ results → Renders input context inner result) :
    Renders input context (.object fields) (.object results)

section Objects

variable {entries : List (String × Json)} (ascending : Fields.Ascending fields)
  (h : List.Forall₂ (Entry input context) fields entries)
include ascending h

/-- The entry of a field is found under its key, unless a later field has an entry with this key, too. -/
theorem find?_of_entry {own : String} (hm : (own, value) ∈ fields)
    (here : ∀ entry, Entry input context (own, value) entry → entry.1 = key)
    (last : ∀ field ∈ fields, own < field.1 → ∀ entry, Entry input context field entry → entry.1 ≠ key) :
    ∃ result, Entry input context (own, value) (key, result) ∧ (Fields.ofList entries).find? key = some result := by
  obtain ⟨before, after, rfl⟩ := List.append_of_mem hm
  obtain ⟨first, ⟨found, result⟩, rest, rfl, hentry, hrest⟩ := forall₂_split h
  obtain rfl : found = key := here _ hentry
  refine ⟨result, hentry, Fields.find?_ofList_of_last (fun hlater => ?_) result⟩
  obtain ⟨entry, he, hk⟩ := List.mem_map.1 hlater
  obtain ⟨field, hf, hfield⟩ := mem_of_forall₂ hrest he
  have hlt : own < field.1 := by
    have hafter := (List.pairwise_append.1 (List.pairwise_map.1 ascending)).2.1
    exact (List.pairwise_cons.1 hafter).1 field hf
  exact last field (List.mem_append_right _ (List.mem_cons_of_mem _ hf)) hlt entry hfield hk

theorem find?_filled (hm : (key ++ ".$", entry) ∈ fields) :
    ∃ value, Gives input context entry value ∧ (Fields.ofList entries).find? key = some value := by
  have hpath : IsPathKey (key ++ ".$") := ⟨key, rfl⟩
  have here : ∀ found, Entry input context (key ++ ".$", entry) found → found.1 = key := by
    rintro found (⟨hkey, -⟩ | ⟨hcopied, -⟩)
    · exact (append_ending_inj hkey).symm
    · exact absurd hpath hcopied
  have last : ∀ field ∈ fields, key ++ ".$" < field.1 → ∀ found, Entry input context field found → found.1 ≠ key := by
    rintro field - hlt found (⟨hkey, -⟩ | ⟨-, hkey, -⟩) rfl
    · exact String.lt_irrefl _ (hkey ▸ hlt)
    · -- the key that is copied comes before the one that is filled in
      exact String.lt_irrefl _ (String.lt_trans (lt_append_ending field.1) (hkey ▸ hlt))
  obtain ⟨value, ⟨-, hgives⟩ | ⟨hcopied, -⟩, hf⟩ := find?_of_entry ascending h hm here last
  · exact ⟨value, hgives, hf⟩
  · exact absurd hpath hcopied

theorem find?_copied (hcopied : ¬ IsPathKey key) (hfree : key ++ ".$" ∉ fields.map Prod.fst)
    (hm : (key, value) ∈ fields) :
    ∃ result, render input context value = .ok result ∧ (Fields.ofList entries).find? key = some result := by
  have here : ∀ found, Entry input context (key, value) found → found.1 = key := by
    rintro found (⟨hkey, -⟩ | ⟨-, hkey, -⟩)
    · exact absurd ⟨_, hkey⟩ hcopied
    · exact hkey.symm
  have last : ∀ field ∈ fields, key < field.1 → ∀ found, Entry input context field found → found.1 ≠ key := by
    rintro field hfield hlt found (⟨hkey, -⟩ | ⟨-, hkey, -⟩) rfl
    · exact hfree (hkey ▸ List.mem_map_of_mem hfield)
    · exact String.lt_irrefl _ (hkey ▸ hlt)
  obtain ⟨result, ⟨hkey, -⟩ | ⟨-, -, hresult⟩, hf⟩ := find?_of_entry ascending h hm here last
  · exact absurd ⟨_, hkey⟩ hcopied
  · exact ⟨result, hresult, hf⟩

theorem mem_keys_ofList_iff : key ∈ (Fields.ofList entries).map Prod.fst ↔
    key ++ ".$" ∈ fields.map Prod.fst ∨ ¬ IsPathKey key ∧ key ∈ fields.map Prod.fst := by
  constructor
  · intro hk
    obtain ⟨entry, he, rfl⟩ := List.mem_map.1 hk
    obtain ⟨field, hf, ⟨hkey, -⟩ | ⟨hcopied, hkey, -⟩⟩ := mem_of_forall₂ h (Fields.mem_ofList he)
    · exact .inl (hkey ▸ List.mem_map_of_mem hf)
    · exact .inr ⟨hkey ▸ hcopied, hkey ▸ List.mem_map_of_mem hf⟩
  · intro hk
    by_cases hpath : key ++ ".$" ∈ fields.map Prod.fst
    · obtain ⟨entry, hm⟩ := Fields.exists_of_mem_keys hpath
      obtain ⟨value, -, hf⟩ := find?_filled ascending h hm
      exact List.mem_map_of_mem (Fields.mem_of_find? hf)
    · obtain ⟨hcopied, hown⟩ := hk.resolve_left hpath
      obtain ⟨inner, hm⟩ := Fields.exists_of_mem_keys hown
      obtain ⟨result, -, hf⟩ := find?_copied ascending h hcopied hpath hm
      exact List.mem_map_of_mem (Fields.mem_of_find? hf)

end Objects

theorem renders_of_render (h : template.Canonical) (hr : render input context template = .ok result) :
    Renders input context template result := by
  induction h generalizing result with
  | null | bool | number | string =>
    rw [render] at hr
    · cases hr
      constructor
    all_goals nofun
  | @array items _ ih =>
    obtain ⟨results, hresults, rfl⟩ := render_array_ok_iff.1 hr
    refine .array hresults.length_eq fun index item result hitem hresult => ?_
    obtain ⟨own, hown, hrender⟩ := getElem?_of_forall₂ hresults hresult
    obtain rfl : own = item := Option.some.inj (hown.symm.trans hitem)
    exact ih own (List.mem_of_getElem? hown) hrender
  | @object fields ascending _ ih =>
    obtain ⟨entries, hentries, rfl⟩ := render_object_ok_iff.1 hr
    have hfind {key : String} {result : Json} (hm : (key, result) ∈ Fields.ofList entries) :=
      Fields.find?_of_mem (Fields.ascending_ofList entries) hm
    refine .object (Fields.ascending_ofList entries) (fun key => mem_keys_ofList_iff ascending hentries)
      (fun key entry value hm hvalue => ?_) fun key inner result hcopied hfree hm hresult => ?_
    · obtain ⟨given, hgives, hf⟩ := find?_filled ascending hentries hm
      obtain rfl : given = value := Option.some.inj (hf.symm.trans (hfind hvalue))
      exact hgives
    · obtain ⟨own, hrender, hf⟩ := find?_copied ascending hentries hcopied hfree hm
      obtain rfl : own = result := Option.some.inj (hf.symm.trans (hfind hresult))
      exact ih (key, inner) hm hrender

/-- A template stands for one document at most. -/
theorem Renders.unique {other : Json} (h : Renders input context template result)
    (ho : Renders input context template other) : result = other := by
  induction h generalizing other with
  | null | bool | number | string =>
    cases ho
    rfl
  | @array items results length _ ih =>
    cases ho with
    | @array _ others length' each' =>
      refine congrArg Json.array (List.ext_getElem (length.symm.trans length') fun index hresult hother => ?_)
      have hitem := List.getElem?_eq_getElem (length ▸ hresult)
      exact ih index _ _ hitem (List.getElem?_eq_getElem hresult)
        (each' index _ _ hitem (List.getElem?_eq_getElem hother))
  | @object fields results ordered keys filled _ ih =>
    cases ho with
    | @object _ others ordered' keys' filled' copied' =>
      refine congrArg Json.object (Fields.eq_of_find?_eq ordered ordered' fun key => ?_)
      cases hf : results.find? key with
      | none =>
        have hnone : key ∉ results.map Prod.fst := Fields.find?_eq_none_iff.1 hf
        exact (Fields.find?_eq_none_iff.2 fun hk => hnone ((keys key).2 ((keys' key).1 hk))).symm
      | some result =>
        have hm : (key, result) ∈ results := Fields.mem_of_find? hf
        have hk := (keys key).1 (List.mem_map_of_mem hm)
        obtain ⟨own, ho⟩ := Fields.exists_of_mem_keys ((keys' key).2 hk)
        rw [Fields.find?_of_mem ordered' ho]
        by_cases hpath : key ++ ".$" ∈ fields.map Prod.fst
        · obtain ⟨entry, he⟩ := Fields.exists_of_mem_keys hpath
          rw [(filled key entry result he hm).unique (filled' key entry own he ho)]
        · obtain ⟨hcopied, hown⟩ := hk.resolve_left hpath
          obtain ⟨inner, hi⟩ := Fields.exists_of_mem_keys hown
          rw [ih key inner result hcopied hpath hi hm (copied' key inner own hcopied hpath hi ho)]

/-- Rendering succeeds just if every entry of the template that asks for a value gets one, and then gives what the
template stands for. -/
theorem render_iff_renders (h : template.Canonical) (input context : Json) :
    ((∃ result, render input context template = .ok result) ↔ Fillable input context template) ∧
      ∀ result, render input context template = .ok result ↔
        Fillable input context template ∧ Renders input context template result := by
  have hexists : (∃ result, render input context template = .ok result) ↔ Fillable input context template :=
    exists_render_iff h
  refine ⟨hexists, fun result => ⟨fun hr => ⟨hexists.1 ⟨result, hr⟩, renders_of_render h hr⟩, ?_⟩⟩
  rintro ⟨hfillable, hrenders⟩
  obtain ⟨own, hr⟩ := hexists.2 hfillable
  rw [hr, (renders_of_render h hr).unique hrenders]

/-- A list with an order in which one key is both copied and filled in, and another is filled in from the context. -/
def orderTemplate : Json :=
  .array [.int 1, .record [("by", .string "nobody"), ("by.$", .string "$.order.by"), ("total.$", .string "$$.total")]]

def orderInput : Json := .record [("order", .record [("by", .string "desk")])]

def orderContext : Json := .record [("total", .int 3)]

def orderRendered : Json := .array [.int 1, .record [("by", .string "desk"), ("total", .int 3)]]

theorem canonical_orderTemplate : orderTemplate.Canonical := by
  refine .array ?_
  simp [Json.Canonical.number, Json.Canonical.string, Json.canonical_record, Json.int]

theorem render_orderTemplate :
    orderTemplate.Canonical ∧ render orderInput orderContext orderTemplate = .ok orderRendered ∧
      Fillable orderInput orderContext orderTemplate ∧ Renders orderInput orderContext orderTemplate orderRendered := by
  have hcopied : Entry orderInput orderContext ("by", .string "nobody") ("by", .string "nobody") :=
    .inr ⟨target?_eq_none_iff.1 (by decide +kernel), rfl, by rw [render] <;> nofun⟩
  have hby : Entry orderInput orderContext ("by.$", .string "$.order.by") ("by", .string "desk") :=
    .inl ⟨by decide +kernel, _, ⟨false, [.field "order", .field "by"]⟩, rfl, by decide, by decide +kernel, rfl⟩
  have htotal : Entry orderInput orderContext ("total.$", .string "$$.total") ("total", .int 3) :=
    .inl ⟨by decide +kernel, _, ⟨true, [.field "total"]⟩, rfl, by decide, by decide +kernel, rfl⟩
  have horder : render orderInput orderContext
      (.record [("by", .string "nobody"), ("by.$", .string "$.order.by"), ("total.$", .string "$$.total")]) =
        .ok (.record [("by", .string "desk"), ("total", .int 3)]) :=
    render_object_ok_iff.2 ⟨_, .cons hcopied (.cons hby (.cons htotal .nil)), rfl⟩
  have hrender : render orderInput orderContext orderTemplate = .ok orderRendered :=
    render_array_ok_iff.2 ⟨_, .cons (by rw [Json.int, render] <;> nofun) (.cons horder .nil), rfl⟩
  obtain ⟨hfillable, hrenders⟩ :=
    ((render_iff_renders canonical_orderTemplate orderInput orderContext).2 orderRendered).1 hrender
  exact ⟨canonical_orderTemplate, hrender, hfillable, hrenders⟩

end Template

end StateBench

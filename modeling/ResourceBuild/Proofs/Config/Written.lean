import Mathlib.Data.Option.Basic
import ResourceBuild.Config.Save
import ResourceBuild.Proofs.Outcome
import ResourceBuild.Proofs.Toml.Reordered

/-!
# What can be written

A configuration can be written unless a free-form value in it holds null. Free-form values are
written as values that read back as they were, and every setting that is there as a field.
-/

namespace ResourceBuild

open Decode Outcome

/-- A value is null or has null somewhere in it. -/
inductive Json.HoldsNull : Json → Prop where
  | null : HoldsNull .null
  | item {xs : List Json} {x : Json} (hx : x ∈ xs) (h : HoldsNull x) : HoldsNull (.array xs)
  | member {ms : Members} {m : String × Json} (hm : m ∈ ms) (h : HoldsNull m.2) :
      HoldsNull (.object ms)

/-- What passes over from the items and members of values to the values holds of all values. -/
@[elab_as_elim]
lemma Json.induction {P : Json → Prop} (null : P .null) (boolean : ∀ b, P (.boolean b))
    (number : ∀ n, P (.number n)) (text : ∀ s, P (.text s))
    (array : ∀ xs : List Json, (∀ x ∈ xs, P x) → P (.array xs))
    (object : ∀ ms : Members, (∀ m ∈ ms, P m.2) → P (.object ms)) (j : Json) : P j :=
  @Json.rec P (fun xs => ∀ x ∈ xs, P x) (fun ms => ∀ m ∈ ms, P m.2) (fun m => P m.2)
    null boolean number text array object
    (by simp) (fun _ _ hx hxs => List.forall_mem_cons.mpr ⟨hx, hxs⟩)
    (by simp) (fun _ _ hm hms => List.forall_mem_cons.mpr ⟨hm, hms⟩) (fun _ _ hv => hv) j

namespace Config

def HoldsNull (c : Config) : Prop :=
  (∃ d ∈ c.manifest.sections, ∃ v, d.data = some v ∧ v.HoldsNull) ∨
    (Json.object c.bundle.options).HoldsNull

/-! ### Free-form values -/

lemma freeItems?_eq_mapM (xs : List Json) : freeItems? xs = xs.mapM freeToml? := by
  induction xs with
  | nil => rfl
  | cons x xs ih => rw [freeItems?, ih, List.mapM_cons]

lemma freeMembers?_eq_mapM (ms : Members) :
    freeMembers? ms = ms.mapM fun m => (freeToml? m.2).map (Prod.mk m.1) := by
  induction ms with
  | nil => rfl
  | cons m ms ih =>
    obtain ⟨k, v⟩ := m
    rw [freeMembers?, ih, List.mapM_cons]
    cases freeToml? v <;> rfl

lemma freeToml?_array {xs : List Json} :
    freeToml? (.array xs) = (xs.mapM freeToml?).map .array := by
  rw [freeToml?, freeItems?_eq_mapM]

lemma freeToml?_object {ms : Members} : freeToml? (.object ms) =
    (ms.mapM fun m => (freeToml? m.2).map (Prod.mk m.1)).map .table := by
  rw [freeToml?, freeMembers?_eq_mapM]

/-- Just the values that hold null cannot be written. -/
lemma freeToml?_eq_none_iff {j : Json} : freeToml? j = none ↔ j.HoldsNull := by
  constructor
  · intro h
    induction j using Json.induction with
    | null => exact .null
    | number n => cases n <;> cases h
    | array xs ih =>
      rw [freeToml?_array, Option.map_eq_none_iff, mapM_eq_none_iff] at h
      -- some item cannot be written, and holds null by the hypothesis on items
      obtain ⟨x, hx, hnone⟩ := h
      exact .item hx (ih x hx hnone)
    | object ms ih =>
      rw [freeToml?_object, Option.map_eq_none_iff, mapM_eq_none_iff] at h
      obtain ⟨m, hm, hnone⟩ := h
      exact .member hm (ih m hm (Option.map_eq_none_iff.mp hnone))
    | _ => cases h
  · intro h
    induction h with
    | null => rfl
    | item hx _ ih =>
      rw [freeToml?_array, Option.map_eq_none_iff, mapM_eq_none_iff]
      exact ⟨_, hx, ih⟩
    | member hm _ ih =>
      rw [freeToml?_object, Option.map_eq_none_iff, mapM_eq_none_iff]
      exact ⟨_, hm, Option.map_eq_none_iff.mpr ih⟩

/-- What is written of a value is the same value again. -/
lemma toJson_of_freeToml? {j : Json} {t : Toml} (h : freeToml? j = some t) : t.toJson = j := by
  induction j using Json.induction generalizing t with
  | number n => cases n <;> (cases h; rfl)
  | array xs ih =>
    rw [freeToml?_array, Option.map_eq_some_iff] at h
    obtain ⟨ts, hts, rfl⟩ := h
    rw [mapM_eq_some_iff] at hts
    -- the items were written one by one, and each of them is read back
    have heq : xs = ts.map Toml.toJson := by
      rw [← List.forall₂_eq_eq_eq, List.forall₂_map_right_iff]
      exact ((List.forall₂_and_left _ _).mpr ⟨@ih, hts⟩).imp fun _ _ h => (h.1 h.2).symm
    rw [Toml.toJson, Toml.toJsonItems_eq_map, heq]
  | object ms ih =>
    rw [freeToml?_object, Option.map_eq_some_iff] at h
    obtain ⟨ts, hts, rfl⟩ := h
    rw [mapM_eq_some_iff] at hts
    have heq : ms = ts.map (Prod.map id Toml.toJson) := by
      rw [← List.forall₂_eq_eq_eq, List.forall₂_map_right_iff]
      refine ((List.forall₂_and_left _ _).mpr ⟨@ih, hts⟩).imp fun m t h => ?_
      obtain ⟨v, hv, rfl⟩ := Option.map_eq_some_iff.mp h.2
      exact Prod.ext rfl (h.1 hv).symm
    rw [Toml.toJson, Toml.toJsonMembers_eq_map, heq]
  | _ => cases h <;> rfl

lemma numbersFit_of_freeToml? {fits : Int → Bool} {v t : Toml} (h : freeToml? v.toJson = some t)
    (hv : v.numbersFit fits = true) : t.numbersFit fits = true := by
  induction v using Toml.induction generalizing t with
  | real x => cases x <;> cases h; rfl
  | array xs ih =>
    rw [Toml.toJson, freeToml?_array, Option.map_eq_some_iff] at h
    obtain ⟨ts, hts, rfl⟩ := h
    rw [mapM_eq_some_iff, Toml.toJsonItems_eq_map, List.forall₂_map_left_iff] at hts
    rw [Toml.numbersFit_array] at hv ⊢
    intro t ht
    obtain ⟨x, hx, hfree⟩ := exists_of_forall₂ hts.flip ht
    exact ih x hx hfree (hv x hx)
  | table ms ih =>
    rw [Toml.toJson, freeToml?_object, Option.map_eq_some_iff] at h
    obtain ⟨ts, hts, rfl⟩ := h
    rw [mapM_eq_some_iff, Toml.toJsonMembers_eq_map, List.forall₂_map_left_iff] at hts
    rw [Toml.numbersFit_table] at hv ⊢
    intro t ht
    obtain ⟨m, hm, hfree⟩ := exists_of_forall₂ hts.flip ht
    obtain ⟨v, hv', rfl⟩ := Option.map_eq_some_iff.mp hfree
    exact ih m hm hv' (hv m hm)
  | integer z => cases h; exact hv
  | _ => cases h; rfl

/-- A free-form value that comes from a document is the same to a reader of what is written of it.
-/
lemma free?_of_freeToml? {j : Json} {v t : Toml} (h : freeToml? j = some t)
    (hv : v.free? = some j) : t.free? = some j := by
  obtain ⟨hfits, rfl⟩ := Toml.free?_eq_some_iff.mp hv
  exact Toml.free?_eq_some_iff.mpr ⟨numbersFit_of_freeToml? h hfits, toJson_of_freeToml? h⟩

/-! ### Configurations -/

lemma declarationToml?_eq_none_iff {d : Manifest.Declaration} :
    declarationToml? d = none ↔ ∃ v, d.data = some v ∧ v.HoldsNull := by
  unfold declarationToml?
  cases d.data with
  | none => simp
  | some v =>
    simp only [Option.some.injEq, exists_eq_left', ← freeToml?_eq_none_iff]
    cases freeToml? v <;> simp

lemma exists_of_declarationToml? {d : Manifest.Declaration} {t : Toml}
    (h : declarationToml? d = some t) :
    ∃ data, Option.Rel (fun j t => freeToml? j = some t) d.data data ∧
      tableOf [("id", d.id.map Toml.text), ("type", d.kind.map Toml.text),
        ("enabled", some (.boolean d.enabled)), ("data", data),
        ("singular_key", d.singularKey.map Toml.text), ("plural_key", d.pluralKey.map Toml.text),
        ("category", d.category.map categoryToml)] = t := by
  unfold declarationToml? at h
  cases hdata : d.data with
  | none =>
    rw [hdata] at h
    exact ⟨none, .none, Option.some.inj h⟩
  | some j =>
    rw [hdata] at h
    obtain ⟨data, hwritten, heq⟩ := Option.bind_eq_some_iff.mp h
    obtain ⟨v, hv, rfl⟩ := Option.map_eq_some_iff.mp hwritten
    exact ⟨some v, .some hv, Option.some.inj heq⟩

lemma ManifestSettings.toToml?_eq_none_iff {s : ManifestSettings} :
    s.toToml? = none ↔ ∃ d ∈ s.sections, ∃ v, d.data = some v ∧ v.HoldsNull := by
  simp only [← declarationToml?_eq_none_iff, ← mapM_eq_none_iff, toToml?]
  cases s.sections.mapM declarationToml? <;> simp

lemma BundleSettings.toToml?_eq_none_iff {s : BundleSettings} :
    s.toToml? = none ↔ (Json.object s.options).HoldsNull := by
  rw [← freeToml?_eq_none_iff, freeToml?, toToml?]
  cases freeMembers? s.options <;> simp

/-- Just the configurations that hold null cannot be written. -/
lemma toToml?_eq_none_iff {c : Config} : c.toToml? = none ↔ c.HoldsNull := by
  rw [HoldsNull, ← ManifestSettings.toToml?_eq_none_iff, ← BundleSettings.toToml?_eq_none_iff,
    toToml?]
  cases c.manifest.toToml? with
  | none => simp
  | some manifest => cases c.bundle.toToml? <;> simp

/-! ### Settings -/

lemma mem_of_mem_settings {settings : Settings} {m : String × Toml}
    (h : m ∈ settings.filterMap fun m => m.2.map fun v => (m.1, v)) :
    (m.1, some m.2) ∈ settings := by
  obtain ⟨⟨name, x⟩, hm, heq⟩ := List.mem_filterMap.mp h
  obtain ⟨v, rfl, rfl⟩ := Option.map_eq_some_iff.mp heq
  exact hm

lemma keys_settings_sublist (settings : Settings) :
    ((settings.filterMap fun m => m.2.map fun v => (m.1, v)).map Prod.fst).Sublist
      (settings.map Prod.fst) := by
  induction settings with
  | nil => exact List.Sublist.refl []
  | cons m settings ih =>
    obtain ⟨name, x⟩ := m
    cases x with
    | none => exact ih.cons name
    | some v => exact ih.cons_cons name

/-- The settings that are there are the fields of what is written, and they alone. -/
lemma fields_of_tableOf {r : Record} {settings : Settings} {w : Toml}
    (hnames : settings.map Prod.fst = r.names) (hnodup : r.names.Nodup)
    (hfields : ∀ name ∈ r.names, r.fieldName? name = some name)
    (h : (tableOf settings).Reordered w) :
    r.Admits w ∧ ∀ m ∈ settings, Option.Rel Toml.Reordered m.2 (r.find? w m.1) := by
  rw [← hnames] at hnodup
  have hkeys := keys_settings_sublist settings
  obtain ⟨hadmits, hthere, hnone⟩ := Record.find?_of_reordered
    (fun m hm => hfields m.1 (hnames ▸ hkeys.subset (List.mem_map_of_mem hm)))
    (hnodup.sublist hkeys) h
  refine ⟨hadmits, fun m hm => ?_⟩
  obtain ⟨name, x⟩ := m
  cases x with
  | some v =>
    obtain ⟨y, hy, hfind⟩ := hthere (name, v) (List.mem_filterMap.mpr ⟨_, hm, rfl⟩)
    rw [hfind]
    exact .some hy
  | none =>
    rw [hnone name]
    · exact .none
    · intro hmem
      obtain ⟨⟨key, v⟩, hv, rfl⟩ := List.mem_map.mp hmem
      have hlookup := lookup_of_mem hnodup (mem_of_mem_settings hv)
      rw [lookup_of_mem hnodup hm] at hlookup
      cases hlookup

end Config

end ResourceBuild

import ResourceBuild.Proofs.Decode.Record
import ResourceBuild.Proofs.Pairs
import ResourceBuild.Proofs.Toml.Values

/-!
# Members in another order

A document that is written anew may have the members of its tables in another order. Its numbers are
the same then, free-form values differ in nothing but this order, and a record has the same fields.
-/

namespace ResourceBuild

open Decode

/-- The same value, but for the order of the members of its objects. -/
inductive Json.Reordered : Json → Json → Prop where
  | refl (v : Json) : Reordered v v
  | array {xs ys : List Json} (hlength : xs.length = ys.length)
      (hitems : ∀ p ∈ xs.zip ys, Reordered p.1 p.2) : Reordered (.array xs) (.array ys)
  | object {ms ns ns' : Members} (hlength : ms.length = ns.length)
      (hkeys : ∀ p ∈ ms.zip ns, p.1.1 = p.2.1) (hvalues : ∀ p ∈ ms.zip ns, Reordered p.1.2 p.2.2)
      (hperm : ns.Perm ns') : Reordered (.object ms) (.object ns')

/-- The same value, but for the order of the members of its tables. -/
inductive Toml.Reordered : Toml → Toml → Prop where
  | refl (v : Toml) : Reordered v v
  | array {xs ys : List Toml} (hlength : xs.length = ys.length)
      (hitems : ∀ p ∈ xs.zip ys, Reordered p.1 p.2) : Reordered (.array xs) (.array ys)
  | table {ms ns ns' : List (String × Toml)} (hlength : ms.length = ns.length)
      (hkeys : ∀ p ∈ ms.zip ns, p.1.1 = p.2.1) (hvalues : ∀ p ∈ ms.zip ns, Reordered p.1.2 p.2.2)
      (hperm : ns.Perm ns') : Reordered (.table ms) (.table ns')

/-! ### Free-form values -/

lemma Json.Reordered.perm_keys {ms ns : Members}
    (h : Json.Reordered (.object ms) (.object ns)) : ms.keys.Perm ns.keys := by
  cases h with
  | refl => exact List.Perm.refl _
  | object hlength hkeys hvalues hperm =>
    have heq : ms.keys = Members.keys _ :=
      map_eq_map_iff_forall₂.mpr (forall₂_of_zip hlength hkeys)
    rw [heq]
    exact hperm.map Prod.fst

namespace Toml

variable {v w : Toml}

lemma toJsonItems_eq_map (xs : List Toml) : toJsonItems xs = xs.map toJson := by
  induction xs with
  | nil => rfl
  | cons x xs ih => rw [toJsonItems, ih, List.map_cons]

lemma toJsonMembers_eq_map (ms : List (String × Toml)) :
    toJsonMembers ms = ms.map (Prod.map id toJson) := by
  induction ms with
  | nil => rfl
  | cons m ms ih =>
    obtain ⟨k, v⟩ := m
    rw [toJsonMembers, ih]
    rfl

lemma Reordered.toJson (h : v.Reordered w) : v.toJson.Reordered w.toJson := by
  induction h with
  | refl v => exact .refl _
  | array hlength hitems ih =>
    rw [Toml.toJson, Toml.toJson, toJsonItems_eq_map, toJsonItems_eq_map]
    apply Json.Reordered.array (by simpa using hlength)
    rw [List.zip_map, List.forall_mem_map]
    exact ih
  | table hlength hkeys hvalues hperm ih =>
    rw [Toml.toJson, Toml.toJson, toJsonMembers_eq_map, toJsonMembers_eq_map]
    refine .object (by simpa using hlength) ?_ ?_ (hperm.map _)
    · rw [List.zip_map, List.forall_mem_map]
      exact hkeys
    · rw [List.zip_map, List.forall_mem_map]
      exact ih

lemma Reordered.numbersFit {fits : Int → Bool} (h : v.Reordered w) :
    v.numbersFit fits = true → w.numbersFit fits = true := by
  induction h with
  | refl v => exact id
  | array hlength hitems ih =>
    rw [numbersFit_array, numbersFit_array]
    exact forall_of_zip hlength ih
  | table hlength hkeys hvalues hperm ih =>
    rw [numbersFit_table, numbersFit_table]
    intro hms n hn
    exact forall_of_zip (q := fun n => n.2.numbersFit fits = true) hlength ih hms n
      (hperm.mem_iff.mpr hn)

lemma free?_eq_some_iff {j : Json} :
    v.free? = some j ↔ v.numbersFit (Decimal.Word.fits 64) = true ∧ v.toJson = j := by
  unfold free?
  split_ifs with h <;> simp [h]

/-- A free-form value is kept, but for the order of members. -/
lemma Reordered.free? {j : Json} (h : v.Reordered w) (hv : v.free? = some j) :
    ∃ j', w.free? = some j' ∧ j.Reordered j' := by
  obtain ⟨hfits, rfl⟩ := free?_eq_some_iff.mp hv
  exact ⟨_, free?_eq_some_iff.mpr ⟨h.numbersFit hfits, rfl⟩, h.toJson⟩

/-! ### Items and members -/

lemma Reordered.of_array {xs : List Toml} (h : Reordered (.array xs) w) :
    ∃ ys, w = .array ys ∧ List.Forall₂ Reordered xs ys := by
  cases h with
  | refl => exact ⟨xs, rfl, List.forall₂_same.mpr fun x _ => .refl x⟩
  | array hlength hitems => exact ⟨_, rfl, forall₂_of_zip hlength hitems⟩

lemma Reordered.of_table {ms : List (String × Toml)} (h : Reordered (.table ms) w) :
    ∃ ns ns', w = .table ns' ∧
      List.Forall₂ (fun m n => m.1 = n.1 ∧ m.2.Reordered n.2) ms ns ∧ ns.Perm ns' := by
  cases h with
  | refl =>
    exact ⟨ms, ms, rfl, List.forall₂_same.mpr fun m _ => ⟨rfl, .refl m.2⟩, List.Perm.refl ms⟩
  | table hlength hkeys hvalues hperm =>
    exact ⟨_, _, rfl, forall₂_of_zip hlength fun p hp => ⟨hkeys p hp, hvalues p hp⟩, hperm⟩

lemma Reordered.of_texts {ss : List String} (h : Reordered (.array (ss.map .text)) w) :
    w = .array (ss.map .text) := by
  obtain ⟨ys, rfl, hys⟩ := h.of_array
  have heq : ss.map Toml.text = ys := by
    rw [← List.forall₂_eq_eq_eq, List.forall₂_map_left_iff]
    rw [List.forall₂_map_left_iff] at hys
    refine hys.imp fun s y hy => ?_
    cases hy
    rfl
  rw [heq]

end Toml

/-! ### Records -/

/-- A table of fields of a record still has these fields, and no others. -/
lemma Decode.Record.find?_of_reordered {r : Record} {ms : List (String × Toml)} {w : Toml}
    (hfields : ∀ m ∈ ms, r.fieldName? m.1 = some m.1) (hnodup : (ms.map Prod.fst).Nodup)
    (h : Toml.Reordered (.table ms) w) :
    r.Admits w ∧ (∀ m ∈ ms, ∃ y, m.2.Reordered y ∧ r.find? w m.1 = some y) ∧
      ∀ name ∉ ms.map Prod.fst, r.find? w name = none := by
  obtain ⟨ns, ns', rfl, hmembers, hperm⟩ := h.of_table
  -- values are reordered first, then members are moved; neither changes which keys there are
  have hkeys : (ms.map Prod.fst).Perm (ns'.map Prod.fst) := by
    have heq : ms.map Prod.fst = ns.map Prod.fst :=
      map_eq_map_iff_forall₂.mpr (hmembers.imp fun _ _ hm => hm.1)
    rw [heq]
    exact hperm.map Prod.fst
  have hfields' : ∀ n ∈ ns', r.fieldName? n.1 = some n.1 := by
    intro n hn
    obtain ⟨m, hm, hfst⟩ := List.mem_map.mp (hkeys.mem_iff.mpr (List.mem_map_of_mem hn))
    rw [← hfst]
    exact hfields m hm
  -- every member is a field under its own name, so none is left out
  have hknown : r.known ns' = ns' := by
    rw [known, List.filterMap_congr (g := some), List.filterMap_some]
    intro n hn
    rw [hfields' n hn]
    rfl
  have hnodup' : (ns'.map Prod.fst).Nodup := hkeys.nodup_iff.mp hnodup
  have hfind : ∀ name, r.find? (.table ns') name = ns'.lookup name := by
    intro name
    change (r.known ns').lookup name = ns'.lookup name
    rw [hknown]
  refine ⟨⟨fun n hn hnone => ?_, ?_⟩, fun m hm => ?_, fun name hname => ?_⟩
  · rw [hfields' n hn] at hnone
    cases hnone
  · rwa [knownNames, hknown]
  · obtain ⟨n, hn, hkey, hvalue⟩ := exists_of_forall₂ hmembers hm
    refine ⟨n.2, hvalue, ?_⟩
    rw [hfind, hkey]
    exact lookup_of_mem hnodup' (hperm.mem_iff.mp hn)
  · rw [hfind]
    exact lookup_eq_none_of_notMem fun hmem => hname (hkeys.mem_iff.mpr hmem)

end ResourceBuild

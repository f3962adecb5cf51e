import ResourceBuild.Decode.Record
import ResourceBuild.Proofs.Decode.Record
import ResourceBuild.Proofs.Toml.Values

/-!
# Editing records

What becomes of the fields of a record when its table loses keys, or when the values of its fields
are changed. A field that goes by a lost key is not there any more; all others are found as before.
-/

namespace ResourceBuild

open Decode

/-! ### Taking keys out of a table -/

/-- A table without some of its keys; any other value as it is. -/
def Toml.without (gone : String → Bool) : Toml → Toml
  | .table ms => .table (ms.filter fun m => !gone m.1)
  | v => v

/-- Whether a field is lost with these keys: one of them is the key it goes by. -/
def Decode.Record.loses (r : Record) (gone : String → Bool) (v : Toml) (name : String) : Bool :=
  match v with
  | .table ms => ms.any fun m => gone m.1 && r.fieldName? m.1 == some name
  | _ => false

/-- The value that a tree holds for a field; an empty table if it has none. -/
def Decode.Record.part (r : Record) (v : Toml) (name : String) : Toml :=
  (r.find? v name).getD (.table [])

/-- Changes the value of a member that is a field of a record. -/
def Decode.Record.mapMember (r : Record) (f : String → Toml → Toml) (m : String × Toml) :
    String × Toml :=
  match r.fieldName? m.1 with
  | some name => (m.1, f name m.2)
  | none => m

/-- Changes the values of the fields of a record, in a table or in an array. -/
def Decode.Record.mapFields (r : Record) (f : String → Toml → Toml) : Toml → Toml
  | .table ms => .table (ms.map (r.mapMember f))
  | .array xs => .array (List.zipWith f r.names xs ++ xs.drop r.names.length)
  | v => v

/-- Records of settings: other keys may stand beside the fields, and none has the key of a date. -/
structure Decode.Record.IsSettings (r : Record) : Prop where
  isOpen : r.closed = false
  undated : r.fieldName? Toml.datetimeKey = none

namespace Decode.Record

variable {r : Record} {v : Toml}

lemma knownNames_filter_sublist (ms : List (String × Toml)) (p : String × Toml → Bool) :
    (r.knownNames (ms.filter p)).Sublist (r.knownNames ms) :=
  ((List.filter_sublist).filterMap _).map _

lemma Fits.filter {ms : List (String × Toml)} (h : r.Fits ms) (p : String × Toml → Bool) :
    r.Fits (ms.filter p) where
  passes m hm := h.passes m (List.mem_of_mem_filter hm)
  nodup := h.nodup.sublist (knownNames_filter_sublist ms p)

lemma Admits.without (h : r.Admits v) (gone : String → Bool) : r.Admits (v.without gone) := by
  cases v with
  | table ms => exact Fits.filter h _
  | _ => exact h

lemma loses_cons {m : String × Toml} {ms : List (String × Toml)} {gone : String → Bool}
    {name : String} : r.loses gone (.table (m :: ms)) name =
      (gone m.1 && r.fieldName? m.1 == some name || r.loses gone (.table ms) name) := rfl

/-- A field that is lost is one of those in the table. -/
lemma mem_knownNames_of_loses {ms : List (String × Toml)} {gone : String → Bool} {name : String}
    (h : r.loses gone (.table ms) name = true) : name ∈ r.knownNames ms := by
  obtain ⟨m, hm, hgone⟩ := List.any_eq_true.mp h
  rw [Bool.and_eq_true, beq_iff_eq] at hgone
  refine List.mem_map.mpr ⟨(name, m.2), List.mem_filterMap.mpr ⟨m, hm, ?_⟩, rfl⟩
  rw [hgone.2, Option.map_some]

/-- Without some keys each field is lost or has the value that it had. -/
lemma lookup_known_filter {ms : List (String × Toml)} (h : (r.knownNames ms).Nodup)
    (gone : String → Bool) (name : String) :
    (r.known (ms.filter fun m => !gone m.1)).lookup name =
      if r.loses gone (.table ms) name then none else (r.known ms).lookup name := by
  induction ms with
  | nil => rfl
  | cons m ms ih =>
    cases hname : r.fieldName? m.1 with
    | none =>
      -- a member that is no field is in neither list of fields
      have hfilter : r.known ((m :: ms).filter fun m => !gone m.1) =
          r.known (ms.filter fun m => !gone m.1) := by
        rw [List.filter_cons]
        split_ifs
        · exact known_cons_of_none hname _
        · rfl
      have hloses : r.loses gone (.table (m :: ms)) name = r.loses gone (.table ms) name := by
        simp [loses_cons, hname]
      rw [knownNames, known_cons_of_none hname] at h
      rw [hfilter, hloses, known_cons_of_none hname]
      exact ih h
    | some field =>
      rw [knownNames, known_cons_of_some hname, List.map_cons, List.nodup_cons] at h
      rw [known_cons_of_some hname, List.filter_cons]
      by_cases hfield : name = field
      · subst hfield
        have hloses : r.loses gone (.table (m :: ms)) name = gone m.1 := by
          -- no field comes twice, so whether this one is lost is settled by this member
          have hrest : r.loses gone (.table ms) name = false := by
            rw [← Bool.not_eq_true]
            exact fun hlost => h.1 (mem_knownNames_of_loses hlost)
          simp [loses_cons, hname, hrest]
        rw [hloses, List.lookup_cons_self]
        cases hgone : gone m.1 with
        | false => rw [Bool.not_false, if_pos rfl, known_cons_of_some hname,
            List.lookup_cons_self, if_neg Bool.false_ne_true]
        | true =>
          rw [if_neg (by simp), if_pos rfl]
          exact lookup_eq_none_of_notMem
            (fun hmem => h.1 ((knownNames_filter_sublist ms _).subset hmem))
      · have hloses : r.loses gone (.table (m :: ms)) name = r.loses gone (.table ms) name := by
          simp [loses_cons, hname, Ne.symm hfield]
        rw [hloses, List.lookup_cons, beq_false_of_ne hfield, ← ih h.2]
        split_ifs
        · rw [known_cons_of_some hname, List.lookup_cons, beq_false_of_ne hfield]
        · rfl

lemma find?_without (h : r.Admits v) (gone : String → Bool) (name : String) :
    r.find? (v.without gone) name =
      if r.loses gone v name then none else r.find? v name := by
  cases v with
  | table ms => exact lookup_known_filter (Fits.nodup h) gone name
  | _ => rfl

/-! ### Taking out keys that are no fields -/

section Foreign

variable {gone : String → Bool} (hforeign : ∀ key, gone key = true → r.fieldName? key = none)

include hforeign

lemma known_filter_foreign (ms : List (String × Toml)) :
    r.known (ms.filter fun m => !gone m.1) = r.known ms := by
  induction ms with
  | nil => rfl
  | cons m ms ih =>
    rw [List.filter_cons]
    split_ifs with hkept
    · simp only [known, List.filterMap_cons] at ih ⊢
      rw [ih]
    · rw [Bool.not_eq_true', Bool.not_eq_false] at hkept
      rw [ih, known_cons_of_none (hforeign m.1 hkept)]

lemma find?_without_foreign (name : String) : r.find? (v.without gone) name = r.find? v name := by
  cases v with
  | table ms => exact congrArg (List.lookup name) (known_filter_foreign hforeign ms)
  | _ => rfl

end Foreign

/-! ### Changing fields -/

lemma mapMember_fst (f : String → Toml → Toml) (m : String × Toml) :
    (r.mapMember f m).1 = m.1 := by
  unfold mapMember
  split <;> rfl

lemma known_map (ms : List (String × Toml)) (f : String → Toml → Toml) :
    r.known (ms.map (r.mapMember f)) = (r.known ms).map fun m => (m.1, f m.1 m.2) := by
  induction ms with
  | nil => rfl
  | cons m ms ih =>
    rw [List.map_cons]
    cases hname : r.fieldName? m.1 with
    | none =>
      rw [known_cons_of_none (by rwa [mapMember_fst]), known_cons_of_none hname, ih]
    | some name =>
      rw [known_cons_of_some (by rwa [mapMember_fst]), known_cons_of_some hname, ih, List.map_cons]
      simp [mapMember, hname]

lemma zip_zipWith (names : List String) (xs : List Toml) (f : String → Toml → Toml) :
    names.zip (List.zipWith f names xs ++ xs.drop names.length) =
      (names.zip xs).map fun m => (m.1, f m.1 m.2) := by
  induction names generalizing xs with
  | nil => rfl
  | cons name names ih =>
    cases xs with
    | nil => rfl
    | cons x xs => simp [ih]

/-- The values of the changed fields are found in place of the old ones. -/
lemma find?_mapFields (hr : r.IsSettings) (f : String → Toml → Toml) (name : String) :
    r.find? (r.mapFields f v) name = (r.find? v name).map (f name) := by
  cases v with
  | table ms =>
    rw [find?, find?, ← lookup_map]
    exact congrArg (List.lookup name) (known_map ms f)
  | array xs =>
    rw [find?, find?, ← lookup_map]
    exact congrArg (List.lookup name) (zip_zipWith r.names xs f)
  | datetime t =>
    -- a date or time shows as a table, but its key is that of no field
    have hnone : r.values (Toml.datetime t) = [] := known_cons_of_none hr.undated []
    simp [mapFields, find?, hnone]
  | _ => rfl

lemma knownNames_map (ms : List (String × Toml)) (f : String → Toml → Toml) :
    r.knownNames (ms.map (r.mapMember f)) = r.knownNames ms := by
  rw [knownNames, known_map, List.map_map]
  rfl

lemma passesOver_mapMember {f : String → Toml → Toml} {m : String × Toml} :
    r.PassesOver (r.mapMember f m) ↔ r.PassesOver m := by
  unfold PassesOver
  rw [mapMember_fst]
  refine forall_congr' fun hname => ?_
  simp [mapMember, hname]

lemma admits_mapFields_iff (f : String → Toml → Toml) :
    r.Admits (r.mapFields f v) ↔ r.Admits v := by
  cases v with
  | table ms =>
    constructor
    · rintro ⟨hpasses, hnodup⟩
      exact ⟨fun m hm => passesOver_mapMember.mp (hpasses _ (List.mem_map_of_mem hm)),
        (knownNames_map ms f) ▸ hnodup⟩
    · rintro ⟨hpasses, hnodup⟩
      refine ⟨?_, (knownNames_map ms f).symm ▸ hnodup⟩
      exact List.forall_mem_map.mpr fun m hm => passesOver_mapMember.mpr (hpasses m hm)
  | _ => exact Iff.rfl

/-! ### Readable values -/

lemma isReadable_of_find? (h : v.isReadable = true) {name : String} {x : Toml}
    (hx : r.find? v name = some x) : x.isReadable = true := by
  have hmem := mem_of_lookup hx
  cases v with
  | table ms =>
    obtain ⟨m, hm, heq⟩ := List.mem_filterMap.mp hmem
    obtain ⟨_, -, hpair⟩ := Option.map_eq_some_iff.mp heq
    cases hpair
    exact Toml.numbersFit_table.mp h m hm
  | array xs => exact Toml.numbersFit_array.mp h x (List.of_mem_zip hmem).2
  | datetime t =>
    obtain ⟨m, hm, heq⟩ := List.mem_filterMap.mp hmem
    obtain ⟨_, -, hpair⟩ := Option.map_eq_some_iff.mp heq
    cases hpair
    rw [List.mem_singleton.mp hm]
    rfl
  | _ => cases hmem

lemma Admits.of_without (hr : r.IsSettings) {gone : String → Bool}
    (hforeign : ∀ key, gone key = true → r.fieldName? key = none) (hread : v.isReadable = true)
    (h : r.Admits (v.without gone)) : r.Admits v := by
  cases v with
  | table ms =>
    obtain ⟨-, hnodup⟩ := h
    refine ⟨fun m hm _ => ⟨hr.isOpen, Toml.numbersFit_table.mp hread m hm⟩, ?_⟩
    rwa [knownNames, known_filter_foreign hforeign] at hnodup
  | _ => exact h

/-! ### Decoded fields -/

section Fields

variable {β : Type} {f : String → Toml → Toml} {gone : String → Bool} {name : String} {d x : β}
  {dec : Toml → Except DecodeError β}

/-- Without some keys a field has its default if it is lost, and the value that it had if not. -/
lemma Admits.withDefault_without (hv : r.Admits v)
    (h : (r.fieldsOf v).withDefault name d dec = .ok x) :
    (r.fieldsOf (v.without gone)).withDefault name d dec =
      .ok (if r.loses gone v name then d else x) := by
  rw [withDefault_eq] at h ⊢
  rw [find?_without hv]
  split_ifs
  · rfl
  · exact h

/--
So it is where the values of the fields that are left are changed as well: `g` tells what is decoded
then. Where there is no such field, `g` is asked about an empty table.
-/
lemma Admits.withDefault_edited (hr : r.IsSettings) (hv : r.Admits v)
    (h : (r.fieldsOf v).withDefault name d dec = .ok x) (g : Toml → β)
    (hsome : ∀ y, dec y = .ok x → dec (f name y) = .ok (g y)) (hnone : g (.table []) = x) :
    (r.fieldsOf (r.mapFields f (v.without gone))).withDefault name d dec =
      .ok (if r.loses gone v name then d else g (r.part v name)) := by
  rw [withDefault_eq] at h ⊢
  rw [find?_mapFields hr, find?_without hv, part]
  split_ifs
  · rfl
  · cases hfind : r.find? v name with
    | none =>
      rw [hfind] at h
      rw [Option.getD_none, hnone]
      exact h
    | some y =>
      rw [hfind] at h
      exact hsome y h

lemma Admits.withDefault_kept (hr : r.IsSettings) (hv : r.Admits v)
    (h : (r.fieldsOf v).withDefault name d dec = .ok x) (hf : ∀ y, f name y = y) :
    (r.fieldsOf (r.mapFields f (v.without gone))).withDefault name d dec =
      .ok (if r.loses gone v name then d else x) :=
  hv.withDefault_edited hr h (fun _ => x) (fun y hy => (hf y).symm ▸ hy) rfl

/-- Taking out keys that are no fields changes no field. -/
lemma withDefault_without_foreign (hforeign : ∀ key, gone key = true → r.fieldName? key = none) :
    (r.fieldsOf (v.without gone)).withDefault name d dec =
      (r.fieldsOf v).withDefault name d dec := by
  rw [withDefault_eq, withDefault_eq, find?_without_foreign hforeign]

/-- A field that decodes without the keys that are none has the same value with them. -/
lemma withDefault_of_edited (hr : r.IsSettings)
    (hforeign : ∀ key, gone key = true → r.fieldName? key = none)
    (h : (r.fieldsOf (r.mapFields f (v.without gone))).withDefault name d dec = .ok x)
    (hsome : ∀ y, r.find? v name = some y → dec (f name y) = .ok x → dec y = .ok x) :
    (r.fieldsOf v).withDefault name d dec = .ok x := by
  rw [withDefault_eq, find?_mapFields hr, find?_without_foreign hforeign] at h
  rw [withDefault_eq]
  cases hfind : r.find? v name with
  | none =>
    rw [hfind] at h
    exact h
  | some y =>
    rw [hfind] at h
    exact hsome y hfind h

end Fields

end Decode.Record

end ResourceBuild

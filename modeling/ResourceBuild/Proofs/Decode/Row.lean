import Mathlib.Data.List.Nodup
import Mathlib.Data.List.Perm.Basic
import ResourceBuild.Decode.Json
import ResourceBuild.Proofs.Decode.Record

/-!
# Rows in JSON

How a row of values is written in JSON: as an object that names every field once, by any of its
spellings and in any order, or as an array of the values alone. A record that allows no other fields
and whose spellings are told apart is read exactly from the rows that are written so.
-/

namespace ResourceBuild.Decode

open Outcome

/-! ### Rows -/

/-- Members that name some fields in order, each by one of its spellings. -/
def Named (fields : List (List String)) (ms : Members) : Prop :=
  List.Forall₂ (fun spellings m => m.1 ∈ spellings) fields ms

/-- A row of values, one for each field, written in JSON. -/
inductive Spelled (fields : List (List String)) (values : List Json) : Json → Prop where
  | object {ms ordered : Members} (hsame : ms.Perm ordered) (hnamed : Named fields ordered)
      (hvalues : ordered.map Prod.snd = values) : Spelled fields values (.object ms)
  | array (hcount : values.length = fields.length) : Spelled fields values (.array values)

/-- One change to how a row is written: a field is spelled in another way, the members of an object
change places, or the names of an object in declared order are left out. -/
inductive Rewritten (fields : List (List String)) : Json → Json → Prop where
  | respelled {spellings : List String} {key key' : String} {v : Json} {before behind : Members}
      (hfield : spellings ∈ fields) (hkey : key ∈ spellings) (hkey' : key' ∈ spellings) :
      Rewritten fields (.object (before ++ (key, v) :: behind))
        (.object (before ++ (key', v) :: behind))
  | reordered {ms ms' : Members} (hperm : ms.Perm ms') : Rewritten fields (.object ms) (.object ms')
  | listed {ms : Members} (hnamed : Named fields ms) :
      Rewritten fields (.object ms) (.array (ms.map Prod.snd))

def Record.spelled (r : Record) : List (List String) :=
  r.fields.map Field.spellings

@[simp] lemma Record.length_spelled (r : Record) : r.spelled.length = r.fields.length :=
  List.length_map _

@[simp] lemma Record.length_names (r : Record) : r.names.length = r.fields.length :=
  List.length_map _

/-- A record that allows no other fields, and whose fields are told apart by their names and
spellings. -/
structure Record.Strict (r : Record) : Prop where
  closed : r.closed = true
  names : r.names.Nodup
  spellings : ∀ f ∈ r.fields, ∀ key ∈ f.spellings, r.fieldName? key = some f.name

/-! ### Values by name -/

section Lookup

variable {α : Type} {names : List String} {l : List (String × α)} {xs ys : List α}

/-- Values that stand beside different names are found under them. -/
lemma lookup_zip (hnames : names.Nodup) (hcount : names.length = xs.length) :
    List.Forall₂ (fun name x => (names.zip xs).lookup name = some x) names xs := by
  rw [List.forall₂_iff_zip]
  refine ⟨hcount, fun {name x} hmem => ?_⟩
  exact lookup_of_mem (hnames.sublist (map_fst_zip_sublist names xs)) hmem

/-- What is found under names is found once. -/
lemma eq_of_lookup (hx : List.Forall₂ (fun name x => l.lookup name = some x) names xs)
    (hy : List.Forall₂ (fun name x => l.lookup name = some x) names ys) : xs = ys := by
  refine List.right_unique_forall₂' (fun name x y hx hy => ?_) hx hy
  exact Option.some.inj (hx.symm.trans hy)

/-- A list with a value under each of its names is made of these pairs. -/
lemma perm_zip_of_lookup (hnames : names.Nodup) (hl : (l.map Prod.fst).Nodup)
    (hsub : ∀ m ∈ l, m.1 ∈ names)
    (h : List.Forall₂ (fun name x => l.lookup name = some x) names xs) :
    l.Perm (names.zip xs) := by
  have hzip := (hnames.sublist (map_fst_zip_sublist names xs)).of_map
  refine (List.perm_ext_iff_of_nodup hl.of_map hzip).mpr fun ⟨name, x⟩ => ?_
  obtain ⟨hcount, hfound⟩ := List.forall₂_iff_zip.mp h
  constructor
  · intro hmem
    -- the name has some value in the row, and what is found under it is one value
    have hname : name ∈ (names.zip xs).map Prod.fst := by
      rw [List.map_fst_zip (Nat.le_of_eq hcount)]
      exact hsub _ hmem
    obtain ⟨⟨name, y⟩, hy, rfl⟩ := List.mem_map.mp hname
    obtain rfl : x = y := Option.some.inj ((lookup_of_mem hl hmem).symm.trans (hfound hy))
    exact hy
  · intro hmem
    exact mem_of_lookup (hfound hmem)

end Lookup

/-- What no single change touches is the same after all of them. -/
lemma iff_of_eqvGen {α : Type} {R : α → α → Prop} {p : α → Prop}
    (h : ∀ x y, R x y → (p x ↔ p y)) {x y : α} (hxy : Relation.EqvGen R x y) : p x ↔ p y := by
  induction hxy with
  | rel x y hxy => exact h x y hxy
  | refl x => rfl
  | symm x y _ ih => exact ih.symm
  | trans x y z _ _ ihxy ihyz => exact ihxy.trans ihyz

/-! ### Members by field -/

namespace Record.Strict

variable {r : Record} {ms ordered : Members} {values : List Json}

/-- The spellings of a field are exactly the keys that it goes by. -/
lemma fieldName?_eq_iff (h : r.Strict) {f : Field} (hf : f ∈ r.fields) {key : String} :
    r.fieldName? key = some f.name ↔ key ∈ f.spellings := by
  constructor
  · intro hkey
    obtain ⟨g, hg, hname⟩ := Option.map_eq_some_iff.mp hkey
    obtain rfl := List.inj_on_of_nodup_map h.names (List.mem_of_find?_eq_some hg) hf hname
    simpa using List.find?_some hg
  · exact h.spellings f hf key

/-- Members that name some fields of the record in order are these fields. -/
lemma known_of_named (h : r.Strict) {fs : List Field} (hfs : ∀ f ∈ fs, f ∈ r.fields)
    (hnamed : Named (fs.map Field.spellings) ms) :
    r.known ms = (fs.map Field.name).zip (ms.map Prod.snd) ∧
      ∀ m ∈ ms, r.fieldName? m.1 ≠ none := by
  induction fs generalizing ms with
  | nil =>
    cases hnamed
    exact ⟨rfl, by simp⟩
  | cons f fs ih =>
    rw [List.forall_mem_cons] at hfs
    obtain _ | ⟨hkey, hrest⟩ := hnamed
    have hname := (h.fieldName?_eq_iff hfs.1).mpr hkey
    obtain ⟨hknown, hall⟩ := ih hfs.2 hrest
    refine ⟨?_, List.forall_mem_cons.mpr ⟨by simp [hname], hall⟩⟩
    rw [known_cons_of_some hname, hknown]
    rfl

/-- Members that fit are named by the fields they stand for. -/
lemma named_of_known (h : r.Strict) {fs : List Field} (hfs : ∀ f ∈ fs, f ∈ r.fields)
    (hcount : values.length = fs.length)
    (hknown : List.Forall₂ (fun (p : String × Json) (m : String × Json) =>
      r.fieldName? m.1 = some p.1 ∧ m.2 = p.2) ((fs.map Field.name).zip values) ms) :
    Named (fs.map Field.spellings) ms ∧ ms.map Prod.snd = values := by
  induction fs generalizing values ms with
  | nil =>
    cases hknown
    exact ⟨.nil, (List.eq_nil_of_length_eq_zero hcount).symm⟩
  | cons f fs ih =>
    rw [List.forall_mem_cons] at hfs
    obtain _ | ⟨v, values⟩ := values
    · cases hcount
    obtain _ | ⟨⟨hname, rfl⟩, hrest⟩ := hknown
    obtain ⟨hnamed, rfl⟩ := ih hfs.2 (Nat.succ.inj hcount) hrest
    exact ⟨.cons ((h.fieldName?_eq_iff hfs.1).mp hname) hnamed, rfl⟩

/-- In a strict record every member that fits stands for a field. -/
lemma known_of_fits (h : r.Strict) (hfits : r.Fits ms) :
    List.Forall₂ (fun (p : String × Json) (m : String × Json) =>
      r.fieldName? m.1 = some p.1 ∧ m.2 = p.2) (r.known ms) ms := by
  have hall := hfits.passes
  clear hfits
  induction ms with
  | nil => exact .nil
  | cons m ms ih =>
    rw [List.forall_mem_cons] at hall
    cases hname : r.fieldName? m.1 with
    | none => exact absurd (h.closed.symm.trans (hall.1 hname).1) (by decide)
    | some name =>
      rw [known_cons_of_some hname]
      exact .cons ⟨hname, rfl⟩ (ih hall.2)

/-- An object names every field of a strict record once, with these values, exactly if it fits and
they are found under the names. -/
lemma spelled_object_iff (h : r.Strict) :
    Spelled r.spelled values (.object ms) ↔
      r.Fits ms ∧
        List.Forall₂ (fun name v => (r.known ms).lookup name = some v) r.names values := by
  constructor
  · rintro (@⟨_, ordered, hsame, hnamed, rfl⟩ | _)
    obtain ⟨hknown, hall⟩ := h.known_of_named (fun f hf => hf) hnamed
    -- the members are named in some order, and the fields in that of the record
    have hperm : (r.known ms).Perm (r.names.zip (ordered.map Prod.snd)) := by
      rw [Record.names, ← hknown]
      exact hsame.filterMap _
    have hfits : r.Fits ms := by
      refine ⟨fun m hm hnone => absurd hnone (hall m (hsame.mem_iff.mp hm)), ?_⟩
      rw [knownNames, (hperm.map Prod.fst).nodup_iff]
      exact h.names.sublist (map_fst_zip_sublist _ _)
    have hcount : r.names.length = (ordered.map Prod.snd).length := by
      simpa using hnamed.length_eq
    refine ⟨hfits, List.forall₂_iff_zip.mpr ⟨hcount, fun {name v} hmem => ?_⟩⟩
    exact lookup_of_mem hfits.nodup (hperm.mem_iff.mpr hmem)
  · rintro ⟨hfits, hfound⟩
    have hnames : ∀ m ∈ r.known ms, m.1 ∈ r.names := by
      intro m hm
      exact mem_names_of_mem_values (a := Json.object ms) hm
    have hperm := perm_zip_of_lookup h.names hfits.nodup hnames hfound
    -- put in the order of the record, the members name its fields one by one
    obtain ⟨ordered, hknown, hsame⟩ := List.perm_comp_forall₂ hperm.symm (h.known_of_fits hfits)
    have hcount : values.length = r.fields.length := by
      simpa using hfound.length_eq.symm
    obtain ⟨hnamed, hvalues⟩ := h.named_of_known (fun f hf => hf) hcount hknown
    exact .object hsame.symm hnamed hvalues

lemma bound_array_iff {xs : List Json} :
    r.bound (Json.array xs) = .ok () ↔ xs.length ≤ r.fields.length := by
  simp [bound, Document.shape, jsonShape, Document.countsItems]

/-- An array has these values for the fields exactly if it holds them and no others. -/
lemma spelled_array_iff (h : r.Strict) {xs : List Json} :
    Spelled r.spelled values (.array xs) ↔
      r.bound (Json.array xs) = .ok () ∧
        List.Forall₂ (fun name v => (r.names.zip xs).lookup name = some v) r.names values := by
  rw [bound_array_iff]
  constructor
  · rintro (_ | hcount)
    rw [length_spelled] at hcount
    exact ⟨Nat.le_of_eq hcount, lookup_zip h.names (by rw [length_names, hcount])⟩
  · rintro ⟨hbound, hfound⟩
    -- a value is found for every field, so there are as many values as fields
    have hzip := h.names.sublist (map_fst_zip_sublist r.names xs)
    have hperm := perm_zip_of_lookup h.names hzip (fun m hm => (List.of_mem_zip hm).1) hfound
    have hlength := hperm.length_eq
    simp only [List.length_zip, ← hfound.length_eq, length_names] at hlength
    have hcount : xs.length = r.fields.length := by omega
    obtain rfl := eq_of_lookup (lookup_zip h.names (by rw [length_names, hcount])) hfound
    exact .array (by rw [length_spelled, hcount])

/-- A value is a row of a strict record exactly if the record reads these values from it. -/
theorem spelled_iff (h : r.Strict) {a : Json} :
    Spelled r.spelled values a ↔ r.Admits a ∧ r.bound a = .ok () ∧
      List.Forall₂ (fun name v => r.find? a name = some v) r.names values := by
  cases a with
  | object ms =>
    rw [h.spelled_object_iff]
    exact and_congr_right' (iff_and_self.mpr fun _ => rfl)
  | array xs =>
    rw [h.spelled_array_iff]
    exact (and_iff_right trivial).symm
  | number n =>
    refine iff_of_false (fun h => by cases h) fun h => ?_
    cases n <;> exact h.1
  | null | boolean | text => exact iff_of_false (fun h => by cases h) fun h => h.1

/-- A row whose values pass their checks is read, and all its values are found. -/
lemma read_of_spelled (h : r.Strict) (check : String → Json → Except DecodeError Unit) {a : Json}
    (hrow : Spelled r.spelled values a)
    (hchecks : List.Forall₂ (fun name v => check name v = .ok ()) r.names values) :
    r.read check a = .ok (r.fieldsOf a) ∧ r.bound a = .ok () ∧
      List.Forall₂ (fun name v => r.find? a name = some v) r.names values := by
  obtain ⟨hadmits, hbound, hfound⟩ := h.spelled_iff.mp hrow
  have hperm := perm_zip_of_lookup h.names (hadmits.nodup h.names)
    (fun m hm => mem_names_of_mem_values hm) hfound
  refine ⟨read_eq_ok_iff.mpr ⟨hadmits, fun m hm => ?_, rfl⟩, hbound, hfound⟩
  exact List.forall₂_zip hchecks (hperm.mem_iff.mp hm)

/-! ### Other ways of writing a row -/

/-- The order of members makes no difference. -/
lemma spelled_reordered {fields : List (List String)} {ms' : Members} (hperm : ms.Perm ms') :
    Spelled fields values (.object ms) ↔ Spelled fields values (.object ms') := by
  constructor
  · rintro (⟨hsame, hnamed, hvalues⟩ | _)
    exact .object (hperm.symm.trans hsame) hnamed hvalues
  · rintro (⟨hsame, hnamed, hvalues⟩ | _)
    exact .object (hperm.trans hsame) hnamed hvalues

/-- Which spelling of a field is used makes no difference. -/
lemma spelled_respelled (h : r.Strict) {spellings : List String} (hfield : spellings ∈ r.spelled)
    {key key' : String} (hkey : key ∈ spellings) (hkey' : key' ∈ spellings) (v : Json)
    (before behind : Members) :
    Spelled r.spelled values (.object (before ++ (key, v) :: behind)) ↔
      Spelled r.spelled values (.object (before ++ (key', v) :: behind)) := by
  obtain ⟨f, hf, rfl⟩ := List.mem_map.mp hfield
  have hname : r.fieldName? (key, v).1 = some f.name := h.spellings f hf key hkey
  have hname' : r.fieldName? (key', v).1 = some f.name := h.spellings f hf key' hkey'
  -- in front of the others, either member is the same field
  rw [spelled_reordered List.perm_middle, spelled_reordered (List.perm_middle (a := (key', v))),
    h.spelled_object_iff, h.spelled_object_iff, fits_cons_of_some hname, fits_cons_of_some hname',
    known_cons_of_some hname, known_cons_of_some hname']

/-- The names of an object in declared order make no difference. -/
lemma spelled_listed (h : r.Strict) (hnamed : Named r.spelled ms) :
    Spelled r.spelled values (.object ms) ↔
      Spelled r.spelled values (.array (ms.map Prod.snd)) := by
  have hfits := (h.spelled_object_iff.mp (.object (.refl ms) hnamed rfl)).1
  have hknown : r.known ms = r.names.zip (ms.map Prod.snd) :=
    (h.known_of_named (fun f hf => hf) hnamed).1
  have hbound : r.bound (Json.array (ms.map Prod.snd)) = .ok () :=
    bound_array_iff.mpr (by simpa using Nat.le_of_eq hnamed.length_eq.symm)
  rw [h.spelled_object_iff, h.spelled_array_iff, hknown, and_iff_right hfits, and_iff_right hbound]

/-- However a row is written, it has the same values. -/
theorem spelled_congr (h : r.Strict) {x y : Json}
    (hxy : Relation.EqvGen (Rewritten r.spelled) x y) :
    Spelled r.spelled values x ↔ Spelled r.spelled values y := by
  refine iff_of_eqvGen (fun x y hxy => ?_) hxy
  cases hxy with
  | respelled hfield hkey hkey' => exact h.spelled_respelled hfield hkey hkey' _ _ _
  | reordered hperm => exact spelled_reordered hperm
  | listed hnamed => exact h.spelled_listed hnamed

end Record.Strict

end ResourceBuild.Decode

import Mathlib.Data.List.Nodup
import ResourceBuild.Decode.Record
import ResourceBuild.Proofs.Outcome

/-!
# Reading records

When the fields of a record are read from a value: the value has the form of the record, and each
field that is there passes its check. Every later step only sees the value of each field, so what
else stands in a table and where, and which spelling is used, has no influence.
-/

namespace ResourceBuild.Decode

open Outcome

/-! ### Looking up fields -/

section Lookup

variable {α β : Type}

lemma mem_of_lookup {l : List (String × α)} {name : String} {x : α}
    (h : l.lookup name = some x) : (name, x) ∈ l := by
  obtain ⟨before, behind, rfl, -⟩ := List.lookup_eq_some_iff.mp h
  simp

/-- Where no name stands twice, each is found with its own value. -/
lemma lookup_of_mem {l : List (String × α)} (hnodup : (l.map Prod.fst).Nodup) {m : String × α}
    (h : m ∈ l) : l.lookup m.1 = some m.2 := by
  induction l with
  | nil => cases h
  | cons n l ih =>
    rw [List.map_cons, List.nodup_cons] at hnodup
    rcases List.mem_cons.mp h with rfl | hm
    · exact List.lookup_cons_self
    · have hne : m.1 ≠ n.1 := fun heq => hnodup.1 (heq ▸ List.mem_map_of_mem hm)
      rw [List.lookup_cons, beq_false_of_ne hne]
      exact ih hnodup.2 hm

lemma lookup_eq_none_of_notMem {l : List (String × α)} {name : String}
    (h : name ∉ l.map Prod.fst) : l.lookup name = none := by
  rw [List.lookup_eq_none_iff]
  intro m hm
  rw [bne_iff_ne]
  rintro rfl
  exact h (List.mem_map_of_mem hm)

lemma lookup_map (l : List (String × α)) (f : String → α → β) (name : String) :
    (l.map fun m => (m.1, f m.1 m.2)).lookup name = (l.lookup name).map (f name) := by
  induction l with
  | nil => rfl
  | cons m l ih =>
    rw [List.map_cons, List.lookup_cons, List.lookup_cons]
    cases h : name == m.1 with
    | true => rw [eq_of_beq h]; rfl
    | false => exact ih

lemma map_fst_zip_sublist (names : List String) (xs : List α) :
    ((names.zip xs).map Prod.fst).Sublist names := by
  induction names generalizing xs with
  | nil => exact List.nil_sublist []
  | cons name names ih =>
    cases xs with
    | nil => exact List.nil_sublist _
    | cons x xs => exact (ih xs).cons_cons name

end Lookup

variable {α : Type}

/-! ### The fields of a table -/

/-- The name of the field that goes by this key. -/
def Record.fieldName? (r : Record) (key : String) : Option String :=
  (r.field? key).map Field.name

lemma Record.mem_names_of_fieldName? {r : Record} {key name : String}
    (h : r.fieldName? key = some name) : name ∈ r.names := by
  obtain ⟨f, hf, rfl⟩ := Option.map_eq_some_iff.mp h
  exact List.mem_map_of_mem (List.mem_of_find?_eq_some hf)

lemma Record.fieldName?_eq_none_iff {r : Record} {key : String} :
    r.fieldName? key = none ↔ r.field? key = none :=
  Option.map_eq_none_iff

/-- The fields among some members, each under its name. -/
def Record.known (r : Record) (ms : List (String × α)) : List (String × α) :=
  ms.filterMap fun m => (r.fieldName? m.1).map fun name => (name, m.2)

def Record.knownNames (r : Record) (ms : List (String × α)) : List String :=
  (r.known ms).map Prod.fst

@[simp] lemma Record.known_nil (r : Record) : r.known ([] : List (String × α)) = [] := rfl

lemma Record.known_cons_of_none {r : Record} {m : String × α} (h : r.fieldName? m.1 = none)
    (ms : List (String × α)) : r.known (m :: ms) = r.known ms := by
  simp [Record.known, h]

lemma Record.known_cons_of_some {r : Record} {m : String × α} {name : String}
    (h : r.fieldName? m.1 = some name) (ms : List (String × α)) :
    r.known (m :: ms) = (name, m.2) :: r.known ms := by
  simp [Record.known, h]

variable [Document α]

/-- A member that is no field may stand beside the fields of a record. -/
def Record.PassesOver (r : Record) (m : String × α) : Prop :=
  r.fieldName? m.1 = none → r.closed = false ∧ Document.isReadable m.2 = true

/-- Members with each field at most once, and with nothing else that is refused. -/
structure Record.Fits (r : Record) (ms : List (String × α)) : Prop where
  passes : ∀ m ∈ ms, r.PassesOver m
  nodup : (r.knownNames ms).Nodup

lemma Record.fits_nil (r : Record) : r.Fits ([] : List (String × α)) :=
  ⟨by simp, List.nodup_nil⟩

lemma Record.fits_cons_of_none {r : Record} {m : String × α} {ms : List (String × α)}
    (h : r.fieldName? m.1 = none) : r.Fits (m :: ms) ↔
      r.closed = false ∧ Document.isReadable m.2 = true ∧ r.Fits ms := by
  constructor
  · rintro ⟨hpasses, hnodup⟩
    rw [List.forall_mem_cons] at hpasses
    rw [knownNames, known_cons_of_none h] at hnodup
    exact ⟨(hpasses.1 h).1, (hpasses.1 h).2, hpasses.2, hnodup⟩
  · rintro ⟨hopen, hread, hpasses, hnodup⟩
    refine ⟨List.forall_mem_cons.mpr ⟨fun _ => ⟨hopen, hread⟩, hpasses⟩, ?_⟩
    rwa [knownNames, known_cons_of_none h]

lemma Record.fits_cons_of_some {r : Record} {m : String × α} {ms : List (String × α)}
    {name : String} (h : r.fieldName? m.1 = some name) :
    r.Fits (m :: ms) ↔ name ∉ r.knownNames ms ∧ r.Fits ms := by
  constructor
  · rintro ⟨hpasses, hnodup⟩
    rw [List.forall_mem_cons] at hpasses
    rw [knownNames, known_cons_of_some h, List.map_cons, List.nodup_cons] at hnodup
    exact ⟨hnodup.1, hpasses.2, hnodup.2⟩
  · rintro ⟨hnew, hpasses, hnodup⟩
    refine ⟨List.forall_mem_cons.mpr ⟨fun hnone => ?_, hpasses⟩, ?_⟩
    · rw [h] at hnone
      cases hnone
    · rw [knownNames, known_cons_of_some h, List.map_cons, List.nodup_cons]
      exact ⟨hnew, hnodup⟩

lemma passOver_eq_ok_iff {a : α} : passOver a = .ok () ↔ Document.isReadable a = true := by
  unfold passOver
  split_ifs with h <;> simp [h]

/-- A pass over members gives their fields, if each of them is new and passes its check. -/
lemma Record.scan_eq_ok_iff {r : Record} {check : String → α → Except DecodeError Unit}
    {seen : List String} {ms fs : List (String × α)} :
    r.scan check seen ms = .ok fs ↔
      r.Fits ms ∧ (∀ name ∈ r.knownNames ms, name ∉ seen) ∧
        (∀ m ∈ r.known ms, check m.1 m.2 = .ok ()) ∧ fs = r.known ms := by
  induction ms generalizing seen fs with
  | nil => simp [Record.scan, Record.fits_nil, Record.knownNames, eq_comm]
  | cons m ms ih =>
    obtain ⟨key, x⟩ := m
    cases hf : r.field? key with
    | none =>
      have hname : r.fieldName? (key, x).1 = none := fieldName?_eq_none_iff.mpr hf
      simp only [Record.scan, hf, fits_cons_of_none hname, knownNames, known_cons_of_none hname]
      cases r.closed with
      | true => simp
      | false => simp [seq_eq_ok_iff, passOver_eq_ok_iff, ih, knownNames, and_assoc]
    | some f =>
      have hname : r.fieldName? (key, x).1 = some f.name := by simp [fieldName?, hf]
      simp only [Record.scan, hf, fits_cons_of_some hname, knownNames, known_cons_of_some hname,
        List.map_cons, List.forall_mem_cons]
      -- a field that was seen before must neither come now nor in the rest
      by_cases hseen : f.name ∈ seen
      · simp [hseen]
      · simp only [List.contains_eq_mem, hseen, decide_false, Bool.false_eq_true, if_false,
          bind_eq_ok_iff, pure_eq_ok_iff, ih, knownNames, not_false_eq_true, true_and]
        constructor
        · rintro ⟨⟨⟩, hcheck, _, ⟨hfits, hnew, hchecks, rfl⟩, rfl⟩
          refine ⟨⟨fun hmem => hnew _ hmem List.mem_cons_self, hfits⟩, ?_, ⟨hcheck, hchecks⟩, rfl⟩
          exact fun name hmem hold => hnew name hmem (List.mem_cons_of_mem _ hold)
        · rintro ⟨⟨hfresh, hfits⟩, hnew, ⟨hcheck, hchecks⟩, rfl⟩
          refine ⟨(), hcheck, _, ⟨hfits, fun name hmem hold => ?_, hchecks, rfl⟩, rfl⟩
          rcases List.mem_cons.mp hold with rfl | hold
          · exact hfresh hmem
          · exact hnew name hmem hold

/-! ### The fields of a value -/

/-- The values that a value holds for the fields of a record. -/
def Record.values (r : Record) (a : α) : List (String × α) :=
  match Document.shape a with
  | .table ms => r.known ms
  | .sequence xs => r.names.zip xs
  | _ => []

/-- A value has the form of a record: it is a table that fits, or an array. -/
def Record.Admits (r : Record) (a : α) : Prop :=
  match Document.shape a with
  | .table ms => r.Fits ms
  | .sequence _ => True
  | _ => False

def Record.form (a : α) : Form :=
  match Document.shape a with
  | .sequence _ => .sequence
  | _ => .table

def Record.fieldsOf (r : Record) (a : α) : Fields α :=
  ⟨r, Record.form a, r.values a⟩

def Record.find? (r : Record) (a : α) (name : String) : Option α :=
  (r.values a).lookup name

omit [Document α] in
lemma forM_eq_ok_iff {check : String → α → Except DecodeError Unit} {l : List (String × α)} :
    (l.forM fun m => check m.1 m.2) = .ok () ↔ ∀ m ∈ l, check m.1 m.2 = .ok () := by
  induction l with
  | nil => simp [pure_eq_ok_iff]
  | cons m l ih =>
    change (check m.1 m.2 >>= fun _ => l.forM fun m => check m.1 m.2) = .ok () ↔ _
    rw [seq_eq_ok_iff, ih, List.forall_mem_cons]

/-- Reading a record gives its fields, if the value has its form and all checks are passed. -/
lemma Record.read_eq_ok_iff {r : Record} {check : String → α → Except DecodeError Unit} {a : α}
    {fs : Fields α} :
    r.read check a = .ok fs ↔
      r.Admits a ∧ (∀ m ∈ r.values a, check m.1 m.2 = .ok ()) ∧ fs = r.fieldsOf a := by
  unfold Record.read Record.Admits Record.fieldsOf Record.values Record.form
  split
  · next ms hshape =>
    simp only [hshape, bind_eq_ok_iff, pure_eq_ok_iff, scan_eq_ok_iff, List.not_mem_nil,
      not_false_eq_true, implies_true, true_and]
    constructor
    · rintro ⟨_, ⟨hfits, hchecks, rfl⟩, rfl⟩
      exact ⟨hfits, hchecks, rfl⟩
    · rintro ⟨hfits, hchecks, rfl⟩
      exact ⟨_, ⟨hfits, hchecks, rfl⟩, rfl⟩
  · next xs hshape =>
    simp only [hshape, seq_eq_ok_iff, pure_eq_ok_iff, forM_eq_ok_iff, true_and]
    exact and_congr_right' eq_comm
  · simp_all

/-! ### Checks and fields -/

lemma Record.mem_names_of_mem_values {r : Record} {a : α} {m : String × α}
    (h : m ∈ r.values a) : m.1 ∈ r.names := by
  unfold Record.values at h
  split at h
  · obtain ⟨n, -, hn⟩ := List.mem_filterMap.mp h
    obtain ⟨name, hname, rfl⟩ := Option.map_eq_some_iff.mp hn
    exact mem_names_of_fieldName? hname
  · exact (List.of_mem_zip h).1
  · cases h

lemma Record.Admits.nodup {r : Record} {a : α} (h : r.Admits a) (hnames : r.names.Nodup) :
    ((r.values a).map Prod.fst).Nodup := by
  unfold Record.Admits at h
  unfold Record.values
  split at h
  · exact h.nodup
  · exact hnames.sublist (map_fst_zip_sublist _ _)
  · exact absurd h not_false

/-- All checks are passed when the value found for each field passes its own. -/
lemma Record.Admits.checks {r : Record} {check : String → α → Except DecodeError Unit} {a : α}
    (h : r.Admits a) (hnames : r.names.Nodup)
    (hchecks : ∀ name ∈ r.names, ∀ x, r.find? a name = some x → check name x = .ok ()) :
    ∀ m ∈ r.values a, check m.1 m.2 = .ok () := by
  intro m hm
  exact hchecks m.1 (mem_names_of_mem_values hm) m.2 (lookup_of_mem (h.nodup hnames) hm)

omit [Document α] in
lemma discard_eq_ok_iff {x : Except DecodeError α} : discard x = .ok () ↔ ∃ y, x = .ok y := by
  cases x <;> simp [discard, Functor.discard, Functor.mapConst, Except.map]

omit [Document α] in
/-- A field that decodes passes the check of its decoder. -/
lemma Fields.discard_of_withDefault {β : Type} {fs : Fields α} {name : String} {d y : β}
    {dec : α → Except DecodeError β} (h : fs.withDefault name d dec = .ok y) {x : α}
    (hx : fs.values.lookup name = some x) : discard (dec x) = .ok () := by
  rw [Fields.withDefault, hx] at h
  exact discard_eq_ok_iff.mpr ⟨y, h⟩

/-- A field that has to be there decodes from the value found for it. -/
lemma Record.required_eq_ok_iff {β : Type} {r : Record} {a : α} {name : String}
    {dec : α → Except DecodeError β} {y : β} :
    (r.fieldsOf a).required name dec = .ok y ↔ ∃ x, r.find? a name = some x ∧ dec x = .ok y := by
  change Fields.required ⟨r, _, r.values a⟩ name dec = .ok y ↔ _
  rw [Fields.required, find?]
  cases (r.values a).lookup name <;> simp

lemma Record.withDefault_eq {β : Type} {r : Record} {a : α} {name : String} {d : β}
    {dec : α → Except DecodeError β} :
    (r.fieldsOf a).withDefault name d dec = ((r.find? a name).map dec).getD (.ok d) := by
  change Fields.withDefault ⟨r, _, r.values a⟩ name d dec = _
  rw [Fields.withDefault, find?]
  cases (r.values a).lookup name <;> rfl

end ResourceBuild.Decode

import Mathlib.Data.List.Basic
import ResourceBuild.Proofs.Manifest.Acceptance

/-!
# The report of a validation

What validation reports is, apart from the order, the ids that are used again and the defects of
the single declarations, each under the label of its declaration. Data that does not decode is
among these defects exactly if the declaration has no other one.
-/

namespace ResourceBuild.Manifest

open Text

/-! ### The parts of a report -/

/-- The violation of a declaration whose id stands before it. -/
def repeatedId (id : String) : Violation :=
  ⟨.named id, .duplicateId⟩

/-- The ids that stand somewhere before their place: in the list, or among those seen already. -/
def repeated (seen : List String) : List String → List String
  | [] => []
  | id :: ids => (if id ∈ seen then [id] else []) ++ repeated (id :: seen) ids

/-- The defects of declarations from a position on, each under the label of its declaration. -/
def labelled (position : Nat) (ds : List Declaration) : List Violation :=
  (ds.zipIdx position).flatMap fun (d, i) => d.validate.1.map (⟨d.label i, ·⟩)

lemma labelled_cons (position : Nat) (d : Declaration) (ds : List Declaration) :
    labelled position (d :: ds) =
      d.validate.1.map (⟨d.label position, ·⟩) ++ labelled (position + 1) ds := by
  simp only [labelled, List.zipIdx_cons, List.flatMap_cons]

/-- The first declaration repeats an id if it has one that was seen. -/
lemma repeated_cons (seen : List String) (d : Declaration) (ds : List Declaration) :
    (repeated seen ((d :: ds).filterMap Declaration.id?)).map repeatedId =
      d.duplicates seen ++
        (repeated (d.id?.toList ++ seen) (ds.filterMap Declaration.id?)).map repeatedId := by
  cases hid : d.id? with
  | none => simp [Declaration.duplicates, hid]
  | some id =>
    by_cases hseen : id ∈ seen <;> simp [Declaration.duplicates, repeated, repeatedId, hid, hseen]

/-- A report has the ids that are used again and the defects of the declarations, nothing else. -/
theorem validateFrom_perm (position : Nat) (seen : List String) (ds : List Declaration) :
    (validateFrom position seen ds).2.Perm
      ((repeated seen (ds.filterMap Declaration.id?)).map repeatedId ++ labelled position ds) := by
  induction ds generalizing position seen with
  | nil => exact .refl _
  | cons d ds ih =>
    rw [repeated_cons, labelled_cons, validateFrom]
    simp only [List.append_assoc]
    -- the defects of the first declaration move behind the ids that are repeated in the rest
    refine .append_left _ (((ih _ _).append_left _).trans ?_)
    exact List.perm_append_comm_assoc _ _ _

lemma mem_labelled_iff {v : Violation} {ds : List Declaration} :
    v ∈ labelled 0 ds ↔
      ∃ (i : Nat) (d : Declaration), ds[i]? = some d ∧ d.label i = v.label ∧
        v.defect ∈ d.validate.1 := by
  obtain ⟨l, x⟩ := v
  simp only [labelled, List.mem_flatMap, Prod.exists, List.mem_zipIdx_iff_getElem?, List.mem_map,
    Violation.mk.injEq]
  constructor
  · rintro ⟨d, i, hd, x, hx, rfl, rfl⟩
    exact ⟨i, d, hd, rfl, hx⟩
  · rintro ⟨i, d, hd, hl, hx⟩
    exact ⟨d, i, hd, x, hx, hl, rfl⟩

/-- Apart from repeated ids, a report has what is wrong with the declarations by themselves. -/
theorem mem_violations_iff {v : Violation} (h : v.defect ≠ .duplicateId)
    {ds : List Declaration} :
    v ∈ (validate ds).2 ↔
      ∃ (i : Nat) (d : Declaration), ds[i]? = some d ∧ d.label i = v.label ∧
        v.defect ∈ d.validate.1 := by
  have hrepeated : v ∉ (repeated [] (ds.filterMap Declaration.id?)).map repeatedId := by
    rintro hv
    obtain ⟨id, _, rfl⟩ := List.mem_map.mp hv
    exact h rfl
  rw [validate, (validateFrom_perm 0 [] ds).mem_iff, List.mem_append, mem_labelled_iff]
  exact or_iff_right hrepeated

/-! ### Single declarations -/

/-- A defect that shows without decoding the data and without looking at other declarations. -/
def Defect.IsSurface : Defect → Prop
  | .invalidData _ _ | .duplicateId => False
  | _ => True

namespace Declaration

variable {d : Declaration} {k : Kind} {e : Decode.DecodeError}

lemma isSurface_of_mem_kindDefects {x : Defect} (h : x ∈ d.kindDefects) : x.IsSurface := by
  unfold kindDefects at h
  split at h
  · rw [List.mem_singleton.mp h]
    trivial
  · simp only [List.mem_append, List.mem_ite_nil_right, List.mem_singleton] at h
    rcases h with ⟨_, rfl⟩ | ⟨_, rfl⟩ <;> trivial
  · simp only [List.mem_append, List.mem_ite_nil_right, List.mem_singleton] at h
    rcases h with ⟨_, rfl⟩ | ⟨_, rfl⟩ <;> trivial
  · cases h

lemma isSurface_of_mem {x : Defect} (h : x ∈ d.surfaceDefects) : x.IsSurface := by
  simp only [surfaceDefects, List.mem_append, List.mem_ite_nil_right, List.mem_singleton] at h
  rcases h with ((⟨_, rfl⟩ | ⟨_, rfl⟩) | ⟨_, rfl⟩) | ⟨_, hkind⟩
  · trivial
  · trivial
  · trivial
  · exact isSurface_of_mem_kindDefects hkind

/-- What validation can give for a single declaration. -/
inductive Judged (d : Declaration) : List Defect × Option Section → Prop where
  | faulty (hsurface : d.surfaceDefects ≠ []) : Judged d (d.surfaceDefects, none)
  | unknown (hsurface : d.surfaceDefects = []) (hkind : d.kind? = none) : Judged d ([], none)
  | made {id : String} {k : Kind} {b : Body} (hsurface : d.surfaceDefects = [])
      (hid : d.trimmedId = some id) (hkind : d.kind? = some k) (hbody : d.decodeBody k = .ok b) :
      Judged d ([], some ⟨id, d.enabled, b⟩)
  | undecodable {k : Kind} {e : Decode.DecodeError} (hsurface : d.surfaceDefects = [])
      (hkind : d.kind? = some k) (hbody : d.decodeBody k = .error e) (henabled : d.enabled = true) :
      Judged d ([.invalidData k e], none)
  | dropped {k : Kind} {e : Decode.DecodeError} (hsurface : d.surfaceDefects = [])
      (hkind : d.kind? = some k) (hbody : d.decodeBody k = .error e)
      (henabled : d.enabled = false) : Judged d ([], none)

theorem validate_judged (d : Declaration) : d.Judged d.validate := by
  by_cases hsurface : d.surfaceDefects = []
  · obtain ⟨id, hid, hvalidate⟩ := validate_of_surface hsurface
    rw [hvalidate]
    cases hkind : d.kind? with
    | none => exact .unknown hsurface hkind
    | some k =>
      cases hbody : d.decodeBody k with
      | ok b =>
        simp only [hbody]
        exact .made hsurface hid hkind hbody
      | error e =>
        simp only [hbody]
        cases henabled : d.enabled with
        | true => exact .undecodable hsurface hkind hbody henabled
        | false => exact .dropped hsurface hkind hbody henabled
  · have hvalidate : d.validate = (d.surfaceDefects, none) := by
      unfold validate
      split
      · next hnil => exact absurd hnil hsurface
      · rfl
    rw [hvalidate]
    exact .faulty hsurface

/-- Only an accepted declaration makes a section. -/
lemma section_eq_some_iff {s : Section} : d.validate.2 = some s ↔ d.Accepted ∧ d.Makes s := by
  constructor
  · intro h
    have hjudged := d.validate_judged
    have haccepted : d.Accepted := by
      rw [← validate_defects_eq_nil_iff]
      generalize d.validate = r at hjudged h
      cases hjudged with
      | made => rfl
      | _ => cases h
    exact ⟨haccepted, haccepted.section_eq_some_iff.mp h⟩
  · rintro ⟨haccepted, hs⟩
    exact haccepted.section_eq_some_iff.mpr hs

/-! ### Data that does not decode -/

/-- An enabled declaration of this kind whose data is there but does not decode. -/
structure Undecodable (d : Declaration) (k : Kind) (e : Decode.DecodeError) : Prop where
  enabled : d.enabled = true
  names : d.Names k
  hasData : d.HasData
  fails : d.decodeBody k = .error e

/-- An undecodable declaration has no other defect if it has an id and its headings. -/
lemma Undecodable.surface (h : d.Undecodable k e) (hid : Filled d.id) (hheaded : d.Headed k) :
    d.surfaceDefects = [] := by
  obtain ⟨tag, htag, hk⟩ := h.names
  have htype : Filled d.kind := ⟨tag, htag, trim_ne_empty_of_ofTag? hk⟩
  exact surfaceDefects_eq_nil_iff.mpr ⟨hid, htype, fun _ => ⟨h.hasData, k, h.names, hheaded⟩⟩

/-- The data is found wrong exactly if nothing else is wrong with the declaration. -/
theorem invalidData_mem_validate_iff :
    .invalidData k e ∈ d.validate.1 ↔ d.Undecodable k e ∧ Filled d.id ∧ d.Headed k := by
  have hjudged := d.validate_judged
  constructor
  · generalize d.validate = r at hjudged
    intro h
    cases hjudged with
    | faulty => exact (isSurface_of_mem h).elim
    | unknown | made | dropped => cases h
    | undecodable hsurface hkind hbody henabled =>
      -- the data was decoded, so nothing was wrong on the surface
      obtain ⟨rfl, rfl⟩ := Defect.invalidData.inj (List.mem_singleton.mp h)
      obtain ⟨hid, _, hrest⟩ := surfaceDefects_eq_nil_iff.mp hsurface
      obtain ⟨hdata, l, hl, hheaded⟩ := hrest henabled
      have hnames := kind?_eq_some_iff.mp hkind
      rw [hl.unique hnames] at hheaded
      exact ⟨⟨henabled, hnames, hdata, hbody⟩, hid, hheaded⟩
  · rintro ⟨h, hid, hheaded⟩
    obtain ⟨_, _, hvalidate⟩ := validate_of_surface (h.surface hid hheaded)
    simp [hvalidate, kind?_eq_some_iff.mpr h.names, h.fails, h.enabled]

end Declaration

/--
The report has a line on the data under a label exactly if some declaration of that label has data
that does not decode, and has an id and the headings of its kind. A declaration with another defect
brings no such line.
-/
theorem undecodable_data_reported_iff (ds : List Declaration) (l : Label) (k : Kind)
    (e : Decode.DecodeError) :
    ⟨l, .invalidData k e⟩ ∈ (validate ds).2 ↔
      ∃ (i : Nat) (d : Declaration), ds[i]? = some d ∧ d.label i = l ∧
        d.Undecodable k e ∧ Filled d.id ∧ d.Headed k := by
  rw [mem_violations_iff (by simp)]
  simp only [Declaration.invalidData_mem_validate_iff]

/-- A list without its two keys is told about these, but not about the number among its items. -/
theorem undecodable_data_masked :
    let d : Declaration :=
      { id := some "files", kind := some "list", data := some (.array [.number (.integer 1)]) }
    let line : Violation :=
      ⟨.named "files", .invalidData .list (.invalidType "integer `1`" "a string")⟩
    d.Undecodable .list (.invalidType "integer `1`" "a string") ∧ d.label 0 = line.label ∧
      line.message ∉ (validate [d]).2.map Violation.message := by
  intro d line
  refine ⟨⟨rfl, ⟨"list", rfl, rfl⟩, ⟨_, rfl, ?_⟩, rfl⟩, rfl, by decide⟩
  simp

end ResourceBuild.Manifest

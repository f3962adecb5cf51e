import ResourceBuild.Manifest.Validation
import ResourceBuild.Proofs.Manifest.Payload
import ResourceBuild.Proofs.Text.Blank

/-!
# Acceptance of declarations

The rules a list of declarations has to keep, and the sections it then makes, both stated apart
from the validation. Validation finds nothing wrong exactly with the lists that keep the rules, and
returns exactly their sections.
-/

namespace ResourceBuild.Manifest

open Text

namespace Declaration

/-! ### The rules -/

/-- The data is there and not an empty value. -/
def HasData (d : Declaration) : Prop :=
  ∃ v, d.data = some v ∧ v ≠ .null ∧ v ≠ .array [] ∧ v ≠ .object [] ∧ v ≠ .text ""

/-- The type tag names this kind. -/
def Names (d : Declaration) (k : Kind) : Prop :=
  ∃ tag, d.kind = some tag ∧ Kind.ofTag? tag = some k

/-- The headings that a kind asks for: a list has its two keys, a category its header. -/
def Headed (d : Declaration) (k : Kind) : Prop :=
  (k = .list → Filled d.singularKey ∧ Filled d.pluralKey) ∧
    (k = .convarCategory → ∃ c, d.category = some c ∧ Filled c.name ∧ Filled c.description)

/-- What an enabled declaration of this kind needs beyond an id and a type. -/
structure Complete (d : Declaration) (k : Kind) : Prop where
  names : d.Names k
  hasData : d.HasData
  headed : d.Headed k
  decodes : ∃ b, d.Gives k b

/-- A declaration that keeps the rules by itself. -/
structure Accepted (d : Declaration) : Prop where
  id : Filled d.id
  type : Filled d.kind
  complete : d.enabled = true → ∃ k, d.Complete k

def trimmedId (d : Declaration) : Option String :=
  d.id.map trim

/-! ### The sections -/

/-- A disabled declaration of an unknown type, or with data that does not decode. -/
def Dropped (d : Declaration) : Prop :=
  d.enabled = false ∧ ∀ k, d.Names k → ∀ b, ¬ d.Gives k b

/-- The section a declaration makes. -/
structure Makes (d : Declaration) (s : Section) : Prop where
  id : d.trimmedId = some s.id
  enabled : s.enabled = d.enabled
  names : d.Names s.kind
  body : d.Gives s.kind s.body

end Declaration

/-- The sections that declarations make, in their order; those that are dropped make none. -/
inductive Collected : List Declaration → List Section → Prop where
  | nil : Collected [] []
  | kept {d : Declaration} {s : Section} {ds : List Declaration} {ss : List Section}
      (hkeep : ¬ d.Dropped) (hmakes : d.Makes s) (hrest : Collected ds ss) :
      Collected (d :: ds) (s :: ss)
  | dropped {d : Declaration} {ds : List Declaration} {ss : List Section}
      (hdrop : d.Dropped) (hrest : Collected ds ss) : Collected (d :: ds) ss

namespace Declaration

variable {d : Declaration}

/-! ### Single checks -/

lemma isEmptyData_eq_false_iff : isEmptyData d.data = false ↔ d.HasData := by
  unfold HasData
  cases d.data with
  | none => simp [isEmptyData]
  | some v => cases v <;> simp [isEmptyData]

/-- A tag that names a kind holds more than blanks. -/
lemma trim_ne_empty_of_ofTag? {tag : String} {k : Kind} (h : Kind.ofTag? tag = some k) :
    trim tag ≠ "" := by
  intro htrim
  unfold Kind.ofTag? at h
  rw [htrim] at h
  simp at h

/-- The blanks around a tag do not matter for the kind it names. -/
lemma kind?_eq_some_iff {k : Kind} : d.kind? = some k ↔ d.Names k := by
  have htrim (tag : String) : Kind.ofTag? (trim tag) = Kind.ofTag? tag := by
    unfold Kind.ofTag?
    rw [trim_trim]
  simp only [kind?, tag?, Option.bind_eq_some_iff, nonBlank?_eq_some_iff, Option.map_eq_some_iff]
  constructor
  · rintro ⟨_, ⟨⟨tag, htag, rfl⟩, _⟩, hk⟩
    exact ⟨tag, htag, by rwa [htrim] at hk⟩
  · rintro ⟨tag, htag, hk⟩
    exact ⟨trim tag, ⟨⟨tag, htag, rfl⟩, trim_ne_empty_of_ofTag? hk⟩, by rwa [htrim]⟩

lemma kind?_eq_none_iff : d.kind? = none ↔ ∀ k, ¬ d.Names k := by
  simp only [Option.eq_none_iff_forall_ne_some, ne_eq, kind?_eq_some_iff]

/-- A tag names at most one kind. -/
lemma Names.unique {k l : Kind} (hk : d.Names k) (hl : d.Names l) : k = l := by
  rw [← kind?_eq_some_iff] at hk hl
  rw [hk] at hl
  exact Option.some.inj hl

/-- Nothing is wrong with the kind exactly when the tag names one and its headings are there. -/
lemma kindDefects_eq_nil_iff (htype : Filled d.kind) :
    d.kindDefects = [] ↔ ∃ k, d.Names k ∧ d.Headed k := by
  obtain ⟨tag, htag⟩ := filled_iff.mp htype
  have htag : d.tag? = some tag := htag
  unfold kindDefects
  cases hk : d.kind? with
  | none =>
    rw [kind?_eq_none_iff] at hk
    simp [htag, hk]
  | some k =>
    have hnames := kind?_eq_some_iff.mp hk
    -- the tag names one kind only, so the headings are those of this kind
    have hheaded : (∃ l, d.Names l ∧ d.Headed l) ↔ d.Headed k := by
      constructor
      · rintro ⟨l, hl, h⟩
        rwa [hnames.unique hl]
      · intro h
        exact ⟨k, hnames, h⟩
    rw [htag, hheaded]
    cases k with
    | keyValue | packageMetadata => simp [Headed]
    | list => simp [Headed, nonBlank?_eq_none_iff]
    | convarCategory =>
      cases hc : d.category with
      | none => simp [Headed, hc, nonBlank?_eq_none_iff]
      | some c => simp [Headed, hc, nonBlank?_eq_none_iff]

lemma surfaceDefects_eq_nil_iff :
    d.surfaceDefects = [] ↔ Filled d.id ∧ Filled d.kind ∧
      (d.enabled = true → d.HasData ∧ ∃ k, d.Names k ∧ d.Headed k) := by
  have hid : d.id? = none ↔ ¬ Filled d.id := nonBlank?_eq_none_iff
  have htag : d.tag? = none ↔ ¬ Filled d.kind := nonBlank?_eq_none_iff
  have hdata : isEmptyData d.data = true ↔ ¬ d.HasData := by
    rw [← isEmptyData_eq_false_iff, Bool.not_eq_false]
  by_cases htype : Filled d.kind
  · cases henabled : d.enabled <;>
      simp [surfaceDefects, henabled, hid, htag, htype, hdata, kindDefects_eq_nil_iff]
  · simp [surfaceDefects, htag, htype]

/-! ### Single declarations -/

lemma Accepted.surface (h : d.Accepted) : d.surfaceDefects = [] := by
  refine surfaceDefects_eq_nil_iff.mpr ⟨h.id, h.type, fun henabled => ?_⟩
  obtain ⟨k, hk⟩ := h.complete henabled
  exact ⟨hk.hasData, k, hk.names, hk.headed⟩

/-- What validation gives for a declaration with nothing wrong on its surface. -/
lemma validate_of_surface (h : d.surfaceDefects = []) :
    ∃ id, d.trimmedId = some id ∧ d.validate =
      match d.kind? with
      | none => ([], none)
      | some k =>
        match d.decodeBody k with
        | .ok b => ([], some ⟨id, d.enabled, b⟩)
        | .error e => (if d.enabled then [.invalidData k e] else [], none) := by
  obtain ⟨id, hid⟩ := filled_iff.mp (surfaceDefects_eq_nil_iff.mp h).1
  refine ⟨id, (nonBlank?_eq_some_iff.mp hid).1, ?_⟩
  have hid : d.id? = some id := hid
  unfold validate
  rw [h, hid]
  cases d.kind? <;> rfl

/-- A declaration has no defects exactly when it keeps the rules. -/
theorem validate_defects_eq_nil_iff : d.validate.1 = [] ↔ d.Accepted := by
  by_cases hsurface : d.surfaceDefects = []
  · obtain ⟨hid, htype, hrest⟩ := surfaceDefects_eq_nil_iff.mp hsurface
    obtain ⟨id, _, hvalidate⟩ := validate_of_surface hsurface
    rw [hvalidate]
    cases hkind : d.kind? with
    | none =>
      -- a sound surface without a kind is that of a disabled declaration
      refine iff_of_true rfl ⟨hid, htype, fun henabled => ?_⟩
      obtain ⟨_, k, hk, _⟩ := hrest henabled
      exact absurd hk (kind?_eq_none_iff.mp hkind k)
    | some k =>
      have hnames := kind?_eq_some_iff.mp hkind
      cases hbody : d.decodeBody k with
      | ok b =>
        refine iff_of_true (by simp [hbody]) ⟨hid, htype, fun henabled => ?_⟩
        obtain ⟨hdata, l, hl, hheaded⟩ := hrest henabled
        rw [hl.unique hnames] at hheaded
        exact ⟨k, hnames, hdata, hheaded, b, decodeBody_eq_ok_iff.mp hbody⟩
      | error e =>
        -- data that does not decode is a defect of enabled declarations alone
        cases henabled : d.enabled with
        | false =>
          refine iff_of_true (by simp [hbody]) ⟨hid, htype, fun h => ?_⟩
          rw [henabled] at h
          cases h
        | true =>
          refine iff_of_false (by simp [hbody]) fun h => ?_
          obtain ⟨l, hl⟩ := h.complete henabled
          obtain ⟨b, hb⟩ := hl.decodes
          rw [hl.names.unique hnames, ← decodeBody_eq_ok_iff, hbody] at hb
          cases hb
  · refine iff_of_false (fun h => hsurface ?_) fun h => hsurface h.surface
    unfold validate at h
    split at h
    · assumption
    · exact h

/-- An accepted declaration makes exactly the section that validation returns for it. -/
theorem Accepted.section_eq_some_iff (h : d.Accepted) {s : Section} :
    d.validate.2 = some s ↔ d.Makes s := by
  obtain ⟨id, hid, hvalidate⟩ := validate_of_surface h.surface
  rw [hvalidate]
  cases hkind : d.kind? with
  | none =>
    refine iff_of_false (by simp) fun hs => ?_
    exact kind?_eq_none_iff.mp hkind _ hs.names
  | some k =>
    have hnames := kind?_eq_some_iff.mp hkind
    cases hbody : d.decodeBody k with
    | ok b =>
      have hgives := decodeBody_eq_ok_iff.mp hbody
      obtain rfl : b.kind = k := hgives.kind_eq
      simp only [hbody, Option.some.injEq]
      constructor
      · rintro rfl
        exact ⟨hid, rfl, hnames, hgives⟩
      · intro hs
        obtain ⟨i, e, body⟩ := s
        have hi : id = i := Option.some.inj (hid.symm.trans hs.id)
        have hbody' := hs.body
        rw [hs.names.unique hnames, ← decodeBody_eq_ok_iff, hbody] at hbody'
        cases hbody'
        rw [hi, ← hs.enabled]
    | error e =>
      refine iff_of_false (by simp [hbody]) fun hs => ?_
      have hb := hs.body
      rw [hs.names.unique hnames, ← decodeBody_eq_ok_iff, hbody] at hb
      cases hb

lemma Accepted.exists_makes (h : d.Accepted) {k : Kind} {b : Body} (hk : d.Names k)
    (hb : d.Gives k b) : ∃ s, d.Makes s := by
  obtain ⟨id, hid, _⟩ := h.id
  obtain rfl : b.kind = k := hb.kind_eq
  exact ⟨⟨trim id, d.enabled, b⟩, by rw [trimmedId, hid, Option.map_some], rfl, hk, hb⟩

/-- An accepted declaration makes no section exactly when it is one that is dropped. -/
theorem Accepted.section_eq_none_iff (h : d.Accepted) : d.validate.2 = none ↔ d.Dropped := by
  simp only [Option.eq_none_iff_forall_ne_some, ne_eq, h.section_eq_some_iff]
  constructor
  · intro hnone
    -- any body that the data gave would be that of a section
    have hgives : ∀ k, d.Names k → ∀ b, ¬ d.Gives k b := by
      intro k hk b hb
      obtain ⟨s, hs⟩ := h.exists_makes hk hb
      exact hnone s hs
    refine ⟨?_, hgives⟩
    by_contra henabled
    obtain ⟨k, hk⟩ := h.complete (by simpa using henabled)
    obtain ⟨b, hb⟩ := hk.decodes
    exact hgives k hk.names b hb
  · rintro ⟨_, hgives⟩ s hs
    exact hgives _ hs.names _ hs.body

end Declaration

/-! ### Lists of declarations -/

open Declaration

/-- The sections of a validation are those of the single declarations. -/
lemma validateFrom_sections (position : Nat) (seen : List String) (ds : List Declaration) :
    (validateFrom position seen ds).1 = ds.filterMap (fun d => d.validate.2) := by
  induction ds generalizing position seen with
  | nil => rfl
  | cons d ds ih =>
    simp only [validateFrom, ih, List.filterMap_cons]
    cases d.validate.2 <;> rfl

lemma duplicates_eq_nil_iff {d : Declaration} {seen : List String} :
    d.duplicates seen = [] ↔ ∀ id ∈ d.id?, id ∉ seen := by
  unfold duplicates
  cases d.id? <;> simp

/--
Nothing is wrong with a list exactly when no declaration has a defect, none has an id that was seen
before the list, and no two have the same id.
-/
lemma validateFrom_violations_eq_nil_iff (position : Nat) (seen : List String)
    (ds : List Declaration) :
    (validateFrom position seen ds).2 = [] ↔
      (∀ d ∈ ds, d.validate.1 = []) ∧ (∀ d ∈ ds, ∀ id ∈ d.id?, id ∉ seen) ∧
        ds.Pairwise (fun a b => ∀ id ∈ b.id?, id ∉ a.id?) := by
  induction ds generalizing position seen with
  | nil => simp [validateFrom]
  | cons d ds ih =>
    simp only [validateFrom, List.append_eq_nil_iff, List.map_eq_nil_iff, duplicates_eq_nil_iff, ih,
      List.forall_mem_cons, List.pairwise_cons, List.mem_append, Option.mem_toList, not_or]
    constructor
    · rintro ⟨⟨hseen, hdefects⟩, hrest, hfresh, hpair⟩
      exact ⟨⟨hdefects, hrest⟩, ⟨hseen, fun b hb id hid => (hfresh b hb id hid).2⟩,
        fun b hb id hid => (hfresh b hb id hid).1, hpair⟩
    · rintro ⟨⟨hdefects, hrest⟩, ⟨hseen, hfresh⟩, hdistinct, hpair⟩
      exact ⟨⟨hseen, hdefects⟩, hrest,
        fun b hb id hid => ⟨hdistinct b hb id hid, hfresh b hb id hid⟩, hpair⟩

/-- With accepted declarations, the sections collected are those that validation returns. -/
lemma collected_iff {ds : List Declaration} (h : ∀ d ∈ ds, d.Accepted) {ss : List Section} :
    Collected ds ss ↔ ds.filterMap (fun d => d.validate.2) = ss := by
  induction ds generalizing ss with
  | nil =>
    constructor
    · rintro ⟨⟩
      rfl
    · rintro rfl
      exact .nil
  | cons d ds ih =>
    rw [List.forall_mem_cons] at h
    have ih := @ih h.2
    constructor
    · rintro (_ | ⟨_, hmakes, hrest⟩ | ⟨hdrop, hrest⟩)
      · simp only [List.filterMap_cons, h.1.section_eq_some_iff.mpr hmakes, ih.mp hrest]
      · simp only [List.filterMap_cons, h.1.section_eq_none_iff.mpr hdrop, ih.mp hrest]
    · rintro rfl
      cases hd : d.validate.2 with
      | none =>
        simp only [List.filterMap_cons, hd]
        exact .dropped (h.1.section_eq_none_iff.mp hd) (ih.mpr rfl)
      | some s =>
        simp only [List.filterMap_cons, hd]
        refine .kept (fun hdrop => ?_) (h.1.section_eq_some_iff.mp hd) (ih.mpr rfl)
        rw [h.1.section_eq_none_iff.mpr hdrop] at hd
        cases hd

/-- Accepted declarations have an id. -/
lemma Declaration.Accepted.id?_eq {d : Declaration} (h : d.Accepted) :
    ∃ id, d.id? = some id ∧ d.trimmedId = some id := by
  obtain ⟨id, hid⟩ := filled_iff.mp h.id
  exact ⟨id, hid, (nonBlank?_eq_some_iff.mp hid).1⟩

/-- No violation is found exactly when each declaration keeps the rules and no two ids agree. -/
lemma validate_violations_eq_nil_iff (ds : List Declaration) :
    (validate ds).2 = [] ↔
      (∀ d ∈ ds, d.Accepted) ∧ ds.Pairwise (fun a b => a.trimmedId ≠ b.trimmedId) := by
  simp only [validate, validateFrom_violations_eq_nil_iff, validate_defects_eq_nil_iff]
  refine and_congr_right fun haccepted => ?_
  have hseen : ∀ d ∈ ds, ∀ id ∈ d.id?, id ∉ ([] : List String) := by simp
  rw [and_iff_right hseen]
  refine List.Pairwise.iff_of_mem fun {a b} ha hb => ?_
  obtain ⟨i, hi, hti⟩ := (haccepted a ha).id?_eq
  obtain ⟨j, hj, htj⟩ := (haccepted b hb).id?_eq
  simp [hi, hj, hti, htj]

/--
Validation finds nothing wrong exactly with lists of declarations that each keep the rules and have
different ids, and it then returns the sections of those declarations and no others.
-/
theorem validate_accepts_exactly (ds : List Declaration) :
    ((validate ds).2 = [] ↔
      (∀ d ∈ ds, d.Accepted) ∧ ds.Pairwise (fun a b => a.trimmedId ≠ b.trimmedId)) ∧
    ((validate ds).2 = [] → ∀ ss, (validate ds).1 = ss ↔ Collected ds ss) := by
  refine ⟨validate_violations_eq_nil_iff ds, fun h ss => ?_⟩
  have haccepted := ((validate_violations_eq_nil_iff ds).mp h).1
  rw [collected_iff haccepted, validate, validateFrom_sections]

/-- A list with blanks around its id is kept, a disabled one of an unknown type is dropped. -/
theorem validate_accepts_exactly_dropped :
    let ds : List Declaration :=
      [⟨some " files ", some "list", true, some (.array [.text "a.lua"]), some "file",
          some "files", none⟩,
        ⟨some "extra", some "template", false, none, none, none, none⟩]
    (validate ds).2 = [] ∧ Collected ds [⟨"files", true, .list "file" "files" ["a.lua"]⟩] := by
  intro ds
  have hnone : (validate ds).2 = [] := by rfl
  exact ⟨hnone, ((validate_accepts_exactly ds).2 hnone _).mp rfl⟩

end ResourceBuild.Manifest

import ResourceBuild.Manifest.Render
import ResourceBuild.Proofs.Manifest.Report
import ResourceBuild.Proofs.Manifest.Row

/-!
# Rows written in another way

Data decodes exactly if it has the form of its kind. How its rows are written, by which spellings,
in which order of members and as objects or arrays, shows neither in the sections nor in the
manifest.
-/

namespace ResourceBuild.Manifest

open Decode Outcome

/-! ### Rows -/

/-- Two items that are one row of a kind, written in two ways. -/
def SameRow (k : Kind) : Json → Json → Prop :=
  Relation.EqvGen (Rewritten k.fields)

/-- The rows of a kind are read as a record, but for bare items. -/
lemma Kind.exists_strict {k : Kind} (h : k ≠ .list) :
    ∃ r : Record, r.Strict ∧ r.spelled = k.fields := by
  cases k with
  | keyValue => exact ⟨_, Entry.record_strict, rfl⟩
  | packageMetadata => exact ⟨_, Projection.record_strict, rfl⟩
  | list => exact absurd rfl h
  | convarCategory => exact ⟨_, Convar.record_strict, rfl⟩

section Rows

variable {k : Kind} {values : List Json} {rows : List (List Json)} {x y : Json} {xs ys : List Json}

/-- Objects and arrays, the values that are rewritten, are no rows of a list. -/
lemma not_row_list_of_rewritten {fields : List (List String)} (h : Rewritten fields x y) :
    ¬ Row .list values x ∧ ¬ Row .list values y := by
  cases h <;> simp [row_list_iff]

/-- One row has the same values in each way it is written. -/
lemma SameRow.row_iff (h : SameRow k x y) : Row k values x ↔ Row k values y := by
  by_cases hkind : k = .list
  · subst hkind
    refine iff_of_eqvGen (fun x y hxy => ?_) h
    obtain ⟨hx, hy⟩ : ¬ Row .list values x ∧ ¬ Row .list values y :=
      not_row_list_of_rewritten hxy
    exact iff_of_false hx hy
  · obtain ⟨r, hstrict, hfields⟩ := Kind.exists_strict hkind
    rw [SameRow, ← hfields] at h
    rw [row_record_iff hkind, row_record_iff hkind, ← hfields, hstrict.spelled_congr h]

lemma forall₂_row_iff (h : List.Forall₂ (SameRow k) xs ys) :
    List.Forall₂ (fun x values => Row k values x) xs rows ↔
      List.Forall₂ (fun y values => Row k values y) ys rows := by
  induction h generalizing rows with
  | nil => rfl
  | cons hxy _ ih =>
    cases rows with
    | nil => simp
    | cons values rows => rw [List.forall₂_cons, List.forall₂_cons, hxy.row_iff, ih]

end Rows

/-! ### Declarations -/

namespace Declaration

/-- The same declaration, but for the way in which the rows of its data are written. -/
inductive Rewritten : Declaration → Declaration → Prop where
  | refl (d : Declaration) : Rewritten d d
  | rows {d : Declaration} {k : Kind} {xs ys : List Json} (hkind : d.Names k)
      (hdata : d.data = some (.array xs)) (hrows : List.Forall₂ (SameRow k) xs ys) :
      Rewritten d { d with data := some (.array ys) }

variable {d d' : Declaration} {k : Kind} {b : Body} {s : Section} {xs zs : List Json}

lemma hasRows_of_array (h : d.data = some (.array xs)) : d.HasRows zs ↔ xs = zs := by
  simp [HasRows, h]

lemma hasData_of_array (h : d.data = some (.array xs)) : d.HasData ↔ xs ≠ [] := by
  simp [HasData, h]

/-- The data gives a body exactly if its items are the rows of the body. -/
lemma gives_of_array (h : d.data = some (.array xs)) : d.Gives k b ↔ b.kind = k ∧ d.Heads b ∧
    List.Forall₂ (fun x values => Row k values x) xs b.rows := by
  simp only [gives_iff_rows, hasRows_of_array h, exists_eq_left']

namespace Rewritten

lemma symm (h : d.Rewritten d') : d'.Rewritten d := by
  cases h with
  | refl => exact .refl d
  | @rows k xs ys hkind hdata hrows =>
    have hback : List.Forall₂ (SameRow k) ys xs := hrows.flip.imp fun _ _ h => h.symm
    have h := Rewritten.rows (d := { d with data := some (.array ys) }) hkind rfl hback
    rwa [← hdata] at h

lemma names_iff (h : d.Rewritten d') : d.Names k ↔ d'.Names k := by
  cases h <;> rfl

lemma trimmedId_eq (h : d.Rewritten d') : d.trimmedId = d'.trimmedId := by
  cases h <;> rfl

lemma hasData_iff (h : d.Rewritten d') : d.HasData ↔ d'.HasData := by
  cases h with
  | refl => rfl
  | rows _ hdata hrows =>
    rw [hasData_of_array hdata, hasData_of_array rfl, ← List.length_pos_iff, hrows.length_eq,
      List.length_pos_iff]

/-- The data gives the same body. -/
lemma gives_iff (h : d.Rewritten d') (hk : d.Names k) : d.Gives k b ↔ d'.Gives k b := by
  cases h with
  | refl => rfl
  | rows hkind hdata hrows =>
    obtain rfl := hk.unique hkind
    rw [gives_of_array hdata, gives_of_array rfl, forall₂_row_iff hrows]
    rfl

lemma complete (h : d.Rewritten d') (hd : d.Complete k) : d'.Complete k := by
  obtain ⟨hnames, hdata, hheaded, b, hb⟩ := hd
  have hheaded' : d'.Headed k := by
    cases h <;> exact hheaded
  exact ⟨h.names_iff.mp hnames, h.hasData_iff.mp hdata, hheaded', b, (h.gives_iff hnames).mp hb⟩

lemma accepted (h : d.Rewritten d') (hd : d.Accepted) : d'.Accepted := by
  obtain ⟨hid, htype, hcomplete⟩ := hd
  have hcomplete' : d.enabled = true → ∃ k, d'.Complete k := by
    intro henabled
    obtain ⟨k, hk⟩ := hcomplete henabled
    exact ⟨k, h.complete hk⟩
  cases h <;> exact ⟨hid, htype, hcomplete'⟩

lemma makes (h : d.Rewritten d') (hs : d.Makes s) : d'.Makes s := by
  obtain ⟨hid, henabled, hnames, hbody⟩ := hs
  have henabled' : s.enabled = d'.enabled := by
    cases h <;> exact henabled
  exact ⟨h.trimmedId_eq ▸ hid, henabled', h.names_iff.mp hnames, (h.gives_iff hnames).mp hbody⟩

end Rewritten

lemma Rewritten.section_eq (h : d.Rewritten d') : d.validate.2 = d'.validate.2 := by
  ext s
  rw [section_eq_some_iff, section_eq_some_iff]
  constructor
  · rintro ⟨haccepted, hs⟩
    exact ⟨h.accepted haccepted, h.makes hs⟩
  · rintro ⟨haccepted, hs⟩
    exact ⟨h.symm.accepted haccepted, h.symm.makes hs⟩

end Declaration

/-! ### Lists of declarations -/

section Lists

variable {ds ds' : List Declaration}

lemma sections_eq_of_rewritten (h : List.Forall₂ Declaration.Rewritten ds ds') :
    (validate ds).1 = (validate ds').1 := by
  rw [validate, validate, validateFrom_sections, validateFrom_sections]
  induction h with
  | nil => rfl
  | cons hd _ ih => rw [List.filterMap_cons, List.filterMap_cons, hd.section_eq, ih]

lemma violations_eq_nil_of_rewritten (h : List.Forall₂ Declaration.Rewritten ds ds')
    (hds : (validate ds).2 = []) : (validate ds').2 = [] := by
  rw [validate_violations_eq_nil_iff] at hds ⊢
  obtain ⟨haccepted, hdistinct⟩ := hds
  refine ⟨fun d' hd' => ?_, ?_⟩
  · obtain ⟨d, hd, hrewritten⟩ := exists_of_forall₂ h.flip hd'
    exact hrewritten.accepted (haccepted d hd)
  · have hids : ds.map Declaration.trimmedId = ds'.map Declaration.trimmedId :=
      map_eq_map_iff_forall₂.mpr (h.imp fun _ _ hd => hd.trimmedId_eq)
    rw [← List.pairwise_map] at hdistinct ⊢
    rwa [← hids]

end Lists

/--
The data of a declaration decodes for a kind exactly if it is missing or null, or an array whose
items are all rows of that kind. The body has a row for each item, with the values that stand in it.
Where rows are written in another way, the same sections come out and the same manifest.
-/
theorem payload_grammar :
    (∀ (d : Declaration) (k : Kind), (∃ b, d.decodeBody k = .ok b) ↔
      d.data = none ∨ d.data = some .null ∨
        ∃ xs, d.data = some (.array xs) ∧ ∀ x ∈ xs, ∃ values, Row k values x) ∧
    (∀ (d : Declaration) (k : Kind) (b : Body), d.decodeBody k = .ok b ↔
      b.kind = k ∧ d.Heads b ∧
        ∃ xs, d.HasRows xs ∧ List.Forall₂ (fun x values => Row k values x) xs b.rows) ∧
    ∀ ds ds' : List Declaration, List.Forall₂ Declaration.Rewritten ds ds' →
      (validate ds).1 = (validate ds').1 ∧ ((validate ds).2 = [] ↔ (validate ds').2 = []) ∧
        ∀ metadata, render metadata (validate ds).1 = render metadata (validate ds').1 := by
  refine ⟨fun d k => ?_, fun d k b => ?_, fun ds ds' h => ?_⟩
  · simp only [Declaration.decodeBody_eq_ok_iff]
    exact Declaration.exists_gives_iff
  · rw [Declaration.decodeBody_eq_ok_iff, Declaration.gives_iff_rows]
  · have hsections := sections_eq_of_rewritten h
    have hback : List.Forall₂ Declaration.Rewritten ds' ds := h.flip.imp fun _ _ hd => hd.symm
    refine ⟨hsections, ?_, fun metadata => by rw [hsections]⟩
    exact ⟨violations_eq_nil_of_rewritten h, violations_eq_nil_of_rewritten hback⟩

/-- An object with two other spellings in the other order, and the array of its values. -/
theorem payload_grammar_listed :
    let row : Json :=
      .object [("sourceKeyPath", .text "bundle.name"), ("manifest_key", .text "name")]
    let d : Declaration :=
      { id := some "details", kind := some "package_metadata", data := some (.array [row]) }
    let d' : Declaration :=
      { d with data := some (.array [.array [.text "name", .text "bundle.name"]]) }
    List.Forall₂ Declaration.Rewritten [d] [d'] ∧
      (∃ b, d.decodeBody .packageMetadata = .ok b ∧
        b.rows = [[.text "name", .text "bundle.name"]]) ∧
      (validate [d]).1 = (validate [d']).1 := by
  intro row d d'
  have hswap : Decode.Rewritten Kind.packageMetadata.fields row
      (.object [("manifest_key", .text "name"), ("sourceKeyPath", .text "bundle.name")]) :=
    .reordered (.swap _ _ [])
  have hlist : Decode.Rewritten Kind.packageMetadata.fields
      (.object [("manifest_key", .text "name"), ("sourceKeyPath", .text "bundle.name")])
      (.array [.text "name", .text "bundle.name"]) :=
    .listed (.cons (by decide) (.cons (by decide) .nil))
  have hrow : SameRow .packageMetadata row (.array [.text "name", .text "bundle.name"]) :=
    .trans _ _ _ (.rel _ _ hswap) (.rel _ _ hlist)
  have hd : d.Rewritten d' := .rows ⟨"package_metadata", rfl, rfl⟩ rfl (.cons hrow .nil)
  have h : List.Forall₂ Declaration.Rewritten [d] [d'] := .cons hd .nil
  exact ⟨h, ⟨_, rfl, rfl⟩, (payload_grammar.2.2 _ _ h).1⟩

end ResourceBuild.Manifest

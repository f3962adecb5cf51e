import ResourceBuild.Proofs.Manifest.Row

/-!
# Validated sections

What holds of the sections of a list of declarations in which validation finds nothing wrong. Each
enabled declaration is there as a section that is rendered, with a row for each item of its data, so
as many sections are rendered as declarations are enabled.
-/

namespace ResourceBuild.Manifest

open Text

/-! ### Single sections -/

/-- The headings of a body hold more than blanks: the keys of a list, the header of a category. -/
inductive Body.Headed : Body → Prop where
  | keyValue (entries : List Entry) : Headed (.keyValue entries)
  | packageMetadata (projections : List Projection) : Headed (.packageMetadata projections)
  | list {singularKey pluralKey : String} (items : List String)
      (hsingular : isBlankText singularKey = false) (hplural : isBlankText pluralKey = false) :
      Headed (.list singularKey pluralKey items)
  | convarCategory {category : Category} (convars : List Convar)
      (hname : isBlankText category.name = false)
      (hdescription : isBlankText category.description = false) :
      Headed (.convarCategory category convars)

/-- A section with a bare id that, if it is enabled, has headings and rows. -/
structure Sound (s : Section) : Prop where
  id : Bare s.id
  headed : s.enabled = true → s.body.Headed
  renderable : s.enabled = true → s.isRenderable = true

lemma Body.length_rows (b : Body) : b.rows.length = b.size := by
  cases b <;> simp [rows, size]

namespace Declaration

variable {d : Declaration} {k : Kind} {b : Body} {s : Section}

/-- Data that is there gives a row for each of its items. -/
lemma Gives.exists_items (h : d.Gives k b) (hdata : d.HasData) :
    ∃ xs, d.data = some (.array xs) ∧ b.size = xs.length ∧ xs ≠ [] := by
  obtain ⟨v, hv, hnull, hempty, -, -⟩ := hdata
  obtain ⟨-, -, xs, hrows, hitems⟩ := gives_iff_rows.mp h
  have harray : d.data = some (.array xs) := by
    refine hrows.resolve_right ?_
    rintro ⟨hnone | hnone, -⟩
    · cases hv.symm.trans hnone
    · cases hv.symm.trans hnone
      exact hnull rfl
  refine ⟨xs, harray, ?_, ?_⟩
  · rw [← b.length_rows, hitems.length_eq]
  · rintro rfl
    cases hv.symm.trans harray
    exact hempty rfl

/-- The headings of a body are those that are declared. -/
lemma Gives.headed (h : d.Gives k b) (hheaded : d.Headed k) : b.Headed := by
  cases h with
  | keyValue => exact .keyValue _
  | packageMetadata => exact .packageMetadata _
  | list =>
    obtain ⟨hsingular, hplural⟩ := hheaded.1 rfl
    exact .list _ hsingular.isBlankText_getD hplural.isBlankText_getD
  | convarCategory =>
    obtain ⟨c, hc, hname, hdescription⟩ := hheaded.2 rfl
    apply Body.Headed.convarCategory
    · simpa [header, hc] using hname.isBlankText_getD
    · simpa [header, hc] using hdescription.isBlankText_getD

/-- The section of an enabled declaration has a row for each item of the data, and some rows. -/
lemma Makes.exists_items (h : d.Makes s) (hd : d.Accepted) (henabled : d.enabled = true) :
    ∃ xs, d.data = some (.array xs) ∧ s.body.size = xs.length ∧ xs ≠ [] := by
  obtain ⟨k, hk⟩ := hd.complete henabled
  exact h.body.exists_items hk.hasData

lemma Makes.isRenderable_eq (h : d.Makes s) (hd : d.Accepted) : s.isRenderable = d.enabled := by
  rw [Section.isRenderable, h.enabled]
  cases henabled : d.enabled with
  | false => rfl
  | true =>
    obtain ⟨xs, -, hsize, hne⟩ := h.exists_items hd henabled
    simpa [Body.isEmpty, hsize] using hne

/-- An accepted declaration makes a sound section. -/
lemma Makes.sound (h : d.Makes s) (hd : d.Accepted) : Sound s where
  id := by
    obtain ⟨t, ht, hne⟩ := hd.id
    have hid := h.id
    rw [trimmedId, ht, Option.map_some, Option.some.injEq] at hid
    rw [← hid]
    exact bare_trim hne
  headed henabled := by
    obtain ⟨k, hk⟩ := hd.complete (h.enabled.symm.trans henabled)
    have hheaded := hk.headed
    rw [hk.names.unique h.names] at hheaded
    exact h.body.headed hheaded
  renderable henabled := by
    rw [h.isRenderable_eq hd, ← h.enabled, henabled]

end Declaration

/-! ### Lists of sections -/

section Lists

variable {ds : List Declaration} {ss : List Section}

lemma Collected.sound (h : Collected ds ss) (hds : ∀ d ∈ ds, d.Accepted) : ∀ s ∈ ss, Sound s := by
  induction h with
  | nil => simp
  | kept _ hmakes _ ih =>
    rw [List.forall_mem_cons] at hds ⊢
    exact ⟨hmakes.sound hds.1, ih hds.2⟩
  | dropped _ _ ih => exact ih (List.forall_mem_cons.mp hds).2

/-- The ids of the sections are ids of the declarations. -/
lemma Collected.ids_sublist (h : Collected ds ss) :
    ((ss.map Section.id).map some).Sublist (ds.map Declaration.trimmedId) := by
  induction h with
  | nil => exact .slnil
  | kept _ hmakes _ ih =>
    rw [List.map_cons, List.map_cons, List.map_cons, hmakes.id]
    exact ih.cons_cons _
  | dropped _ _ ih => exact ih.cons _

lemma Collected.nodup_ids (h : Collected ds ss)
    (hds : ds.Pairwise fun a b => a.trimmedId ≠ b.trimmedId) : (ss.map Section.id).Nodup := by
  have hids : (ds.map Declaration.trimmedId).Nodup := List.pairwise_map.mpr hds
  exact (hids.sublist h.ids_sublist).of_map

/-- The enabled declarations are there one by one, as the sections that are rendered. -/
lemma Collected.enabled (h : Collected ds ss) (hds : ∀ d ∈ ds, d.Accepted) :
    List.Forall₂ (fun d s => d.Makes s ∧ ∃ xs, d.data = some (.array xs) ∧
        s.body.size = xs.length ∧ xs ≠ [])
      (ds.filter (·.enabled)) (ss.filter Section.isRenderable) := by
  induction h with
  | nil => exact .nil
  | @kept d s ds ss hkeep hmakes hrest ih =>
    rw [List.forall_mem_cons] at hds
    have hrenderable := hmakes.isRenderable_eq hds.1
    cases henabled : d.enabled with
    | true =>
      have hitems := hmakes.exists_items hds.1 henabled
      rw [List.filter_cons_of_pos henabled, List.filter_cons_of_pos (hrenderable.trans henabled)]
      exact .cons ⟨hmakes, hitems⟩ (ih hds.2)
    | false =>
      rw [List.filter_cons_of_neg (by simp [henabled]),
        List.filter_cons_of_neg (by simp [hrenderable, henabled])]
      exact ih hds.2
  | @dropped d ds ss hdrop hrest ih =>
    rw [List.filter_cons_of_neg (by simp [hdrop.1])]
    exact ih (List.forall_mem_cons.mp hds).2

/-- The declarations of a valid list are accepted, and their sections are collected. -/
lemma collected_of_valid (h : (validate ds).2 = []) :
    (∀ d ∈ ds, d.Accepted) ∧ (ds.Pairwise fun a b => a.trimmedId ≠ b.trimmedId) ∧
      Collected ds (validate ds).1 := by
  obtain ⟨haccepted, hdistinct⟩ := (validate_violations_eq_nil_iff ds).mp h
  refine ⟨haccepted, hdistinct, (collected_iff haccepted).mpr ?_⟩
  rw [validate, validateFrom_sections]

/-- As many sections are rendered as declarations are enabled. -/
lemma countP_isRenderable (h : (validate ds).2 = []) :
    (validate ds).1.countP Section.isRenderable = ds.countP (·.enabled) := by
  obtain ⟨haccepted, -, hcollected⟩ := collected_of_valid h
  rw [List.countP_eq_length_filter, List.countP_eq_length_filter,
    (hcollected.enabled haccepted).length_eq]

end Lists

end ResourceBuild.Manifest

import ResourceBuild.Proofs.Manifest.Order
import ResourceBuild.Proofs.Manifest.Separation

/-!
# Disabled declarations

Leaving disabled declarations out of an accepted list, or putting some into it, changes nothing of
the manifest. All that is asked of a disabled declaration is a type and an id of its own.
-/

namespace ResourceBuild.Manifest

open Text

variable {metadata : Metadata}

namespace Declaration

variable {d : Declaration}

lemma enabled_of_section {s : Section} (h : d.validate.2 = some s) : s.enabled = d.enabled :=
  (section_eq_some_iff.mp h).2.enabled

/-- A disabled declaration with an id and a type keeps the rules, whatever else it holds. -/
lemma accepted_of_disabled (h : d.enabled = false) (hid : Filled d.id) (htype : Filled d.kind) :
    d.Accepted :=
  ⟨hid, htype, fun henabled => by rw [h] at henabled; cases henabled⟩

end Declaration

/-! ### Manifests -/

lemma sectionText_of_disabled {s : Section} (h : s.enabled = false) :
    sectionText metadata s = "" :=
  sectionText_of_eq_nil (lines_eq_nil_iff.mpr (.inl h))

lemma render_validate_append (A B : List Declaration) :
    render metadata (validate (A ++ B)).1 =
      render metadata (validate A).1 ++ render metadata (validate B).1 := by
  rw [sections_eq_flatMap, List.flatMap_append, render_append, ← sections_eq_flatMap,
    ← sections_eq_flatMap]

/-- A disabled declaration writes nothing, whether it makes a section or is dropped. -/
lemma render_validate_disabled {d : Declaration} (h : d.enabled = false) :
    render metadata (validate [d]).1 = "" := by
  rw [validate, validateFrom_sections]
  cases hd : d.validate.2 with
  | none => simp [hd, render]
  | some s =>
    have hs : s.enabled = false := (Declaration.enabled_of_section hd).trans h
    simp [hd, render, sectionText_of_disabled hs]

lemma render_validate_cons (d : Declaration) (ds : List Declaration) :
    render metadata (validate (d :: ds)).1 =
      render metadata (validate [d]).1 ++ render metadata (validate ds).1 :=
  render_validate_append [d] ds

/-- The enabled declarations of a list write what the whole list writes. -/
theorem render_validate_enabled (ds : List Declaration) :
    render metadata (validate (ds.filter (·.enabled))).1 = render metadata (validate ds).1 := by
  induction ds with
  | nil => rfl
  | cons d ds ih =>
    cases h : d.enabled with
    | true =>
      rw [List.filter_cons_of_pos h, render_validate_cons, ih, ← render_validate_cons]
    | false =>
      rw [List.filter_cons_of_neg (by simp [h]), ih, render_validate_cons d,
        render_validate_disabled h, String.empty_append]

/-- A disabled declaration may stand anywhere without a trace. -/
theorem render_validate_insert {d : Declaration} (h : d.enabled = false)
    (A B : List Declaration) :
    render metadata (validate (A ++ d :: B)).1 = render metadata (validate (A ++ B)).1 := by
  rw [render_validate_append, render_validate_cons, render_validate_disabled h,
    String.empty_append, ← render_validate_append]

/-! ### Acceptance -/

lemma violations_filter_eq_nil {ds : List Declaration} (p : Declaration → Bool)
    (h : (validate ds).2 = []) : (validate (ds.filter p)).2 = [] := by
  rw [validate_violations_eq_nil_iff] at h ⊢
  exact ⟨fun d hd => h.1 d (List.mem_of_mem_filter hd), h.2.filter p⟩

/-- A list stays accepted with an accepted declaration whose id no other one has. -/
lemma violations_insert_eq_nil {d : Declaration} {A B : List Declaration}
    (h : (validate (A ++ B)).2 = []) (hd : d.Accepted)
    (hid : ∀ e ∈ A ++ B, e.trimmedId ≠ d.trimmedId) : (validate (A ++ d :: B)).2 = [] := by
  rw [violations_eq_nil_congr List.perm_middle, validate_violations_eq_nil_iff]
  rw [validate_violations_eq_nil_iff] at h
  refine ⟨?_, List.pairwise_cons.mpr ⟨fun e he => (hid e he).symm, h.2⟩⟩
  rw [List.forall_mem_cons]
  exact ⟨hd, h.1⟩

/--
Disabled declarations do not show in the manifest. The enabled declarations of an accepted list are
accepted too and write the same text. A disabled declaration with a type and an id of its own may be
put anywhere into an accepted list: the list stays accepted and writes the same text.
-/
theorem disabled_leave_no_trace (metadata : Metadata) {ds : List Declaration}
    (h : (validate ds).2 = []) :
    ((validate (ds.filter (·.enabled))).2 = [] ∧
      render metadata (validate (ds.filter (·.enabled))).1 = render metadata (validate ds).1) ∧
    ∀ (A B : List Declaration) (d : Declaration), ds = A ++ B → d.enabled = false →
      Filled d.id → Filled d.kind → (∀ e ∈ ds, e.trimmedId ≠ d.trimmedId) →
      (validate (A ++ d :: B)).2 = [] ∧
        render metadata (validate (A ++ d :: B)).1 = render metadata (validate ds).1 := by
  refine ⟨⟨violations_filter_eq_nil _ h, render_validate_enabled ds⟩, ?_⟩
  rintro A B d rfl hdisabled hid htype hfresh
  exact ⟨violations_insert_eq_nil h (d.accepted_of_disabled hdisabled hid htype) hfresh,
    render_validate_insert hdisabled A B⟩

/-- A disabled list without keys whose data is a number may stand in front. -/
theorem disabled_leave_no_trace_undecodable :
    let files : Declaration :=
      { id := some "files", kind := some "list", data := some (.array [.text "a.lua"]),
        singularKey := some "file", pluralKey := some "files" }
    let extra : Declaration := { id := some "extra", kind := some "template", enabled := false }
    let broken : Declaration :=
      { id := some " broken ", kind := some "list", enabled := false,
        data := some (.number (.integer 1)) }
    (validate [broken, files, extra]).2 = [] ∧
      render ⟨[]⟩ (validate [broken, files, extra]).1 = "file 'a.lua'\n\n" ∧
      render ⟨[]⟩ (validate [files]).1 = "file 'a.lua'\n\n" := by
  intro files extra broken
  have hnone : (validate [files, extra]).2 = [] := rfl
  have htext : render ⟨[]⟩ (validate [files, extra]).1 = "file 'a.lua'\n\n" := rfl
  obtain ⟨⟨_, henabled⟩, hinsert⟩ := disabled_leave_no_trace ⟨[]⟩ hnone
  obtain ⟨hvalid, hbroken⟩ := hinsert [] [files, extra] broken rfl rfl ⟨_, rfl, by decide⟩
    ⟨_, rfl, by decide⟩ (by decide)
  exact ⟨hvalid, hbroken.trans htext, henabled.trans htext⟩

end ResourceBuild.Manifest

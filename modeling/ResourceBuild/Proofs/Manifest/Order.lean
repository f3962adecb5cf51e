import Mathlib.Data.List.Count
import ResourceBuild.Proofs.Manifest.Report

/-!
# The order of declarations

Putting declarations into another order puts their sections into that order and changes nothing
else: the same lists are accepted, and if all declarations have ids the same violations are found.
Which declaration is blamed for an id that is used again depends on the order, how many are does
not.
-/

namespace ResourceBuild.Manifest

open Text

/-! ### Repeated ids -/

/-- All places of an id count but the first, and that one too if the id was seen before. -/
lemma count_repeated (seen ids : List String) (id : String) :
    (repeated seen ids).count id =
      if id ∈ seen then ids.count id else ids.count id - 1 := by
  induction ids generalizing seen with
  | nil => simp [repeated]
  | cons i ids ih =>
    rw [repeated, List.count_append, ih]
    -- if `id` was not seen, its first place is not counted, and behind that place it is seen
    by_cases heq : i = id
    · subst heq
      by_cases hseen : i ∈ seen <;> simp [hseen, Nat.add_comm]
    · have hne : id ≠ i := Ne.symm heq
      by_cases hi : i ∈ seen <;> simp [hi, heq, hne]

lemma repeated_perm {ids ids' : List String} (h : ids.Perm ids') :
    (repeated [] ids).Perm (repeated [] ids') := by
  rw [List.perm_iff_count]
  intro id
  simp only [count_repeated, List.not_mem_nil, if_false, h.count_eq]

lemma repeatedId_injective : Function.Injective repeatedId := by
  intro i j h
  simpa [repeatedId] using h

/-! ### Labels -/

namespace Declaration

variable {d : Declaration}

/-- The position of a declaration with an id does not show in its label. -/
lemma label_of_filled (h : Filled d.id) (i j : Nat) : d.label i = d.label j := by
  obtain ⟨id, hid⟩ := filled_iff.mp h
  have hid : d.id? = some id := hid
  rw [label, label, hid]

lemma id?_of_filled (h : Filled d.id) : d.id? = d.trimmedId := by
  obtain ⟨id, hid⟩ := filled_iff.mp h
  have htrimmed : d.trimmedId = some id := (nonBlank?_eq_some_iff.mp hid).1
  rw [htrimmed]
  exact hid

lemma duplicateId_not_mem_validate : .duplicateId ∉ d.validate.1 := by
  have hjudged := d.validate_judged
  generalize d.validate = r at hjudged
  intro h
  cases hjudged with
  | faulty => exact isSurface_of_mem h
  | unknown | made | dropped => cases h
  | undecodable => simp at h

end Declaration

/-- With ids the defects of declarations do not depend on the positions. -/
lemma labelled_of_filled {ds : List Declaration} (h : ∀ d ∈ ds, Filled d.id) (position : Nat) :
    labelled position ds = ds.flatMap fun d => d.validate.1.map (⟨d.label 0, ·⟩) := by
  induction ds generalizing position with
  | nil => rfl
  | cons d ds ih =>
    rw [List.forall_mem_cons] at h
    rw [labelled_cons, ih h.2, List.flatMap_cons, d.label_of_filled h.1 position 0]

lemma repeatedId_not_mem_labelled (ds : List Declaration) (id : String) :
    repeatedId id ∉ labelled 0 ds := by
  intro h
  obtain ⟨_, _, _, _, hdefect⟩ := mem_labelled_iff.mp h
  exact Declaration.duplicateId_not_mem_validate hdefect

/-! ### Reports -/

/-- The report of declarations in another order; ids make the labels independent of it. -/
theorem violations_perm {ds ds' : List Declaration} (h : ds.Perm ds')
    (hid : ∀ d ∈ ds, Filled d.id) : (validate ds).2.Perm (validate ds').2 := by
  have hid' : ∀ d ∈ ds', Filled d.id := fun d hd => hid d (h.mem_iff.mpr hd)
  have hrepeated := (repeated_perm (h.filterMap Declaration.id?)).map repeatedId
  have hlabelled : (labelled 0 ds).Perm (labelled 0 ds') := by
    rw [labelled_of_filled hid, labelled_of_filled hid']
    exact h.flatMap_right _
  exact (validateFrom_perm 0 [] ds).trans
    ((hrepeated.append hlabelled).trans (validateFrom_perm 0 [] ds').symm)

/-- An id is reported once for each declaration that has it but one. -/
theorem count_repeatedId {ds : List Declaration} (hid : ∀ d ∈ ds, Filled d.id) (id : String) :
    (validate ds).2.count (repeatedId id) = ds.countP (fun d => d.trimmedId = some id) - 1 := by
  have hids : (ds.filterMap Declaration.id?).count id =
      ds.countP (fun d => d.trimmedId = some id) := by
    rw [List.count_filterMap]
    refine List.countP_congr fun d hd => ?_
    rw [d.id?_of_filled (hid d hd)]
    simp
  rw [validate, (validateFrom_perm 0 [] ds).count_eq, List.count_append,
    List.count_map_of_injective _ _ repeatedId_injective,
    List.count_eq_zero.mpr (repeatedId_not_mem_labelled ds id), count_repeated, hids]
  simp

/-- Whether declarations are accepted does not depend on their order. -/
theorem violations_eq_nil_congr {ds ds' : List Declaration} (h : ds.Perm ds') :
    (validate ds).2 = [] ↔ (validate ds').2 = [] := by
  rw [validate_violations_eq_nil_iff, validate_violations_eq_nil_iff]
  exact and_congr (forall_congr' fun d => by rw [h.mem_iff]) (h.pairwise_iff Ne.symm)

/-! ### Sections -/

/-- The sections of declarations are those that each of them makes alone. -/
theorem sections_eq_flatMap (ds : List Declaration) :
    (validate ds).1 = ds.flatMap fun d => (validate [d]).1 := by
  have hone (d : Declaration) : (validate [d]).1 = d.validate.2.toList := by
    rw [validate, validateFrom_sections]
    cases hd : d.validate.2 <;> simp [hd]
  simp only [hone]
  rw [validate, validateFrom_sections, List.filterMap_eq_flatMap_toList]

/--
Validation and the order of declarations. In another order the declarations are accepted as before,
and each makes the section it made, in the new order. If all of them have ids, the reports are equal
apart from their order, and of the declarations with one id all but one are reported in either.
-/
theorem validate_perm {ds ds' : List Declaration} (h : ds.Perm ds') :
    ((validate ds).2 = [] ↔ (validate ds').2 = []) ∧
    ((validate ds).1 = ds.flatMap (fun d => (validate [d]).1) ∧
      (validate ds').1 = ds'.flatMap fun d => (validate [d]).1) ∧
    ((∀ d ∈ ds, Filled d.id) →
      (validate ds).2.Perm (validate ds').2 ∧
      ∀ id, (validate ds).2.count (repeatedId id) =
          ds.countP (fun d => d.trimmedId = some id) - 1 ∧
        (validate ds').2.count (repeatedId id) =
          ds.countP (fun d => d.trimmedId = some id) - 1) := by
  refine ⟨violations_eq_nil_congr h, ⟨sections_eq_flatMap ds, sections_eq_flatMap ds'⟩,
    fun hid => ⟨violations_perm h hid, fun id => ⟨count_repeatedId hid id, ?_⟩⟩⟩
  rw [(violations_perm h hid).symm.count_eq, count_repeatedId hid]

/-- The id `a` is blamed on another declaration when the last one comes first. -/
theorem validate_perm_rotated :
    let a : Declaration := { id := some "a", kind := some "list", enabled := false }
    let b : Declaration := { id := some "b", kind := some "key_value" }
    let a' : Declaration := { id := some " a ", kind := some "template", enabled := false }
    (validate [a, b, a']).2 = [⟨.named "b", .emptyData⟩, repeatedId "a"] ∧
      (validate [a', a, b]).2 = [repeatedId "a", ⟨.named "b", .emptyData⟩] ∧
      (validate [a, b, a']).2.Perm (validate [a', a, b]).2 ∧
      (validate [a', a, b]).2.count (repeatedId "a") = 1 := by
  intro a b a'
  have hperm : ([a, b] ++ [a']).Perm ([a'] ++ [a, b]) := List.perm_append_comm
  have hid : ∀ d ∈ [a, b, a'], Filled d.id := by
    simp [Filled, a, b, a']
    decide
  obtain ⟨_, _, hreport⟩ := validate_perm hperm
  exact ⟨rfl, rfl, (hreport hid).1, ((hreport hid).2 "a").2⟩

end ResourceBuild.Manifest

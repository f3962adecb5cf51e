import ResourceBuild.Config.Version
import ResourceBuild.Proofs.Text.Blank
import ResourceBuild.Proofs.Text.Pieces

/-!
# Versions from outside

What becomes of a version that comes from outside: the blanks around it are trimmed off and its mark
is taken off once, and it counts for nothing if nothing is left. What stood behind the mark is left
as it is, a blank as well.
-/

namespace ResourceBuild.Config

open Text

/-! ### Marks -/

/-- What is left of a text without its mark, which is taken off once if the text begins with it. -/
inductive Unmarked (mark : Option String) (s : String) : String → Prop where
  | marked {m rest : String} (hmark : mark = some m) (hne : m ≠ "") (hs : s = m ++ rest) :
      Unmarked mark s rest
  | plain (h : ∀ m rest, mark = some m → s = m ++ rest → m = "") : Unmarked mark s s

/-- A blank stands right behind the mark that a text begins with. -/
def BlankBehind (mark : Option String) (s : String) : Prop :=
  ∃ m c rest, mark = some m ∧ isBlank c = true ∧ s = m ++ (String.singleton c ++ rest)

variable {mark : Option String} {raw s t : String}

lemma bind_dropStart?_eq_some_iff :
    (mark.bind fun m => dropStart? m s) = some t ↔ ∃ m, mark = some m ∧ s = m ++ t := by
  simp only [Option.bind_eq_some_iff, dropStart?_eq_some_iff]

lemma unmarked_iff : Unmarked mark s t ↔ (mark.bind fun m => dropStart? m s).getD s = t := by
  constructor
  · intro h
    cases h with
    | marked hmark _ hs =>
      rw [bind_dropStart?_eq_some_iff.mpr ⟨_, hmark, hs⟩, Option.getD_some]
    | plain h =>
      cases hdrop : mark.bind fun m => dropStart? m s with
      | none => rfl
      | some rest =>
        obtain ⟨m, hmark, hs⟩ := bind_dropStart?_eq_some_iff.mp hdrop
        rw [h m rest hmark hs, String.empty_append] at hs
        exact hs.symm
  · rintro rfl
    cases hdrop : mark.bind fun m => dropStart? m s with
    | none =>
      refine .plain fun m rest hmark hs => ?_
      rw [bind_dropStart?_eq_some_iff.mpr ⟨m, hmark, hs⟩] at hdrop
      cases hdrop
    | some rest =>
      obtain ⟨m, hmark, hs⟩ := bind_dropStart?_eq_some_iff.mp hdrop
      rw [Option.getD_some]
      by_cases hm : m = ""
      · -- an empty mark takes nothing off
        subst hm hmark
        rw [String.empty_append] at hs
        subst hs
        refine .plain ?_
        rintro _ _ ⟨⟩ _
        rfl
      · exact .marked hmark hm hs

/-- Nothing is left of a text that is empty or is the mark. -/
lemma unmarked_empty_iff : Unmarked mark s "" ↔ s = "" ∨ mark = some s := by
  constructor
  · intro h
    cases h with
    | marked hmark _ hs =>
      rw [String.append_empty] at hs
      exact .inr (hs ▸ hmark)
    | plain => exact .inl rfl
  · intro h
    by_cases hempty : s = ""
    · subst hempty
      exact .plain fun m rest _ hs => (String.append_eq_empty_iff.mp hs.symm).1
    · exact .marked (h.resolve_left hempty) hempty String.append_empty.symm

/-- A text without its mark ends as it did before. -/
lemma Unmarked.last (h : Unmarked mark s t) (hs : Bare s) (hne : t.toList ≠ []) :
    isBlank (t.toList.getLast hne) = false := by
  cases h with
  | marked _ _ h =>
    have hlast := hs.last
    simp only [h, String.toList_append] at hlast
    -- the mark is cut off in front, so the last character stays
    rwa [List.getLast_append_of_ne_nil _ hne] at hlast
  | plain => exact hs.last

/-- A blank behind the mark is what comes first once the mark is gone. -/
lemma Unmarked.blankBehind_iff (h : Unmarked mark s t) (hs : Bare s) :
    BlankBehind mark s ↔ ∃ c rest, isBlank c = true ∧ t = String.singleton c ++ rest := by
  cases h with
  | marked hmark _ h =>
    subst hmark
    constructor
    · rintro ⟨_, c, rest, ⟨⟩, hc, hrest⟩
      exact ⟨c, rest, hc, (String.append_right_inj _).mp (h.symm.trans hrest)⟩
    · rintro ⟨c, rest, hc, rfl⟩
      exact ⟨_, c, rest, rfl, hc, h⟩
  | plain h =>
    constructor
    · rintro ⟨m, c, rest, hmark, hc, hrest⟩
      rw [h m _ hmark hrest, String.empty_append] at hrest
      exact ⟨c, rest, hc, hrest⟩
    · rintro ⟨c, rest, hc, rfl⟩
      exact absurd hs (not_bare_blank_append hc rest)

/-- What is left of a bare text without its mark is bare, unless a blank stood behind the mark. -/
lemma Unmarked.bare_iff (h : Unmarked mark s t) (hs : Bare s) (ht : t ≠ "") :
    Bare t ↔ ¬BlankBehind mark s := by
  rw [h.blankBehind_iff hs]
  constructor
  · rintro hbare ⟨c, rest, hc, rfl⟩
    exact not_bare_blank_append hc rest hbare
  · intro hfirst
    have hne : t.toList ≠ [] := fun hnil => ht (String.toList_eq_nil_iff.mp hnil)
    refine ⟨hne, ?_, h.last hs hne⟩
    obtain ⟨c, r, hcr⟩ := List.exists_cons_of_ne_nil hne
    rw [← Bool.not_eq_true]
    intro hc
    -- its first character would be a blank behind the mark
    refine hfirst ⟨c, String.ofList r, by simpa [hcr] using hc, ?_⟩
    rw [← String.toList_inj, hcr]
    simp

/-! ### Versions -/

/-- What a version gives is what is left of it without its mark, if that is something. -/
lemma normalizeVersion_eq_some_iff :
    normalizeVersion mark raw = some t ↔ t ≠ "" ∧ Unmarked mark (trim raw) t := by
  rw [unmarked_iff, normalizeVersion, Option.ite_none_left_eq_some, Option.some.injEq]
  constructor
  · rintro ⟨hne, rfl⟩
    exact ⟨by simpa using hne, rfl⟩
  · rintro ⟨hne, rfl⟩
    exact ⟨by simpa using hne, rfl⟩

/-- Nothing is left of blanks and of a mark that stands alone. -/
lemma normalizeVersion_eq_none_iff :
    normalizeVersion mark raw = none ↔ trim raw = "" ∨ mark = some (trim raw) := by
  rw [← unmarked_empty_iff, unmarked_iff, normalizeVersion]
  simp

/-- What is taken over was more than blanks. -/
lemma bare_of_normalizeVersion (h : normalizeVersion mark raw = some t) : Bare (trim raw) := by
  refine bare_trim fun hempty => ?_
  rw [normalizeVersion_eq_none_iff.mpr (.inl hempty)] at h
  cases h

/-- What a version from outside should be: what is left of it without its mark, with no blank
around it. -/
structure Cleaned (mark : Option String) (raw s : String) : Prop where
  bare : Bare s
  text : ∃ rest, Unmarked mark (trim raw) rest ∧ trim rest = s

/-- A version that is taken over is clean unless a blank stands behind its mark. -/
lemma cleaned_iff (h : normalizeVersion mark raw = some s) :
    Cleaned mark raw s ↔ ¬BlankBehind mark (trim raw) := by
  obtain ⟨hne, hunmarked⟩ := normalizeVersion_eq_some_iff.mp h
  rw [← hunmarked.bare_iff (bare_of_normalizeVersion h) hne]
  constructor
  · exact Cleaned.bare
  · intro hbare
    exact ⟨hbare, s, hunmarked, hbare.trim_eq⟩

/--
Of a version from outside nothing is left exactly if it is blank or is the mark alone, with blanks
around it or not. Otherwise its text, trimmed and without its mark, is taken over, which is not
empty and has no blank at its end. It is clean exactly if no blank stands behind the mark: such a
blank is kept. Blanks around the whole version make no difference.
-/
theorem version_clean_iff (mark : Option String) (raw : String) :
    (normalizeVersion mark raw = none ↔ trim raw = "" ∨ mark = some (trim raw)) ∧
    (∀ s, normalizeVersion mark raw = some s ↔ s ≠ "" ∧ Unmarked mark (trim raw) s) ∧
    (∀ s, normalizeVersion mark raw = some s →
      (∀ h, isBlank (s.toList.getLast h) = false) ∧
      (Cleaned mark raw s ↔ ¬BlankBehind mark (trim raw))) ∧
    ∀ before after, isBlankText before = true → isBlankText after = true →
      normalizeVersion mark (before ++ raw ++ after) = normalizeVersion mark raw := by
  refine ⟨normalizeVersion_eq_none_iff, fun s => normalizeVersion_eq_some_iff, ?_, ?_⟩
  · intro s hs
    obtain ⟨-, hunmarked⟩ := normalizeVersion_eq_some_iff.mp hs
    exact ⟨hunmarked.last (bare_of_normalizeVersion hs), cleaned_iff hs⟩
  · intro before after hbefore hafter
    rw [normalizeVersion, trim_blanks_append hbefore hafter, normalizeVersion]

/-- Blanks of several kinds around the version go, and the mark goes once. -/
theorem version_clean_iff_marked :
    isBlankText "\t" = true ∧ isBlankText "\u3000\n" = true ∧
      normalizeVersion (some "v") ("\t" ++ "vv1.2.3" ++ "\u3000\n") = some "v1.2.3" ∧
      Cleaned (some "v") "vv1.2.3" "v1.2.3" := by
  obtain ⟨-, -, hclean, hblanks⟩ := version_clean_iff (some "v") "vv1.2.3"
  have hsome : normalizeVersion (some "v") "vv1.2.3" = some "v1.2.3" := by decide
  refine ⟨by decide, by decide, (hblanks _ _ (by decide) (by decide)).trans hsome, ?_⟩
  refine (hclean _ hsome).2.mpr ?_
  rintro ⟨_, c, rest, ⟨⟩, hc, hs⟩
  have hlist := congrArg String.toList hs
  have htrim : (trim "vv1.2.3").toList = ['v', 'v', '1', '.', '2', '.', '3'] := by decide
  simp [htrim] at hlist
  rw [← hlist.1] at hc
  cases hc

/-- A blank behind the mark is kept in front of the version. -/
theorem blank_behind_mark_kept :
    normalizeVersion (some "v") "v 1.2.3" = some " 1.2.3" ∧
      ¬Cleaned (some "v") "v 1.2.3" " 1.2.3" := by
  refine ⟨by decide, fun h => ?_⟩
  have hfirst := h.bare.first
  cases hfirst

end ResourceBuild.Config

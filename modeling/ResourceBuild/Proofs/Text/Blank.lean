import Mathlib.Data.List.DropRight
import Mathlib.Tactic.Lemma
import ResourceBuild.Text.Blank

/-!
# Trimming

Trimming leaves nothing exactly of texts that are blank, so a text that is present and not blank
is one whose trimmed form is not empty. Trimming twice is the same as trimming once.
-/

namespace ResourceBuild.Text

lemma trimChars_eq_rdropWhile (cs : List Char) :
    trimChars cs = (cs.dropWhile isBlank).rdropWhile isBlank := rfl

/-- Trimming leaves nothing exactly of blanks. -/
lemma trimChars_eq_nil_iff (cs : List Char) : trimChars cs = [] ↔ ∀ c ∈ cs, isBlank c := by
  rw [trimChars_eq_rdropWhile, List.rdropWhile_eq_nil_iff]
  constructor
  · intro h
    -- the first character left by the first pass is no blank, so there is none
    rw [← List.dropWhile_eq_nil_iff]
    by_contra hne
    have hhead := List.head_dropWhile_not isBlank hne
    rw [h _ (List.head_mem hne)] at hhead
    cases hhead
  · intro h c hc
    exact h c ((List.dropWhile_sublist isBlank).subset hc)

/-- What trimming leaves has no blanks in front. -/
lemma dropWhile_trimChars (cs : List Char) : (trimChars cs).dropWhile isBlank = trimChars cs := by
  rw [List.dropWhile_eq_self_iff]
  intro hl
  have hinit : trimChars cs <+: cs.dropWhile isBlank := List.rdropWhile_prefix isBlank _
  rw [hinit.getElem hl]
  exact List.dropWhile_get_zero_not isBlank cs _

/-- What trimming leaves has no blanks behind. -/
lemma rdropWhile_trimChars (cs : List Char) : (trimChars cs).rdropWhile isBlank = trimChars cs := by
  rw [trimChars_eq_rdropWhile, List.rdropWhile_idempotent]

lemma trimChars_trimChars (cs : List Char) : trimChars (trimChars cs) = trimChars cs := by
  rw [trimChars_eq_rdropWhile (trimChars cs), dropWhile_trimChars, rdropWhile_trimChars]

lemma trim_trim (s : String) : trim (trim s) = trim s := by
  simp only [trim, String.toList_ofList, trimChars_trimChars]

/-- A text is blank exactly when trimming leaves nothing of it. -/
lemma isBlankText_iff (s : String) : isBlankText s = true ↔ trim s = "" := by
  rw [isBlankText, List.all_eq_true, ← trimChars_eq_nil_iff, trim, ← String.toList_inj]
  simp

lemma nonBlank?_eq_some_iff {o : Option String} {t : String} :
    nonBlank? o = some t ↔ o.map trim = some t ∧ t ≠ "" := by
  cases o with
  | none => simp [nonBlank?]
  | some s =>
    simp only [nonBlank?, Option.map_some, Option.some.injEq]
    by_cases hs : trim s = ""
    · rw [if_pos ((isBlankText_iff s).mpr hs), hs]
      simp only [reduceCtorEq, false_iff, not_and, not_not]
      exact Eq.symm
    · rw [if_neg (fun h => hs ((isBlankText_iff s).mp h)), Option.some.injEq]
      constructor
      · rintro rfl
        exact ⟨rfl, hs⟩
      · exact And.left

/-- A text that holds something, and has no blank in front or behind. -/
structure Bare (s : String) : Prop where
  nonempty : s.toList ≠ []
  first : isBlank (s.toList.head nonempty) = false
  last : isBlank (s.toList.getLast nonempty) = false

/-- Trimming makes a text bare unless there is nothing but blanks. -/
lemma bare_trim {s : String} (h : trim s ≠ "") : Bare (trim s) := by
  have hchars : (trim s).toList = trimChars s.toList := String.toList_ofList
  have hne : (trim s).toList ≠ [] := fun hnil => h (String.toList_eq_nil_iff.mp hnil)
  refine ⟨hne, ?_, ?_⟩
  · have hfirst := List.dropWhile_eq_self_iff.mp (dropWhile_trimChars s.toList)
    rw [← hchars] at hfirst
    simpa [List.head_eq_getElem] using hfirst (List.length_pos_iff.mpr hne)
  · have hlast := List.rdropWhile_eq_self_iff.mp (rdropWhile_trimChars s.toList)
    rw [← hchars] at hlast
    simpa using hlast hne

/-- A text is bare if it begins and ends with characters that are no blanks. -/
lemma bare_of_ends {s : String} {c d : Char} {r r' : List Char} (hfirst : s.toList = c :: r)
    (hlast : s.toList = r' ++ [d]) (hc : isBlank c = false) (hd : isBlank d = false) : Bare s := by
  refine ⟨by simp [hfirst], ?_, ?_⟩
  · simpa [hfirst] using hc
  · simpa [hlast] using hd

/-- There is nothing to trim off a bare text. -/
lemma Bare.trim_eq {s : String} (h : Bare s) : trim s = s := by
  have hfirst : s.toList.dropWhile isBlank = s.toList := by
    rw [List.dropWhile_eq_self_iff]
    intro hl
    simpa [List.head_eq_getElem] using h.first
  have hlast : s.toList.rdropWhile isBlank = s.toList := by
    rw [List.rdropWhile_eq_self_iff]
    intro hl
    simpa using h.last
  rw [trim, trimChars_eq_rdropWhile, hfirst, hlast, String.ofList_toList]

lemma not_bare_blank_append {c : Char} (hc : isBlank c = true) (s : String) :
    ¬ Bare (String.singleton c ++ s) := by
  intro h
  have hfirst := h.first
  simp [hc] at hfirst

/-- A blank in front is trimmed off. -/
lemma trim_blank_append {c : Char} (hc : isBlank c = true) (s : String) :
    trim (String.singleton c ++ s) = trim s := by
  simp [trim, trimChars, hc]

lemma trimChars_blanks_append {before after : List Char} (hbefore : ∀ c ∈ before, isBlank c = true)
    (hafter : ∀ c ∈ after, isBlank c = true) (cs : List Char) :
    trimChars (before ++ (cs ++ after)) = trimChars cs := by
  rw [trimChars_eq_rdropWhile, trimChars_eq_rdropWhile, List.dropWhile_append_of_pos hbefore,
    List.dropWhile_append]
  split
  · rename_i hcs
    rw [List.dropWhile_eq_nil_iff.mpr hafter, List.isEmpty_iff.mp hcs]
  · have hreverse : ∀ c ∈ after.reverse, isBlank c = true := fun c hc =>
      hafter c (List.mem_reverse.mp hc)
    rw [List.rdropWhile, List.reverse_append, List.dropWhile_append_of_pos hreverse,
      List.rdropWhile]

/-- Blanks around a text are trimmed off. -/
lemma trim_blanks_append {before after : String} (hbefore : isBlankText before = true)
    (hafter : isBlankText after = true) (s : String) : trim (before ++ s ++ after) = trim s := by
  rw [isBlankText, List.all_eq_true] at hbefore hafter
  rw [trim, String.toList_append, String.toList_append, List.append_assoc,
    trimChars_blanks_append hbefore hafter, trim]

/-- A text that is present and holds more than blanks. -/
def Filled (o : Option String) : Prop :=
  ∃ s, o = some s ∧ trim s ≠ ""

lemma filled_some_iff {s : String} : Filled (some s) ↔ ¬isBlankText s = true := by
  rw [isBlankText_iff, Filled]
  simp

lemma filled_iff {o : Option String} : Filled o ↔ ∃ t, nonBlank? o = some t := by
  simp only [nonBlank?_eq_some_iff, Filled, Option.map_eq_some_iff]
  constructor
  · rintro ⟨s, hs, hne⟩
    exact ⟨trim s, ⟨s, hs, rfl⟩, hne⟩
  · rintro ⟨_, ⟨s, hs, rfl⟩, hne⟩
    exact ⟨s, hs, hne⟩

lemma nonBlank?_eq_none_iff {o : Option String} : nonBlank? o = none ↔ ¬ Filled o := by
  rw [filled_iff, ← Option.ne_none_iff_exists', not_not]

/-- What is filled in is no blank text. -/
lemma Filled.isBlankText_getD {o : Option String} (h : Filled o) :
    isBlankText (o.getD "") = false := by
  obtain ⟨s, rfl, hne⟩ := h
  rw [Option.getD_some, Bool.eq_false_iff, ne_eq, isBlankText_iff]
  exact hne

@[simp] lemma not_filled_none : ¬ Filled none := by
  rw [← nonBlank?_eq_none_iff]
  rfl

end ResourceBuild.Text

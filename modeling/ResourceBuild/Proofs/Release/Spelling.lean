import ResourceBuild.Proofs.Text.Blank
import ResourceBuild.Proofs.Text.Digits
import ResourceBuild.Proofs.Text.Pieces
import ResourceBuild.Release.Version

/-!
# How versions are spelled

A version is read exactly from the texts that spell it. A spelling is three numerals with points
between them, behind a mark or not. The text of a version spells it, so that printing is undone by
reading, whatever mark is put in front.
-/

namespace ResourceBuild.Release.Version

open Text

/-! ### Spellings -/

/-- Three numerals with points between them. -/
inductive Dotted (v : Version) : List Char → Prop where
  | points {a b c : List Char} (hmajor : Numeral v.major a) (hminor : Numeral v.minor b)
      (hpatch : Numeral v.patch c) : Dotted v (a ++ '.' :: (b ++ '.' :: c))

/-- A spelling of a version, in which any one character but a digit may come first. -/
inductive Spells (v : Version) : List Char → Prop where
  | plain {cs : List Char} (h : Dotted v cs) : Spells v cs
  | marked {mark : Char} {cs : List Char} (hmark : isDigit mark = false) (h : Dotted v cs) :
      Spells v (mark :: cs)

/-- The three numbers of a version fit words of 64 bits. -/
structure Fits (v : Version) : Prop where
  major : v.major < Decimal.Word.size 64
  minor : v.minor < Decimal.Word.size 64
  patch : v.patch < Decimal.Word.size 64

variable {v : Version} {cs : List Char}

/-- A spelling begins with a digit once the mark is gone. -/
lemma Dotted.exists_digit (h : Dotted v cs) : ∃ d r, cs = d :: r ∧ isDigit d = true := by
  cases h with
  | points hmajor =>
    obtain ⟨d, r, rfl⟩ := List.exists_cons_of_ne_nil hmajor.nonempty
    exact ⟨d, _, rfl, isDigit_iff.mpr (hmajor.digit d List.mem_cons_self)⟩

/-- Dropping a mark leaves the numbers alone. -/
lemma Dotted.dropMark_eq (h : Dotted v cs) : dropMark cs = cs := by
  obtain ⟨d, r, rfl, hd⟩ := h.exists_digit
  simp [dropMark, hd]

/-- What is left of a spelling without its mark is the three numbers. -/
lemma spells_iff : Spells v cs ↔ Dotted v (dropMark cs) := by
  constructor
  · intro h
    cases h with
    | plain h => rwa [h.dropMark_eq]
    | marked hmark h => simpa [dropMark, hmark] using h
  · intro h
    cases cs with
    | nil => exact .plain h
    | cons c r =>
      by_cases hc : isDigit c = true
      · simp only [dropMark, hc, if_true] at h
        exact .plain h
      · rw [Bool.not_eq_true] at hc
        simp only [dropMark, hc, Bool.false_eq_true, if_false] at h
        exact .marked hc h

/-! ### Reading -/

lemma part?_eq_some_iff {n : Nat} {ds : List Char} :
    part? ds = some n ↔ Numeral n ds ∧ n < Decimal.Word.size 64 := by
  unfold part? bound
  rw [readDigits_eq_some_iff]
  constructor
  · rintro ⟨hne, hdigit, hvalue, hfits⟩
    exact ⟨⟨hne, hdigit, hvalue⟩, hfits⟩
  · rintro ⟨⟨hne, hdigit, hvalue⟩, hfits⟩
    exact ⟨hne, hdigit, hvalue, hfits⟩

/-- Three pieces between points are read exactly if they are the numerals of a version. -/
lemma dotted_iff : Dotted v cs ↔ ∃ a b c, cs.splitOn '.' = [a, b, c] ∧
    Numeral v.major a ∧ Numeral v.minor b ∧ Numeral v.patch c := by
  constructor
  · rintro ⟨hmajor, hminor, hpatch⟩
    refine ⟨_, _, _, (splitOn_eq_iff (by simp)).mpr ⟨?_, ?_⟩, hmajor, hminor, hpatch⟩
    · simp [List.intercalate]
    · have hpoint : isDigit '.' = false := by decide
      simp [hmajor.notMem hpoint, hminor.notMem hpoint, hpatch.notMem hpoint]
  · rintro ⟨a, b, c, hsplit, hmajor, hminor, hpatch⟩
    obtain ⟨rfl, _⟩ := (splitOn_eq_iff (by simp)).mp hsplit
    simpa [List.intercalate] using Dotted.points hmajor hminor hpatch

/-- A version is read exactly from what spells it once the blanks at the ends are gone. -/
theorem parse?_eq_some_iff {raw : String} :
    parse? raw = some v ↔ Spells v (trim raw).toList ∧ v.Fits := by
  rw [spells_iff, dotted_iff, trim, String.toList_ofList]
  unfold parse?
  constructor
  · intro h
    split at h
    · next a b c hsplit =>
      obtain ⟨major, hmajor, h⟩ := Option.bind_eq_some_iff.mp h
      obtain ⟨minor, hminor, h⟩ := Option.bind_eq_some_iff.mp h
      obtain ⟨patch, hpatch, ⟨⟩⟩ := Option.bind_eq_some_iff.mp h
      rw [part?_eq_some_iff] at hmajor hminor hpatch
      exact ⟨⟨a, b, c, hsplit, hmajor.1, hminor.1, hpatch.1⟩, hmajor.2, hminor.2, hpatch.2⟩
    · cases h
  · rintro ⟨⟨a, b, c, hsplit, hmajor, hminor, hpatch⟩, hfits⟩
    rw [hsplit]
    simp [part?_eq_some_iff.mpr ⟨hmajor, hfits.major⟩, part?_eq_some_iff.mpr ⟨hminor, hfits.minor⟩,
      part?_eq_some_iff.mpr ⟨hpatch, hfits.patch⟩]

/-! ### Printing -/

lemma toList_text (v : Version) :
    v.text.toList = digits v.major ++ '.' :: (digits v.minor ++ '.' :: digits v.patch) := by
  simp [text, decimal]

lemma dotted_text (v : Version) : Dotted v v.text.toList := by
  rw [toList_text]
  exact .points (numeral_digits _) (numeral_digits _) (numeral_digits _)

/-- The text of a version ends with a digit. -/
lemma exists_last_digit (v : Version) : ∃ r d, v.text.toList = r ++ [d] ∧ isDigit d = true := by
  obtain ⟨r, d, hlast⟩ := (List.eq_nil_or_concat (digits v.patch)).resolve_left (digits_ne_nil _)
  refine ⟨digits v.major ++ '.' :: (digits v.minor ++ '.' :: r), d, ?_, ?_⟩
  · simp [toList_text, hlast]
  · exact isDigit_of_mem_digits (n := v.patch) (by simp [hlast])

lemma bare_text (v : Version) : Bare v.text := by
  obtain ⟨d, r, hfirst, hd⟩ := (dotted_text v).exists_digit
  obtain ⟨r', d', hlast, hd'⟩ := exists_last_digit v
  exact bare_of_ends hfirst hlast (isBlank_of_isDigit hd) (isBlank_of_isDigit hd')

/-- A version is read back from its text. -/
theorem parse?_text (h : v.Fits) : parse? v.text = some v := by
  rw [parse?_eq_some_iff, (bare_text v).trim_eq]
  exact ⟨.plain (dotted_text v), h⟩

/-- A version is read back from its text behind any mark; a blank one is trimmed off. -/
theorem parse?_mark_text (h : v.Fits) {mark : Char} (hmark : isDigit mark = false) :
    parse? (String.singleton mark ++ v.text) = some v := by
  by_cases hblank : isBlank mark = true
  · rw [parse?_eq_some_iff, trim_blank_append hblank, ← parse?_eq_some_iff]
    exact parse?_text h
  · rw [Bool.not_eq_true] at hblank
    obtain ⟨r, d, hlast, hd⟩ := exists_last_digit v
    have hfirst : (String.singleton mark ++ v.text).toList = mark :: v.text.toList := by simp
    have hend : (String.singleton mark ++ v.text).toList = (mark :: r) ++ [d] := by simp [hlast]
    have hbare := bare_of_ends hfirst hend hblank (isBlank_of_isDigit hd)
    rw [parse?_eq_some_iff, hbare.trim_eq]
    refine ⟨?_, h⟩
    simpa using Spells.marked hmark (dotted_text v)

/--
A text is read as a version exactly if, without the blanks around it, it spells that version: three
numerals of numbers that fit 64 bits, with points between them, behind at most one character that is
no digit. The text of a version that fits is read as that version, alone and behind any one
character that is no digit, be it a blank, a point or a line end.
-/
theorem version_read_exactly :
    (∀ (raw : String) (v : Version),
      parse? raw = some v ↔ Spells v (trim raw).toList ∧ v.Fits) ∧
    ∀ v : Version, v.Fits → parse? v.text = some v ∧
      ∀ mark, isDigit mark = false → parse? (String.singleton mark ++ v.text) = some v := by
  refine ⟨fun raw v => parse?_eq_some_iff, fun v h => ⟨parse?_text h, ?_⟩⟩
  intro mark hmark
  exact parse?_mark_text h hmark

/-- The largest number, behind a point and behind a line end; the next one is none. -/
theorem version_read_exactly_largest :
    let v : Version := ⟨18446744073709551615, 0, 7⟩
    v.Fits ∧ parse? ("." ++ v.text) = some v ∧ parse? ("\n" ++ v.text) = some v ∧
      parse? " v01.0.18446744073709551615 " = some ⟨1, 0, 18446744073709551615⟩ ∧
      parse? "18446744073709551616.0.7" = none := by
  intro v
  have hfits : v.Fits := ⟨by decide, by decide, by decide⟩
  obtain ⟨_, hmarked⟩ := version_read_exactly.2 v hfits
  exact ⟨hfits, hmarked '.' (by decide), hmarked '\n' (by decide), by decide, by decide⟩

end ResourceBuild.Release.Version

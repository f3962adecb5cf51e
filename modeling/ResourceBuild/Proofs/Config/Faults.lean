import ResourceBuild.Config.Validation
import ResourceBuild.Proofs.Manifest.Acceptance
import ResourceBuild.Proofs.Text.Pieces

/-!
# The faults of a configuration

What each violation says about a configuration, stated apart from the validation. The check of a
part finds exactly the violations about that part that hold, so no fault hides another.
-/

namespace ResourceBuild.Config

open Text Time

/-! ### What violations say -/

/-- An owner and a name, neither of them blank, around the only slash. -/
def IsRepository (s : String) : Prop :=
  ∃ owner name, s = owner ++ "/" ++ name ∧ '/' ∉ owner.toList ∧ '/' ∉ name.toList ∧
    trim owner ≠ "" ∧ trim name ≠ ""

def RequiredPath.of (c : Config) : RequiredPath → Files.Path
  | .metadata => c.metadata.path
  | .stamp => c.stamp.output
  | .manifest => c.manifest.output
  | .bundle => c.bundle.output

/-- What a violation says is so. -/
def Violation.Holds (locales : Locales) (c : Config) : Violation → Prop
  | .missingPath path => (path.of c).text = ""
  | .noEntryPoints => c.bundle.entryPoints = []
  | .blankEntryPoint i => ∃ entry, c.bundle.entryPoints[i]? = some entry ∧ trim entry = ""
  | .noProgram => trim c.bundle.program = ""
  | .longVersionMark mark => c.metadata.versionMark = some mark ∧ 1 < mark.length
  | .noLocale => c.stamp.style = .locale ∧ ¬ Filled c.stamp.locale
  | .unknownLocale name =>
    c.stamp.style = .locale ∧ Filled c.stamp.locale ∧ c.stamp.locale.map trim = some name ∧
      locales.named? name = none
  | .unknownTimeZone name =>
    c.stamp.style = .locale ∧ name = c.stamp.timeZone.getD "utc" ∧
      Zone.parse? (c.stamp.timeZone.getD "utc") = none
  | .noPattern => c.stamp.style = .custom ∧ (c.stamp.pattern = none ∨ c.stamp.pattern = some "")
  | .invalidPattern pattern =>
    c.stamp.style = .custom ∧ c.stamp.pattern = some pattern ∧ pattern ≠ "" ∧
      items? pattern.toList = none
  | .invalidRepository name =>
    (∃ r, c.release = some r ∧ r.repository = name) ∧ ¬ IsRepository name
  | .invalidSection violation => violation ∈ (Manifest.validate c.manifest.sections).2

/-! ### The parts -/

/-- The parts of a configuration that are checked. -/
inductive Part where
  | paths
  | entryPoints
  | program
  | mark
  | stamp
  | release
  | sections
  deriving DecidableEq

namespace Part

def violations (locales : Locales) (c : Config) : Part → List Violation
  | .paths => c.pathViolations
  | .entryPoints => entryViolations c.bundle.entryPoints
  | .program => programViolations c.bundle.program
  | .mark => markViolations c.metadata.versionMark
  | .stamp => c.stamp.violations locales
  | .release => releaseViolations c.release
  | .sections => sectionViolations c.manifest.sections

end Part

def Violation.part : Violation → Part
  | .missingPath _ => .paths
  | .noEntryPoints | .blankEntryPoint _ => .entryPoints
  | .noProgram => .program
  | .longVersionMark _ => .mark
  | .noLocale | .unknownLocale _ | .unknownTimeZone _ | .noPattern | .invalidPattern _ => .stamp
  | .invalidRepository _ => .release
  | .invalidSection _ => .sections

/-! ### Single checks -/

variable {locales : Locales} {c : Config} {v : Violation}

lemma isRepository_iff (s : String) : isRepository s = true ↔ IsRepository s := by
  have hblank (t : String) : (!isBlankText t) = true ↔ trim t ≠ "" := by
    rw [Bool.not_eq_true', ne_eq, ← isBlankText_iff, Bool.not_eq_true]
  unfold isRepository
  constructor
  · intro h
    split at h
    · next owner name hcut =>
      have hs : s = owner ++ "/" ++ name := by
        rw [← join_cut '/' s, hcut, join_cons_cons, join_singleton]
        rfl
      rw [Bool.and_eq_true, hblank, hblank] at h
      exact ⟨owner, name, hs, not_mem_of_mem_cut (s := s) (by simp [hcut]),
        not_mem_of_mem_cut (s := s) (by simp [hcut]), h⟩
    · cases h
  · rintro ⟨owner, name, rfl, howner, hname, hblanks⟩
    -- a name without a slash is a piece by itself, and stays one behind the owner
    have hlast : cut '/' name = [name] := by
      have hcut : cut '/' (join (String.singleton '/') [name]) = [name] :=
        cut_join (List.cons_ne_nil name []) (by simpa using hname)
      rwa [join_singleton] at hcut
    have hcut : cut '/' (owner ++ "/" ++ name) = [owner, name] := by
      rw [← hlast]
      exact cut_append howner name
    simp only [hcut, Bool.and_eq_true, hblank]
    exact hblanks

lemma mem_requirePath_iff {which : RequiredPath} {p : Files.Path} :
    v ∈ requirePath which p ↔ v = .missingPath which ∧ p.text = "" := by
  rw [requirePath, List.mem_ite_nil_right, List.mem_singleton, and_comm]
  simp [Files.Path.isEmpty]

lemma mem_blankEntryPoints_iff {position : Nat} {entries : List String} :
    v ∈ blankEntryPoints position entries ↔
      ∃ i entry, entries[i]? = some entry ∧ trim entry = "" ∧
        v = .blankEntryPoint (position + i) := by
  induction entries generalizing position with
  | nil => simp [blankEntryPoints]
  | cons entry entries ih =>
    rw [blankEntryPoints, List.mem_append, List.mem_ite_nil_right, List.mem_singleton,
      isBlankText_iff, ih]
    constructor
    · rintro (⟨hblank, rfl⟩ | ⟨i, e, he, hblank, rfl⟩)
      · exact ⟨0, entry, rfl, hblank, rfl⟩
      · exact ⟨i + 1, e, he, hblank, by rw [Nat.add_assoc, Nat.add_comm 1]⟩
    · rintro ⟨_ | i, e, he, hblank, rfl⟩
      · cases he
        exact .inl ⟨hblank, rfl⟩
      · exact .inr ⟨i, e, he, hblank, by rw [Nat.add_assoc, Nat.add_comm 1]⟩

namespace StampSettings

variable {s : StampSettings}

lemma mem_localeViolations_iff :
    v ∈ s.localeViolations locales ↔
      v = .noLocale ∧ ¬ Filled s.locale ∨
      ∃ name, v = .unknownLocale name ∧ Filled s.locale ∧ s.locale.map trim = some name ∧
        locales.named? name = none := by
  unfold localeViolations
  cases hname : s.localeName? with
  | none =>
    have hblank : ¬ Filled s.locale := nonBlank?_eq_none_iff.mp hname
    simp [hblank]
  | some name =>
    have hfilled : Filled s.locale := filled_iff.mpr ⟨name, hname⟩
    have htrim : s.locale.map trim = some name := (nonBlank?_eq_some_iff.mp hname).1
    simp [hfilled, htrim, and_comm]

lemma mem_zoneViolations_iff :
    v ∈ s.zoneViolations ↔
      v = .unknownTimeZone (s.timeZone.getD "utc") ∧
        Zone.parse? (s.timeZone.getD "utc") = none := by
  rw [zoneViolations, List.mem_ite_nil_right, List.mem_singleton, Option.isNone_iff_eq_none,
    and_comm, zoneName]

lemma mem_patternViolations_iff :
    v ∈ s.patternViolations ↔
      v = .noPattern ∧ (s.pattern = none ∨ s.pattern = some "") ∨
      ∃ pattern, v = .invalidPattern pattern ∧ s.pattern = some pattern ∧ pattern ≠ "" ∧
        items? pattern.toList = none := by
  unfold patternViolations
  cases hpattern : s.pattern with
  | none => simp
  | some pattern =>
    by_cases hempty : pattern = ""
    · simp [hempty]
    · simp [hempty, and_comm]

end StampSettings

/-! ### What is reported about a part -/

lemma mem_pathViolations_iff : v ∈ c.pathViolations ↔ v.part = .paths ∧ v.Holds locales c := by
  cases v with
  | missingPath path =>
    cases path <;>
      simp [pathViolations, mem_requirePath_iff, Violation.part, Violation.Holds, RequiredPath.of]
  | _ => simp [pathViolations, mem_requirePath_iff, Violation.part]

lemma mem_entryViolations_iff :
    v ∈ entryViolations c.bundle.entryPoints ↔ v.part = .entryPoints ∧ v.Holds locales c := by
  cases v <;>
    simp [entryViolations, mem_blankEntryPoints_iff, Violation.part, Violation.Holds]

lemma mem_programViolations_iff :
    v ∈ programViolations c.bundle.program ↔ v.part = .program ∧ v.Holds locales c := by
  cases v <;>
    simp [programViolations, isBlankText_iff, Violation.part, Violation.Holds]

lemma mem_markViolations_iff :
    v ∈ markViolations c.metadata.versionMark ↔ v.part = .mark ∧ v.Holds locales c := by
  cases hmark : c.metadata.versionMark with
  | none => cases v <;> simp [markViolations, Violation.part, Violation.Holds, hmark]
  | some mark =>
    cases v with
    | longVersionMark name =>
      simp only [markViolations, List.mem_ite_nil_right, List.mem_singleton,
        Violation.longVersionMark.injEq, Violation.part, Violation.Holds, hmark, Option.some.injEq,
        true_and]
      constructor
      · rintro ⟨hlong, rfl⟩
        exact ⟨rfl, hlong⟩
      · rintro ⟨rfl, hlong⟩
        exact ⟨hlong, rfl⟩
    | _ => simp [markViolations, Violation.part]

/-- Each style has violations of its own, and those of the locale and the zone stand together. -/
lemma mem_stampViolations_iff :
    v ∈ c.stamp.violations locales ↔ v.part = .stamp ∧ v.Holds locales c := by
  unfold StampSettings.violations
  cases hstyle : c.stamp.style with
  | iso => cases v <;> simp [Violation.part, Violation.Holds, hstyle]
  | locale =>
    rw [List.mem_append, StampSettings.mem_localeViolations_iff,
      StampSettings.mem_zoneViolations_iff]
    cases v <;> simp [Violation.part, Violation.Holds, hstyle]
  | custom =>
    rw [StampSettings.mem_patternViolations_iff]
    cases v <;> simp [Violation.part, Violation.Holds, hstyle]

lemma mem_releaseViolations_iff :
    v ∈ releaseViolations c.release ↔ v.part = .release ∧ v.Holds locales c := by
  cases hrelease : c.release with
  | none => cases v <;> simp [releaseViolations, Violation.part, Violation.Holds, hrelease]
  | some r =>
    cases v with
    | invalidRepository name =>
      simp only [releaseViolations, List.mem_ite_nil_left, List.mem_singleton, isRepository_iff,
        Violation.invalidRepository.injEq, Violation.part, Violation.Holds, hrelease,
        Option.some.injEq, exists_eq_left', true_and]
      constructor
      · rintro ⟨hname, rfl⟩
        exact ⟨rfl, hname⟩
      · rintro ⟨rfl, hname⟩
        exact ⟨hname, rfl⟩
    | _ => simp [releaseViolations, Violation.part]

lemma mem_sectionViolations_iff :
    v ∈ sectionViolations c.manifest.sections ↔ v.part = .sections ∧ v.Holds locales c := by
  cases v <;> simp [sectionViolations, Violation.part, Violation.Holds]

namespace Part

/-- Exactly what is wrong with a part is reported about it, whatever else is wrong. -/
theorem mem_violations_iff {p : Part} :
    v ∈ p.violations locales c ↔ v.part = p ∧ v.Holds locales c := by
  cases p with
  | paths => exact mem_pathViolations_iff
  | entryPoints => exact mem_entryViolations_iff
  | program => exact mem_programViolations_iff
  | mark => exact mem_markViolations_iff
  | stamp => exact mem_stampViolations_iff
  | release => exact mem_releaseViolations_iff
  | sections => exact mem_sectionViolations_iff

end Part

end ResourceBuild.Config

import ResourceBuild.Proofs.Config.Faults
import ResourceBuild.Proofs.Manifest.Acceptance

/-!
# The parts of a configuration

A configuration is checked in seven parts and is valid exactly if each of them is sound. What is
reported about a part depends on its own settings alone, and the report goes through the parts in
their order.
-/

namespace ResourceBuild.Config

open Text Time

/-! ### Sound parts -/

/-- Settings that say how the time is written. Each style looks at settings of its own alone. -/
structure StampSettings.Usable (locales : Locales) (s : StampSettings) : Prop where
  locale : s.style = .locale →
    ∃ name l, s.locale = some name ∧ trim name ≠ "" ∧ locales.named? (trim name) = some l
  zone : s.style = .locale → ∃ z, Zone.parse? (s.timeZone.getD "utc") = some z
  pattern : s.style = .custom →
    ∃ pattern items, s.pattern = some pattern ∧ pattern ≠ "" ∧ items? pattern.toList = some items

namespace Part

/-- The parts in the order in which they are reported. -/
def all : List Part :=
  [.paths, .entryPoints, .program, .mark, .stamp, .release, .sections]

lemma mem_all (p : Part) : p ∈ all := by
  cases p <;> decide

/-- The settings of a part are the same in two configurations. -/
def Agree (c c' : Config) : Part → Prop
  | .paths => ∀ path : RequiredPath, path.of c = path.of c'
  | .entryPoints => c.bundle.entryPoints = c'.bundle.entryPoints
  | .program => c.bundle.program = c'.bundle.program
  | .mark => c.metadata.versionMark = c'.metadata.versionMark
  | .stamp => c.stamp.style = c'.stamp.style ∧ c.stamp.locale = c'.stamp.locale ∧
      c.stamp.timeZone = c'.stamp.timeZone ∧ c.stamp.pattern = c'.stamp.pattern
  | .release => c.release.map (·.repository) = c'.release.map (·.repository)
  | .sections => c.manifest.sections = c'.manifest.sections

def Sound (locales : Locales) (c : Config) : Part → Prop
  | .paths => ∀ path : RequiredPath, (path.of c).text ≠ ""
  | .entryPoints =>
    c.bundle.entryPoints ≠ [] ∧ ∀ entry ∈ c.bundle.entryPoints, trim entry ≠ ""
  | .program => trim c.bundle.program ≠ ""
  | .mark => ∀ mark, c.metadata.versionMark = some mark → mark.length ≤ 1
  | .stamp => c.stamp.Usable locales
  | .release => ∀ r, c.release = some r → IsRepository r.repository
  | .sections => (∀ d ∈ c.manifest.sections, d.Accepted) ∧
      c.manifest.sections.Pairwise fun a b => a.trimmedId ≠ b.trimmedId

end Part

variable {locales : Locales} {c c' : Config} {v : Violation}

lemma usable_of_forall (h : ∀ v : Violation, v.part = .stamp → ¬ v.Holds locales c) :
    c.stamp.Usable locales := by
  refine ⟨fun hstyle => ?_, fun hstyle => ?_, fun hstyle => ?_⟩
  · have hfilled : Filled c.stamp.locale := by
      by_contra hnone
      exact h .noLocale rfl ⟨hstyle, hnone⟩
    obtain ⟨name, hname, hne⟩ := id hfilled
    cases hl : locales.named? (trim name) with
    | some l => exact ⟨name, l, hname, hne, hl⟩
    | none =>
      exact absurd ⟨hstyle, hfilled, by rw [hname, Option.map_some], hl⟩
        (h (.unknownLocale (trim name)) rfl)
  · cases hz : Zone.parse? (c.stamp.timeZone.getD "utc") with
    | some z => exact ⟨z, rfl⟩
    | none => exact absurd ⟨hstyle, rfl, hz⟩ (h (.unknownTimeZone _) rfl)
  · have hpattern : ¬ (c.stamp.pattern = none ∨ c.stamp.pattern = some "") :=
      fun hnone => h .noPattern rfl ⟨hstyle, hnone⟩
    obtain ⟨hsome, hempty⟩ := not_or.mp hpattern
    obtain ⟨pattern, hp⟩ := Option.ne_none_iff_exists'.mp hsome
    have hne : pattern ≠ "" := by
      rintro rfl
      exact hempty hp
    cases hitems : items? pattern.toList with
    | some items => exact ⟨pattern, items, hp, hne, hitems⟩
    | none => exact absurd ⟨hstyle, hp, hne, hitems⟩ (h (.invalidPattern pattern) rfl)

/-- Where no violation about a part holds, the part is sound. -/
lemma Part.sound_of_forall {p : Part} (h : ∀ v : Violation, v.part = p → ¬ v.Holds locales c) :
    p.Sound locales c := by
  cases p with
  | paths =>
    intro path
    exact h (.missingPath path) rfl
  | entryPoints =>
    refine ⟨h .noEntryPoints rfl, fun entry hentry hblank => ?_⟩
    obtain ⟨i, hi⟩ := List.mem_iff_getElem?.mp hentry
    exact h (.blankEntryPoint i) rfl ⟨entry, hi, hblank⟩
  | program => exact h .noProgram rfl
  | mark =>
    intro mark hmark
    by_contra hlong
    exact h (.longVersionMark mark) rfl ⟨hmark, not_le.mp hlong⟩
  | stamp => exact usable_of_forall h
  | release =>
    intro r hr
    by_contra hname
    exact h (.invalidRepository r.repository) rfl ⟨⟨r, hr, rfl⟩, hname⟩
  | sections =>
    rw [Sound, ← Manifest.validate_violations_eq_nil_iff, List.eq_nil_iff_forall_not_mem]
    intro violation
    exact h (.invalidSection violation) rfl

/-- No violation about a sound part holds. -/
lemma Violation.not_holds_of_sound (h : v.part.Sound locales c) : ¬ v.Holds locales c := by
  cases v with
  | missingPath path => exact h path
  | noEntryPoints => exact h.1
  | blankEntryPoint i =>
    rintro ⟨entry, hentry, hblank⟩
    exact h.2 entry (List.mem_of_getElem? hentry) hblank
  | noProgram => exact h
  | longVersionMark mark =>
    rintro ⟨hmark, hlong⟩
    exact absurd (h mark hmark) (not_le.mpr hlong)
  | noLocale =>
    rintro ⟨hstyle, hnone⟩
    obtain ⟨name, _, hname, hne, _⟩ := h.locale hstyle
    exact hnone ⟨name, hname, hne⟩
  | unknownLocale name =>
    rintro ⟨hstyle, _, hname, hunknown⟩
    obtain ⟨given, l, hgiven, _, hl⟩ := h.locale hstyle
    rw [hgiven, Option.map_some, Option.some.injEq] at hname
    rw [hname, hunknown] at hl
    cases hl
  | unknownTimeZone name =>
    rintro ⟨hstyle, _, hunknown⟩
    obtain ⟨z, hz⟩ := h.zone hstyle
    rw [hunknown] at hz
    cases hz
  | noPattern =>
    rintro ⟨hstyle, hnone⟩
    obtain ⟨pattern, _, hpattern, hne, _⟩ := h.pattern hstyle
    simp [hpattern, hne] at hnone
  | invalidPattern pattern =>
    rintro ⟨hstyle, hpattern, _, hinvalid⟩
    obtain ⟨given, items, hgiven, _, hitems⟩ := h.pattern hstyle
    obtain rfl : pattern = given := Option.some.inj (hpattern.symm.trans hgiven)
    rw [hinvalid] at hitems
    cases hitems
  | invalidRepository name =>
    rintro ⟨⟨r, hr, rfl⟩, hname⟩
    exact hname (h r hr)
  | invalidSection violation =>
    have hnone := Manifest.validate_violations_eq_nil_iff c.manifest.sections |>.mpr h
    simp [Violation.Holds, hnone]

/-! ### Reports -/

/-- The file that the time is written to has no part in how it is written. -/
lemma StampSettings.violations_congr {s s' : StampSettings}
    (h : s.style = s'.style ∧ s.locale = s'.locale ∧ s.timeZone = s'.timeZone ∧
      s.pattern = s'.pattern) : s.violations locales = s'.violations locales := by
  obtain ⟨_, style, locale, timeZone, pattern⟩ := s
  obtain ⟨_, style', locale', timeZone', pattern'⟩ := s'
  obtain ⟨rfl, rfl, rfl, rfl⟩ := h
  rfl

namespace Part

/-- Nothing is reported about a part exactly if it is sound. -/
theorem violations_eq_nil_iff {p : Part} : p.violations locales c = [] ↔ p.Sound locales c := by
  simp only [List.eq_nil_iff_forall_not_mem, mem_violations_iff, not_and]
  constructor
  · exact sound_of_forall
  · rintro h v rfl
    exact v.not_holds_of_sound h

/-- What is reported about a part depends on its own settings alone. -/
theorem violations_congr {p : Part} (h : p.Agree c c') :
    p.violations locales c = p.violations locales c' := by
  cases p with
  | paths =>
    have hmetadata : c.metadata.path = c'.metadata.path := h .metadata
    have hstamp : c.stamp.output = c'.stamp.output := h .stamp
    have hmanifest : c.manifest.output = c'.manifest.output := h .manifest
    have hbundle : c.bundle.output = c'.bundle.output := h .bundle
    simp only [violations, pathViolations, hmetadata, hstamp, hmanifest, hbundle]
  | entryPoints => exact congrArg entryViolations h
  | program => exact congrArg programViolations h
  | mark => exact congrArg markViolations h
  | stamp => exact StampSettings.violations_congr h
  | release =>
    have hrelease : c.release.map (·.repository) = c'.release.map (·.repository) := h
    -- the delay of the settings is not looked at
    have hrepository (o : Option ReleaseSettings) : releaseViolations o =
        (o.map (·.repository)).elim [] fun name =>
          if isRepository name then [] else [.invalidRepository name] := by
      cases o <;> rfl
    simp only [violations, hrepository, hrelease]
  | sections => exact congrArg sectionViolations h

/-- Configurations that differ in one part alone are reported alike before and behind it. -/
theorem flatMap_violations_congr {p : Part} (h : ∀ q, q ≠ p → q.Agree c c') :
    ∃ before after,
      all.flatMap (·.violations locales c) = before ++ p.violations locales c ++ after ∧
        all.flatMap (·.violations locales c') = before ++ p.violations locales c' ++ after := by
  have hnodup : all.Nodup := by decide
  obtain ⟨ps, qs, hall⟩ := List.append_of_mem (mem_all p)
  -- no part is checked twice, so the parts before and behind `p` are others
  rw [hall, List.perm_middle.nodup_iff, List.nodup_cons, List.mem_append, not_or] at hnodup
  have hcongr {rs : List Part} (hp : p ∉ rs) :
      rs.flatMap (·.violations locales c') = rs.flatMap (·.violations locales c) := by
    refine List.flatMap_congr fun q hq => (violations_congr (h q ?_)).symm
    rintro rfl
    exact hp hq
  refine ⟨ps.flatMap (·.violations locales c), qs.flatMap (·.violations locales c), ?_, ?_⟩
  · rw [hall, List.flatMap_append, List.flatMap_cons, List.append_assoc]
  · rw [hall, List.flatMap_append, List.flatMap_cons, hcongr hnodup.1.1, hcongr hnodup.1.2,
      List.append_assoc]

end Part

lemma violations_eq_flatMap (c : Config) :
    c.violations locales = Part.all.flatMap (·.violations locales c) := by
  simp [violations, Part.all, Part.violations]

lemma validate_eq_error_iff {vs : List Violation} :
    validate locales c = .error vs ↔ vs = c.violations locales ∧ vs ≠ [] := by
  unfold validate
  cases hvs : c.violations locales with
  | nil =>
    simp only [reduceCtorEq, false_iff, not_and, not_not]
    exact id
  | cons v rest =>
    simp only [Except.error.injEq]
    constructor
    · rintro rfl
      exact ⟨rfl, List.cons_ne_nil v rest⟩
    · rintro ⟨rfl, _⟩
      rfl

lemma validate_isOk_iff : (∃ plan, validate locales c = .ok plan) ↔ c.violations locales = [] := by
  unfold validate
  cases c.violations locales <;> simp

lemma validate_isOk_iff_parts :
    (∃ plan, validate locales c = .ok plan) ↔ ∀ p : Part, p.violations locales c = [] := by
  rw [validate_isOk_iff, violations_eq_flatMap, List.flatMap_eq_nil_iff]
  exact ⟨fun h p => h p p.mem_all, fun h p _ => h p⟩

/--
A configuration is checked part by part. It is valid exactly if nothing is reported about any part,
that is, if every part is sound; otherwise the violations of all parts are reported, in the order of
the parts. About each part exactly those violations are reported that hold, they depend on the
settings of that part alone, and configurations that differ in one part are reported alike in all
others.
-/
theorem validate_reports_every_part (locales : Locales) (c : Config) :
    (∀ vs, validate locales c = .error vs ↔
      vs = Part.all.flatMap (·.violations locales c) ∧ vs ≠ []) ∧
    ((∃ plan, validate locales c = .ok plan) ↔ ∀ p : Part, p.Sound locales c) ∧
    (∀ p : Part, (p.violations locales c = [] ↔ p.Sound locales c) ∧
      ∀ v, v ∈ p.violations locales c ↔ v.part = p ∧ v.Holds locales c) ∧
    ∀ c' : Config,
      (∀ p : Part, p.Agree c c' → p.violations locales c = p.violations locales c') ∧
      ∀ p : Part, (∀ q, q ≠ p → q.Agree c c') → ∃ before after,
        Part.all.flatMap (·.violations locales c) = before ++ p.violations locales c ++ after ∧
          Part.all.flatMap (·.violations locales c') =
            before ++ p.violations locales c' ++ after := by
  refine ⟨fun vs => ?_, ?_,
    fun p => ⟨Part.violations_eq_nil_iff, fun v => Part.mem_violations_iff⟩,
    fun c' => ⟨fun p => Part.violations_congr, fun p => Part.flatMap_violations_congr⟩⟩
  · rw [validate_eq_error_iff, violations_eq_flatMap]
  · rw [validate_isOk_iff, violations_eq_flatMap, List.flatMap_eq_nil_iff]
    constructor
    · intro h p
      exact Part.violations_eq_nil_iff.mp (h p p.mem_all)
    · intro h p _
      exact Part.violations_eq_nil_iff.mpr (h p)

/-- A mark that is too long is reported in its place among all that is wrong besides. Nothing is
wrong with the locale, which is one of those that there are. -/
theorem validate_reports_every_part_mark :
    let locales : Locales :=
      { all := [{ name := "de_DE", datePattern := "%d.%m.%Y", timePattern := "%T" }] }
    let c : Config := { stamp := { style := .locale, locale := some "de-DE" },
                        manifest := { sections := [{}] } }
    let c' : Config := { c with metadata := { versionMark := some "ver", indent := 4 } }
    validate locales c' = .error
        [.missingPath .metadata, .missingPath .stamp, .missingPath .manifest, .missingPath .bundle,
          .noEntryPoints, .longVersionMark "ver", .invalidSection ⟨.numbered 1, .missingId⟩,
          .invalidSection ⟨.numbered 1, .missingType⟩, .invalidSection ⟨.numbered 1, .emptyData⟩] ∧
      Part.sections.violations locales c = Part.sections.violations locales c' ∧
      Part.stamp.Sound locales c ∧
      ∃ before after, Part.all.flatMap (·.violations locales c) = before ++ [] ++ after ∧
        Part.all.flatMap (·.violations locales c') =
          before ++ [.longVersionMark "ver"] ++ after := by
  intro locales c c'
  have hagree : ∀ q, q ≠ .mark → Part.Agree c c' q := by
    intro q hq
    cases q with
    | mark => exact absurd rfl hq
    | paths => rintro (_ | _) <;> rfl
    | stamp => exact ⟨rfl, rfl, rfl, rfl⟩
    | _ => rfl
  obtain ⟨hreport, _⟩ := validate_reports_every_part locales c'
  obtain ⟨_, _, hparts, hother⟩ := validate_reports_every_part locales c
  obtain ⟨hcongr, hdiffer⟩ := hother c'
  have hstamp : Part.stamp.violations locales c = [] := by decide
  refine ⟨(hreport _).mpr ⟨?_, List.cons_ne_nil _ _⟩, hcongr .sections (hagree _ (by decide)),
    (hparts .stamp).1.mp hstamp, hdiffer .mark hagree⟩
  subst c' c
  rfl

end ResourceBuild.Config

import Mathlib.Data.List.Nodup
import ResourceBuild.Proofs.Config.Parts
import ResourceBuild.Proofs.Time.Stamp

/-!
# The time of a valid configuration

A valid configuration writes the time in the way its settings name: settings that name none are
reported, the locale and the zone each for itself. What is written after a pattern is a rendering of
the pattern unless it has a directive for reading alone, which the validation lets pass.
-/

namespace ResourceBuild.Config

open Outcome Text Time

/-! ### What the settings name -/

def underscored (name : String) : String :=
  String.ofList (name.toList.map fun c => if c = '-' then '_' else c)

/-- The zone of a setting, which is the common one if it is not given. -/
inductive NamesZone : Option String → Zone → Prop where
  | absent : NamesZone none .utc
  | given {name : String} {z : Zone} (hz : Zone.parse? name = some z) : NamesZone (some name) z

/-- The way to write the time that some settings ask for. -/
inductive AsksFor (locales : Locales) (s : StampSettings) : StampFormat → Prop where
  | iso (hstyle : s.style = .iso) : AsksFor locales s .iso
  | locale {name : String} {l : Time.Locale} {z : Zone} (hstyle : s.style = .locale)
      (hgiven : s.locale = some name) (hfilled : trim name ≠ "") (hknown : l ∈ locales.all)
      (hname : l.name = underscored (trim name)) (hzone : NamesZone s.timeZone z) :
      AsksFor locales s (.locale l z)
  | custom {pattern : String} (hstyle : s.style = .custom) (hgiven : s.pattern = some pattern) :
      AsksFor locales s (.custom pattern)

/-- What is reported about the setting for the locale, and the locale if nothing is. -/
inductive LocaleReport (locales : Locales) :
    Option String → List Violation → Option Time.Locale → Prop where
  | missing {given : Option String} (h : ¬ Filled given) :
      LocaleReport locales given [.noLocale] none
  | unknown {name : String} (hfilled : trim name ≠ "")
      (hname : ∀ l ∈ locales.all, l.name ≠ underscored (trim name)) :
      LocaleReport locales (some name) [.unknownLocale (trim name)] none
  | known {name : String} {l : Time.Locale} (hfilled : trim name ≠ "") (hknown : l ∈ locales.all)
      (hname : l.name = underscored (trim name)) : LocaleReport locales (some name) [] (some l)

/-- What is reported about the setting for the zone, and the zone if nothing is. -/
inductive ZoneReport : Option String → List Violation → Option Zone → Prop where
  | unknown {name : String} (hname : Zone.parse? name = none) :
      ZoneReport (some name) [.unknownTimeZone name] none
  | known {given : Option String} {z : Zone} (hzone : NamesZone given z) :
      ZoneReport given [] (some z)

variable {locales : Locales} {s : StampSettings} {c : Config} {plan : Plan}

/-! ### Locales and zones -/

lemma named?_eq (name : String) :
    locales.named? name = locales.all.find? (·.name == underscored name) := rfl

/-- A locale is found by its name alone, since no two have the same. -/
lemma named?_eq_some_iff {name : String} {l : Time.Locale} :
    locales.named? name = some l ↔ l ∈ locales.all ∧ l.name = underscored name := by
  rw [named?_eq]
  constructor
  · intro h
    exact ⟨List.mem_of_find?_eq_some h, beq_iff_eq.mp (List.find?_some h :)⟩
  · rintro ⟨hknown, hname⟩
    refine find?_eq_some_of_unique hknown (beq_iff_eq.mpr hname) fun l' hl' hname' => ?_
    have hsame : l'.name = l.name := (beq_iff_eq.mp hname').trans hname.symm
    exact List.inj_on_of_nodup_map locales.distinct hl' hknown hsame

lemma named?_eq_none_iff {name : String} :
    locales.named? name = none ↔ ∀ l ∈ locales.all, l.name ≠ underscored name := by
  simp only [Option.eq_none_iff_forall_ne_some, ne_eq, named?_eq_some_iff, not_and]

/-- The common zone can be named, too. -/
lemma parse?_utc : Zone.parse? "utc" = some .utc := by
  decide

lemma namesZone_iff {given : Option String} {z : Zone} :
    NamesZone given z ↔ Zone.parse? (given.getD "utc") = some z := by
  constructor
  · intro h
    cases h with
    | absent => exact parse?_utc
    | given hz => exact hz
  · intro h
    cases given with
    | none =>
      obtain rfl : Zone.utc = z := Option.some.inj (parse?_utc.symm.trans h)
      exact .absent
    | some name => exact .given h

/-- The report on the locale depends on the setting for it alone. -/
theorem localeReport (locales : Locales) (s : StampSettings) :
    LocaleReport locales s.locale (s.localeViolations locales)
      (s.localeName?.bind locales.named?) := by
  unfold StampSettings.localeViolations
  cases hname : s.localeName? with
  | none => exact .missing (nonBlank?_eq_none_iff.mp hname)
  | some trimmed =>
    obtain ⟨hgiven, hfilled⟩ := nonBlank?_eq_some_iff.mp hname
    obtain ⟨name, hlocale, rfl⟩ := Option.map_eq_some_iff.mp hgiven
    rw [hlocale]
    cases hl : locales.named? (trim name) with
    | none => simpa [hl] using LocaleReport.unknown hfilled (named?_eq_none_iff.mp hl)
    | some l =>
      obtain ⟨hknown, hname⟩ := named?_eq_some_iff.mp hl
      simpa [hl] using LocaleReport.known hfilled hknown hname

/-- The report on the zone depends on the setting for it alone. -/
theorem zoneReport (s : StampSettings) :
    ZoneReport s.timeZone s.zoneViolations (Zone.parse? s.zoneName) := by
  unfold StampSettings.zoneViolations StampSettings.zoneName
  cases hz : Zone.parse? (s.timeZone.getD "utc") with
  | some z => exact .known (namesZone_iff.mpr hz)
  | none =>
    cases hgiven : s.timeZone with
    | none =>
      rw [hgiven, Option.getD_none, parse?_utc] at hz
      cases hz
    | some name =>
      rw [hgiven] at hz
      exact .unknown hz

/-! ### Judging the settings -/

/-- Settings are either sound and ask for a way to write the time, or something is reported. -/
inductive Judged (locales : Locales) (s : StampSettings) :
    List Violation → Option StampFormat → Prop where
  | sound {format : StampFormat} (h : AsksFor locales s format) : Judged locales s [] (some format)
  | faulty {vs : List Violation} (h : vs ≠ []) : Judged locales s vs none

lemma violations_of_locale (hstyle : s.style = .locale) :
    s.violations locales = s.localeViolations locales ++ s.zoneViolations := by
  rw [StampSettings.violations, hstyle]

lemma format?_of_locale (hstyle : s.style = .locale) :
    s.format? locales = (s.localeName?.bind locales.named?).bind fun l =>
      (Zone.parse? s.zoneName).map fun z => .locale l z := by
  rw [StampSettings.format?, hstyle]
  cases s.localeName?.bind locales.named? <;> cases Zone.parse? s.zoneName <;> rfl

/-- With the locale style, both the locale and the zone have to be sound. -/
lemma judged_of_reports {ls zs : List Violation} {l : Option Time.Locale} {z : Option Zone}
    (hstyle : s.style = .locale) (hlocale : LocaleReport locales s.locale ls l)
    (hzone : ZoneReport s.timeZone zs z) :
    Judged locales s (ls ++ zs) (l.bind fun l => z.map fun z => .locale l z) := by
  generalize hgiven : s.locale = given at hlocale
  generalize hgiven' : s.timeZone = given' at hzone
  cases hlocale with
  | missing | unknown => exact .faulty (by simp)
  | known hfilled hknown hname =>
    cases hzone with
    | unknown => exact .faulty (by simp)
    | known hzone =>
      subst hgiven'
      exact .sound (.locale hstyle hgiven hfilled hknown hname hzone)

/-- With the custom style, the pattern has to be one that is not empty. -/
lemma judged_pattern (hstyle : s.style = .custom) :
    Judged locales s (s.violations locales) (s.format? locales) := by
  simp only [StampSettings.violations, StampSettings.format?, StampSettings.patternViolations,
    hstyle]
  cases hgiven : s.pattern with
  | none => exact .faulty (by simp)
  | some pattern =>
    by_cases hempty : pattern.isEmpty = true
    · simp only [hempty, if_true, Option.bind_eq_bind, Option.bind_some]
      exact .faulty (by simp)
    · simp only [hempty, if_false, Option.bind_eq_bind, Option.bind_some, Bool.false_eq_true]
      cases items? pattern.toList with
      | none => exact .faulty (by simp)
      | some items => exact .sound (.custom hstyle hgiven)

/-- Either nothing is reported and there is a way to write the time, or there is none. -/
theorem judged (locales : Locales) (s : StampSettings) :
    Judged locales s (s.violations locales) (s.format? locales) := by
  cases hstyle : s.style with
  | iso =>
    simp only [StampSettings.violations, StampSettings.format?, hstyle]
    exact .sound (.iso hstyle)
  | locale =>
    rw [violations_of_locale hstyle, format?_of_locale hstyle]
    exact judged_of_reports hstyle (localeReport locales s) (zoneReport s)
  | custom => exact judged_pattern hstyle

lemma format?_eq_none_iff : s.format? locales = none ↔ s.violations locales ≠ [] := by
  have h := judged locales s
  generalize s.violations locales = vs at h ⊢
  generalize s.format? locales = format at h ⊢
  cases h with
  | sound => simp
  | faulty h => simpa using h

lemma asksFor_of_violations_eq_nil (h : s.violations locales = []) :
    ∃ format, s.format? locales = some format ∧ AsksFor locales s format := by
  have hjudged := judged locales s
  rw [h] at hjudged
  generalize s.format? locales = format at hjudged
  cases hjudged with
  | sound h => exact ⟨_, rfl, h⟩
  | faulty h => exact absurd rfl h

lemma stamp_violations_of_validate (h : validate locales c = .ok plan) :
    c.stamp.violations locales = [] :=
  validate_isOk_iff_parts.mp ⟨plan, h⟩ .stamp

/-- The plan of a valid configuration has the way to write the time that is asked for. -/
theorem asksFor_of_validate (h : validate locales c = .ok plan) :
    AsksFor locales c.stamp plan.stamp := by
  have hnil := stamp_violations_of_validate h
  obtain ⟨format, hformat, hasks⟩ := asksFor_of_violations_eq_nil hnil
  have hplan : plan.stamp = (c.stamp.format? locales).getD .iso := by
    unfold validate at h
    split at h
    · cases h
      rfl
    · cases h
  rwa [hplan, hformat, Option.getD_some]

/-- A configuration in which only the settings for the time are left open. -/
def stampedBy (s : StampSettings) : Config where
  metadata := { path := ⟨"package.json"⟩ }
  stamp := { s with output := ⟨"stamp"⟩ }
  manifest := { output := ⟨"manifest"⟩ }
  bundle := { entryPoints := ["a.ts"], output := ⟨"out.js"⟩ }

/-- It is valid if these settings are. -/
lemma validate_stampedBy (h : s.violations locales = []) :
    ∃ plan, validate locales (stampedBy s) = .ok plan := by
  rw [validate_isOk_iff_parts]
  intro p
  cases p with
  | stamp => exact (StampSettings.violations_congr ⟨rfl, rfl, rfl, rfl⟩).trans h
  | program =>
    have hprogram : programViolations "esbuild" = [] := by decide
    exact hprogram
  | _ => rfl

lemma AsksFor.iso_iff {format : StampFormat} (h : AsksFor locales s format) :
    format = .iso ↔ s.style = .iso := by
  cases h <;> simp [*]

/--
There is no way to write the time exactly if something is reported about the settings for it. For
the locale style that is what is wrong with the locale and then what is wrong with the zone, each
whatever the other is. So a valid configuration writes the time as its settings ask for: in the
common form for the iso style alone, in the locale and the zone that are named, or after the very
pattern that is given.
-/
theorem stamp_as_configured (locales : Locales) (c : Config) :
    (c.stamp.format? locales = none ↔ c.stamp.violations locales ≠ []) ∧
    (c.stamp.style = .locale → ∃ ls l zs z, c.stamp.violations locales = ls ++ zs ∧
      LocaleReport locales c.stamp.locale ls l ∧ ZoneReport c.stamp.timeZone zs z) ∧
    ∀ plan, validate locales c = .ok plan → AsksFor locales c.stamp plan.stamp ∧
      (plan.stamp = .iso ↔ c.stamp.style = .iso) := by
  refine ⟨format?_eq_none_iff, fun hstyle => ?_, fun plan h => ?_⟩
  · have hlocale := localeReport locales c.stamp
    have hzone := zoneReport c.stamp
    exact ⟨_, _, _, _, violations_of_locale hstyle, hlocale, hzone⟩
  · have hasks := asksFor_of_validate h
    exact ⟨hasks, hasks.iso_iff⟩

/-- A locale with blanks around its name, and a locale and a zone that are both unknown. -/
theorem stamp_as_configured_locale :
    let german : Time.Locale := { name := "de_DE", datePattern := "%d.%m.%Y", timePattern := "%T" }
    let locales : Locales := { all := [german] }
    let s : StampSettings :=
      { style := .locale, locale := some " de-DE ", timeZone := some "-0530" }
    let c : Config := { stamp := { style := .locale, locale := some "xx", timeZone := some "+2" } }
    (∃ plan, validate locales (stampedBy s) = .ok plan ∧
      plan.stamp = .locale german (.fixed (-19800))) ∧
    c.stamp.violations locales = [.unknownLocale "xx", .unknownTimeZone "+2"] ∧
      ∃ ls l zs z, c.stamp.violations locales = ls ++ zs ∧
        LocaleReport locales (some "xx") ls l ∧ ZoneReport (some "+2") zs z := by
  intro german locales s c
  refine ⟨?_, by decide, (stamp_as_configured locales c).2.1 rfl⟩
  have hsound : s.violations locales = [] := by decide
  obtain ⟨plan, hplan⟩ := validate_stampedBy hsound
  obtain ⟨hasks, _⟩ := (stamp_as_configured locales (stampedBy s)).2.2 plan hplan
  generalize hformat : plan.stamp = format at hasks
  cases hasks with
  | iso hstyle | custom hstyle => cases hstyle
  | locale _ hgiven _ hknown _ hzone =>
    cases hgiven
    obtain rfl := List.mem_singleton.mp hknown
    cases hzone with
    | given hz =>
      have hfixed : Zone.parse? "-0530" = some (.fixed (-19800)) := by decide
      obtain rfl := Option.some.inj (hfixed.symm.trans hz)
      exact ⟨plan, hplan, hformat⟩

/-! ### Patterns -/

/-- Every pattern of known directives is accepted. -/
lemma violations_of_pattern {pattern : String} {items : List Item} (hstyle : s.style = .custom)
    (hpattern : s.pattern = some pattern) (hne : pattern ≠ "") (h : Says pattern.toList items) :
    s.violations locales = [] := by
  simp [StampSettings.violations, StampSettings.patternViolations, hstyle, hpattern, hne,
    items?_eq_some_iff.mpr h]

lemma AsksFor.eq_custom {format : StampFormat} {pattern : String} (h : AsksFor locales s format)
    (hstyle : s.style = .custom) (hpattern : s.pattern = some pattern) :
    format = .custom pattern := by
  cases h with
  | iso h | locale h => simp [hstyle] at h
  | custom _ hgiven => rw [Option.some.inj (hpattern.symm.trans hgiven)]

/--
A valid configuration of the custom style has a pattern made of characters and known directives, and
that is the pattern of the plan. What is written is the rendering of the pattern in the common zone,
at every time, exactly if there is no directive for reading alone in it; such a pattern is accepted
all the same, and the common form is written in its place.
-/
theorem custom_stamp_followed (hvalid : validate locales c = .ok plan)
    (hstyle : c.stamp.style = .custom) :
    ∃ pattern items, c.stamp.pattern = some pattern ∧ plan.stamp = .custom pattern ∧
      Says pattern.toList items ∧ ∀ now,
        (Renders english ⟨now, .utc⟩ items (plan.stamp.write now) ↔ ¬ ReadsAlone pattern.toList) ∧
        (ReadsAlone pattern.toList → plan.stamp.write now = standardText ⟨now, .utc⟩) := by
  have husable : c.stamp.Usable locales :=
    (Part.violations_eq_nil_iff (p := .stamp)).mp (stamp_violations_of_validate hvalid)
  obtain ⟨pattern, items, hpattern, _, hitems⟩ := husable.pattern hstyle
  have hpieces : Says pattern.toList items := items?_eq_some_iff.mp hitems
  have hplan := (asksFor_of_validate hvalid).eq_custom hstyle hpattern
  refine ⟨pattern, items, hpattern, hplan, hpieces, fun now => ?_⟩
  rw [hplan]
  refine ⟨⟨fun hrenders hloose => ?_, fun hwritable => ?_⟩, fun hloose => ?_⟩
  · exact (followPattern_of_readsAlone hpieces hloose now).2 _ hrenders
  · exact renders_followPattern hpieces hwritable now
  · exact (followPattern_of_readsAlone hpieces hloose now).1

/-- A date and a percent sign are rendered. -/
theorem custom_stamp_followed_date :
    let locales : Locales := {}
    let c := stampedBy { style := .custom, pattern := some "%F%%" }
    let t : Moment := ⟨⟨951782399, 0⟩, .utc⟩
    ∃ plan, validate locales c = .ok plan ∧ c.stamp.style = .custom ∧
      Renders english t (dashDate ++ [.literal '%']) (plan.stamp.write t.instant) ∧
      plan.stamp.write t.instant = "2000-02-28%" := by
  intro locales c t
  have hpieces : Says "%F%%".toList (dashDate ++ [.literal '%']) := by
    have hdate : ("F", dashDate) ∈ directives := by simp [directives]
    have hpercent : ("%", [Item.literal '%']) ∈ directives := by simp [directives]
    exact .directive (.plain hdate) (.directive (.plain hpercent) .nothing)
  obtain ⟨plan, hplan⟩ : ∃ plan, validate locales c = .ok plan :=
    validate_stampedBy (violations_of_pattern rfl rfl (by decide) hpieces)
  obtain ⟨pattern, items, hpattern, _, hitems, hfollowed⟩ := custom_stamp_followed hplan rfl
  cases hpattern
  obtain rfl := hpieces.unique hitems
  have hwritable : ¬ ReadsAlone "%F%%".toList := by
    rw [← hpieces.loose_mem_iff]
    decide
  have hrenders := (hfollowed t.instant).1.mpr hwritable
  have hwritten : write? english t (dashDate ++ [.literal '%']) = some "2000-02-28%" := by decide
  refine ⟨plan, hplan, rfl, hrenders, ?_⟩
  exact Option.some.inj ((write?_eq_some_iff.mpr hrenders).symm.trans hwritten)

/-- A pattern with the directive for reading alone is accepted, but it is not followed. -/
theorem reading_directive_accepted :
    let locales : Locales := {}
    let c := stampedBy { style := .custom, pattern := some "%#z" }
    ∃ plan, validate locales c = .ok plan ∧ plan.stamp = .custom "%#z" ∧
      Says "%#z".toList [.offset .loose] ∧
      plan.stamp.write ⟨0, 0⟩ = "1970-01-01T00:00:00+00:00" ∧
      ∀ text, ¬ Renders english ⟨⟨0, 0⟩, .utc⟩ [.offset .loose] text := by
  intro locales c
  obtain ⟨plan, hplan⟩ : ∃ plan, validate locales c = .ok plan :=
    validate_stampedBy (violations_of_pattern rfl rfl (by decide) says_loose)
  have hpattern := (asksFor_of_validate hplan).eq_custom rfl rfl
  have hloose : ReadsAlone "%#z".toList := says_loose.loose_mem_iff.mp List.mem_cons_self
  obtain ⟨hwritten, hnone⟩ := followPattern_of_readsAlone says_loose hloose ⟨0, 0⟩
  refine ⟨plan, hplan, hpattern, says_loose, ?_, hnone⟩
  rw [hpattern]
  exact hwritten.trans (by decide)

end ResourceBuild.Config

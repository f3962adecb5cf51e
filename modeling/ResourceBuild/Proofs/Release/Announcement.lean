import Mathlib.Data.Fin.VecNotation
import Mathlib.Data.List.Chain
import Mathlib.Tactic.Lemma
import Mathlib.Tactic.SplitIfs
import ResourceBuild.Release.Check

/-!
# When an update is announced

A release is announced as an update exactly when it is stable and strictly newer than the version in
use. Being newer is a strict order of the versions, whatever texts they are read from, so releases
that are announced one over the other never come back to a version.
-/

namespace ResourceBuild.Release

namespace Version

/-! ### Newer versions -/

/-- The three numbers of a version, the first of them counting most. -/
def part (v : Version) : Fin 3 → Nat :=
  ![v.major, v.minor, v.patch]

/-- At the first of the three numbers in which the two versions differ, that of `w` is larger. -/
def Precedes (v w : Version) : Prop :=
  ∃ i, (∀ j < i, v.part j = w.part j) ∧ v.part i < w.part i

lemma precedes_iff {v w : Version} :
    v.Precedes w ↔ v.major < w.major ∨ v.major = w.major ∧
      (v.minor < w.minor ∨ v.minor = w.minor ∧ v.patch < w.patch) := by
  constructor
  · rintro ⟨i, hbefore, hlt⟩
    match i with
    | 0 => exact .inl hlt
    | 1 => exact .inr ⟨hbefore 0 (by decide), .inl hlt⟩
    | 2 => exact .inr ⟨hbefore 0 (by decide), .inr ⟨hbefore 1 (by decide), hlt⟩⟩
  · rintro (hlt | ⟨hmajor, hlt | ⟨hminor, hlt⟩⟩)
    · exact ⟨0, by simp, hlt⟩
    · refine ⟨1, fun j hj => ?_, hlt⟩
      match j with
      | 0 => exact hmajor
    · refine ⟨2, fun j hj => ?_, hlt⟩
      match j with
      | 0 => exact hmajor
      | 1 => exact hminor

lemma isOlderThan_iff {v w : Version} : v.isOlderThan w = true ↔ v.Precedes w := by
  rw [precedes_iff, isOlderThan]
  split_ifs <;> simp_all

lemma not_precedes_self (v : Version) : ¬ v.Precedes v := by
  simp [precedes_iff]

lemma Precedes.trans {u v w : Version} (h : u.Precedes v) (h' : v.Precedes w) :
    u.Precedes w := by
  rw [precedes_iff] at *
  omega

end Version

open Version

/-! ### One release -/

section

variable {current : String} {release : Descriptor}

/-- What a release means for the version in use, with the first reason there is to say nothing. -/
inductive Verdict (current : String) (release : Descriptor) : Outcome → Prop where
  | prerelease (hpre : release.isPrerelease = true) :
      Verdict current release (.skipped .prerelease)
  | invalidCurrentVersion (hstable : release.isPrerelease = false)
      (hcurrent : parse? current = none) :
      Verdict current release (.skipped .invalidCurrentVersion)
  | invalidLatestVersion {v : Version} (hstable : release.isPrerelease = false)
      (hcurrent : parse? current = some v) (hlatest : parse? release.tag = none) :
      Verdict current release (.skipped .invalidLatestVersion)
  | updateAvailable {v w : Version} (hstable : release.isPrerelease = false)
      (hcurrent : parse? current = some v) (hlatest : parse? release.tag = some w)
      (hnewer : v.Precedes w) :
      Verdict current release (.updateAvailable v w release.url)
  | upToDate {v w : Version} (hstable : release.isPrerelease = false)
      (hcurrent : parse? current = some v) (hlatest : parse? release.tag = some w)
      (hnewer : ¬ v.Precedes w) :
      Verdict current release (.upToDate v)

lemma verdict_evaluate (current : String) (release : Descriptor) :
    Verdict current release (evaluate current release) := by
  unfold evaluate
  split_ifs with hpre
  · exact .prerelease hpre
  · rw [Bool.not_eq_true] at hpre
    split
    · next hcurrent => exact .invalidCurrentVersion hpre hcurrent
    · next hcurrent hlatest => exact .invalidLatestVersion hpre hcurrent hlatest
    · next hcurrent hlatest =>
      split_ifs with hnewer
      · exact .updateAvailable hpre hcurrent hlatest (isOlderThan_iff.mp hnewer)
      · exact .upToDate hpre hcurrent hlatest (fun h => hnewer (isOlderThan_iff.mpr h))

/-- There is one verdict on a release. -/
lemma Verdict.unique {o o' : Outcome} (h : Verdict current release o)
    (h' : Verdict current release o') : o = o' := by
  cases h <;> cases h' <;> simp_all

lemma evaluate_eq_iff {o : Outcome} : evaluate current release = o ↔ Verdict current release o := by
  constructor
  · rintro rfl
    exact verdict_evaluate current release
  · intro h
    exact (verdict_evaluate current release).unique h

/-- An update is announced exactly for a stable release that is newer than the version in use. -/
lemma evaluate_eq_updateAvailable_iff {v w : Version} {url : String} :
    evaluate current release = .updateAvailable v w url ↔
      release.isPrerelease = false ∧ parse? current = some v ∧ parse? release.tag = some w ∧
        v.Precedes w ∧ url = release.url := by
  rw [evaluate_eq_iff]
  constructor
  · rintro ⟨⟩
    exact ⟨‹_›, ‹_›, ‹_›, ‹_›, rfl⟩
  · rintro ⟨hstable, hcurrent, hlatest, hnewer, rfl⟩
    exact .updateAvailable hstable hcurrent hlatest hnewer

lemma evaluate_eq_upToDate_iff {v : Version} :
    evaluate current release = .upToDate v ↔
      release.isPrerelease = false ∧ parse? current = some v ∧
        ∃ w, parse? release.tag = some w ∧ ¬ v.Precedes w := by
  rw [evaluate_eq_iff]
  constructor
  · rintro ⟨⟩
    exact ⟨‹_›, ‹_›, _, ‹_›, ‹_›⟩
  · rintro ⟨hstable, hcurrent, w, hlatest, hnewer⟩
    exact .upToDate hstable hcurrent hlatest hnewer

/-- When a reason stands in the way of a comparison, and none before it does. -/
def SkipReason.Applies (current : String) (release : Descriptor) : SkipReason → Prop
  | .prerelease => release.isPrerelease = true
  | .invalidCurrentVersion => release.isPrerelease = false ∧ parse? current = none
  | .invalidLatestVersion =>
    release.isPrerelease = false ∧ (∃ v, parse? current = some v) ∧ parse? release.tag = none
  | .unavailable _ => False

lemma evaluate_eq_skipped_iff {reason : SkipReason} :
    evaluate current release = .skipped reason ↔ reason.Applies current release := by
  rw [evaluate_eq_iff]
  constructor
  · intro h
    cases h with
    | prerelease hpre => exact hpre
    | invalidCurrentVersion hstable hcurrent => exact ⟨hstable, hcurrent⟩
    | invalidLatestVersion hstable hcurrent hlatest => exact ⟨hstable, ⟨_, hcurrent⟩, hlatest⟩
  · intro h
    match reason with
    | .prerelease => exact .prerelease h
    | .invalidCurrentVersion => exact .invalidCurrentVersion h.1 h.2
    | .invalidLatestVersion =>
      obtain ⟨hstable, ⟨v, hcurrent⟩, hlatest⟩ := h
      exact .invalidLatestVersion hstable hcurrent hlatest

end

/-! ### One release after the other -/

/-- A release is announced as an update over the tag of another one. -/
def Announced (r s : Descriptor) : Prop :=
  ∃ v w url, evaluate r.tag s = .updateAvailable v w url

lemma announced_iff {r s : Descriptor} :
    Announced r s ↔ s.isPrerelease = false ∧
      ∃ v w, parse? r.tag = some v ∧ parse? s.tag = some w ∧ v.Precedes w := by
  simp only [Announced, evaluate_eq_updateAvailable_iff]
  constructor
  · rintro ⟨v, w, _, hstable, hr, hs, hnewer, _⟩
    exact ⟨hstable, v, w, hr, hs, hnewer⟩
  · rintro ⟨hstable, v, w, hr, hs, hnewer⟩
    exact ⟨v, w, s.url, hstable, hr, hs, hnewer, rfl⟩

lemma Announced.trans {r s t : Descriptor} (h : Announced r s) (h' : Announced s t) :
    Announced r t := by
  rw [announced_iff] at h h' ⊢
  obtain ⟨_, u, v, hr, hs, hnewer⟩ := h
  obtain ⟨hstable, v', w, hs', ht, hnewer'⟩ := h'
  obtain rfl : v = v' := Option.some.inj (hs.symm.trans hs')
  exact ⟨hstable, u, w, hr, ht, hnewer.trans hnewer'⟩

/-- An update is never announced over a tag of the same version, however that is written. -/
lemma Announced.parse?_ne {r s : Descriptor} (h : Announced r s) : parse? r.tag ≠ parse? s.tag := by
  obtain ⟨_, v, w, hr, hs, hnewer⟩ := announced_iff.mp h
  rw [hr, hs]
  rintro ⟨⟩
  exact not_precedes_self v hnewer

instance : IsTrans Descriptor Announced := ⟨fun _ _ _ => Announced.trans⟩

section

variable {first next : Descriptor} {rest : List Descriptor}

/-- Every later release of a run is announced over the first one, however many lie between them. -/
lemma announced_of_mem (h : (first :: next :: rest).IsChain Announced) {r : Descriptor}
    (hr : r ∈ next :: rest) : Announced first r :=
  h.rel_cons hr

lemma isSome_of_mem (h : (first :: next :: rest).IsChain Announced) {r : Descriptor}
    (hr : r ∈ first :: next :: rest) : (parse? r.tag).isSome := by
  rcases List.mem_cons.mp hr with rfl | hr
  · obtain ⟨_, v, _, hv, _⟩ := announced_iff.mp (announced_of_mem h List.mem_cons_self)
    rw [hv, Option.isSome_some]
  · obtain ⟨_, _, w, _, hw, _⟩ := announced_iff.mp (announced_of_mem h hr)
    rw [hw, Option.isSome_some]

/-- No version occurs twice in a run of releases that are announced one over the other. -/
lemma nodup_versions (h : (first :: next :: rest).IsChain Announced) :
    ((first :: next :: rest).map fun r => parse? r.tag).Nodup := by
  rw [List.Nodup, List.pairwise_map]
  exact h.pairwise.imp Announced.parse?_ne

end

/--
A release is announced as an update exactly when it is stable and newer than the version in use, at
the first of their three numbers that differ; what else stable releases with a readable version get
is that all is up to date, and otherwise the first reason for silence is told. In a run of releases
each of which is announced over the one before, the last is announced over the first, and no version
occurs twice.
-/
theorem update_announced_iff_newer :
    (∀ (current : String) (release : Descriptor),
      (∀ v w url, evaluate current release = .updateAvailable v w url ↔
        release.isPrerelease = false ∧ parse? current = some v ∧ parse? release.tag = some w ∧
          v.Precedes w ∧ url = release.url) ∧
      (∀ v, evaluate current release = .upToDate v ↔
        release.isPrerelease = false ∧ parse? current = some v ∧
          ∃ w, parse? release.tag = some w ∧ ¬ v.Precedes w) ∧
      ∀ reason, evaluate current release = .skipped reason ↔ reason.Applies current release) ∧
    ∀ (first next : Descriptor) (rest : List Descriptor),
      (first :: next :: rest).IsChain Announced →
        Announced first ((next :: rest).getLast (List.cons_ne_nil next rest)) ∧
        (∀ r ∈ first :: next :: rest, (parse? r.tag).isSome) ∧
        ((first :: next :: rest).map fun r => parse? r.tag).Nodup := by
  refine ⟨fun current release => ⟨?_, ?_, ?_⟩, fun first next rest h => ⟨?_, ?_, ?_⟩⟩
  · intro v w url
    exact evaluate_eq_updateAvailable_iff
  · intro v
    exact evaluate_eq_upToDate_iff
  · intro reason
    exact evaluate_eq_skipped_iff
  · exact announced_of_mem h (List.getLast_mem _)
  · intro r hr
    exact isSome_of_mem h hr
  · exact nodup_versions h

/-- A run of three releases, the first of which is no stable one. -/
theorem update_announced_iff_newer_run :
    let first : Descriptor := ⟨"v1.9.0", "", true⟩
    let next : Descriptor := ⟨" 1.10.0 ", "", false⟩
    let last : Descriptor := ⟨"r2.0.00", "u", false⟩
    [first, next, last].IsChain Announced ∧ Announced first last := by
  intro first next last
  have hnext : evaluate first.tag next = .updateAvailable ⟨1, 9, 0⟩ ⟨1, 10, 0⟩ "" := by decide
  have hlast : evaluate next.tag last = .updateAvailable ⟨1, 10, 0⟩ ⟨2, 0, 0⟩ "u" := by decide
  have hrun : [first, next, last].IsChain Announced := by
    simp only [List.isChain_cons_cons, List.isChain_singleton, and_true]
    exact ⟨⟨_, _, _, hnext⟩, ⟨_, _, _, hlast⟩⟩
  exact ⟨hrun, (update_announced_iff_newer.2 first next [last] hrun).1⟩

end ResourceBuild.Release

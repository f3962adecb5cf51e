import Mathlib.Tactic.SplitIfs
import ResourceBuild.Manifest.Render
import ResourceBuild.Proofs.Json.Canonical
import ResourceBuild.Proofs.Metadata.Lookup

/-!
# A new version

Setting the version of a document changes what is found under the version and under the paths that
lead through it. All other keys find what they found, so a manifest that shows none of the former is
the same as before.
-/

namespace ResourceBuild

/-! ### Keys of a manifest -/

namespace Manifest

variable {d d' : Metadata}

/-- A section that shows what a document has under this key. -/
def Shows (s : Section) (key : String) : Prop :=
  s.enabled = true ∧ ∃ projections, s.body = .packageMetadata projections ∧
    ∃ p ∈ projections, p.sourceKey = key

/-- The lines of a section only depend on the keys that it shows. -/
lemma lines_congr {s : Section} (h : ∀ key, Shows s key → d.lookup key = d'.lookup key) :
    lines d s = lines d' s := by
  unfold lines
  split_ifs with hrenderable
  · have henabled : s.enabled = true := (Bool.and_eq_true_iff.mp hrenderable).1
    cases hbody : s.body with
    | packageMetadata projections =>
      refine List.filterMap_congr fun p hp => ?_
      have hkey := h p.sourceKey ⟨henabled, projections, hbody, p, hp, rfl⟩
      rw [Projection.line?, Projection.line?, Projection.value?, Projection.value?, hkey]
    | keyValue | list | convarCategory => rfl
  · rfl

/-- A manifest only depends on the keys that its sections show. -/
theorem render_congr {ss : List Section}
    (h : ∀ s ∈ ss, ∀ key, Shows s key → d.lookup key = d'.lookup key) :
    render d ss = render d' ss := by
  refine congrArg (Text.join "") (List.map_congr_left fun s hs => ?_)
  rw [sectionText, sectionText, lines_congr (h s hs)]

end Manifest

namespace Metadata

variable {key : String}

/-! ### The document -/

/-- Only the last version that was set is left. -/
lemma setVersion_setVersion (v w : String) (d : Metadata) :
    (d.setVersion v).setVersion w = d.setVersion w :=
  congrArg Metadata.mk (Members.insert_insert versionKey (.text v) (.text w) d.members)

lemma version?_setVersion (v : String) (d : Metadata) : (d.setVersion v).version? = some v := by
  simp [version?, setVersion, Json.text?]

/-! ### Keys -/

def firstSegment? (key : String) : Option String :=
  (Text.cut pathSeparator key).head?

lemma step?_versionKey (v : String) (d : Metadata) :
    step? (.object (d.setVersion v).members) versionKey = some (.text v) :=
  Members.find?_insert_self versionKey (.text v) d.members

lemma lookup_versionKey (v : String) (d : Metadata) :
    (d.setVersion v).lookup versionKey = some (.text v) := by
  rw [lookup_eq_foldlM, Text.cut_of_notMem (by decide), List.foldlM_cons, step?_versionKey]
  rfl

/-- A version that was set is a text, so no path leads through it. -/
lemma lookup_through_version (v : String) (d : Metadata) {segment : String} {rest : List String}
    (h : Text.cut pathSeparator key = versionKey :: segment :: rest) :
    (d.setVersion v).lookup key = none := by
  rw [lookup_eq_foldlM, h, List.foldlM_cons, step?_versionKey]
  rfl

/-- A path that starts elsewhere never meets the version. -/
lemma lookup_setVersion_of_ne (v : String) (d : Metadata)
    (h : firstSegment? key ≠ some versionKey) : (d.setVersion v).lookup key = d.lookup key := by
  obtain ⟨first, rest, hcut⟩ := List.exists_cons_of_ne_nil (Text.cut_ne_nil pathSeparator key)
  have hne : first ≠ versionKey := by
    rintro rfl
    exact h (by rw [firstSegment?, hcut, List.head?_cons])
  have hstep : step? (.object (d.setVersion v).members) first = step? (.object d.members) first :=
    Members.find?_insert_of_ne hne (.text v) d.members
  rw [lookup_eq_foldlM, lookup_eq_foldlM, hcut, List.foldlM_cons, List.foldlM_cons, hstep]

/--
Setting the version changes the version and nothing else. The version is then the text that was set,
nothing is found through it, and every other key finds what it found. The other members stay in
their order, and the version at its place if it had one and at the end if not. Only the last of
several versions is left. A manifest that shows nothing at or below the version is not changed.
-/
theorem setVersion_frame (d : Metadata) (v w : String) :
    (d.setVersion v).version? = some v ∧
    (d.setVersion v).lookup versionKey = some (.text v) ∧
    (∀ key segment rest, Text.cut pathSeparator key = versionKey :: segment :: rest →
      (d.setVersion v).lookup key = none) ∧
    (∀ key, firstSegment? key ≠ some versionKey → (d.setVersion v).lookup key = d.lookup key) ∧
    (d.setVersion v).members.keys =
      (if versionKey ∈ d.members.keys then d.members.keys else d.members.keys ++ [versionKey]) ∧
    (d.setVersion v).members.filter (fun m => m.1 ≠ versionKey) =
      d.members.filter (fun m => m.1 ≠ versionKey) ∧
    (d.setVersion v).setVersion w = d.setVersion w ∧
    ∀ ss : List Section,
      (∀ s ∈ ss, ∀ key, Manifest.Shows s key → firstSegment? key ≠ some versionKey) →
      Manifest.render (d.setVersion v) ss = Manifest.render d ss := by
  refine ⟨version?_setVersion v d, lookup_versionKey v d, ?_, ?_, ?_, ?_,
    setVersion_setVersion v w d, ?_⟩
  · exact fun key segment rest h => lookup_through_version v d h
  · exact fun key h => lookup_setVersion_of_ne v d h
  · exact Members.keys_insert versionKey (.text v) d.members
  · exact Members.filter_insert versionKey (.text v) d.members
  · intro ss h
    exact Manifest.render_congr fun s hs key hkey => lookup_setVersion_of_ne v d (h s hs key hkey)

/-- A version that was an object is not found through any more, and its neighbours are shown as
before. -/
theorem setVersion_frame_object :
    let d : Metadata :=
      ⟨[("version", .object [("major", .text "1")]), ("name.version", .text "x"),
        ("name", .object [("version", .text "y")])]⟩
    let ss : List Section :=
      [⟨"names", true, .packageMetadata [⟨"name", "name.version"⟩]⟩,
        ⟨"versions", false, .packageMetadata [⟨"major", "version.major"⟩]⟩]
    d.lookup "version.major" = some (.text "1") ∧
      (d.setVersion "2").lookup "version.major" = none ∧
      (d.setVersion "2").lookup "name.version" = some (.text "y") ∧
      Manifest.render (d.setVersion "2") ss = Manifest.render d ss := by
  intro d ss
  obtain ⟨-, -, hthrough, hother, -, -, -, hrender⟩ := setVersion_frame d "2" ""
  refine ⟨rfl, hthrough _ "major" [] rfl, (hother "name.version" (by decide)).trans rfl,
    hrender ss ?_⟩
  rintro s hs key ⟨henabled, projections, hbody, p, hp, rfl⟩
  rcases List.mem_cons.mp hs with rfl | hs
  · obtain rfl := Manifest.Body.packageMetadata.inj hbody
    rw [List.mem_singleton.mp hp]
    decide
  · rw [List.mem_singleton.mp hs] at henabled
    cases henabled

end Metadata

end ResourceBuild

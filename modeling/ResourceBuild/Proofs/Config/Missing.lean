import ResourceBuild.Proofs.Config.Settings
import ResourceBuild.Proofs.Toml.Editing

/-!
# Missing and foreign keys

A configuration can do without any of its keys: the tables it is decoded from may lose whatever keys
they have, at every level, and just the settings that are lost have their defaults then. Keys that
are no settings may stand in any of these tables.
-/

namespace ResourceBuild.Config

open Decode Outcome

/-! ### The tables of a configuration -/

/-- The tables that hold the settings of a configuration, those of sections by their position. -/
inductive Place where
  | root
  | metadata
  | stamp
  | manifest
  | declaration (position : Nat)
  | category (position : Nat)
  | bundle
  | release

def Place.record : Place → Record
  | .root => Config.record
  | .metadata => MetadataSettings.record
  | .stamp => StampSettings.record
  | .manifest => ManifestSettings.record
  | .declaration _ => Manifest.Declaration.record
  | .category _ => Manifest.CategoryDraft.record
  | .bundle => BundleSettings.record
  | .release => ReleaseSettings.record

lemma Place.isSettings (p : Place) : p.record.IsSettings := by
  cases p with
  | declaration i => exact (⟨rfl, by decide⟩ : Manifest.Declaration.record.IsSettings)
  | category i => exact (⟨rfl, by decide⟩ : Manifest.CategoryDraft.record.IsSettings)
  | _ => exact ⟨rfl, by decide⟩

/-- Some keys in each of the tables. -/
abbrev Keys := Place → String → Bool

def mapItems (f : Nat → Toml → Toml) : Toml → Toml
  | .array xs => .array (xs.mapIdx f)
  | v => v

def pruneDeclaration (gone : Keys) (i : Nat) (v : Toml) : Toml :=
  Manifest.Declaration.record.mapFields
    (fun name x => if name = "category" then x.without (gone (.category i)) else x)
    (v.without (gone (.declaration i)))

def pruneManifest (gone : Keys) (v : Toml) : Toml :=
  ManifestSettings.record.mapFields
    (fun name x => if name = "sections" then mapItems (pruneDeclaration gone) x else x)
    (v.without (gone .manifest))

def prunePart (gone : Keys) (name : String) (v : Toml) : Toml :=
  match name with
  | "metadata" => v.without (gone .metadata)
  | "timestamp" => v.without (gone .stamp)
  | "manifest" => pruneManifest gone v
  | "bundle" => v.without (gone .bundle)
  | "release" => v.without (gone .release)
  | _ => v

/-- The tree of a configuration without some keys in its tables. -/
def prune (gone : Keys) (v : Toml) : Toml :=
  record.mapFields (prunePart gone) (v.without (gone .root))

/-! ### Settings at their defaults -/

/-- The header of a category, in which what is lost is as if it had never been declared. -/
def resetCategory (lost : String → Bool) (c : Manifest.CategoryDraft) : Manifest.CategoryDraft :=
  let initial : Manifest.CategoryDraft := {}
  { name := if lost "name" then initial.name else c.name
    description := if lost "description" then initial.description else c.description }

/-- A declaration with defaults for what is lost with some keys of its tree. -/
def resetDeclaration (gone : Keys) (i : Nat) (v : Toml) (d : Manifest.Declaration) :
    Manifest.Declaration :=
  let initial : Manifest.Declaration := {}
  let lost := Manifest.Declaration.record.loses (gone (.declaration i)) v
  let header := Manifest.Declaration.record.part v "category"
  { id := if lost "id" then initial.id else d.id
    kind := if lost "type" then initial.kind else d.kind
    enabled := if lost "enabled" then initial.enabled else d.enabled
    data := if lost "data" then initial.data else d.data
    singularKey := if lost "singular_key" then initial.singularKey else d.singularKey
    pluralKey := if lost "plural_key" then initial.pluralKey else d.pluralKey
    category := if lost "category" then initial.category
      else d.category.map
        (resetCategory (Manifest.CategoryDraft.record.loses (gone (.category i)) header)) }

def resetDeclarations (gone : Keys) (v : Toml) (ds : List Manifest.Declaration) :
    List Manifest.Declaration :=
  match v with
  | .array xs => (xs.zip ds).mapIdx fun i m => resetDeclaration gone i m.1 m.2
  | _ => ds

namespace MetadataSettings

def reset (lost : String → Bool) (s : MetadataSettings) : MetadataSettings :=
  let initial : MetadataSettings := {}
  { path := if lost "path" then initial.path else s.path
    versionVariable := if lost "version_env" then initial.versionVariable else s.versionVariable
    versionMark := if lost "version_prefix" then initial.versionMark else s.versionMark
    indent := if lost "indent" then initial.indent else s.indent }

end MetadataSettings

namespace StampSettings

def reset (lost : String → Bool) (s : StampSettings) : StampSettings :=
  let initial : StampSettings := {}
  { output := if lost "output" then initial.output else s.output
    style := if lost "style" then initial.style else s.style
    locale := if lost "locale" then initial.locale else s.locale
    timeZone := if lost "time_zone" then initial.timeZone else s.timeZone
    pattern := if lost "pattern" then initial.pattern else s.pattern }

end StampSettings

namespace ManifestSettings

def reset (gone : Keys) (v : Toml) (s : ManifestSettings) : ManifestSettings :=
  let initial : ManifestSettings := {}
  let lost := record.loses (gone .manifest) v
  { output := if lost "output" then initial.output else s.output
    sections := if lost "sections" then initial.sections
      else resetDeclarations gone (record.part v "sections") s.sections }

end ManifestSettings

namespace BundleSettings

def reset (lost : String → Bool) (s : BundleSettings) : BundleSettings :=
  let initial : BundleSettings := {}
  { entryPoints := if lost "entry_points" then initial.entryPoints else s.entryPoints
    output := if lost "output" then initial.output else s.output
    program := if lost "program" then initial.program else s.program
    options := if lost "options" then initial.options else s.options }

end BundleSettings

namespace ReleaseSettings

def reset (lost : String → Bool) (s : ReleaseSettings) : ReleaseSettings :=
  let initial : ReleaseSettings := {}
  { repository := if lost "repository" then initial.repository else s.repository
    delay := if lost "delay_secs" then initial.delay else s.delay }

end ReleaseSettings

def reset (gone : Keys) (v : Toml) (c : Config) : Config :=
  let initial : Config := {}
  let lost := record.loses (gone .root) v
  { metadata := if lost "metadata" then initial.metadata
      else
        c.metadata.reset (MetadataSettings.record.loses (gone .metadata) (record.part v "metadata"))
    stamp := if lost "timestamp" then initial.stamp
      else c.stamp.reset (StampSettings.record.loses (gone .stamp) (record.part v "timestamp"))
    manifest := if lost "manifest" then initial.manifest
      else c.manifest.reset gone (record.part v "manifest")
    bundle := if lost "bundle" then initial.bundle
      else c.bundle.reset (BundleSettings.record.loses (gone .bundle) (record.part v "bundle"))
    release := if lost "release" then initial.release
      else c.release.map
        (ReleaseSettings.reset
          (ReleaseSettings.record.loses (gone .release) (record.part v "release")))
    base := c.base }

/-! ### Missing keys -/

section Missing

variable {v : Toml}

lemma MetadataSettings.decode_without {s : MetadataSettings} (h : decode v = .ok s)
    (gone : String → Bool) :
    decode (v.without gone) = .ok (s.reset (record.loses gone v)) := by
  rw [decode_eq_ok_iff] at h ⊢
  obtain ⟨hadmits, hpath, hvariable, hmark, hindent⟩ := h
  simp only [reset, apply_ite Files.Path.text]
  exact ⟨hadmits.without gone, hadmits.withDefault_without hpath,
    hadmits.withDefault_without hvariable, hadmits.withDefault_without hmark,
    hadmits.withDefault_without hindent⟩

lemma StampSettings.decode_without {s : StampSettings} (h : decode v = .ok s)
    (gone : String → Bool) :
    decode (v.without gone) = .ok (s.reset (record.loses gone v)) := by
  rw [decode_eq_ok_iff] at h ⊢
  obtain ⟨hadmits, houtput, hstyle, hlocale, hzone, hpattern⟩ := h
  simp only [reset, apply_ite Files.Path.text]
  exact ⟨hadmits.without gone, hadmits.withDefault_without houtput,
    hadmits.withDefault_without hstyle, hadmits.withDefault_without hlocale,
    hadmits.withDefault_without hzone, hadmits.withDefault_without hpattern⟩

lemma BundleSettings.decode_without {s : BundleSettings} (h : decode v = .ok s)
    (gone : String → Bool) :
    decode (v.without gone) = .ok (s.reset (record.loses gone v)) := by
  rw [decode_eq_ok_iff] at h ⊢
  obtain ⟨hadmits, hentries, houtput, hprogram, hoptions⟩ := h
  simp only [reset, apply_ite Files.Path.text]
  exact ⟨hadmits.without gone, hadmits.withDefault_without hentries,
    hadmits.withDefault_without houtput, hadmits.withDefault_without hprogram,
    hadmits.withDefault_without hoptions⟩

lemma ReleaseSettings.decode_without {s : ReleaseSettings} (h : decode v = .ok s)
    (gone : String → Bool) :
    decode (v.without gone) = .ok (s.reset (record.loses gone v)) := by
  rw [decode_eq_ok_iff] at h ⊢
  obtain ⟨hadmits, hrepository, hdelay⟩ := h
  exact ⟨hadmits.without gone, hadmits.withDefault_without hrepository,
    hadmits.withDefault_without hdelay⟩

lemma category_decode_without {c : Manifest.CategoryDraft}
    (h : Manifest.CategoryDraft.decode v = .ok c) (gone : String → Bool) :
    Manifest.CategoryDraft.decode (v.without gone) =
      .ok (resetCategory (Manifest.CategoryDraft.record.loses gone v) c) := by
  rw [Manifest.CategoryDraft.decode_eq_ok_iff] at h ⊢
  obtain ⟨hadmits, hname, hdescription⟩ := h
  exact ⟨hadmits.without gone, hadmits.withDefault_without hname,
    hadmits.withDefault_without hdescription⟩

lemma declaration_decode_prune {d : Manifest.Declaration} {i : Nat}
    (h : Manifest.Declaration.decode v = .ok d) (gone : Keys) :
    Manifest.Declaration.decode (pruneDeclaration gone i v) =
      .ok (resetDeclaration gone i v d) := by
  rw [Manifest.Declaration.decode_eq_ok_iff] at h ⊢
  obtain ⟨hadmits, hid, hkind, henabled, hdata, hsingular, hplural, hcategory⟩ := h
  have hr := (Place.declaration i).isSettings
  refine ⟨(Record.admits_mapFields_iff _).mpr (hadmits.without _), ?_, ?_, ?_, ?_, ?_, ?_, ?_⟩
  · exact hadmits.withDefault_kept hr hid (fun _ => rfl)
  · exact hadmits.withDefault_kept hr hkind (fun _ => rfl)
  · exact hadmits.withDefault_kept hr henabled (fun _ => rfl)
  · exact hadmits.withDefault_kept hr hdata (fun _ => rfl)
  · exact hadmits.withDefault_kept hr hsingular (fun _ => rfl)
  · exact hadmits.withDefault_kept hr hplural (fun _ => rfl)
  · -- only the header of the category is edited besides, by keys of its own
    refine hadmits.withDefault_edited hr hcategory
      (fun header => d.category.map
        (resetCategory (Manifest.CategoryDraft.record.loses (gone (.category i)) header)))
      (fun x h => ?_) ?_
    · rw [Toml.optional_eq, map_eq_ok_iff] at h ⊢
      obtain ⟨c, hc, heq⟩ := h
      rw [← heq]
      exact ⟨_, category_decode_without hc _, rfl⟩
    · cases d.category <;> rfl

/-- Declarations lose what their trees lose, each by itself. -/
lemma declarations_decode_prune {ds : List Manifest.Declaration}
    (h : list Manifest.Declaration.decode v = .ok ds) (gone : Keys) :
    list Manifest.Declaration.decode (mapItems (pruneDeclaration gone) v) =
      .ok (resetDeclarations gone v ds) := by
  cases v with
  | array xs =>
    change xs.mapM Manifest.Declaration.decode = .ok ds at h
    change (xs.mapIdx (pruneDeclaration gone)).mapM Manifest.Declaration.decode =
      .ok ((xs.zip ds).mapIdx fun i m => resetDeclaration gone i m.1 m.2)
    rw [mapM_eq_ok_iff, List.forall₂_iff_get] at h ⊢
    obtain ⟨hlength, hitems⟩ := h
    refine ⟨by simp [hlength], fun i hi hi' => ?_⟩
    rw [List.length_mapIdx] at hi
    simpa using declaration_decode_prune (hitems i hi (hlength ▸ hi)) gone
  | _ => cases h

lemma ManifestSettings.decode_prune {s : ManifestSettings} (h : decode v = .ok s) (gone : Keys) :
    decode (pruneManifest gone v) = .ok (s.reset gone v) := by
  rw [decode_eq_ok_iff] at h ⊢
  obtain ⟨hadmits, houtput, hsections⟩ := h
  have hr := Place.manifest.isSettings
  simp only [reset, apply_ite Files.Path.text]
  refine ⟨(Record.admits_mapFields_iff _).mpr (hadmits.without _), ?_, ?_⟩
  · exact hadmits.withDefault_kept hr houtput (fun _ => rfl)
  · exact hadmits.withDefault_edited hr hsections (fun x => resetDeclarations gone x s.sections)
      (fun _ h => declarations_decode_prune h gone) rfl

/-- A tree without some of its keys decodes, to the same but for the settings that are lost. -/
theorem decode_prune {c : Config} (h : decode v = .ok c) (gone : Keys) :
    decode (prune gone v) = .ok (c.reset gone v) := by
  rw [decode_eq_ok_iff] at h ⊢
  obtain ⟨hadmits, hmetadata, hstamp, hmanifest, hbundle, hrelease, hbase⟩ := h
  have hr := Place.root.isSettings
  refine ⟨(Record.admits_mapFields_iff _).mpr (hadmits.without _), ?_, ?_, ?_, ?_, ?_, hbase⟩
  · exact hadmits.withDefault_edited hr hmetadata
      (fun x => c.metadata.reset (MetadataSettings.record.loses (gone .metadata) x))
      (fun _ h => MetadataSettings.decode_without h _) rfl
  · exact hadmits.withDefault_edited hr hstamp
      (fun x => c.stamp.reset (StampSettings.record.loses (gone .stamp) x))
      (fun _ h => StampSettings.decode_without h _) rfl
  · exact hadmits.withDefault_edited hr hmanifest (fun x => c.manifest.reset gone x)
      (fun _ h => ManifestSettings.decode_prune h _) rfl
  · exact hadmits.withDefault_edited hr hbundle
      (fun x => c.bundle.reset (BundleSettings.record.loses (gone .bundle) x))
      (fun _ h => BundleSettings.decode_without h _) rfl
  · refine hadmits.withDefault_edited hr hrelease
      (fun x => c.release.map
        (ReleaseSettings.reset (ReleaseSettings.record.loses (gone .release) x)))
      (fun x h => ?_) ?_
    · rw [Toml.optional_eq, map_eq_ok_iff] at h ⊢
      obtain ⟨s, hs, heq⟩ := h
      rw [← heq]
      exact ⟨_, ReleaseSettings.decode_without hs _, rfl⟩
    · cases c.release <;> rfl

end Missing

/-! ### Foreign keys -/

/-- No key among these is a setting of its table, under any spelling. -/
def Keys.Foreign (gone : Keys) : Prop :=
  ∀ p key, gone p key = true → p.record.fieldName? key = none

section Foreign

open Decode.Record (withDefault_without_foreign withDefault_of_edited admits_mapFields_iff
  isReadable_of_find?)

variable {v : Toml}

section

variable {lost : String → Bool} (hread : v.isReadable = true)

include hread

lemma MetadataSettings.decode_of_without {s : MetadataSettings}
    (hforeign : ∀ key, lost key = true → record.fieldName? key = none)
    (h : decode (v.without lost) = .ok s) : decode v = .ok s := by
  rw [decode_eq_ok_iff] at h ⊢
  simp only [Fields.optional, withDefault_without_foreign hforeign] at h ⊢
  exact ⟨h.1.of_without Place.metadata.isSettings hforeign hread, h.2⟩

lemma StampSettings.decode_of_without {s : StampSettings}
    (hforeign : ∀ key, lost key = true → record.fieldName? key = none)
    (h : decode (v.without lost) = .ok s) : decode v = .ok s := by
  rw [decode_eq_ok_iff] at h ⊢
  simp only [Fields.optional, withDefault_without_foreign hforeign] at h ⊢
  exact ⟨h.1.of_without Place.stamp.isSettings hforeign hread, h.2⟩

lemma BundleSettings.decode_of_without {s : BundleSettings}
    (hforeign : ∀ key, lost key = true → record.fieldName? key = none)
    (h : decode (v.without lost) = .ok s) : decode v = .ok s := by
  rw [decode_eq_ok_iff] at h ⊢
  simp only [withDefault_without_foreign hforeign] at h ⊢
  exact ⟨h.1.of_without Place.bundle.isSettings hforeign hread, h.2⟩

lemma ReleaseSettings.decode_of_without {s : ReleaseSettings}
    (hforeign : ∀ key, lost key = true → record.fieldName? key = none)
    (h : decode (v.without lost) = .ok s) : decode v = .ok s := by
  rw [decode_eq_ok_iff] at h ⊢
  simp only [withDefault_without_foreign hforeign] at h ⊢
  exact ⟨h.1.of_without Place.release.isSettings hforeign hread, h.2⟩

lemma category_decode_of_without {s : Manifest.CategoryDraft}
    (hforeign : ∀ key, lost key = true → Manifest.CategoryDraft.record.fieldName? key = none)
    (h : Manifest.CategoryDraft.decode (v.without lost) = .ok s) :
    Manifest.CategoryDraft.decode v = .ok s := by
  rw [Manifest.CategoryDraft.decode_eq_ok_iff] at h ⊢
  simp only [Fields.optional, withDefault_without_foreign hforeign] at h ⊢
  exact ⟨h.1.of_without (Place.category 0).isSettings hforeign hread, h.2⟩

end

variable {gone : Keys} (hforeign : gone.Foreign) (hread : v.isReadable = true)

include hforeign hread

lemma declaration_decode_of_prune {d : Manifest.Declaration} {i : Nat}
    (h : Manifest.Declaration.decode (pruneDeclaration gone i v) = .ok d) :
    Manifest.Declaration.decode v = .ok d := by
  have hr := (Place.declaration i).isSettings
  have hdeclaration := hforeign (.declaration i)
  rw [Manifest.Declaration.decode_eq_ok_iff] at h ⊢
  obtain ⟨hadmits, hid, hkind, henabled, hdata, hsingular, hplural, hcategory⟩ := h
  refine ⟨((admits_mapFields_iff _).mp hadmits).of_without hr hdeclaration hread,
    ?_, ?_, ?_, ?_, ?_, ?_, ?_⟩
  · exact withDefault_of_edited hr hdeclaration hid (fun _ _ h => h)
  · exact withDefault_of_edited hr hdeclaration hkind (fun _ _ h => h)
  · exact withDefault_of_edited hr hdeclaration henabled (fun _ _ h => h)
  · exact withDefault_of_edited hr hdeclaration hdata (fun _ _ h => h)
  · exact withDefault_of_edited hr hdeclaration hsingular (fun _ _ h => h)
  · exact withDefault_of_edited hr hdeclaration hplural (fun _ _ h => h)
  · -- a header that decodes without its foreign keys decodes with them
    refine withDefault_of_edited hr hdeclaration hcategory (fun x hx h => ?_)
    rw [Toml.optional_eq, map_eq_ok_iff] at h ⊢
    obtain ⟨c, hc, heq⟩ := h
    have hcategory := category_decode_of_without (isReadable_of_find? hread hx)
      (hforeign (.category i)) hc
    exact ⟨c, hcategory, heq⟩

lemma declarations_decode_of_prune {ds : List Manifest.Declaration}
    (h : list Manifest.Declaration.decode (mapItems (pruneDeclaration gone) v) = .ok ds) :
    list Manifest.Declaration.decode v = .ok ds := by
  cases v with
  | array xs =>
    change (xs.mapIdx (pruneDeclaration gone)).mapM Manifest.Declaration.decode = .ok ds at h
    change xs.mapM Manifest.Declaration.decode = .ok ds
    rw [mapM_eq_ok_iff, List.forall₂_iff_get] at h ⊢
    obtain ⟨hlength, hitems⟩ := h
    rw [List.length_mapIdx] at hlength
    refine ⟨hlength, fun i hi hi' => ?_⟩
    have hitem := hitems i (by rwa [List.length_mapIdx]) hi'
    rw [List.get_eq_getElem, List.getElem_mapIdx] at hitem
    exact declaration_decode_of_prune hforeign
      (Toml.numbersFit_array.mp hread _ (List.get_mem xs ⟨i, hi⟩)) hitem
  | _ => cases h

lemma ManifestSettings.decode_of_prune {s : ManifestSettings}
    (h : decode (pruneManifest gone v) = .ok s) : decode v = .ok s := by
  have hr := Place.manifest.isSettings
  have hmanifest := hforeign .manifest
  rw [decode_eq_ok_iff] at h ⊢
  obtain ⟨hadmits, houtput, hsections⟩ := h
  refine ⟨((admits_mapFields_iff _).mp hadmits).of_without hr hmanifest hread, ?_, ?_⟩
  · exact withDefault_of_edited hr hmanifest houtput (fun _ _ h => h)
  · exact withDefault_of_edited hr hmanifest hsections
      (fun _ hx h => declarations_decode_of_prune hforeign (isReadable_of_find? hread hx) h)

/-- What decodes without keys that are no settings decodes to the same with them. -/
theorem decode_of_prune {c : Config} (h : decode (prune gone v) = .ok c) : decode v = .ok c := by
  have hr := Place.root.isSettings
  have hroot := hforeign .root
  rw [decode_eq_ok_iff] at h ⊢
  obtain ⟨hadmits, hmetadata, hstamp, hmanifest, hbundle, hrelease, hbase⟩ := h
  have hwhole := ((admits_mapFields_iff _).mp hadmits).of_without hr hroot hread
  refine ⟨hwhole, ?_, ?_, ?_, ?_, ?_, hbase⟩
  · exact withDefault_of_edited hr hroot hmetadata (fun _ hx h =>
      MetadataSettings.decode_of_without (isReadable_of_find? hread hx) (hforeign .metadata) h)
  · exact withDefault_of_edited hr hroot hstamp (fun _ hx h =>
      StampSettings.decode_of_without (isReadable_of_find? hread hx) (hforeign .stamp) h)
  · exact withDefault_of_edited hr hroot hmanifest (fun _ hx h =>
      ManifestSettings.decode_of_prune hforeign (isReadable_of_find? hread hx) h)
  · exact withDefault_of_edited hr hroot hbundle (fun _ hx h =>
      BundleSettings.decode_of_without (isReadable_of_find? hread hx) (hforeign .bundle) h)
  · refine withDefault_of_edited hr hroot hrelease (fun x hx h => ?_)
    rw [Toml.optional_eq, map_eq_ok_iff] at h ⊢
    obtain ⟨s, hs, heq⟩ := h
    have hsettings := ReleaseSettings.decode_of_without (isReadable_of_find? hread hx)
      (hforeign .release) hs
    exact ⟨s, hsettings, heq⟩

end Foreign

/--
A configuration that loses keys still decodes, and just the settings that are lost have their
defaults then. Keys that are no settings change nothing, whatever values they have. Only the numbers
in these have to be ones that a decoder takes: whole numbers of at most 128 bits and reals within
the range of a double. So are all numbers of a document whose whole numbers have 64 bits and whose
reals are doubles.
-/
theorem decode_missing_and_foreign (t : Toml) (gone : Keys) :
    (∀ c, decode t = .ok c → decode (prune gone t) = .ok (c.reset gone t)) ∧
      (gone.Foreign → t.isReadable = true →
        ∀ c, decode (prune gone t) = .ok c → decode t = .ok c) :=
  ⟨fun _ h => decode_prune h gone, fun hforeign hread _ h => decode_of_prune hforeign hread h⟩

/-- A declaration loses its heading and the name of its category; notes stand beside both. -/
theorem decode_missing_and_foreign_heading :
    let t : Toml := .table [("note", .integer 1), ("manifest", .table [("sections", .array [.table
      [("id", .text "maps"), ("pluralKey", .text "Maps"),
        ("category", .table [("name", .text "Places"), ("note", .boolean true)])]])])]
    let d : Manifest.Declaration :=
      { id := some "maps", pluralKey := some "Maps", category := some ⟨some "Places", none⟩ }
    let d' : Manifest.Declaration := { id := some "maps", category := some {} }
    decode t = .ok { manifest := { sections := [d] } } ∧
      decode (prune (fun _ key => key == "pluralKey" || key == "name") t) =
        .ok { manifest := { sections := [d'] } } := by
  intro t d d'
  have hdecoded : decode t = .ok { manifest := { sections := [d] } } := by
    refine (decode_missing_and_foreign t fun _ key => key == "note").2 ?_ rfl _ rfl
    intro p key hkey
    rw [eq_of_beq hkey]
    cases p <;> rfl
  exact ⟨hdecoded, (decode_missing_and_foreign t _).1 _ hdecoded⟩

end ResourceBuild.Config

import ResourceBuild.Config.Decode
import ResourceBuild.Proofs.Decode.Record

/-!
# Settings in a document

When the settings of each part of a configuration are read from a TOML value: the value has the
form of the part, and each setting is what its field decodes to, or its default where there is no
such field.
-/

namespace ResourceBuild

open Decode Outcome

/-! ### Values of TOML -/

/-- TOML has no null, so a field that may be null is decoded whenever it is there. -/
lemma Toml.optional_eq {β : Type} (dec : Toml → Except DecodeError β) (v : Toml) :
    Decode.optional dec v = some <$> dec v := by
  cases v <;> rfl

lemma Toml.bound_eq_ok (r : Record) (v : Toml) : r.bound v = .ok () := by
  cases v <;> rfl

/-- An optional field that decodes passes the check of its decoder. -/
lemma Toml.discard_of_optional {β : Type} {fs : Fields Toml} {name : String} {y : Option β}
    {dec : Toml → Except DecodeError β} (h : fs.optional name dec = .ok y) {x : Toml}
    (hx : fs.values.lookup name = some x) : discard (dec x) = .ok () := by
  obtain ⟨z, hz⟩ := discard_eq_ok_iff.mp (Fields.discard_of_withDefault h hx)
  rw [optional_eq, map_eq_ok_iff] at hz
  obtain ⟨w, hw, -⟩ := hz
  exact discard_eq_ok_iff.mpr ⟨w, hw⟩

namespace Manifest

variable {v : Toml}

lemma CategoryDraft.decode_eq_ok_iff {c : CategoryDraft} :
    decode v = .ok c ↔ record.Admits v ∧
      (record.fieldsOf v).optional "name" text = .ok c.name ∧
      (record.fieldsOf v).optional "description" text = .ok c.description := by
  simp only [decode, bind_eq_ok_iff, Record.read_eq_ok_iff, pure_eq_ok_iff, Toml.bound_eq_ok]
  constructor
  · rintro ⟨_, ⟨hadmits, -, rfl⟩, _, hname, _, hdescription, _, -, rfl⟩
    exact ⟨hadmits, hname, hdescription⟩
  · rintro ⟨hadmits, hname, hdescription⟩
    refine ⟨_, ⟨hadmits, hadmits.checks (by decide) ?_, rfl⟩, _, hname, _, hdescription, (),
      trivial, rfl⟩
    simp only [Record.names, record, List.map_cons, List.map_nil, List.forall_mem_cons]
    exact ⟨fun _ => Fields.discard_of_withDefault hname,
      fun _ => Fields.discard_of_withDefault hdescription, by simp⟩

lemma Declaration.decode_eq_ok_iff {d : Declaration} :
    decode v = .ok d ↔ record.Admits v ∧
      (record.fieldsOf v).optional "id" text = .ok d.id ∧
      (record.fieldsOf v).optional "type" text = .ok d.kind ∧
      (record.fieldsOf v).withDefault "enabled" true flag = .ok d.enabled ∧
      (record.fieldsOf v).optional "data" free = .ok d.data ∧
      (record.fieldsOf v).optional "singular_key" text = .ok d.singularKey ∧
      (record.fieldsOf v).optional "plural_key" text = .ok d.pluralKey ∧
      (record.fieldsOf v).optional "category" CategoryDraft.decode = .ok d.category := by
  simp only [decode, bind_eq_ok_iff, Record.read_eq_ok_iff, pure_eq_ok_iff, Toml.bound_eq_ok]
  constructor
  · rintro ⟨_, ⟨hadmits, -, rfl⟩, _, hid, _, hkind, _, henabled, _, hdata, _, hsingular, _, hplural,
      _, hcategory, _, -, rfl⟩
    exact ⟨hadmits, hid, hkind, henabled, hdata, hsingular, hplural, hcategory⟩
  · rintro ⟨hadmits, hid, hkind, henabled, hdata, hsingular, hplural, hcategory⟩
    refine ⟨_, ⟨hadmits, hadmits.checks (by decide) ?_, rfl⟩, _, hid, _, hkind, _, henabled, _,
      hdata, _, hsingular, _, hplural, _, hcategory, (), trivial, rfl⟩
    simp only [Record.names, record, Field.plain, List.map_cons, List.map_nil,
      List.forall_mem_cons]
    exact ⟨fun _ => Fields.discard_of_withDefault hid, fun _ => Fields.discard_of_withDefault hkind,
      fun _ => Fields.discard_of_withDefault henabled, fun _ => Fields.discard_of_withDefault hdata,
      fun _ => Fields.discard_of_withDefault hsingular,
      fun _ => Fields.discard_of_withDefault hplural,
      fun _ => Fields.discard_of_withDefault hcategory, by simp⟩

end Manifest

namespace Config

variable {v : Toml}

lemma MetadataSettings.decode_eq_ok_iff {s : MetadataSettings} :
    decode v = .ok s ↔ record.Admits v ∧
      (record.fieldsOf v).withDefault "path" "" Decode.path = .ok s.path.text ∧
      (record.fieldsOf v).optional "version_env" text = .ok s.versionVariable ∧
      (record.fieldsOf v).optional "version_prefix" text = .ok s.versionMark ∧
      (record.fieldsOf v).withDefault "indent" 2 width = .ok s.indent := by
  simp only [decode, bind_eq_ok_iff, Record.read_eq_ok_iff, pure_eq_ok_iff]
  constructor
  · rintro ⟨_, ⟨hadmits, -, rfl⟩, _, hpath, _, hvariable, _, hmark, _, hindent, rfl⟩
    exact ⟨hadmits, hpath, hvariable, hmark, hindent⟩
  · rintro ⟨hadmits, hpath, hvariable, hmark, hindent⟩
    refine ⟨_, ⟨hadmits, hadmits.checks (by decide) ?_, rfl⟩, _, hpath, _, hvariable, _, hmark, _,
      hindent, rfl⟩
    simp only [Record.names, record, List.map_cons, List.map_nil, List.forall_mem_cons]
    exact ⟨fun _ => Fields.discard_of_withDefault hpath,
      fun _ => Toml.discard_of_optional hvariable, fun _ => Toml.discard_of_optional hmark,
      fun _ => Fields.discard_of_withDefault hindent, by simp⟩

lemma StampSettings.decode_eq_ok_iff {s : StampSettings} :
    decode v = .ok s ↔ record.Admits v ∧
      (record.fieldsOf v).withDefault "output" "" Decode.path = .ok s.output.text ∧
      (record.fieldsOf v).withDefault "style" .iso StampStyle.decode = .ok s.style ∧
      (record.fieldsOf v).optional "locale" text = .ok s.locale ∧
      (record.fieldsOf v).optional "time_zone" text = .ok s.timeZone ∧
      (record.fieldsOf v).optional "pattern" text = .ok s.pattern := by
  simp only [decode, bind_eq_ok_iff, Record.read_eq_ok_iff, pure_eq_ok_iff]
  constructor
  · rintro ⟨_, ⟨hadmits, -, rfl⟩, _, houtput, _, hstyle, _, hlocale, _, hzone, _, hpattern, rfl⟩
    exact ⟨hadmits, houtput, hstyle, hlocale, hzone, hpattern⟩
  · rintro ⟨hadmits, houtput, hstyle, hlocale, hzone, hpattern⟩
    refine ⟨_, ⟨hadmits, hadmits.checks (by decide) ?_, rfl⟩, _, houtput, _, hstyle, _, hlocale, _,
      hzone, _, hpattern, rfl⟩
    simp only [Record.names, record, List.map_cons, List.map_nil, List.forall_mem_cons]
    exact ⟨fun _ => Fields.discard_of_withDefault houtput,
      fun _ => Fields.discard_of_withDefault hstyle, fun _ => Toml.discard_of_optional hlocale,
      fun _ => Toml.discard_of_optional hzone, fun _ => Toml.discard_of_optional hpattern, by simp⟩

lemma ManifestSettings.decode_eq_ok_iff {s : ManifestSettings} :
    decode v = .ok s ↔ record.Admits v ∧
      (record.fieldsOf v).withDefault "output" "" Decode.path = .ok s.output.text ∧
      (record.fieldsOf v).withDefault "sections" [] (list Manifest.Declaration.decode) =
        .ok s.sections := by
  simp only [decode, bind_eq_ok_iff, Record.read_eq_ok_iff, pure_eq_ok_iff]
  constructor
  · rintro ⟨_, ⟨hadmits, -, rfl⟩, _, houtput, _, hsections, rfl⟩
    exact ⟨hadmits, houtput, hsections⟩
  · rintro ⟨hadmits, houtput, hsections⟩
    refine ⟨_, ⟨hadmits, hadmits.checks (by decide) ?_, rfl⟩, _, houtput, _, hsections, rfl⟩
    simp only [Record.names, record, List.map_cons, List.map_nil, List.forall_mem_cons]
    exact ⟨fun _ => Fields.discard_of_withDefault houtput,
      fun _ => Fields.discard_of_withDefault hsections, by simp⟩

lemma BundleSettings.decode_eq_ok_iff {s : BundleSettings} :
    decode v = .ok s ↔ record.Admits v ∧
      (record.fieldsOf v).withDefault "entry_points" [] (list text) = .ok s.entryPoints ∧
      (record.fieldsOf v).withDefault "output" "" Decode.path = .ok s.output.text ∧
      (record.fieldsOf v).withDefault "program" "esbuild" text = .ok s.program ∧
      (record.fieldsOf v).withDefault "options" [] freeTable = .ok s.options := by
  simp only [decode, bind_eq_ok_iff, Record.read_eq_ok_iff, pure_eq_ok_iff]
  constructor
  · rintro ⟨_, ⟨hadmits, -, rfl⟩, _, hentries, _, houtput, _, hprogram, _, hoptions, rfl⟩
    exact ⟨hadmits, hentries, houtput, hprogram, hoptions⟩
  · rintro ⟨hadmits, hentries, houtput, hprogram, hoptions⟩
    refine ⟨_, ⟨hadmits, hadmits.checks (by decide) ?_, rfl⟩, _, hentries, _, houtput, _, hprogram,
      _, hoptions, rfl⟩
    simp only [Record.names, record, List.map_cons, List.map_nil, List.forall_mem_cons]
    exact ⟨fun _ => Fields.discard_of_withDefault hentries,
      fun _ => Fields.discard_of_withDefault houtput,
      fun _ => Fields.discard_of_withDefault hprogram,
      fun _ => Fields.discard_of_withDefault hoptions, by simp⟩

lemma ReleaseSettings.decode_eq_ok_iff {s : ReleaseSettings} :
    decode v = .ok s ↔ record.Admits v ∧
      (record.fieldsOf v).withDefault "repository" "" text = .ok s.repository ∧
      (record.fieldsOf v).withDefault "delay_secs" 5 seconds = .ok s.delay := by
  simp only [decode, bind_eq_ok_iff, Record.read_eq_ok_iff, pure_eq_ok_iff]
  constructor
  · rintro ⟨_, ⟨hadmits, -, rfl⟩, _, hrepository, _, hdelay, rfl⟩
    exact ⟨hadmits, hrepository, hdelay⟩
  · rintro ⟨hadmits, hrepository, hdelay⟩
    refine ⟨_, ⟨hadmits, hadmits.checks (by decide) ?_, rfl⟩, _, hrepository, _, hdelay, rfl⟩
    simp only [Record.names, record, List.map_cons, List.map_nil, List.forall_mem_cons]
    exact ⟨fun _ => Fields.discard_of_withDefault hrepository,
      fun _ => Fields.discard_of_withDefault hdelay, by simp⟩

/-- What is decoded has no directory to start from yet. -/
theorem decode_eq_ok_iff {c : Config} :
    decode v = .ok c ↔ record.Admits v ∧
      (record.fieldsOf v).withDefault "metadata" {} MetadataSettings.decode = .ok c.metadata ∧
      (record.fieldsOf v).withDefault "timestamp" {} StampSettings.decode = .ok c.stamp ∧
      (record.fieldsOf v).withDefault "manifest" {} ManifestSettings.decode = .ok c.manifest ∧
      (record.fieldsOf v).withDefault "bundle" {} BundleSettings.decode = .ok c.bundle ∧
      (record.fieldsOf v).optional "release" ReleaseSettings.decode = .ok c.release ∧
      c.base = ⟨""⟩ := by
  simp only [decode, bind_eq_ok_iff, Record.read_eq_ok_iff, pure_eq_ok_iff]
  constructor
  · rintro ⟨_, ⟨hadmits, -, rfl⟩, _, hmetadata, _, hstamp, _, hmanifest, _, hbundle, _, hrelease,
      rfl⟩
    exact ⟨hadmits, hmetadata, hstamp, hmanifest, hbundle, hrelease, rfl⟩
  · obtain ⟨metadata, stamp, manifest, bundle, release, base⟩ := c
    rintro ⟨hadmits, hmetadata, hstamp, hmanifest, hbundle, hrelease, rfl⟩
    refine ⟨_, ⟨hadmits, hadmits.checks (by decide) ?_, rfl⟩, _, hmetadata, _, hstamp, _, hmanifest,
      _, hbundle, _, hrelease, rfl⟩
    simp only [Record.names, record, List.map_cons, List.map_nil, List.forall_mem_cons]
    exact ⟨fun _ => Fields.discard_of_withDefault hmetadata,
      fun _ => Fields.discard_of_withDefault hstamp,
      fun _ => Fields.discard_of_withDefault hmanifest,
      fun _ => Fields.discard_of_withDefault hbundle,
      fun _ => Toml.discard_of_optional hrelease, by simp⟩

end Config

end ResourceBuild

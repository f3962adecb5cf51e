import ResourceBuild.Proofs.Config.Settings
import ResourceBuild.Proofs.Config.Written
import ResourceBuild.Proofs.Json.Canonical

/-!
# Saving and reading again

A configuration that was read, written and read again is the configuration it was, but for the order
of members in its free-form values. Of the text in between nothing more is asked than that it reads
back as the document it was made from, with the members of its tables in any order; this fails for
documents that go deeper than a reader allows.
-/

namespace ResourceBuild

open Decimal
open Decode Outcome

/-- The text of a document reads back as the document, but for the order of members. -/
def Toml.ReadsBack (t : Toml) : Prop :=
  ∃ t', parse? t.print = some t' ∧ t.Reordered t'

/-- The same declaration, but for the order of members in its data. -/
structure Manifest.Declaration.SameButOrder (d d' : Declaration) : Prop where
  data : Option.Rel Json.Reordered d.data d'.data
  others : { d with data := none } = { d' with data := none }

namespace Config

/-- The same configuration, but for the order of members in its free-form values. -/
structure SameButOrder (c c' : Config) : Prop where
  sections : List.Forall₂ Manifest.Declaration.SameButOrder c.manifest.sections c'.manifest.sections
  options : (Json.object c.bundle.options).Reordered (.object c'.bundle.options)
  others : { c with manifest.sections := [], bundle.options := [] } =
    { c' with manifest.sections := [], bundle.options := [] }

/-! ### What was read -/

/-- A free-form value that a document can hold. -/
def IsFree (j : Json) : Prop :=
  ∃ v : Toml, v.free? = some j

/-- What every configuration has that was read: numbers that fit, and each option once. -/
structure IsDecoded (c : Config) : Prop where
  indent : Word.fitsUnsigned 64 c.metadata.indent = true
  data : ∀ d ∈ c.manifest.sections, ∀ j, d.data = some j → IsFree j
  keys : c.bundle.options.keys.Nodup
  options : ∀ m ∈ c.bundle.options, IsFree m.2
  delay : ∀ r, c.release = some r → Word.fitsUnsigned 64 r.delay = true

section Decoded

variable {v : Toml} {r : Record} {name : String} {β : Type} {d x : β}
  {dec : Toml → Except DecodeError β}

/-- What holds of the default and of all that is decoded holds of the field. -/
lemma of_withDefault {P : β → Prop} (h : (r.fieldsOf v).withDefault name d dec = .ok x) (hd : P d)
    (hdec : ∀ y, dec y = .ok x → P x) : P x := by
  rw [Record.withDefault_eq] at h
  cases hfind : r.find? v name with
  | none =>
    rw [hfind] at h
    cases h
    exact hd
  | some y =>
    rw [hfind] at h
    exact hdec y h

lemma fits_of_count {label : String} {n : Nat} (h : count label v = .ok n) :
    Word.fitsUnsigned 64 n = true := by
  unfold count at h
  split at h
  · split_ifs at h with hfits
    cases h
    rwa [Int.toNat_of_nonneg (of_decide_eq_true hfits).1]
  · cases h

lemma free_eq_ok_iff {j : Json} : free v = .ok j ↔ v.free? = some j := by
  change free v = .ok j ↔ Document.free? v = some j
  unfold free
  cases Document.free? v <;> simp

lemma isFree_of_data {d : Manifest.Declaration} (h : Manifest.Declaration.decode v = .ok d) :
    ∀ j, d.data = some j → IsFree j := by
  rw [Manifest.Declaration.decode_eq_ok_iff] at h
  refine of_withDefault (P := fun x => ∀ j, x = some j → IsFree j) h.2.2.2.2.1 (by simp) ?_
  intro y hy j hj
  rw [Toml.optional_eq, map_eq_ok_iff, hj] at hy
  obtain ⟨j', hfree, heq⟩ := hy
  cases heq
  exact ⟨y, free_eq_ok_iff.mp hfree⟩

lemma isFree_of_sections {ds : List Manifest.Declaration}
    (h : list Manifest.Declaration.decode v = .ok ds) :
    ∀ d ∈ ds, ∀ j, d.data = some j → IsFree j := by
  unfold list at h
  split at h
  · intro d hd
    obtain ⟨y, -, hy⟩ := exists_of_forall₂ (mapM_eq_ok_iff.mp h).flip hd
    exact isFree_of_data hy
  · cases h

/-- Options that were read: each once, and free-form values of a document. -/
lemma isFree_of_freeTable {ms : Members} (h : freeTable v = .ok ms) :
    ms.keys.Nodup ∧ ∀ m ∈ ms, IsFree m.2 := by
  unfold freeTable at h
  split at h
  · obtain ⟨fs, hfs, h⟩ := bind_eq_ok_iff.mp h
    cases h
    refine ⟨Members.nodup_keys_ofList fs, fun m hm => ?_⟩
    obtain ⟨n, -, hn⟩ := exists_of_forall₂ (mapM_eq_ok_iff.mp hfs).flip (Members.mem_ofList hm)
    obtain ⟨j, hj, heq⟩ := bind_eq_ok_iff.mp hn
    cases heq
    exact ⟨n.2, free_eq_ok_iff.mp hj⟩
  · cases h

lemma MetadataSettings.fits_indent {s : MetadataSettings} (h : decode v = .ok s) :
    Word.fitsUnsigned 64 s.indent = true := by
  rw [decode_eq_ok_iff] at h
  exact of_withDefault (P := fun n : Nat => Word.fitsUnsigned 64 n = true) h.2.2.2.2 (by decide)
    fun _ => fits_of_count

lemma ManifestSettings.isFree_of_data {s : ManifestSettings} (h : decode v = .ok s) :
    ∀ d ∈ s.sections, ∀ j, d.data = some j → IsFree j := by
  rw [decode_eq_ok_iff] at h
  exact of_withDefault (P := fun ds => ∀ d ∈ ds, ∀ j, d.data = some j → IsFree j) h.2.2 (by simp)
    fun _ => isFree_of_sections

lemma BundleSettings.isFree_of_options {s : BundleSettings} (h : decode v = .ok s) :
    s.options.keys.Nodup ∧ ∀ m ∈ s.options, IsFree m.2 := by
  rw [decode_eq_ok_iff] at h
  exact of_withDefault (P := fun ms => (Members.keys ms).Nodup ∧ ∀ m ∈ ms, IsFree m.2) h.2.2.2.2
    ⟨List.nodup_nil, by simp⟩ fun _ => isFree_of_freeTable

lemma ReleaseSettings.fits_delay {s : ReleaseSettings} (h : decode v = .ok s) :
    Word.fitsUnsigned 64 s.delay = true := by
  rw [decode_eq_ok_iff] at h
  exact of_withDefault (P := fun n : Nat => Word.fitsUnsigned 64 n = true) h.2.2 (by decide)
    fun _ => fits_of_count

/-- Whatever was read has these properties. -/
lemma isDecoded_of_decode {c : Config} (h : decode v = .ok c) : c.IsDecoded := by
  rw [decode_eq_ok_iff] at h
  obtain ⟨-, hmetadata, -, hmanifest, hbundle, hrelease, -⟩ := h
  have hoptions : c.bundle.options.keys.Nodup ∧ ∀ m ∈ c.bundle.options, IsFree m.2 :=
    of_withDefault (P := fun s => s.options.keys.Nodup ∧ ∀ m ∈ s.options, IsFree m.2) hbundle
      ⟨List.nodup_nil, by simp⟩ fun _ => BundleSettings.isFree_of_options
  refine ⟨?_, ?_, hoptions.1, hoptions.2, ?_⟩
  · exact of_withDefault (P := fun s : MetadataSettings => Word.fitsUnsigned 64 s.indent = true)
      hmetadata (by decide) fun _ => MetadataSettings.fits_indent
  · exact of_withDefault (P := fun s => ∀ d ∈ s.sections, ∀ j, d.data = some j → IsFree j)
      hmanifest (by simp) fun _ => ManifestSettings.isFree_of_data
  · refine of_withDefault (P := fun o : Option ReleaseSettings =>
      ∀ s, o = some s → Word.fitsUnsigned 64 s.delay = true) hrelease (by simp) fun y hy => ?_
    rw [Toml.optional_eq, map_eq_ok_iff] at hy
    obtain ⟨s, hs, heq⟩ := hy
    rw [← heq]
    rintro _ ⟨⟩
    exact ReleaseSettings.fits_delay hs

end Decoded

/-! ### What is read of what was written -/

section Written

variable {w : Toml} {r : Record} {name : String} {β : Type} {d x : β}
  {dec : Toml → Except DecodeError β}

lemma withDefault_of_find? {y : Toml} (h : r.find? w name = some y) :
    (r.fieldsOf w).withDefault name d dec = dec y := by
  rw [Record.withDefault_eq, h]
  rfl

lemma exists_of_rel {v : Toml} {o : Option Toml} (h : Option.Rel Toml.Reordered (some v) o) :
    ∃ y, o = some y ∧ v.Reordered y := by
  cases h with
  | some hy => exact ⟨_, rfl, hy⟩

lemma withDefault_of_rel {v : Toml} (h : Option.Rel Toml.Reordered (some v) (r.find? w name))
    (hdec : ∀ y, v.Reordered y → dec y = .ok x) :
    (r.fieldsOf w).withDefault name d dec = .ok x := by
  obtain ⟨y, hfind, hy⟩ := exists_of_rel h
  rw [withDefault_of_find? hfind]
  exact hdec y hy

lemma withDefault_text {s : String} (hdec : dec (.text s) = .ok x)
    (h : Option.Rel Toml.Reordered (some (.text s)) (r.find? w name)) :
    (r.fieldsOf w).withDefault name d dec = .ok x := by
  refine withDefault_of_rel h ?_
  rintro _ ⟨⟩
  exact hdec

lemma withDefault_count {label : String} {n d : Nat} (hn : Word.fitsUnsigned 64 n = true)
    (h : Option.Rel Toml.Reordered (some (.integer n)) (r.find? w name)) :
    (r.fieldsOf w).withDefault name d (count label) = .ok n := by
  refine withDefault_of_rel h ?_
  rintro _ ⟨⟩
  simp only [count, Document.shape, Toml.shape, if_pos hn, Int.toNat_natCast]

lemma optional_of_rel {x : Option β} {enc : β → Toml}
    (h : Option.Rel Toml.Reordered (x.map enc) (r.find? w name))
    (hdec : ∀ a y, x = some a → (enc a).Reordered y → dec y = .ok a) :
    (r.fieldsOf w).optional name dec = .ok x := by
  rw [Fields.optional, Record.withDefault_eq]
  generalize r.find? w name = y at h ⊢
  cases x with
  | none =>
    cases h with
    | none => rfl
  | some a =>
    cases h with
    | some hy =>
      change Decode.optional dec _ = _
      rw [Toml.optional_eq, hdec a _ rfl hy]
      rfl

lemma optional_text {x : Option String}
    (h : Option.Rel Toml.Reordered (x.map .text) (r.find? w name)) :
    (r.fieldsOf w).optional name text = .ok x := by
  refine optional_of_rel h ?_
  rintro s _ - ⟨⟩
  rfl

lemma MetadataSettings.decode_of_reordered {s : MetadataSettings}
    (hindent : Word.fitsUnsigned 64 s.indent = true) (h : s.toToml.Reordered w) :
    decode w = .ok s := by
  obtain ⟨hadmits, hfields⟩ := fields_of_tableOf (r := record) rfl (by decide) (by decide) h
  simp only [List.forall_mem_cons] at hfields
  obtain ⟨hpath, hvariable, hmark, hdepth, -⟩ := hfields
  rw [decode_eq_ok_iff]
  exact ⟨hadmits, withDefault_text rfl hpath, optional_text hvariable, optional_text hmark,
    withDefault_count hindent hdepth⟩

lemma StampSettings.decode_of_reordered {s : StampSettings} (h : s.toToml.Reordered w) :
    decode w = .ok s := by
  obtain ⟨hadmits, hfields⟩ := fields_of_tableOf (r := record) rfl (by decide) (by decide) h
  simp only [List.forall_mem_cons] at hfields
  obtain ⟨houtput, hstyle, hlocale, hzone, hpattern, -⟩ := hfields
  rw [decode_eq_ok_iff]
  refine ⟨hadmits, withDefault_text rfl houtput, withDefault_text ?_ hstyle, optional_text hlocale,
    optional_text hzone, optional_text hpattern⟩
  cases s.style <;> rfl

lemma ReleaseSettings.decode_of_reordered {s : ReleaseSettings}
    (hdelay : Word.fitsUnsigned 64 s.delay = true) (h : s.toToml.Reordered w) :
    decode w = .ok s := by
  obtain ⟨hadmits, hfields⟩ := fields_of_tableOf (r := record) rfl (by decide) (by decide) h
  simp only [List.forall_mem_cons] at hfields
  obtain ⟨hrepository, hseconds, -⟩ := hfields
  rw [decode_eq_ok_iff]
  exact ⟨hadmits, withDefault_text rfl hrepository, withDefault_count hdelay hseconds⟩

lemma category_decode_of_reordered {c : Manifest.CategoryDraft}
    (h : (categoryToml c).Reordered w) : Manifest.CategoryDraft.decode w = .ok c := by
  obtain ⟨hadmits, hfields⟩ :=
    fields_of_tableOf (r := Manifest.CategoryDraft.record) rfl (by decide) (by decide) h
  simp only [List.forall_mem_cons] at hfields
  obtain ⟨hname, hdescription, -⟩ := hfields
  rw [Manifest.CategoryDraft.decode_eq_ok_iff]
  exact ⟨hadmits, optional_text hname, optional_text hdescription⟩

/-- Free-form data is kept, but for the order of members. -/
lemma data_of_rel {x : Option Json} {o : Option Toml} (hfree : ∀ j, x = some j → IsFree j)
    (hx : Option.Rel (fun j t => freeToml? j = some t) x o)
    (h : Option.Rel Toml.Reordered o (r.find? w name)) :
    ∃ x', (r.fieldsOf w).optional name free = .ok x' ∧ Option.Rel Json.Reordered x x' := by
  rw [Fields.optional, Record.withDefault_eq]
  generalize r.find? w name = y at h ⊢
  cases hx with
  | none =>
    cases h with
    | none => exact ⟨none, rfl, .none⟩
  | some ht =>
    cases h with
    | some hy =>
      obtain ⟨v, hv⟩ := hfree _ rfl
      obtain ⟨j', hj', hrel⟩ := hy.free? (free?_of_freeToml? ht hv)
      refine ⟨some j', ?_, .some hrel⟩
      change Decode.optional free _ = _
      rw [Toml.optional_eq, free_eq_ok_iff.mpr hj']
      rfl

lemma declaration_decode_of_reordered {d : Manifest.Declaration} {t : Toml}
    (hd : ∀ j, d.data = some j → IsFree j) (ht : declarationToml? d = some t)
    (h : t.Reordered w) :
    ∃ data, Manifest.Declaration.decode w = .ok { d with data } ∧
      Option.Rel Json.Reordered d.data data := by
  obtain ⟨written, hwritten, rfl⟩ := exists_of_declarationToml? ht
  obtain ⟨hadmits, hfields⟩ :=
    fields_of_tableOf (r := Manifest.Declaration.record) rfl (by decide) (by decide) h
  simp only [List.forall_mem_cons] at hfields
  obtain ⟨hid, hkind, henabled, hdata, hsingular, hplural, hcategory, -⟩ := hfields
  obtain ⟨data, hfield, hrel⟩ := data_of_rel hd hwritten hdata
  refine ⟨data, ?_, hrel⟩
  rw [Manifest.Declaration.decode_eq_ok_iff]
  refine ⟨hadmits, optional_text hid, optional_text hkind, withDefault_of_rel henabled ?_, hfield,
    optional_text hsingular, optional_text hplural, optional_of_rel hcategory ?_⟩
  · rintro _ ⟨⟩
    rfl
  · exact fun _ _ _ => category_decode_of_reordered

lemma declarations_decode_of_reordered {ds : List Manifest.Declaration} {ts ws : List Toml}
    (hds : ∀ d ∈ ds, ∀ j, d.data = some j → IsFree j) (hts : ds.mapM declarationToml? = some ts)
    (h : List.Forall₂ Toml.Reordered ts ws) :
    ∃ ds', ws.mapM Manifest.Declaration.decode = .ok ds' ∧
      List.Forall₂ Manifest.Declaration.SameButOrder ds ds' := by
  rw [mapM_eq_some_iff] at hts
  simp only [mapM_eq_ok_iff]
  induction hts generalizing ws with
  | nil =>
    cases h
    exact ⟨[], .nil, .nil⟩
  | cons ht _ ih =>
    cases h with
    | cons hw hws =>
      rw [List.forall_mem_cons] at hds
      obtain ⟨data, hdecode, hrel⟩ := declaration_decode_of_reordered hds.1 ht hw
      obtain ⟨ds', hds', hsame⟩ := ih hds.2 hws
      exact ⟨_ :: ds', .cons hdecode hds', .cons ⟨hrel, rfl⟩ hsame⟩

lemma ManifestSettings.decode_of_reordered {s : ManifestSettings} {t : Toml}
    (hs : ∀ d ∈ s.sections, ∀ j, d.data = some j → IsFree j) (ht : s.toToml? = some t)
    (h : t.Reordered w) :
    ∃ sections, decode w = .ok { s with sections } ∧
      List.Forall₂ Manifest.Declaration.SameButOrder s.sections sections := by
  simp only [toToml?, Option.bind_eq_bind, Option.bind_eq_some_iff, Option.pure_def,
    Option.some.injEq] at ht
  obtain ⟨ts, hts, rfl⟩ := ht
  obtain ⟨hadmits, hfields⟩ := fields_of_tableOf (r := record) rfl (by decide) (by decide) h
  simp only [List.forall_mem_cons] at hfields
  obtain ⟨houtput, hsections, -⟩ := hfields
  obtain ⟨y, hfind, hy⟩ := exists_of_rel hsections
  obtain ⟨ws, rfl, hws⟩ := hy.of_array
  obtain ⟨ds, hds, hsame⟩ := declarations_decode_of_reordered hs hts hws
  refine ⟨ds, ?_, hsame⟩
  rw [decode_eq_ok_iff]
  exact ⟨hadmits, withDefault_text rfl houtput, (withDefault_of_find? hfind).trans hds⟩

lemma list_text (ss : List String) : list text (Toml.array (ss.map .text)) = .ok ss := by
  change (ss.map Toml.text).mapM text = .ok ss
  rw [mapM_eq_ok_iff, List.forall₂_map_left_iff]
  exact List.forall₂_same.mpr fun _ _ => rfl

/-- Options are read as the free-form table that they are, but each once. -/
lemma freeTable_of_free? {ns : List (String × Toml)} {j : Json}
    (h : (Toml.table ns).free? = some j) :
    ∃ ms, j = .object ms ∧ freeTable (Toml.table ns) = .ok (Members.ofList ms) := by
  obtain ⟨hfits, rfl⟩ := Toml.free?_eq_some_iff.mp h
  rw [Toml.numbersFit_table] at hfits
  refine ⟨Toml.toJsonMembers ns, by rw [Toml.toJson], ?_⟩
  refine bind_eq_ok_iff.mpr ⟨_, mapM_eq_ok_iff.mpr ?_, rfl⟩
  rw [Toml.toJsonMembers_eq_map, List.forall₂_map_right_iff, List.forall₂_same]
  intro n hn
  exact bind_eq_ok_iff.mpr
    ⟨_, free_eq_ok_iff.mpr (Toml.free?_eq_some_iff.mpr ⟨hfits n hn, rfl⟩), rfl⟩

/-- Options that were read are a free-form table of a document once they are written. -/
lemma free?_of_options {ms : Members} {ts : List (String × Toml)} (hms : ∀ m ∈ ms, IsFree m.2)
    (h : freeMembers? ms = some ts) : (Toml.table ts).free? = some (.object ms) := by
  have hobject : freeToml? (.object ms) = some (.table ts) := by rw [freeToml?, h, Option.map_some]
  refine Toml.free?_eq_some_iff.mpr ⟨?_, toJson_of_freeToml? hobject⟩
  rw [freeMembers?_eq_mapM, mapM_eq_some_iff] at h
  rw [Toml.numbersFit_table]
  intro t ht
  obtain ⟨m, hm, hfree⟩ := exists_of_forall₂ h.flip ht
  obtain ⟨v, hv, rfl⟩ := Option.map_eq_some_iff.mp hfree
  obtain ⟨u, hu⟩ := hms m hm
  exact (Toml.free?_eq_some_iff.mp (free?_of_freeToml? hv hu)).1

/-- The options are kept, but for their order and the order of members in them. -/
lemma BundleSettings.decode_of_reordered {s : BundleSettings} {t : Toml}
    (hkeys : s.options.keys.Nodup) (hs : ∀ m ∈ s.options, IsFree m.2) (ht : s.toToml? = some t)
    (h : t.Reordered w) :
    ∃ options, decode w = .ok { s with options } ∧
      (Json.object s.options).Reordered (.object options) := by
  simp only [toToml?, Option.bind_eq_bind, Option.bind_eq_some_iff, Option.pure_def,
    Option.some.injEq] at ht
  obtain ⟨ts, hts, rfl⟩ := ht
  obtain ⟨hadmits, hfields⟩ := fields_of_tableOf (r := record) rfl (by decide) (by decide) h
  simp only [List.forall_mem_cons] at hfields
  obtain ⟨hentries, houtput, hprogram, hoptions, -⟩ := hfields
  obtain ⟨y, hfind, hy⟩ := exists_of_rel hoptions
  obtain ⟨j, hfree, hsame⟩ := hy.free? (free?_of_options hs hts)
  obtain ⟨ns, ns', rfl, -, -⟩ := hy.of_table
  obtain ⟨ms, rfl, hread⟩ := freeTable_of_free? hfree
  rw [Members.ofList_of_nodup (hsame.perm_keys.nodup_iff.mp hkeys)] at hread
  refine ⟨ms, ?_, hsame⟩
  rw [decode_eq_ok_iff]
  refine ⟨hadmits, withDefault_of_rel hentries ?_, withDefault_text rfl houtput,
    withDefault_text rfl hprogram, (withDefault_of_find? hfind).trans hread⟩
  intro y hy
  rw [hy.of_texts]
  exact list_text s.entryPoints

/-- What is read of a written configuration is that configuration, but for the order of members. -/
theorem decode_of_reordered {c : Config} {t : Toml} (hc : c.IsDecoded) (ht : c.toToml? = some t)
    (h : t.Reordered w) :
    ∃ c', decode w = .ok c' ∧ c.SameButOrder { c' with base := c.base } := by
  simp only [toToml?, Option.bind_eq_bind, Option.bind_eq_some_iff, Option.pure_def,
    Option.some.injEq] at ht
  obtain ⟨manifest, hmanifest, bundle, hbundle, rfl⟩ := ht
  obtain ⟨hadmits, hfields⟩ := fields_of_tableOf (r := record) rfl (by decide) (by decide) h
  simp only [List.forall_mem_cons] at hfields
  obtain ⟨hfmetadata, hfstamp, hfmanifest, hfbundle, hfrelease, -⟩ := hfields
  obtain ⟨y, hfind, hy⟩ := exists_of_rel hfmanifest
  obtain ⟨sections, hsections, hsame⟩ :=
    ManifestSettings.decode_of_reordered hc.data hmanifest hy
  obtain ⟨z, hfind', hz⟩ := exists_of_rel hfbundle
  obtain ⟨options, hoptions, hsame'⟩ :=
    BundleSettings.decode_of_reordered hc.keys hc.options hbundle hz
  refine ⟨{ c with manifest.sections := sections, bundle.options := options, base := ⟨""⟩ }, ?_,
    hsame, hsame', rfl⟩
  rw [decode_eq_ok_iff]
  refine ⟨hadmits, withDefault_of_rel hfmetadata ?_, withDefault_of_rel hfstamp ?_,
    (withDefault_of_find? hfind).trans hsections, (withDefault_of_find? hfind').trans hoptions,
    optional_of_rel hfrelease ?_, rfl⟩
  · exact fun _ => MetadataSettings.decode_of_reordered hc.indent
  · exact fun _ => StampSettings.decode_of_reordered
  · exact fun s _ hs => ReleaseSettings.decode_of_reordered (hc.delay s hs)

end Written

/--
A configuration that was read can be written unless it holds null. If the document that is written
reads back, the text is read as the configuration it was, but for the order of members.
-/
theorem parse_print (base : Files.Path) (s : String) (c : Config) (h : parse base s = .ok c) :
    (c.print? = none ↔ c.HoldsNull) ∧
      ∀ t, c.toToml? = some t → t.ReadsBack →
        c.print? = some t.print ∧ ∃ c', parse base t.print = .ok c' ∧ c.SameButOrder c' := by
  have hdecoded : c.IsDecoded ∧ c.base = base := by
    unfold parse at h
    split at h
    · cases h
    · split at h
      · rename_i hdecode
        cases h
        obtain ⟨hindent, hdata, hkeys, hoptions, hdelay⟩ := isDecoded_of_decode hdecode
        exact ⟨⟨hindent, hdata, hkeys, hoptions, hdelay⟩, rfl⟩
      · cases h
  obtain ⟨hdecoded, rfl⟩ := hdecoded
  constructor
  · rw [print?, Option.map_eq_none_iff, toToml?_eq_none_iff]
  · rintro t ht ⟨t', hparse, hsame⟩
    obtain ⟨c', hdecode, hc'⟩ := decode_of_reordered hdecoded ht hsame
    refine ⟨by rw [print?, ht, Option.map_some], _, ?_, hc'⟩
    simp only [parse, hparse, hdecode]

set_option maxRecDepth 2000 in
/-- A table among the options moves behind the option that stood after it. -/
theorem parse_print_moved :
    let text :=
      "[metadata]\npath = \"\"\nindent = 2\n\n[timestamp]\noutput = \"\"\nstyle = \"iso\"\n\n" ++
      "[manifest]\noutput = \"\"\nsections = []\n\n[bundle]\nentry_points = []\noutput = \"\"\n" ++
      "program = \"esbuild\"\n\n[bundle.options]\nminify = true\n\n[bundle.options.loader]\n"
    let c : Config :=
      { bundle := { options := [("loader", .object []), ("minify", .boolean true)] } }
    parse ⟨""⟩ "bundle.options = \x7b loader = \x7b\x7d, minify = true \x7d" = .ok c ∧
      c.print? = some text ∧ ∃ c', parse ⟨""⟩ text = .ok c' ∧ c.SameButOrder c' := by
  intro text c
  have hparse :
      parse ⟨""⟩ "bundle.options = \x7b loader = \x7b\x7d, minify = true \x7d" = .ok c := by
    have hchars : String.toList "bundle.options = \x7b loader = \x7b\x7d, minify = true \x7d" = _ :=
      String.toList_ofList
    rw [parse, Toml.parse?, hchars]
    rfl
  have ht : c.toToml? = some (.table [
      ("metadata", .table [("path", .text ""), ("indent", .integer 2)]),
      ("timestamp", .table [("output", .text ""), ("style", .text "iso")]),
      ("manifest", .table [("output", .text ""), ("sections", .array [])]),
      ("bundle", .table [("entry_points", .array []), ("output", .text ""),
        ("program", .text "esbuild"),
        ("options", .table [("loader", .table []), ("minify", .boolean true)])])]) := rfl
  have hchars : text.toList = _ :=
    String.toList_append.trans (congrArg₂ _ (String.toList_append.trans
      (congrArg₂ _ String.toList_ofList String.toList_ofList)) String.toList_ofList)
  have hread : Toml.parse? text = some (.table [
      ("metadata", .table [("path", .text ""), ("indent", .integer 2)]),
      ("timestamp", .table [("output", .text ""), ("style", .text "iso")]),
      ("manifest", .table [("output", .text ""), ("sections", .array [])]),
      ("bundle", .table [("entry_points", .array []), ("output", .text ""),
        ("program", .text "esbuild"),
        ("options", .table [("minify", .boolean true), ("loader", .table [])])])]) := by
    rw [Toml.parse?, hchars]
    rfl
  have hprint : c.print? = some text := by decide +kernel
  have htext := hprint
  rw [print?, ht, Option.map_some, Option.some.injEq] at htext
  refine ⟨hparse, hprint, ?_⟩
  rw [← htext] at hread ⊢
  refine ((parse_print _ _ _ hparse).2 _ ht ⟨_, hread, ?_⟩).2
  -- the tables around the options are as they were
  refine .table ?_ ?_ ?_ (.refl _) <;> simp [Toml.Reordered.refl]
  refine .table ?_ ?_ ?_ (.refl _) <;> simp [Toml.Reordered.refl]
  refine .table ?_ ?_ ?_ (.swap _ _ _) <;> simp [Toml.Reordered.refl]

end Config

end ResourceBuild

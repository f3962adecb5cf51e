import ResourceBuild.Proofs.Decode.Row
import ResourceBuild.Proofs.Manifest.Acceptance
import ResourceBuild.Proofs.Pairs

/-!
# The rows of payloads

The grammar of the data of a section, kind by kind, and that exactly the data of this form decodes.
A row may be written in many ways, and none of them shows in the sections or in the manifest.
-/

namespace ResourceBuild.Manifest

open Decode Outcome

/-! ### The grammar -/

/-- A column of the rows of a section: its spellings, and whether it takes any value or only
texts. -/
structure Column where
  spellings : List String
  free : Bool

/-- The columns of the rows of each kind, in declared order. A list has bare items. -/
def Kind.columns : Kind → List Column
  | .keyValue => [⟨["key"], false⟩, ⟨["value"], true⟩]
  | .packageMetadata =>
    [⟨["manifestKey", "manifest_key"], false⟩,
      ⟨["sourceKey", "sourceKeyPath", "source_key", "source_key_path"], false⟩]
  | .list => []
  | .convarCategory =>
    [⟨["description"], false⟩, ⟨["name"], false⟩, ⟨["type"], false⟩, ⟨["default"], true⟩]

def Kind.fields (k : Kind) : List (List String) :=
  k.columns.map Column.spellings

/-- Whether a value may stand in a column. -/
def Column.Takes (c : Column) (v : Json) : Prop :=
  c.free = true ∨ ∃ s, v = .text s

/-- An item of the data that is a row of this kind and holds these values. -/
inductive Row : Kind → List Json → Json → Prop where
  | item (s : String) : Row .list [.text s] (.text s)
  | record {k : Kind} {values : List Json} {x : Json} (hkind : k ≠ .list)
      (htakes : List.Forall₂ Column.Takes k.columns values) (hspelled : Spelled k.fields values x) :
      Row k values x

/-- The rows of a list are the texts. -/
lemma row_list_iff {values : List Json} {x : Json} :
    Row .list values x ↔ ∃ s, x = .text s ∧ values = [.text s] := by
  constructor
  · rintro (s | ⟨hkind, -, -⟩)
    · exact ⟨s, rfl, rfl⟩
    · exact absurd rfl hkind
  · rintro ⟨s, rfl, rfl⟩
    exact .item s

lemma row_record_iff {k : Kind} (hkind : k ≠ .list) {values : List Json} {x : Json} :
    Row k values x ↔ List.Forall₂ Column.Takes k.columns values ∧ Spelled k.fields values x := by
  constructor
  · rintro (_ | ⟨_, htakes, hspelled⟩)
    · exact absurd rfl hkind
    · exact ⟨htakes, hspelled⟩
  · rintro ⟨htakes, hspelled⟩
    exact .record hkind htakes hspelled

/-! ### Single rows -/

section Required

variable {r : Record} {a v : Json} {name s : String}

lemma required_text_iff :
    (r.fieldsOf a).required name text = .ok s ↔ r.find? a name = some (.text s) := by
  rw [Record.required_eq_ok_iff]
  simp only [text_eq_ok_iff]
  exact exists_eq_right

lemma required_free_iff :
    (r.fieldsOf a).required name free = .ok v ↔ r.find? a name = some v := by
  rw [Record.required_eq_ok_iff]
  constructor
  · rintro ⟨x, hfound, hfree⟩
    cases hfree
    exact hfound
  · intro hfound
    exact ⟨v, hfound, rfl⟩

end Required

lemma Entry.record_strict : Entry.record.Strict :=
  ⟨rfl, by decide, by decide⟩

lemma Projection.record_strict : Projection.record.Strict :=
  ⟨rfl, by decide, by decide⟩

lemma Convar.record_strict : Convar.record.Strict :=
  ⟨rfl, by decide, by decide⟩

def Entry.row (e : Entry) : List Json :=
  [.text e.key, e.value]

def Projection.row (p : Projection) : List Json :=
  [.text p.manifestKey, .text p.sourceKey]

def Convar.row (c : Convar) : List Json :=
  [.text c.description, .text c.name, .text c.kind, c.initial]

variable {x : Json}

lemma Column.takes_text (c : Column) (s : String) : c.Takes (.text s) :=
  .inr ⟨s, rfl⟩

lemma Column.takes_of_free {c : Column} (h : c.free = true) (v : Json) : c.Takes v :=
  .inl h

lemma Entry.decode_eq_ok_iff {e : Entry} : Entry.decode x = .ok e ↔ Row .keyValue e.row x := by
  have htakes : List.Forall₂ Column.Takes Kind.keyValue.columns e.row :=
    .cons (Column.takes_text _ _) (.cons (Column.takes_of_free rfl _) .nil)
  rw [row_record_iff (by decide), and_iff_right htakes, decode]
  simp only [bind_eq_ok_iff, pure_eq_ok_iff]
  constructor
  · rintro ⟨_, hread, key, hkey, value, hvalue, _, hbound, rfl⟩
    obtain ⟨hadmits, -, rfl⟩ := Record.read_eq_ok_iff.mp hread
    exact record_strict.spelled_iff.mpr ⟨hadmits, hbound,
      .cons (required_text_iff.mp hkey) (.cons (required_free_iff.mp hvalue) .nil)⟩
  · intro hspelled
    obtain ⟨hread, hbound, _ | ⟨hkey, _ | ⟨hvalue, _⟩⟩⟩ :=
      record_strict.read_of_spelled checkField hspelled (.cons rfl (.cons rfl .nil))
    exact ⟨_, hread, _, required_text_iff.mpr hkey, _, required_free_iff.mpr hvalue, _, hbound, rfl⟩

lemma Projection.decode_eq_ok_iff {p : Projection} :
    Projection.decode x = .ok p ↔ Row .packageMetadata p.row x := by
  have htakes : List.Forall₂ Column.Takes Kind.packageMetadata.columns p.row :=
    .cons (Column.takes_text _ _) (.cons (Column.takes_text _ _) .nil)
  rw [row_record_iff (by decide), and_iff_right htakes, decode]
  simp only [bind_eq_ok_iff, pure_eq_ok_iff]
  constructor
  · rintro ⟨_, hread, manifestKey, hmanifest, sourceKey, hsource, _, hbound, rfl⟩
    obtain ⟨hadmits, -, rfl⟩ := Record.read_eq_ok_iff.mp hread
    exact record_strict.spelled_iff.mpr ⟨hadmits, hbound,
      .cons (required_text_iff.mp hmanifest) (.cons (required_text_iff.mp hsource) .nil)⟩
  · intro hspelled
    obtain ⟨hread, hbound, _ | ⟨hmanifest, _ | ⟨hsource, _⟩⟩⟩ :=
      record_strict.read_of_spelled checkField hspelled (.cons rfl (.cons rfl .nil))
    exact ⟨_, hread, _, required_text_iff.mpr hmanifest, _, required_text_iff.mpr hsource, _,
      hbound, rfl⟩

lemma Convar.decode_eq_ok_iff {c : Convar} :
    Convar.decode x = .ok c ↔ Row .convarCategory c.row x := by
  have htakes : List.Forall₂ Column.Takes Kind.convarCategory.columns c.row :=
    .cons (Column.takes_text _ _) (.cons (Column.takes_text _ _) (.cons (Column.takes_text _ _)
      (.cons (Column.takes_of_free rfl _) .nil)))
  rw [row_record_iff (by decide), and_iff_right htakes, decode]
  simp only [bind_eq_ok_iff, pure_eq_ok_iff]
  constructor
  · rintro ⟨_, hread, description, hdescription, name, hname, kind, hkind, initial, hinitial, _,
      hbound, rfl⟩
    obtain ⟨hadmits, -, rfl⟩ := Record.read_eq_ok_iff.mp hread
    exact record_strict.spelled_iff.mpr ⟨hadmits, hbound,
      .cons (required_text_iff.mp hdescription) (.cons (required_text_iff.mp hname)
        (.cons (required_text_iff.mp hkind) (.cons (required_free_iff.mp hinitial) .nil)))⟩
  · intro hspelled
    obtain ⟨hread, hbound, _ | ⟨hdescription, _ | ⟨hname, _ | ⟨hkind, _ | ⟨hinitial, _⟩⟩⟩⟩⟩ :=
      record_strict.read_of_spelled checkField hspelled
        (.cons rfl (.cons rfl (.cons rfl (.cons rfl .nil))))
    exact ⟨_, hread, _, required_text_iff.mpr hdescription, _, required_text_iff.mpr hname, _,
      required_text_iff.mpr hkind, _, required_free_iff.mpr hinitial, _, hbound, rfl⟩

lemma text_row_iff {s : String} : text x = .ok s ↔ Row .list [.text s] x := by
  rw [text_eq_ok_iff, row_list_iff]
  simp

/-! ### Values of rows -/

variable {values : List Json}

/-- A column that is not free takes texts only. -/
lemma Column.Takes.exists_text {c : Column} {v : Json} (h : c.Takes v) (hfree : c.free = false) :
    ∃ s, v = .text s :=
  h.resolve_left fun htrue => Bool.false_ne_true (hfree.symm.trans htrue)

lemma Row.exists_entry (h : Row .keyValue values x) : ∃ e : Entry, e.row = values := by
  obtain ⟨htakes, -⟩ := (row_record_iff (by decide)).mp h
  obtain _ | ⟨hkey, _ | @⟨_, value, _, _, _, ⟨⟩⟩⟩ := htakes
  obtain ⟨key, rfl⟩ := hkey.exists_text rfl
  exact ⟨⟨key, value⟩, rfl⟩

lemma Row.exists_projection (h : Row .packageMetadata values x) :
    ∃ p : Projection, p.row = values := by
  obtain ⟨htakes, -⟩ := (row_record_iff (by decide)).mp h
  obtain _ | ⟨hmanifest, _ | ⟨hsource, ⟨⟩⟩⟩ := htakes
  obtain ⟨manifestKey, rfl⟩ := hmanifest.exists_text rfl
  obtain ⟨sourceKey, rfl⟩ := hsource.exists_text rfl
  exact ⟨⟨manifestKey, sourceKey⟩, rfl⟩

lemma Row.exists_convar (h : Row .convarCategory values x) : ∃ c : Convar, c.row = values := by
  obtain ⟨htakes, -⟩ := (row_record_iff (by decide)).mp h
  obtain _ | ⟨hdescription, _ | ⟨hname, _ | ⟨hkind, _ | @⟨_, initial, _, _, _, ⟨⟩⟩⟩⟩⟩ := htakes
  obtain ⟨description, rfl⟩ := hdescription.exists_text rfl
  obtain ⟨name, rfl⟩ := hname.exists_text rfl
  obtain ⟨kind, rfl⟩ := hkind.exists_text rfl
  exact ⟨⟨description, name, kind, initial⟩, rfl⟩

lemma Row.exists_text (h : Row .list values x) : ∃ s, [.text s] = values := by
  obtain ⟨s, -, rfl⟩ := row_list_iff.mp h
  exact ⟨s, rfl⟩

/-! ### Bodies -/

def Body.rows : Body → List (List Json)
  | .keyValue entries => entries.map Entry.row
  | .packageMetadata projections => projections.map Projection.row
  | .list _ _ items => items.map fun s => [.text s]
  | .convarCategory _ convars => convars.map Convar.row

/-- Where rows of a kind stand for values of some type, a list of rows stands for a list of them. -/
lemma exists_rows {α : Type} (row : α → List Json) {k : Kind} {xs : List Json}
    (hrow : ∀ {x values}, Row k values x → ∃ a, row a = values)
    (h : ∀ x ∈ xs, ∃ values, Row k values x) :
    ∃ l : List α, List.Forall₂ (fun x values => Row k values x) xs (l.map row) := by
  induction xs with
  | nil => exact ⟨[], .nil⟩
  | cons x xs ih =>
    rw [List.forall_mem_cons] at h
    obtain ⟨values, hx⟩ := h.1
    obtain ⟨a, rfl⟩ := hrow hx
    obtain ⟨l, hl⟩ := ih h.2
    exact ⟨a :: l, .cons hx hl⟩

namespace Declaration

variable {d d' : Declaration} {k : Kind} {b : Body} {xs : List Json}

/-- A body has the heading that is declared, if it has one. -/
def Heads (d : Declaration) : Body → Prop
  | .keyValue _ | .packageMetadata _ => True
  | .list singularKey pluralKey _ =>
    singularKey = d.singularKey.getD "" ∧ pluralKey = d.pluralKey.getD ""
  | .convarCategory category _ => category = d.header

/-- A body is given by the data exactly if its rows are the items of the data, one by one. -/
lemma gives_iff_rows : d.Gives k b ↔ b.kind = k ∧ d.Heads b ∧
    ∃ xs, d.HasRows xs ∧ List.Forall₂ (fun x values => Row k values x) xs b.rows := by
  constructor
  · intro h
    -- the decoder of each kind accepts the rows of that kind and nothing else
    cases h with
    | keyValue hrows hdecode =>
      refine ⟨rfl, trivial, _, hrows, List.forall₂_map_right_iff.mpr ?_⟩
      exact hdecode.imp fun _ _ => Entry.decode_eq_ok_iff.mp
    | packageMetadata hrows hdecode =>
      refine ⟨rfl, trivial, _, hrows, List.forall₂_map_right_iff.mpr ?_⟩
      exact hdecode.imp fun _ _ => Projection.decode_eq_ok_iff.mp
    | list hrows =>
      refine ⟨rfl, ⟨rfl, rfl⟩, _, hrows, ?_⟩
      rw [Body.rows, List.forall₂_map_left_iff, List.forall₂_map_right_iff, List.forall₂_same]
      exact fun s _ => .item s
    | convarCategory hrows hdecode =>
      refine ⟨rfl, rfl, _, hrows, List.forall₂_map_right_iff.mpr ?_⟩
      exact hdecode.imp fun _ _ => Convar.decode_eq_ok_iff.mp
  · rintro ⟨rfl, hheads, xs, hrows, hitems⟩
    cases b with
    | keyValue entries =>
      rw [Body.rows, List.forall₂_map_right_iff] at hitems
      exact .keyValue hrows (hitems.imp fun _ _ => Entry.decode_eq_ok_iff.mpr)
    | packageMetadata projections =>
      rw [Body.rows, List.forall₂_map_right_iff] at hitems
      exact .packageMetadata hrows (hitems.imp fun _ _ => Projection.decode_eq_ok_iff.mpr)
    | list singularKey pluralKey items =>
      rw [Body.rows, List.forall₂_map_right_iff] at hitems
      obtain rfl := forall₂_text_iff.mp (hitems.imp fun _ _ => text_row_iff.mpr)
      obtain ⟨rfl, rfl⟩ := hheads
      exact .list hrows
    | convarCategory category convars =>
      rw [Body.rows, List.forall₂_map_right_iff] at hitems
      obtain rfl := hheads
      exact .convarCategory hrows (hitems.imp fun _ _ => Convar.decode_eq_ok_iff.mpr)

/-- Items that are all rows of a kind are the rows of a body of that kind. -/
lemma exists_body (d : Declaration) (h : ∀ x ∈ xs, ∃ values, Row k values x) :
    ∃ b : Body, b.kind = k ∧ d.Heads b ∧
      List.Forall₂ (fun x values => Row k values x) xs b.rows := by
  cases k with
  | keyValue =>
    obtain ⟨entries, hentries⟩ := exists_rows Entry.row Row.exists_entry h
    exact ⟨.keyValue entries, rfl, trivial, hentries⟩
  | packageMetadata =>
    obtain ⟨projections, hprojections⟩ := exists_rows Projection.row Row.exists_projection h
    exact ⟨.packageMetadata projections, rfl, trivial, hprojections⟩
  | list =>
    obtain ⟨items, hitems⟩ := exists_rows (fun s => [Json.text s]) Row.exists_text h
    exact ⟨.list (d.singularKey.getD "") (d.pluralKey.getD "") items, rfl, ⟨rfl, rfl⟩, hitems⟩
  | convarCategory =>
    obtain ⟨convars, hconvars⟩ := exists_rows Convar.row Row.exists_convar h
    exact ⟨.convarCategory d.header convars, rfl, rfl, hconvars⟩

/-- The data gives some body exactly if it is not there or all its items are rows of the kind. -/
lemma exists_gives_iff : (∃ b, d.Gives k b) ↔
    d.data = none ∨ d.data = some .null ∨
      ∃ xs, d.data = some (.array xs) ∧ ∀ x ∈ xs, ∃ values, Row k values x := by
  constructor
  · rintro ⟨b, hgives⟩
    obtain ⟨-, -, xs, hrows | ⟨hnone, -⟩, hitems⟩ := gives_iff_rows.mp hgives
    · refine .inr (.inr ⟨xs, hrows, fun x hx => ?_⟩)
      obtain ⟨values, -, hrow⟩ := exists_of_forall₂ hitems hx
      exact ⟨values, hrow⟩
    · exact hnone.imp_right .inl
  · intro hdata
    -- in each of the three cases there are rows, perhaps none
    obtain ⟨xs, hrows, hitems⟩ : ∃ xs, d.HasRows xs ∧ ∀ x ∈ xs, ∃ values, Row k values x := by
      rcases hdata with hnone | hnull | ⟨xs, harray, hitems⟩
      · exact ⟨[], .inr ⟨.inl hnone, rfl⟩, by simp⟩
      · exact ⟨[], .inr ⟨.inr hnull, rfl⟩, by simp⟩
      · exact ⟨xs, .inl harray, hitems⟩
    obtain ⟨b, hkind, hheads, hbody⟩ := d.exists_body hitems
    exact ⟨b, gives_iff_rows.mpr ⟨hkind, hheads, xs, hrows, hbody⟩⟩

end Declaration

end ResourceBuild.Manifest

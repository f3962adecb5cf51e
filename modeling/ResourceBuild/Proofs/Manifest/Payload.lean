import ResourceBuild.Manifest.Payload
import ResourceBuild.Proofs.Outcome

/-!
# Decoded payloads

What a declaration has to hold for its data to decode as a payload, and which body that gives: one
row for each item of the data, in order.
-/

namespace ResourceBuild.Decode

/-- A list decodes exactly from an array whose items decode. -/
lemma list_eq_ok_iff {β : Type} {item : Json → Except DecodeError β} {v : Json} {ys : List β} :
    list item v = .ok ys ↔
      ∃ xs, v = .array xs ∧ List.Forall₂ (fun x y => item x = .ok y) xs ys := by
  cases v with
  | array xs => simp [list, Document.shape, jsonShape, Outcome.mapM_eq_ok_iff]
  | number n => cases n <;> simp [list, Document.shape, jsonShape]
  | null | boolean | text | object => simp [list, Document.shape, jsonShape]

/-- A text decodes from a text and from nothing else. -/
lemma text_eq_ok_iff {v : Json} {s : String} : text v = .ok s ↔ v = .text s := by
  cases v with
  | text t => simp [text, Document.shape, jsonShape]
  | number n => cases n <;> simp [text, Document.shape, jsonShape]
  | null | boolean | array | object => simp [text, Document.shape, jsonShape]

/-- The rows of a list of texts are its items as they stand. -/
lemma forall₂_text_iff {xs : List Json} {items : List String} :
    List.Forall₂ (fun x y => text x = .ok y) xs items ↔ xs = items.map Json.text := by
  simp only [text_eq_ok_iff]
  rw [← List.forall₂_map_right_iff (R := (· = ·)), List.forall₂_eq_eq_eq]

end ResourceBuild.Decode

namespace ResourceBuild.Manifest.Declaration

open Decode Outcome

/-- The data of a declaration is an array of these items; no data and null stand for none. -/
def HasRows (d : Declaration) (xs : List Json) : Prop :=
  d.data = some (.array xs) ∨ (d.data = none ∨ d.data = some .null) ∧ xs = []

lemma rows_eq_array_iff {d : Declaration} {xs : List Json} :
    d.rows = .array xs ↔ d.HasRows xs := by
  unfold rows HasRows
  split
  · next h => simp [h, eq_comm]
  · next h => simp [h, eq_comm]
  · next v hv h => simp_all

def header (d : Declaration) : Category where
  name := (d.category.bind CategoryDraft.name).getD ""
  description := (d.category.bind CategoryDraft.description).getD ""

/-- The body of this kind that the data of a declaration gives, row by row. -/
inductive Gives (d : Declaration) : Kind → Body → Prop where
  | keyValue {xs : List Json} {entries : List Entry} (hrows : d.HasRows xs)
      (hdecode : List.Forall₂ (fun x e => Entry.decode x = .ok e) xs entries) :
      Gives d .keyValue (.keyValue entries)
  | packageMetadata {xs : List Json} {projections : List Projection} (hrows : d.HasRows xs)
      (hdecode : List.Forall₂ (fun x p => Projection.decode x = .ok p) xs projections) :
      Gives d .packageMetadata (.packageMetadata projections)
  | list {items : List String} (hrows : d.HasRows (items.map Json.text)) :
      Gives d .list (.list (d.singularKey.getD "") (d.pluralKey.getD "") items)
  | convarCategory {xs : List Json} {convars : List Convar} (hrows : d.HasRows xs)
      (hdecode : List.Forall₂ (fun x c => Convar.decode x = .ok c) xs convars) :
      Gives d .convarCategory (.convarCategory d.header convars)

/-- A body is of the kind it was decoded for. -/
lemma Gives.kind_eq {d : Declaration} {k : Kind} {b : Body} (h : d.Gives k b) : b.kind = k := by
  cases h <;> rfl

lemma decodeBody_convarCategory (d : Declaration) :
    d.decodeBody .convarCategory =
      Body.convarCategory d.header <$> Decode.list Convar.decode d.rows := by
  unfold decodeBody header
  cases d.category <;> rfl

/-- Decoding succeeds with the body that the data gives, and only with that. -/
theorem decodeBody_eq_ok_iff {d : Declaration} {k : Kind} {b : Body} :
    d.decodeBody k = .ok b ↔ d.Gives k b := by
  constructor
  · intro h
    cases k with
    | keyValue =>
      simp only [decodeBody, map_eq_ok_iff, list_eq_ok_iff, rows_eq_array_iff] at h
      obtain ⟨_, ⟨xs, hrows, hdecode⟩, rfl⟩ := h
      exact .keyValue hrows hdecode
    | packageMetadata =>
      simp only [decodeBody, map_eq_ok_iff, list_eq_ok_iff, rows_eq_array_iff] at h
      obtain ⟨_, ⟨xs, hrows, hdecode⟩, rfl⟩ := h
      exact .packageMetadata hrows hdecode
    | list =>
      simp only [decodeBody, map_eq_ok_iff, list_eq_ok_iff, rows_eq_array_iff,
        forall₂_text_iff] at h
      obtain ⟨_, ⟨xs, hrows, rfl⟩, rfl⟩ := h
      exact .list hrows
    | convarCategory =>
      rw [decodeBody_convarCategory] at h
      simp only [map_eq_ok_iff, list_eq_ok_iff, rows_eq_array_iff] at h
      obtain ⟨_, ⟨xs, hrows, hdecode⟩, rfl⟩ := h
      exact .convarCategory hrows hdecode
  · intro h
    cases h with
    | keyValue hrows hdecode | packageMetadata hrows hdecode =>
      rw [decodeBody, map_eq_ok_iff]
      exact ⟨_, list_eq_ok_iff.mpr ⟨_, rows_eq_array_iff.mpr hrows, hdecode⟩, rfl⟩
    | list hrows =>
      rw [decodeBody, map_eq_ok_iff]
      exact ⟨_, list_eq_ok_iff.mpr ⟨_, rows_eq_array_iff.mpr hrows, forall₂_text_iff.mpr rfl⟩, rfl⟩
    | convarCategory hrows hdecode =>
      rw [decodeBody_convarCategory, map_eq_ok_iff]
      exact ⟨_, list_eq_ok_iff.mpr ⟨_, rows_eq_array_iff.mpr hrows, hdecode⟩, rfl⟩

end ResourceBuild.Manifest.Declaration

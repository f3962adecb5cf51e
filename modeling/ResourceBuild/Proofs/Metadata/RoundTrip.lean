import ResourceBuild.Metadata.Document
import ResourceBuild.Proofs.Json.RoundTrip

/-!
# The text of a metadata document

A document that was read, and any document made from it by setting the version, is read back from
its text at every width: no member is moved, lost or changed.
-/

namespace ResourceBuild.Metadata

open Json

/-! ### Documents that can be read back -/

/-- Whether a document is one that a text can hold: bounded and with each key once. -/
structure Readable (d : Metadata) : Prop where
  bounded : Bounded maxDepth (.object d.members)
  distinct : Distinct (.object d.members)

/-- A document that was read is readable. -/
lemma Readable.of_parse {s : String} {d : Metadata} (h : parse s = .ok d) : Readable d := by
  unfold parse at h
  split at h
  · rename_i v hv
    obtain ⟨hbounded, hdistinct⟩ := parse_eq_ok hv
    cases v with
    | object ms =>
      cases h
      exact ⟨hbounded, hdistinct⟩
    | _ => cases h
  · cases h

/-- Setting the version keeps a document readable. -/
lemma Readable.setVersion {d : Metadata} (h : Readable d) (v : String) :
    Readable (d.setVersion v) where
  bounded := h.bounded.insert (Bounded.text v)
  distinct := h.distinct.insert (Distinct.text v)

lemma Readable.setVersions {d : Metadata} (h : Readable d) (vs : List String) :
    Readable (vs.foldl (fun d v => d.setVersion v) d) := by
  induction vs generalizing d with
  | nil => exact h
  | cons v vs ih => exact ih (h.setVersion v)

/-- A readable document is read back from its text. -/
lemma Readable.parse_render {d : Metadata} (h : Readable d) (width : Nat) :
    parse (d.render width) = .ok d := by
  have hread : Json.parse (d.render width) = .ok (.object d.members) :=
    parse_write h.bounded h.distinct (.indented width) (by simp [IsBlank, isSpace])
  rw [parse, hread]
  rfl

/-! ### The round trip -/

/--
A document that was read is read back from its text after any number of new versions and at any
width. Printing what was read back gives the same text, and all widths give the same document.
-/
theorem parse_render_setVersions {s : String} {d : Metadata} (h : parse s = .ok d)
    (vs : List String) :
    let e := vs.foldl (fun d v => d.setVersion v) d
    (∀ width, parse (e.render width) = .ok e) ∧
      (∀ width e', parse (e.render width) = .ok e' → e'.render width = e.render width) ∧
      ∀ width width', parse (e.render width) = parse (e.render width') := by
  intro e
  have he : Readable e := (Readable.of_parse h).setVersions vs
  refine ⟨he.parse_render, ?_, ?_⟩
  · intro width e' he'
    rw [he.parse_render width] at he'
    cases he'
    rfl
  · intro width width'
    rw [he.parse_render width, he.parse_render width']

/-- A document without a version, with a repeated key, an escape and a number that is not whole. -/
theorem parse_render_setVersions_repeated :
    let x : Decimal.Double := ⟨false, 1023 * 2 ^ 52 + 2 ^ 51, by decide⟩
    let d : Metadata := ⟨[("a", .array [.number (.integer (-7)), .number (.real x)]),
      ("b\n", .object [])]⟩
    parse "\x7b\"a\": 1, \"b\\n\": \x7b\x7d, \"a\": [-7, 1.5]\x7d" = .ok d ∧
      parse ((d.setVersion "2").render 0) = .ok (d.setVersion "2") := by
  intro x d
  have hread : Json.document .keep
      "\x7b\"a\": 1, \"b\\n\": \x7b\x7d, \"a\": [-7, 1.5]\x7d".toList =
      .ok (.object [("a", .number (.integer 1)), ("b\n", .object []),
        ("a", .array [.number (.integer (-7)), .number (.real x)])]) := by
    simp only [String.reduceToList]
    rfl
  have hparse : parse "\x7b\"a\": 1, \"b\\n\": \x7b\x7d, \"a\": [-7, 1.5]\x7d" = .ok d := by
    rw [parse, Json.parse, hread]
    simp [canonical, canonicalMembers, canonicalItems, Members.ofList, Members.insert, ofJson, d]
  exact ⟨hparse, (parse_render_setVersions hparse ["2"]).1 0⟩

end ResourceBuild.Metadata

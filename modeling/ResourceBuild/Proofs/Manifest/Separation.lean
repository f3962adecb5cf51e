import ResourceBuild.Proofs.Manifest.Line
import ResourceBuild.Proofs.Text.Pieces

/-!
# The lines of a manifest

Cutting the text of a manifest at its line feeds gives back the lines of its sections, with an
empty line behind each section that has any, as long as no key has a line feed. Values cannot
disturb that, since a line feed in a value is escaped.
-/

namespace ResourceBuild.Manifest

variable {metadata : Metadata}

/-! ### Single lines -/

lemma Content.Written.ne_empty {c : Content} {line : String} (h : c.Written line) : line ≠ "" := by
  obtain ⟨t, hline, ht, _⟩ := h
  rintro rfl
  simp [ht] at hline

/-- A line feed in a line is one in the key that the line starts with. -/
lemma Content.Written.newline_mem {c : Content} {line : String} (h : c.Written line)
    (hline : '\n' ∈ line.toList) : '\n' ∈ c.lead.toList := by
  obtain ⟨t, heq, _, hcarries⟩ := h
  rw [heq, List.mem_append] at hline
  exact hline.resolve_right hcarries.newline_not_mem

lemma ne_empty_of_mem_lines {s : Section} {line : String} (h : line ∈ lines metadata s) :
    line ≠ "" := by
  obtain ⟨i, hi, rfl⟩ := List.mem_iff_getElem.mp h
  have hwritten := lines_written metadata s
  rw [List.forall₂_iff_get] at hwritten
  exact (hwritten.2 i (hwritten.1 ▸ hi) hi).ne_empty

/-- No line has a line feed when no key at the start of a line has one. -/
lemma newline_not_mem_lines {s : Section}
    (h : ∀ c ∈ contents metadata s, '\n' ∉ c.lead.toList) :
    ∀ line ∈ lines metadata s, '\n' ∉ line.toList := by
  intro line hline
  obtain ⟨i, hi, rfl⟩ := List.mem_iff_getElem.mp hline
  have hwritten := lines_written metadata s
  rw [List.forall₂_iff_get] at hwritten
  intro hmem
  have hi' : i < (contents metadata s).length := hwritten.1 ▸ hi
  exact h _ (List.get_mem _ ⟨i, hi'⟩) ((hwritten.2 i hi' hi).newline_mem hmem)

/-! ### Sections without lines -/

/-- A projection that shows no value: its key is absent, or its value does not count as true. -/
def Projection.IsBlank (metadata : Metadata) (p : Projection) : Prop :=
  ∀ v, metadata.lookup p.sourceKey = some v → v.isTruthy = false

lemma Projection.line?_eq_none_iff {p : Projection} :
    p.line? metadata = none ↔ p.IsBlank metadata := by
  simp [Projection.line?, Projection.value?, Projection.IsBlank, Option.filter_eq_none_iff]

/-- A body with rows has no line only if all its rows are projections that show nothing. -/
lemma body_lines_eq_nil_iff {b : Body} (h : b.size ≠ 0) :
    b.lines metadata = [] ↔
      ∃ projections, b = .packageMetadata projections ∧
        ∀ p ∈ projections, p.IsBlank metadata := by
  cases b with
  | keyValue entries =>
    have hne : entries ≠ [] := by
      rintro rfl
      exact h rfl
    simp [Body.lines, hne]
  | packageMetadata projections =>
    simp [Body.lines, List.filterMap_eq_nil_iff, Projection.line?_eq_none_iff]
  | list singularKey pluralKey items =>
    cases items with
    | nil => exact absurd rfl h
    | cons item rest => cases rest <;> simp [Body.lines, listLines]
  | convarCategory category convars => simp [Body.lines, categoryLines]

/-- A section without lines: disabled, without rows, or with projections that all show nothing. -/
def IsSilent (metadata : Metadata) (s : Section) : Prop :=
  s.enabled = false ∨ s.body.size = 0 ∨
    ∃ projections, s.body = .packageMetadata projections ∧
      ∀ p ∈ projections, p.IsBlank metadata

lemma lines_eq_nil_iff {s : Section} : lines metadata s = [] ↔ IsSilent metadata s := by
  unfold lines IsSilent
  by_cases henabled : s.enabled = true
  · by_cases hsize : s.body.size = 0
    · simp [Section.isRenderable, Body.isEmpty, hsize]
    · simp [Section.isRenderable, Body.isEmpty, henabled, hsize, body_lines_eq_nil_iff]
  · simp [Section.isRenderable, henabled]

/-! ### The text of a manifest -/

/-- The lines of a section and the empty line behind them; nothing for a section without lines. -/
def separated : List String → List String
  | [] => []
  | ls => ls ++ [""]

lemma separated_of_ne_nil {ls : List String} (h : ls ≠ []) : separated ls = ls ++ [""] := by
  cases ls with
  | nil => exact absurd rfl h
  | cons => rfl

lemma sectionText_of_eq_nil {s : Section} (h : lines metadata s = []) :
    sectionText metadata s = "" := by
  rw [sectionText, h]

lemma sectionText_of_ne_nil {s : Section} (h : lines metadata s ≠ []) :
    sectionText metadata s = Text.join "\n" (lines metadata s) ++ "\n\n" := by
  unfold sectionText
  split
  · next hnil => exact absurd hnil h
  · rfl

lemma sectionText_eq_empty_iff {s : Section} :
    sectionText metadata s = "" ↔ lines metadata s = [] := by
  by_cases h : lines metadata s = []
  · exact iff_of_true (sectionText_of_eq_nil h) h
  · rw [sectionText_of_ne_nil h]
    simp [h]

lemma render_cons (s : Section) (ss : List Section) :
    render metadata (s :: ss) = sectionText metadata s ++ render metadata ss := by
  rw [render, List.map_cons, Text.join_empty_cons, ← render]

lemma render_append (A B : List Section) :
    render metadata (A ++ B) = render metadata A ++ render metadata B := by
  rw [render, List.map_append, Text.join_empty_append, ← render, ← render]

/-- Cutting takes the lines of the first section off the text. -/
lemma cut_sectionText_append {s : Section} (h : ∀ line ∈ lines metadata s, '\n' ∉ line.toList)
    (t : String) :
    Text.cut '\n' (sectionText metadata s ++ t) =
      separated (lines metadata s) ++ Text.cut '\n' t := by
  by_cases hne : lines metadata s = []
  · rw [sectionText_of_eq_nil hne, hne, String.empty_append]
    rfl
  · have htext : sectionText metadata s ++ t =
        Text.join "\n" (lines metadata s) ++ "\n" ++ ("" ++ String.singleton '\n' ++ t) := by
      rw [sectionText_of_ne_nil hne, ← String.toList_inj]
      simp
    rw [htext, Text.cut_join_append hne h, Text.cut_append (by simp), separated_of_ne_nil hne,
      List.append_assoc, List.singleton_append]

/-- Cutting at line feeds gives the lines of each section and an empty line behind them. -/
lemma cut_render {ss : List Section}
    (h : ∀ s ∈ ss, ∀ line ∈ lines metadata s, '\n' ∉ line.toList) :
    Text.cut '\n' (render metadata ss) =
      ss.flatMap (fun s => separated (lines metadata s)) ++ [""] := by
  induction ss with
  | nil => rfl
  | cons s ss ih =>
    rw [List.forall_mem_cons] at h
    rw [render_cons, cut_sectionText_append h.1, ih h.2, List.flatMap_cons, List.append_assoc]

/-- The only empty line in the lines of a section is the one behind them. -/
lemma count_separated (s : Section) :
    (separated (lines metadata s)).count "" = if lines metadata s = [] then 0 else 1 := by
  split_ifs with h
  · rw [h]
    rfl
  · have hnone : "" ∉ lines metadata s := fun hmem => ne_empty_of_mem_lines hmem rfl
    rw [separated_of_ne_nil h, List.count_append, List.count_eq_zero.mpr hnone]
    rfl

lemma count_flatMap_separated (ss : List Section) :
    (ss.flatMap fun s => separated (lines metadata s)).count "" =
      ss.countP (fun s => lines metadata s ≠ []) := by
  induction ss with
  | nil => rfl
  | cons s ss ih =>
    rw [List.flatMap_cons, List.count_append, count_separated, ih, List.countP_cons, Nat.add_comm]
    by_cases h : lines metadata s = [] <;> simp [h]

/--
How the text of a manifest is made of lines. No line is empty, and only its own key can bring a line
feed into one. Without such keys, cutting at line feeds gives the lines of each section with an
empty line behind them, and there are no other empty lines but the last. A section without lines
leaves no trace, and the text of two lists of sections is that of the one and then the other.
-/
theorem manifest_line_structure (metadata : Metadata) :
    (∀ s : Section, List.Forall₂
      (fun c line => line ≠ "" ∧ c.lead.toList <+: line.toList ∧
        ('\n' ∈ line.toList → '\n' ∈ c.lead.toList))
      (contents metadata s) (lines metadata s)) ∧
    (∀ ss : List Section, (∀ s ∈ ss, ∀ c ∈ contents metadata s, '\n' ∉ c.lead.toList) →
      Text.cut '\n' (render metadata ss) =
          ss.flatMap (fun s => separated (lines metadata s)) ++ [""] ∧
        (Text.cut '\n' (render metadata ss)).count "" =
          ss.countP (fun s => lines metadata s ≠ []) + 1) ∧
    (∀ s : Section, render metadata [s] = "" ↔ IsSilent metadata s) ∧
    ∀ A B : List Section, render metadata (A ++ B) = render metadata A ++ render metadata B := by
  refine ⟨fun s => ?_, fun ss h => ?_, fun s => ?_, render_append⟩
  · refine (lines_written metadata s).imp fun c line hwritten => ⟨hwritten.ne_empty, ?_, ?_⟩
    · obtain ⟨t, hline, _⟩ := hwritten
      exact ⟨t, hline.symm⟩
    · exact hwritten.newline_mem
  · have hcut := cut_render fun s hs => newline_not_mem_lines (h s hs)
    refine ⟨hcut, ?_⟩
    rw [hcut, List.count_append, count_flatMap_separated]
    rfl
  · rw [← lines_eq_nil_iff, ← sectionText_eq_empty_iff, render_cons]
    simp [render]

/-- A line feed in a value does not add a line, and a disabled section none at all. -/
theorem manifest_line_structure_escaped :
    let metadata : Metadata := ⟨[("author", .text "a\nb")]⟩
    let ss : List Section :=
      [⟨"package", true, .packageMetadata [⟨"author", "author"⟩, ⟨"name", "name"⟩]⟩,
        ⟨"files", false, .list "file" "fi\nles" ["a", "b"]⟩]
    Text.cut '\n' (render metadata ss) = ["author 'a\\nb'", "", ""] := by
  intro metadata ss
  have hleads : ∀ s ∈ ss, ∀ c ∈ contents metadata s, '\n' ∉ c.lead.toList := by decide
  rw [((manifest_line_structure metadata).2.1 ss hleads).1]
  rfl

end ResourceBuild.Manifest

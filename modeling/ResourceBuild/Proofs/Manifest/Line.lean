import Mathlib.Data.List.Forall2
import Mathlib.Tactic.Lemma
import ResourceBuild.Manifest.Render

/-!
# What stands on a line

A line of the manifest starts with a key, or with nothing that is given from outside. Behind that
stand values as literals, with fixed texts before, between and behind them that hold neither quotes
nor line ends.
-/

namespace ResourceBuild.Manifest

/-! ### Literals among fixed texts -/

/-- A text without quotes and line ends. -/
def IsPlain (cs : List Char) : Prop :=
  '\'' ∉ cs ∧ '\n' ∉ cs ∧ '\r' ∉ cs

instance (cs : List Char) : Decidable (IsPlain cs) :=
  inferInstanceAs (Decidable (_ ∧ _ ∧ _))

/-- A text in which these values stand as literals, with plain texts around them. -/
inductive Carries : List String → List Char → Prop where
  | plain {cs : List Char} (hplain : IsPlain cs) : Carries [] cs
  | literal {v : String} {vs : List String} {cs t : List Char} (hplain : IsPlain cs)
      (hrest : Carries vs t) : Carries (v :: vs) (cs ++ (quoteChars v.toList ++ t))

/-- No line feed gets into a literal as it is. -/
lemma newline_not_mem_quoteChars (cs : List Char) : '\n' ∉ quoteChars cs := by
  have hescape : ∀ c, '\n' ∉ escape c := by
    intro c
    unfold escape
    split_ifs with _ _ h
    · decide
    · decide
    · decide
    · rw [List.mem_singleton]
      exact fun hc => h hc.symm
  simp [quoteChars, hescape]

/-- Whatever the values are, no line feed stands behind the key of a line. -/
lemma Carries.newline_not_mem {vs : List String} {t : List Char} (h : Carries vs t) :
    '\n' ∉ t := by
  induction h with
  | plain hplain => exact hplain.2.1
  | literal hplain _ ih =>
    rw [List.mem_append, List.mem_append, not_or, not_or]
    exact ⟨hplain.2.1, newline_not_mem_quoteChars _, ih⟩

/-! ### Lines -/

/-- The key that a line starts with, if it starts with one, and the values that it shows. -/
structure Content where
  lead : String
  values : List String

/-- A line that starts with the key and then carries the values, with some text in any case. -/
def Content.Written (c : Content) (line : String) : Prop :=
  ∃ t, line.toList = c.lead.toList ++ t ∧ t ≠ [] ∧ Carries c.values t

def listContents (singularKey pluralKey : String) : List String → List Content
  | [] => []
  | [item] => [⟨singularKey, [item]⟩]
  | items => ⟨pluralKey, []⟩ :: (items.map (fun item => ⟨"", [item]⟩) ++ [⟨"", []⟩])

def Convar.values (c : Convar) : List String :=
  [c.description, c.name, c.kind, Json.display c.initial]

def Body.contents (metadata : Metadata) : Body → List Content
  | .keyValue entries => entries.map fun e => ⟨e.key, [Json.display e.value]⟩
  | .packageMetadata projections =>
    projections.filterMap fun p =>
      (p.value? metadata).map fun v => ⟨p.manifestKey, [Json.display v]⟩
  | .list singularKey pluralKey items => listContents singularKey pluralKey items
  | .convarCategory category convars =>
    [⟨"", [category.name]⟩, ⟨"", [category.description]⟩, ⟨"", []⟩] ++
      convars.map (fun c => ⟨"", c.values⟩) ++ [⟨"", []⟩, ⟨"", []⟩]

def contents (metadata : Metadata) (s : Section) : List Content :=
  if s.isRenderable then s.body.contents metadata else []

lemma entryLine_written (key value : String) :
    Content.Written ⟨key, [value]⟩ (entryLine key value) := by
  refine ⟨[' '] ++ (quoteChars value.toList ++ []), ?_, by simp, ?_⟩
  · simp [entryLine, quote]
  · exact .literal (by decide) (.plain (by decide))

/-- A line that shows one value between two plain texts. -/
lemma written_between {before behind : String} (value : String)
    (hbefore : IsPlain before.toList) (hbehind : IsPlain behind.toList) :
    Content.Written ⟨"", [value]⟩ (before ++ quote value ++ behind) := by
  refine ⟨before.toList ++ (quoteChars value.toList ++ behind.toList), ?_, ?_, ?_⟩
  · simp [quote]
  · simp [quoteChars]
  · exact .literal hbefore (.plain hbehind)

/-- A plain text behind a key shows no value. -/
lemma written_plain (lead : String) {rest : String} (hne : rest ≠ "")
    (hplain : IsPlain rest.toList) : Content.Written ⟨lead, []⟩ (lead ++ rest) := by
  refine ⟨rest.toList, String.toList_append, ?_, .plain hplain⟩
  rwa [Ne, String.toList_eq_nil_iff]

lemma written_fixed {line : String} (hne : line ≠ "") (hplain : IsPlain line.toList) :
    Content.Written ⟨"", []⟩ line := by
  simpa using written_plain "" hne hplain

lemma convarLine_written (c : Convar) : Content.Written ⟨"", c.values⟩ c.line := by
  refine ⟨c.line.toList, by simp, by simp [Convar.line, quote, quoteChars], ?_⟩
  have hline : c.line.toList = "        \x7b ".toList ++ (quoteChars c.description.toList ++
      (", ".toList ++ (quoteChars c.name.toList ++ (", ".toList ++ (quoteChars c.kind.toList ++
        (", ".toList ++ (quoteChars (Json.display c.initial).toList ++ " \x7d,".toList))))))) := by
    simp [Convar.line, indent, quote]
  rw [hline]
  exact .literal (by decide) (.literal (by decide) (.literal (by decide) (.literal (by decide)
    (.plain (by decide)))))

lemma listLines_written (singularKey pluralKey : String) (items : List String) :
    List.Forall₂ Content.Written (listContents singularKey pluralKey items)
      (listLines singularKey pluralKey items) := by
  match items with
  | [] => exact .nil
  | [item] => exact .cons (entryLine_written singularKey item) .nil
  | a :: b :: items =>
    refine .cons (written_plain pluralKey (by decide) (by decide)) (List.rel_append ?_ ?_)
    · rw [List.forall₂_map_left_iff, List.forall₂_map_right_iff, List.forall₂_same]
      intro item _
      exact written_between item (by decide) (by decide)
    · exact .cons (written_fixed (by decide) (by decide)) .nil

lemma categoryLines_written (category : Category) (convars : List Convar) (metadata : Metadata) :
    List.Forall₂ Content.Written ((Body.convarCategory category convars).contents metadata)
      (categoryLines category convars) := by
  refine List.rel_append (List.rel_append ?_ ?_) ?_
  · refine .cons (written_between category.name (by decide) (by decide)) (.cons ?_ (.cons ?_ .nil))
    · exact written_between category.description (by decide) (by decide)
    · exact written_fixed (by decide) (by decide)
  · rw [List.forall₂_map_left_iff, List.forall₂_map_right_iff, List.forall₂_same]
    intro c _
    exact convarLine_written c
  · refine .cons (written_fixed (by decide) (by decide)) (.cons ?_ .nil)
    exact written_fixed (by decide) (by decide)

/-- The lines of a projection section are those of the projections that show a value. -/
lemma projectionLines_written (projections : List Projection) (metadata : Metadata) :
    List.Forall₂ Content.Written ((Body.packageMetadata projections).contents metadata)
      (projections.filterMap (Projection.line? metadata)) := by
  induction projections with
  | nil => exact .nil
  | cons p ps ih =>
    simp only [Body.contents, List.filterMap_cons, Projection.line?] at ih ⊢
    cases p.value? metadata with
    | none => exact ih
    | some v => exact .cons (entryLine_written p.manifestKey (Json.display v)) ih

/-- Every line of a section is written as its content says. -/
theorem lines_written (metadata : Metadata) (s : Section) :
    List.Forall₂ Content.Written (contents metadata s) (lines metadata s) := by
  unfold contents lines
  split_ifs
  · cases s.body with
    | keyValue entries =>
      simp only [Body.contents, Body.lines]
      rw [List.forall₂_map_left_iff, List.forall₂_map_right_iff, List.forall₂_same]
      intro e _
      exact entryLine_written e.key (Json.display e.value)
    | packageMetadata projections => exact projectionLines_written projections metadata
    | list singularKey pluralKey items => exact listLines_written singularKey pluralKey items
    | convarCategory category convars => exact categoryLines_written category convars metadata
  · exact .nil

end ResourceBuild.Manifest

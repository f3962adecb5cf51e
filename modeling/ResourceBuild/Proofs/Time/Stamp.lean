import ResourceBuild.Proofs.Outcome
import ResourceBuild.Proofs.Time.Pattern
import ResourceBuild.Time.Stamp

/-!
# Times written after a pattern

A time is written after a pattern if each of its items can be written, and all can but the one for
reading alone. So a pattern is followed at every time or at none.
-/

namespace ResourceBuild.Time

open Outcome

/-- A time in the way of some items: what each of them stands for, one behind the other. -/
def Renders (v : Vocabulary) (t : Moment) (items : List Item) (text : String) : Prop :=
  ∃ pieces, List.Forall₂ (fun item piece => item.text? v t = some piece) items pieces ∧
    text = String.join pieces

variable {v : Vocabulary} {t : Moment} {items : List Item} {text pattern : String}

lemma write?_eq_some_iff : write? v t items = some text ↔ Renders v t items text := by
  rw [write?, Option.map_eq_some_iff]
  constructor
  · rintro ⟨pieces, hpieces, rfl⟩
    exact ⟨pieces, mapM_eq_some_iff.mp hpieces, rfl⟩
  · rintro ⟨pieces, hpieces, rfl⟩
    exact ⟨pieces, mapM_eq_some_iff.mpr hpieces, rfl⟩

/-- Every item can be written but the one for reading alone. -/
lemma Item.text?_eq_none_iff {item : Item} : item.text? v t = none ↔ item = .offset .loose := by
  cases item with
  | offset form => cases form <;> simp [Item.text?, OffsetForm.text?]
  | _ => simp [Item.text?]

lemma write?_eq_none_iff : write? v t items = none ↔ .offset .loose ∈ items := by
  rw [write?, Option.map_eq_none_iff, mapM_eq_none_iff]
  simp [Item.text?_eq_none_iff]

/-- A pattern without the directive for reading alone is followed. -/
theorem renders_followPattern (h : Says pattern.toList items)
    (hwritable : ¬ ReadsAlone pattern.toList) (now : Instant) :
    Renders english ⟨now, .utc⟩ items (followPattern pattern now) := by
  have hsome : write? english ⟨now, .utc⟩ items ≠ none := by
    rwa [ne_eq, write?_eq_none_iff, h.loose_mem_iff]
  obtain ⟨text, htext⟩ := Option.ne_none_iff_exists'.mp hsome
  rw [followPattern, items?_eq_some_iff.mpr h, Option.bind_some, htext, Option.getD_some]
  exact write?_eq_some_iff.mp htext

/-- Any other pattern gives the common form, which no rendering of it is. -/
theorem followPattern_of_readsAlone (h : Says pattern.toList items)
    (hloose : ReadsAlone pattern.toList) (now : Instant) :
    followPattern pattern now = standardText ⟨now, .utc⟩ ∧
      ∀ text, ¬ Renders english ⟨now, .utc⟩ items text := by
  have hnone : write? english ⟨now, .utc⟩ items = none := by
    rwa [write?_eq_none_iff, h.loose_mem_iff]
  refine ⟨?_, fun text htext => ?_⟩
  · rw [followPattern, items?_eq_some_iff.mpr h, Option.bind_some, hnone, Option.getD_none]
  · rw [← write?_eq_some_iff, hnone] at htext
    cases htext

end ResourceBuild.Time

import Mathlib.Data.List.Basic
import Mathlib.Tactic.Lemma
import Mathlib.Tactic.SplitIfs
import ResourceBuild.Text.Pieces

/-!
# Cutting and joining

Cutting a text and putting its pieces back together undo each other. Lines that hold no line feed
are what a text is cut into at its line feeds, if each of them ends with one.
-/

namespace ResourceBuild.Text

@[simp] lemma join_nil (sep : String) : join sep [] = "" :=
  String.intercalate_nil

@[simp] lemma join_singleton (sep s : String) : join sep [s] = s :=
  String.intercalate_singleton

@[simp] lemma join_cons_cons (sep s t : String) (ts : List String) :
    join sep (s :: t :: ts) = s ++ sep ++ join sep (t :: ts) :=
  String.intercalate_cons_cons

/-- A text is what it begins with and what is left without it. -/
lemma dropStart?_eq_some_iff {start s rest : String} :
    dropStart? start s = some rest ↔ s = start ++ rest := by
  rw [dropStart?, Option.ite_none_right_eq_some, Option.some.injEq, List.isPrefixOf_iff_prefix]
  constructor
  · rintro ⟨⟨cs, hcs⟩, rfl⟩
    rw [← String.toList_inj, ← hcs]
    simp
  · rintro rfl
    simp

/-- Joining without a separator is appending. -/
lemma join_empty_cons (s : String) (ts : List String) : join "" (s :: ts) = s ++ join "" ts := by
  cases ts <;> simp

lemma join_empty_append (ss ts : List String) :
    join "" (ss ++ ts) = join "" ss ++ join "" ts := by
  induction ss with
  | nil => simp
  | cons s ss ih => rw [List.cons_append, join_empty_cons, join_empty_cons, ih, String.append_assoc]

lemma toList_join (sep : Char) (pieces : List String) :
    (join (String.singleton sep) pieces).toList = [sep].intercalate (pieces.map String.toList) := by
  rw [join, String.toList_intercalate, String.toList_singleton]

lemma toList_join_cons (sep : Char) (w : String) (ws : List String) :
    (join (String.singleton sep) (w :: ws)).toList =
      w.toList ++ ws.flatMap fun v => sep :: v.toList := by
  induction ws generalizing w with
  | nil => simp
  | cons v ws ih => simp [ih]

lemma cut_ne_nil (sep : Char) (s : String) : cut sep s ≠ [] := by
  simp [cut, List.splitOn_ne_nil]

/-- Putting the pieces of a text together gives the text. -/
lemma join_cut (sep : Char) (s : String) : join (String.singleton sep) (cut sep s) = s := by
  have hmap : (cut sep s).map String.toList = s.toList.splitOn sep := by
    simp [cut, Function.comp_def]
  rw [← String.toList_inj, toList_join, hmap, List.intercalate_splitOn]

/-- Pieces without the separator are what they are cut into again once they are put together. -/
lemma cut_join {sep : Char} {pieces : List String} (hne : pieces ≠ [])
    (h : ∀ piece ∈ pieces, sep ∉ piece.toList) :
    cut sep (join (String.singleton sep) pieces) = pieces := by
  rw [cut, toList_join, List.splitOn_intercalate sep (by simpa using h) (by simpa using hne)]
  simp [Function.comp_def]

lemma not_mem_of_mem_splitOn {sep : Char} {cs piece : List Char} (h : piece ∈ cs.splitOn sep) :
    sep ∉ piece := by
  induction cs generalizing piece with
  | nil => simp_all
  | cons c cs ih =>
    rw [List.splitOn_cons_eq_if_modifyHead] at h
    split_ifs at h with hc
    · rcases List.mem_cons.mp h with rfl | hpiece
      · exact List.not_mem_nil
      · exact ih hpiece
    · cases hcs : cs.splitOn sep with
      | nil => exact absurd hcs (List.splitOn_ne_nil _ _)
      | cons p ps =>
        rw [hcs] at h ih
        rcases List.mem_cons.mp h with rfl | hpiece
        · rw [List.mem_cons, not_or]
          exact ⟨fun heq => hc (by rw [heq, beq_self_eq_true]), ih List.mem_cons_self⟩
        · exact ih (List.mem_cons_of_mem _ hpiece)

/-- Some pieces are those of a text exactly if they make it up and none holds the separator. -/
lemma splitOn_eq_iff {sep : Char} {cs : List Char} {pieces : List (List Char)}
    (hne : pieces ≠ []) :
    cs.splitOn sep = pieces ↔ cs = [sep].intercalate pieces ∧ ∀ piece ∈ pieces, sep ∉ piece := by
  constructor
  · rintro rfl
    exact ⟨(List.intercalate_splitOn sep).symm, fun piece => not_mem_of_mem_splitOn⟩
  · rintro ⟨rfl, h⟩
    exact List.splitOn_intercalate sep h hne

/-- No piece holds the separator. -/
lemma not_mem_of_mem_cut {sep : Char} {s piece : String} (h : piece ∈ cut sep s) :
    sep ∉ piece.toList := by
  obtain ⟨cs, hcs, rfl⟩ := List.mem_map.mp h
  rw [String.toList_ofList]
  exact not_mem_of_mem_splitOn hcs

/-- A text without the separator is one piece. -/
lemma cut_of_notMem {sep : Char} {s : String} (h : sep ∉ s.toList) : cut sep s = [s] := by
  have hcut := cut_join (List.cons_ne_nil s []) (by simpa using h)
  rwa [join_singleton] at hcut

/-- A separator between two texts parts their pieces. -/
lemma cut_append_cut (sep : Char) (s t : String) :
    cut sep (s ++ String.singleton sep ++ t) = cut sep s ++ cut sep t := by
  have hlist : (s ++ String.singleton sep ++ t).toList = s.toList ++ sep :: t.toList := by
    simp
  rw [cut, hlist, List.splitOn_append_cons_self, List.map_append]
  rfl

/-- The first piece ends at the first separator. -/
lemma cut_append {sep : Char} {s : String} (h : sep ∉ s.toList) (t : String) :
    cut sep (s ++ String.singleton sep ++ t) = s :: cut sep t := by
  rw [cut_append_cut, cut_of_notMem h, List.singleton_append]

/-- A block of lines with a line end behind the last one is cut into its lines. -/
lemma cut_join_append {ls : List String} (hne : ls ≠ []) (h : ∀ l ∈ ls, '\n' ∉ l.toList)
    (t : String) : cut '\n' (join "\n" ls ++ "\n" ++ t) = ls ++ cut '\n' t := by
  match ls with
  | [l] =>
    rw [join_singleton]
    exact cut_append (h l List.mem_cons_self) t
  | l :: m :: ls =>
    have ih := cut_join_append (List.cons_ne_nil m ls)
      (fun x hx => h x (List.mem_cons_of_mem l hx)) t
    have hfirst : join "\n" (l :: m :: ls) ++ "\n" ++ t =
        l ++ String.singleton '\n' ++ (join "\n" (m :: ls) ++ "\n" ++ t) := by
      simp [String.append_assoc]
    rw [hfirst, cut_append (h l List.mem_cons_self), ih]
    rfl

end ResourceBuild.Text

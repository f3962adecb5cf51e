import Mathlib.Data.List.Forall2
import Mathlib.Tactic.Lemma

/-!
# Lists item by item

Two lists of one length whose items stand in a relation, the first to the first and so on.
-/

namespace ResourceBuild

variable {α β γ : Type} {R : α → β → Prop} {xs : List α} {ys : List β}

lemma forall₂_of_zip (hlength : xs.length = ys.length) (h : ∀ p ∈ xs.zip ys, R p.1 p.2) :
    List.Forall₂ R xs ys :=
  List.forall₂_iff_zip.mpr ⟨hlength, fun hmem => h _ hmem⟩

/-- Each item has a partner. -/
lemma exists_of_forall₂ (h : List.Forall₂ R xs ys) {x : α} (hx : x ∈ xs) : ∃ y ∈ ys, R x y := by
  induction h with
  | nil => cases hx
  | @cons a b xs ys hab _ ih =>
    rcases List.mem_cons.mp hx with rfl | hx
    · exact ⟨b, List.mem_cons_self, hab⟩
    · obtain ⟨y, hy, hxy⟩ := ih hx
      exact ⟨y, List.mem_cons_of_mem b hy, hxy⟩

/-- What goes over from each item to its partner goes over to all partners. -/
lemma forall_of_zip {p : α → Prop} {q : β → Prop} (hlength : xs.length = ys.length)
    (h : ∀ m ∈ xs.zip ys, p m.1 → q m.2) (hxs : ∀ x ∈ xs, p x) : ∀ y ∈ ys, q y := by
  rw [← List.map_snd_zip (Nat.le_of_eq hlength.symm), List.forall_mem_map]
  exact fun m hm => h m hm (hxs m.1 (List.of_mem_zip hm).1)

lemma map_eq_map_iff_forall₂ {f : α → γ} {g : β → γ} :
    xs.map f = ys.map g ↔ List.Forall₂ (fun x y => f x = g y) xs ys := by
  rw [← List.forall₂_eq_eq_eq, List.forall₂_map_left_iff, List.forall₂_map_right_iff]

end ResourceBuild

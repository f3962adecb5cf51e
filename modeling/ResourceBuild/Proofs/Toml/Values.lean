import Mathlib.Tactic.Lemma
import ResourceBuild.Toml.Basic

/-!
# Values inside values

What holds everywhere in a TOML value holds of its items and members.
-/

namespace ResourceBuild.Toml

/-- What passes over from the items and members of values to the values holds of all values. -/
@[elab_as_elim]
lemma induction {P : Toml → Prop} (text : ∀ s, P (.text s)) (integer : ∀ z, P (.integer z))
    (real : ∀ x, P (.real x)) (boolean : ∀ b, P (.boolean b)) (datetime : ∀ t, P (.datetime t))
    (array : ∀ xs : List Toml, (∀ x ∈ xs, P x) → P (.array xs))
    (table : ∀ ms : List (String × Toml), (∀ m ∈ ms, P m.2) → P (.table ms)) (v : Toml) : P v :=
  @Toml.rec P (fun xs => ∀ x ∈ xs, P x) (fun ms => ∀ m ∈ ms, P m.2) (fun m => P m.2)
    text integer real boolean datetime array table
    (by simp) (fun _ _ hx hxs => List.forall_mem_cons.mpr ⟨hx, hxs⟩)
    (by simp) (fun _ _ hm hms => List.forall_mem_cons.mpr ⟨hm, hms⟩) (fun _ _ hv => hv) v

variable {test : Toml → Bool}

lemma everyItem_iff {xs : List Toml} :
    everyItem test xs = true ↔ ∀ x ∈ xs, everywhere test x = true := by
  induction xs with
  | nil => simp [everyItem]
  | cons x xs ih => simp [everyItem, ih]

lemma everyMember_iff {ms : List (String × Toml)} :
    everyMember test ms = true ↔ ∀ m ∈ ms, everywhere test m.2 = true := by
  induction ms with
  | nil => simp [everyMember]
  | cons m ms ih => simp [everyMember, ih]

lemma everywhere_array {xs : List Toml} :
    everywhere test (.array xs) = true ↔
      test (.array xs) = true ∧ ∀ x ∈ xs, everywhere test x = true := by
  rw [everywhere, Bool.and_eq_true, everyItem_iff]

lemma everywhere_table {ms : List (String × Toml)} :
    everywhere test (.table ms) = true ↔
      test (.table ms) = true ∧ ∀ m ∈ ms, everywhere test m.2 = true := by
  rw [everywhere, Bool.and_eq_true, everyMember_iff]

/-! ### Numbers -/

variable {fits : Int → Bool}

@[simp] lemma numbersFit_array {xs : List Toml} :
    numbersFit fits (.array xs) = true ↔ ∀ x ∈ xs, numbersFit fits x = true := by
  rw [numbersFit, everywhere_array]
  simp

@[simp] lemma numbersFit_table {ms : List (String × Toml)} :
    numbersFit fits (.table ms) = true ↔ ∀ m ∈ ms, numbersFit fits m.2 = true := by
  rw [numbersFit, everywhere_table]
  simp

end ResourceBuild.Toml

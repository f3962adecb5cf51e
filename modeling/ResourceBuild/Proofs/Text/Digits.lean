import Mathlib.Algebra.Group.Nat.Defs
import Mathlib.Tactic.ByContra
import Mathlib.Tactic.Lemma
import Mathlib.Tactic.SplitIfs
import ResourceBuild.Text.Blank
import ResourceBuild.Text.Digits

/-!
# Digits read back

The digits of a number are read as that number, and digits are read up to the first character that
is none.
-/

namespace ResourceBuild.Text

/-! ### The digits of a number -/

lemma digits_ne_nil (n : Nat) : digits n ≠ [] :=
  Nat.toDigits_ne_nil

lemma isDigit_of_mem_digits {n : Nat} {c : Char} (hc : c ∈ digits n) : isDigit c = true :=
  Nat.isDigit_of_mem_toDigits (by decide) (by decide) hc

/-- The digits of a number stand for it. -/
@[simp] theorem digitsValue_digits (n : Nat) : digitsValue (digits n) = n :=
  Nat.ofDigitChars_ten_toDigits

/-- Only zero is written with a zero in front. -/
lemma digits_ne_zero_cons {n : Nat} (hn : n ≠ 0) (ds : List Char) : digits n ≠ '0' :: ds := by
  induction n using Nat.strongRecOn generalizing ds with
  | ind n ih =>
    unfold digits at ih ⊢
    rw [Nat.toDigits_eq_if (by decide)]
    split_ifs with hlt
    · intro h
      rw [List.cons.injEq, Nat.digitChar_eq_zero] at h
      exact hn h.1
    · have hdiv : n / 10 ≠ 0 := by omega
      obtain ⟨c, cs, hcs⟩ := List.exists_cons_of_ne_nil (digits_ne_nil (n / 10))
      intro h
      unfold digits at hcs
      rw [hcs, List.cons_append, List.cons.injEq] at h
      exact ih (n / 10) (by omega) hdiv cs (by rw [hcs, h.1])

lemma lt_ten_pow_length_digits (n : Nat) : n < 10 ^ (digits n).length :=
  (Nat.length_toDigits_le_iff (by decide) Nat.length_toDigits_pos).mp (Nat.le_refl _)

lemma ten_pow_length_digits_le {n : Nat} (hn : n ≠ 0) : 10 ^ ((digits n).length - 1) ≤ n := by
  rcases Nat.eq_zero_or_pos ((digits n).length - 1) with h | h
  · rw [h, Nat.pow_zero]
    exact Nat.pos_of_ne_zero hn
  · by_contra hlt
    have hle : (digits n).length ≤ (digits n).length - 1 :=
      (Nat.length_toDigits_le_iff (by decide) h).mpr (Nat.not_le.mp hlt)
    omega

/-! ### The value of a run of digits -/

lemma digitsValue_append_zeros (ds : List Char) (n : Nat) :
    digitsValue (ds ++ List.replicate n '0') = digitsValue ds * 10 ^ n := by
  rw [digitsValue, digitsValue, Nat.ofDigitChars_append, Nat.ofDigitChars_replicate_zero,
    Nat.mul_comm]

lemma digitsValue_zeros_append (n : Nat) (ds : List Char) :
    digitsValue (List.replicate n '0' ++ ds) = digitsValue ds := by
  rw [digitsValue, digitsValue, Nat.ofDigitChars_append, Nat.ofDigitChars_replicate_zero,
    Nat.mul_zero]

/-- Some ASCII digits, of which the first may be zeros, stand for a number. -/
structure Numeral (n : Nat) (ds : List Char) : Prop where
  nonempty : ds ≠ []
  digit : ∀ c ∈ ds, '0' ≤ c ∧ c ≤ '9'
  value : digitsValue ds = n

lemma isDigit_iff {c : Char} : isDigit c = true ↔ '0' ≤ c ∧ c ≤ '9' := by
  simp [isDigit]

lemma isBlank_of_isDigit {c : Char} (hc : isDigit c = true) : isBlank c = false := by
  obtain ⟨hlow, hhigh⟩ := isDigit_iff.mp hc
  have hlow : 48 ≤ c.toNat := hlow
  have hhigh : c.toNat ≤ 57 := hhigh
  simp [isBlank]
  omega

/-- A number is written as a numeral that stands for it. -/
lemma numeral_digits (n : Nat) : Numeral n (digits n) :=
  ⟨digits_ne_nil n, fun _ hc => isDigit_iff.mp (isDigit_of_mem_digits hc), digitsValue_digits n⟩

lemma Numeral.notMem {n : Nat} {ds : List Char} {c : Char} (h : Numeral n ds)
    (hc : isDigit c = false) : c ∉ ds := by
  intro hmem
  rw [isDigit_iff.mpr (h.digit c hmem)] at hc
  cases hc

/-- One or more digits are read if their value is below the bound. -/
lemma readDigits_eq_some_iff {bound position : Nat} {ds : List Char} :
    (if ds.isEmpty || !ds.all isDigit then none
      else if digitsValue ds < bound then some (digitsValue ds) else none) = some position ↔
      ds ≠ [] ∧ (∀ c ∈ ds, '0' ≤ c ∧ c ≤ '9') ∧ digitsValue ds = position ∧ position < bound := by
  simp only [Option.ite_none_left_eq_some, Option.ite_none_right_eq_some, Bool.or_eq_true,
    not_or, Bool.not_eq_true', Bool.not_eq_false, List.all_eq_true, List.isEmpty_iff, isDigit,
    Bool.and_eq_true, decide_eq_true_eq, Option.some.injEq, and_assoc]
  refine and_congr_right' (and_congr_right' ?_)
  constructor
  · rintro ⟨hbound, rfl⟩
    exact ⟨rfl, hbound⟩
  · rintro ⟨rfl, hbound⟩
    exact ⟨hbound, rfl⟩

/-! ### Taking digits off a text -/

/-- Whether a text goes on with something other than a digit, or ends. -/
def StopsDigits (cs : List Char) : Prop :=
  ∀ c r, cs = c :: r → isDigit c = false

lemma StopsDigits.cons {c : Char} (r : List Char) (hc : isDigit c = false) :
    StopsDigits (c :: r) := by
  rintro d s ⟨⟩
  exact hc

/-- A run of digits is taken off a text up to its end. -/
theorem takeDigits_append {ds rest : List Char} (hds : ∀ c ∈ ds, isDigit c = true)
    (hrest : StopsDigits rest) : takeDigits (ds ++ rest) = (ds, rest) := by
  have hnone : rest.takeWhile isDigit = [] ∧ rest.dropWhile isDigit = rest := by
    cases rest with
    | nil => exact ⟨rfl, rfl⟩
    | cons c r => simp [hrest c r rfl]
  rw [takeDigits, List.takeWhile_append_of_pos hds, List.dropWhile_append_of_pos hds, hnone.1,
    hnone.2, List.append_nil]

end ResourceBuild.Text

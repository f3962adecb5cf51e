import Mathlib.Tactic.SplitIfs
import ResourceBuild.Proofs.Json.Number
import ResourceBuild.Proofs.Json.Reading

/-!
# What a reader makes

A value that was read is nested no deeper than the reader allows, and its whole numbers fit 64
bits. Once its repeated keys are dropped each object has each key once.
-/

namespace ResourceBuild.Json

open Decimal
open Outcome
open Text

/-! ### Bounded values -/

/-- Whether arrays and objects lie at most so deep inside one another, and all numbers fit. -/
inductive Bounded : Nat → Json → Prop where
  | null {depth : Nat} : Bounded depth .null
  | boolean {depth : Nat} (b : Bool) : Bounded depth (.boolean b)
  | number {depth : Nat} {n : Number} (hn : Fits n) : Bounded depth (.number n)
  | text {depth : Nat} (s : String) : Bounded depth (.text s)
  | array {depth : Nat} {xs : List Json} (hxs : ∀ x ∈ xs, Bounded depth x) :
      Bounded (depth + 1) (.array xs)
  | object {depth : Nat} {ms : Members} (hms : ∀ m ∈ ms, Bounded depth m.2) :
      Bounded (depth + 1) (.object ms)

/-! ### What the reader makes -/

lemma realNumber_fits {purpose : Purpose} {negative : Bool} {whole frac rest : List Char}
    {exp : Option (Bool × List Char)} {n : Number}
    (h : realNumber purpose negative whole frac exp rest = .ok n) : Fits n := by
  simp only [realNumber] at h
  split at h
  · split_ifs at h
    cases h
    exact trivial
  · split at h
    · cases h
      exact trivial
    · split_ifs at h
      cases h
      exact trivial

/-- Numbers that are read fit. -/
lemma unsignedNumber_fits {negative : Bool} {cs rest : List Char} {n : Number}
    (h : unsignedNumber .keep negative cs = .ok (n, rest)) : Fits n := by
  unfold unsignedNumber at h
  split at h
  · cases h
  · cases h
  · cases h
  · obtain ⟨⟨frac, r⟩, -, h⟩ := bind_eq_ok_iff.mp h
    obtain ⟨⟨exp, r'⟩, -, h⟩ := bind_eq_ok_iff.mp h
    simp only at h
    split_ifs at h with hunsigned hsigned
    · cases h
      rw [Bool.and_eq_true] at hunsigned
      rw [Fits, Word.fits, hunsigned.2, Bool.or_true]
    · cases h
      rw [Bool.and_eq_true] at hsigned
      rw [Fits, Word.fits, hsigned.2, Bool.true_or]
    · obtain ⟨k, hk, h⟩ := bind_eq_ok_iff.mp h
      cases h
      exact realNumber_fits hk

/-- Where a value is kept, the reader only goes down if some depth is left. -/
lemma exists_depth_of_keep {depth : Nat} (h : depth = 0 → Purpose.keep.passes = true) :
    ∃ n, depth = n + 1 :=
  Nat.exists_eq_succ_of_ne_zero fun hzero => Bool.false_ne_true (h hzero)

/-- A value that is kept is bounded if its items or members are. -/
lemma value_bounded_step {fuel depth : Nat} {cs rest : List Char} {v : Json}
    (hitems : ∀ n ds xs r, items .keep fuel n ds = .ok (xs, r) → ∀ x ∈ xs, Bounded n x)
    (hmembers : ∀ n ds ms r, members .keep fuel n ds = .ok (ms, r) → ∀ m ∈ ms, Bounded n m.2)
    (h : ReadsValue .keep fuel depth cs v rest) : Bounded depth v := by
  cases h with
  | null => exact .null
  | true => exact .boolean true
  | false => exact .boolean false
  | text => exact .text _
  | negative _ hnumber => exact .number (unsignedNumber_fits hnumber)
  | number _ hnumber => exact .number (unsignedNumber_fits hnumber)
  | emptyArray _ hdepth =>
    obtain ⟨n, rfl⟩ := exists_depth_of_keep hdepth
    exact .array (by simp)
  | array _ hdepth _ hxs =>
    obtain ⟨n, rfl⟩ := exists_depth_of_keep hdepth
    exact .array (hitems n _ _ _ hxs)
  | emptyObject _ hdepth =>
    obtain ⟨n, rfl⟩ := exists_depth_of_keep hdepth
    exact .object (by simp)
  | object _ hdepth _ hms =>
    obtain ⟨n, rfl⟩ := exists_depth_of_keep hdepth
    exact .object (hmembers n _ _ _ hms)

/-- Whatever is kept of a text is bounded by the depth that was left for it. -/
theorem read_bounded (fuel : Nat) :
    (∀ depth cs v rest, value .keep fuel depth cs = .ok (v, rest) → Bounded depth v) ∧
      (∀ depth cs xs rest, items .keep fuel depth cs = .ok (xs, rest) → ∀ x ∈ xs, Bounded depth x) ∧
      (∀ depth cs ms rest, members .keep fuel depth cs = .ok (ms, rest) →
        ∀ m ∈ ms, Bounded depth m.2) := by
  induction fuel with
  | zero =>
    refine ⟨?_, ?_, ?_⟩
    · intro depth cs v rest h
      cases h
    · intro depth cs xs rest h
      cases h
    · intro depth cs ms rest h
      cases h
  | succ fuel ih =>
    obtain ⟨hvalue, hitems, hmembers⟩ := ih
    refine ⟨?_, ?_, ?_⟩
    · intro depth cs v rest h
      exact value_bounded_step hitems hmembers (readsValue_of_value h)
    · intro depth cs xs rest h
      cases readsItems_of_items h with
      | last hx => simpa using hvalue depth cs _ _ hx
      | more hx _ _ hxs =>
        exact List.forall_mem_cons.mpr ⟨hvalue depth cs _ _ hx, hitems depth _ _ rest hxs⟩
    · intro depth cs ms rest h
      cases readsMembers_of_members h with
      | last _ _ hv => simpa using hvalue depth _ _ _ hv
      | more _ _ hv _ _ hms =>
        exact List.forall_mem_cons.mpr ⟨hvalue depth _ _ _ hv, hmembers depth _ _ rest hms⟩

end ResourceBuild.Json

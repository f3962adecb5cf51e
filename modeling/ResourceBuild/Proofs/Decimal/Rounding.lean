import Mathlib.Algebra.Order.Field.Power
import Mathlib.Data.Int.Log
import Mathlib.Data.Rat.Floor
import Mathlib.Tactic.FieldSimp
import Mathlib.Tactic.GCongr
import Mathlib.Tactic.Lemma
import Mathlib.Tactic.Linarith
import Mathlib.Tactic.NormNum
import Mathlib.Tactic.Positivity
import Mathlib.Tactic.Ring
import ResourceBuild.Decimal.Double

/-!
# Rounding to doubles

The double nearest to a quotient depends on the quotient alone and not on how it is written. A
double is the nearest to its own value, and what rounds to a double is not far outside their range.
-/

namespace ResourceBuild.Decimal

/-! ### Scaled quotients -/

lemma scale_pos {base den : Nat} (hbase : 0 < base) (hden : 0 < den) (k : Int) (num : Nat) :
    0 < (scale base k num den).2 := by
  unfold scale
  split_ifs
  · exact hden
  · exact Nat.mul_pos hden (Nat.pow_pos hbase)

/-- Scaling multiplies a quotient by a power of the base. -/
lemma scale_div {base den : Nat} (hbase : 0 < base) (hden : 0 < den) (k : Int) (num : Nat) :
    ((scale base k num den).1 : ℚ) / (scale base k num den).2 =
      (num : ℚ) / den * (base : ℚ) ^ k := by
  have hb : (base : ℚ) ≠ 0 := by exact_mod_cast hbase.ne'
  have hd : (den : ℚ) ≠ 0 := by exact_mod_cast hden.ne'
  unfold scale
  split_ifs with hk
  · obtain ⟨n, rfl⟩ := Int.eq_ofNat_of_zero_le hk
    simp
    ring
  · obtain ⟨n, hn⟩ := Int.eq_ofNat_of_zero_le (a := -k) (by omega)
    obtain rfl : k = -n := by omega
    simp
    field_simp

lemma num_pos_of_div_pos {num den : Nat} (h : (0 : ℚ) < (num : ℚ) / den) : 0 < num := by
  rw [Nat.pos_iff_ne_zero]
  rintro rfl
  simp at h

/-! ### Rounding to naturals -/

lemma roundHalfEven_mul_right (num den : Nat) {c : Nat} (hc : 0 < c) :
    roundHalfEven (num * c) (den * c) = roundHalfEven num den := by
  have hlt (a b : Nat) : a * c < b * c ↔ a < b := Nat.mul_lt_mul_right hc
  simp only [roundHalfEven, Nat.mul_div_mul_right _ _ hc, Nat.mul_mod_mul_right, ← Nat.mul_assoc,
    hlt]

/-- Quotients that are equal are rounded alike. -/
lemma roundHalfEven_congr {n d n' d' : Nat} (hd : 0 < d) (hd' : 0 < d')
    (h : (n : ℚ) / d = n' / d') : roundHalfEven n d = roundHalfEven n' d' := by
  rw [div_eq_div_iff (by exact_mod_cast hd.ne') (by exact_mod_cast hd'.ne')] at h
  have hcross : n * d' = n' * d := by exact_mod_cast h
  rw [← roundHalfEven_mul_right n d hd', hcross, Nat.mul_comm d d', roundHalfEven_mul_right _ _ hd]

/-- A natural is rounded to itself. -/
lemma roundHalfEven_of_div_eq {n d m : Nat} (hd : 0 < d) (h : (n : ℚ) / d = m) :
    roundHalfEven n d = m := by
  have hone : (n : ℚ) / d = (m : Nat) / (1 : Nat) := by rw [h, Nat.cast_one, div_one]
  rw [roundHalfEven_congr hd Nat.one_pos hone]
  simp [roundHalfEven, Nat.mod_one]

lemma le_roundHalfEven {n d m : Nat} (hd : 0 < d) (h : (m : ℚ) ≤ n / d) :
    m ≤ roundHalfEven n d := by
  have hle : m ≤ n / d := by
    rw [Nat.le_div_iff_mul_le hd]
    rw [le_div_iff₀ (by exact_mod_cast hd)] at h
    exact_mod_cast h
  simp only [roundHalfEven]
  split_ifs <;> omega

/-- Less than a half is rounded to nothing. -/
lemma roundHalfEven_eq_zero {n d : Nat} (hd : 0 < d) (h : (n : ℚ) / d < 1 / 2) :
    roundHalfEven n d = 0 := by
  rw [div_lt_div_iff₀ (by exact_mod_cast hd) two_pos] at h
  have hlt : n * 2 < 1 * d := by exact_mod_cast h
  have hdiv : n / d = 0 := Nat.div_eq_of_lt (by omega)
  have hmod : n % d = n := Nat.mod_eq_of_lt (by omega)
  simp only [roundHalfEven, hdiv, hmod]
  split_ifs <;> omega

/-! ### The binary exponent -/

lemma log_eq_iff {v : ℚ} (hv : 0 < v) {e : Int} :
    Int.log 2 v = e ↔ (2 : ℚ) ^ e ≤ v ∧ v < (2 : ℚ) ^ (e + 1) := by
  constructor
  · rintro rfl
    exact ⟨Int.zpow_log_le_self (by norm_num) hv, Int.lt_zpow_succ_log_self (by norm_num) v⟩
  · rintro ⟨hle, hlt⟩
    have h1 : e ≤ Int.log 2 v := (Int.zpow_le_iff_le_log (by norm_num) hv).mp hle
    have h2 : Int.log 2 v < e + 1 := (Int.lt_zpow_iff_log_lt (by norm_num) hv).mp hlt
    omega

/-- The bounds of a positive natural by powers of two. -/
lemma two_zpow_log2_le {n : Nat} (hn : 0 < n) :
    (2 : ℚ) ^ (n.log2 : Int) ≤ n ∧ (n : ℚ) < 2 ^ ((n.log2 : Int) + 1) := by
  have hle := Nat.log2_self_le hn.ne'
  have hlt := Nat.lt_log2_self (n := n)
  constructor
  · exact_mod_cast hle
  · exact_mod_cast hlt

namespace Double

/-- The binary exponent of a quotient is the logarithm of its value, rounded down. -/
theorem binaryExponent_eq_log {num den : Nat} (hnum : 0 < num) (hden : 0 < den) :
    binaryExponent num den = Int.log 2 ((num : ℚ) / den) := by
  have hn : (0 : ℚ) < num := by exact_mod_cast hnum
  have hd : (0 : ℚ) < den := by exact_mod_cast hden
  have hv : (0 : ℚ) < (num : ℚ) / den := div_pos hn hd
  obtain ⟨hnle, hnlt⟩ := two_zpow_log2_le hnum
  obtain ⟨hdle, hdlt⟩ := two_zpow_log2_le hden
  symm
  rw [log_eq_iff hv]
  unfold binaryExponent
  set e : Int := (num.log2 : Int) - den.log2 with he
  have hp : (0 : ℚ) < 2 ^ e := zpow_pos two_pos e
  -- the quotient is less than twice off the power that the lengths give
  have hlow : (2 : ℚ) ^ (e - 1) ≤ num / den := by
    rw [le_div_iff₀ hd]
    calc (2 : ℚ) ^ (e - 1) * den ≤ 2 ^ (e - 1) * 2 ^ ((den.log2 : Int) + 1) := by gcongr
      _ = 2 ^ (num.log2 : Int) := by rw [← zpow_add₀ two_ne_zero]; congr 1; omega
      _ ≤ num := hnle
  have hhigh : (num : ℚ) / den < 2 ^ (e + 1) := by
    rw [div_lt_iff₀ hd]
    calc (num : ℚ) < 2 ^ ((num.log2 : Int) + 1) := hnlt
      _ = 2 ^ (e + 1) * 2 ^ (den.log2 : Int) := by rw [← zpow_add₀ two_ne_zero]; congr 1; omega
      _ ≤ 2 ^ (e + 1) * den := by gcongr
  have hscale := scale_div two_pos hden (-e) num
  have hspos := scale_pos two_pos hden (-e) num
  have hcmp : (scale 2 (-e) num den).2 ≤ (scale 2 (-e) num den).1 ↔ (2 : ℚ) ^ e ≤ num / den := by
    rw [← Nat.cast_le (α := ℚ), ← one_le_div (by exact_mod_cast hspos), hscale, zpow_neg,
      Nat.cast_ofNat, ← div_eq_mul_inv, one_le_div hp]
  by_cases hle : (2 : ℚ) ^ e ≤ num / den
  · simp only [if_pos (hcmp.mpr hle)]
    exact ⟨hle, hhigh⟩
  · simp only [if_neg (mt hcmp.mp hle), sub_add_cancel]
    exact ⟨hlow, not_le.mp hle⟩

/-! ### The nearest double -/

@[simp] lemma nearestPlace_zero (den : Nat) : nearestPlace 0 den = 0 := by
  simp only [nearestPlace, if_true]

/-- A positive quotient is rounded within the octave of its binary exponent. -/
lemma nearestPlace_of_pos {num den : Nat} (hnum : 0 < num) :
    nearestPlace num den =
      ((max 1 (binaryExponent num den + 1023)).toNat - 1) * octave +
        roundHalfEven
          (scale 2 (1075 - ((max 1 (binaryExponent num den + 1023)).toNat : Int)) num den).1
          (scale 2 (1075 - ((max 1 (binaryExponent num den + 1023)).toNat : Int)) num den).2 := by
  simp only [nearestPlace, if_neg hnum.ne']

/-- The nearest place depends on the value of a quotient alone. -/
theorem nearestPlace_congr {n d n' d' : Nat} (hd : 0 < d) (hd' : 0 < d')
    (h : (n : ℚ) / d = n' / d') : nearestPlace n d = nearestPlace n' d' := by
  have hdq : (d : ℚ) ≠ 0 := by exact_mod_cast hd.ne'
  have hdq' : (d' : ℚ) ≠ 0 := by exact_mod_cast hd'.ne'
  rcases Nat.eq_zero_or_pos n with rfl | hn
  · rw [Nat.cast_zero, zero_div, eq_comm, div_eq_zero_iff, or_iff_left hdq'] at h
    obtain rfl : n' = 0 := by exact_mod_cast h
    rw [nearestPlace_zero, nearestPlace_zero]
  · have hn' : 0 < n' := by
      rw [Nat.pos_iff_ne_zero]
      rintro rfl
      rw [Nat.cast_zero, zero_div, div_eq_zero_iff, or_iff_left hdq] at h
      exact hn.ne' (by exact_mod_cast h)
    have hexp : binaryExponent n d = binaryExponent n' d' := by
      rw [binaryExponent_eq_log hn hd, binaryExponent_eq_log hn' hd', h]
    rw [nearestPlace_of_pos hn, nearestPlace_of_pos hn', hexp]
    congr 1
    apply roundHalfEven_congr (scale_pos two_pos hd _ _) (scale_pos two_pos hd' _ _)
    rw [scale_div two_pos hd, scale_div two_pos hd', h]

lemma nearest?_congr (negative : Bool) {n d n' d' : Nat} (hd : 0 < d) (hd' : 0 < d')
    (h : (n : ℚ) / d = n' / d') : nearest? negative n d = nearest? negative n' d' := by
  simp only [nearest?, nearestPlace_congr hd hd' h]

/-- From twice the largest power of two on there are no doubles. -/
lemma le_nearestPlace {num den : Nat} (hden : 0 < den) (h : (2 : ℚ) ^ (1024 : Int) ≤ num / den) :
    2047 * octave ≤ nearestPlace num den := by
  have hv : (0 : ℚ) < num / den := lt_of_lt_of_le (by positivity) h
  have hnum := num_pos_of_div_pos hv
  have hexp : 1024 ≤ binaryExponent num den := by
    rw [binaryExponent_eq_log hnum hden]
    exact (Int.zpow_le_iff_le_log (by norm_num) hv).mp h
  obtain ⟨e, he⟩ : ∃ e : Nat, max 1 (binaryExponent num den + 1023) = e :=
    ⟨(binaryExponent num den + 1023).toNat, by omega⟩
  have hround : octave ≤ roundHalfEven (scale 2 (1075 - (e : Int)) num den).1
      (scale 2 (1075 - (e : Int)) num den).2 := by
    apply le_roundHalfEven (scale_pos two_pos hden _ _)
    rw [scale_div two_pos hden]
    have hlog : (2 : ℚ) ^ binaryExponent num den ≤ num / den := by
      rw [binaryExponent_eq_log hnum hden]
      exact Int.zpow_log_le_self (by norm_num) hv
    calc ((octave : Nat) : ℚ) = 2 ^ binaryExponent num den * 2 ^ (1075 - (e : Int)) := by
          rw [← zpow_add₀ two_ne_zero,
            show binaryExponent num den + (1075 - (e : Int)) = 52 by omega]
          norm_num [octave]
      _ ≤ _ := by gcongr; norm_num
  rw [nearestPlace_of_pos hnum, he, Int.toNat_natCast]
  have hmul : 2046 * octave ≤ (e - 1) * octave := Nat.mul_le_mul_right _ (by omega)
  omega

/-- What is less than half the least double is rounded to nothing. -/
lemma nearestPlace_eq_zero {num den : Nat} (hden : 0 < den)
    (h : (num : ℚ) / den < 2 ^ (-1075 : Int)) : nearestPlace num den = 0 := by
  rcases Nat.eq_zero_or_pos num with rfl | hnum
  · exact nearestPlace_zero den
  · have hv : (0 : ℚ) < num / den :=
      div_pos (by exact_mod_cast hnum) (by exact_mod_cast hden)
    have hexp : binaryExponent num den < -1075 := by
      rw [binaryExponent_eq_log hnum hden]
      exact (Int.lt_zpow_iff_log_lt (by norm_num) hv).mp h
    rw [nearestPlace_of_pos hnum, show max 1 (binaryExponent num den + 1023) = 1 by omega]
    simp only [Int.toNat_one, Nat.sub_self, Nat.zero_mul, Nat.zero_add, Nat.cast_one]
    apply roundHalfEven_eq_zero (scale_pos two_pos hden _ _)
    rw [scale_div two_pos hden]
    calc (num : ℚ) / den * ((2 : Nat) : ℚ) ^ (1075 - 1 : Int)
        < 2 ^ (-1075 : Int) * ((2 : Nat) : ℚ) ^ (1075 - 1 : Int) := by gcongr
      _ = 2 ^ (-1 : Int) := by rw [Nat.cast_ofNat, ← zpow_add₀ two_ne_zero]; norm_num
      _ = 1 / 2 := by norm_num

/-! ### A double is the nearest to itself -/

lemma octave_pos : 0 < octave := by
  decide

lemma octave_eq : (octave : ℚ) = 2 ^ (52 : Int) := by
  norm_num [octave]

/-- The value of a double, its sign left out. -/
def magnitude (x : Double) : ℚ :=
  x.ratio.1 / x.ratio.2

lemma ratio_pos (x : Double) : 0 < x.ratio.2 :=
  scale_pos two_pos Nat.one_pos _ _

lemma magnitude_eq (x : Double) : x.magnitude = x.binary.1 * 2 ^ x.binary.2 := by
  rw [magnitude, ratio, scale_div two_pos Nat.one_pos]
  simp

/-- The octave and the significand of a double. Only the first octave has small significands. -/
lemma binary_spec (x : Double) :
    ∃ e m : Nat, 1 ≤ e ∧ m < 2 * octave ∧ (octave ≤ m ∨ e = 1) ∧
      x.place = (e - 1) * octave + m ∧ x.binary = (m, (e : Int) - 1075) := by
  have hdiv := Nat.div_add_mod' x.place octave
  have hmod := Nat.mod_lt x.place octave_pos
  rcases Nat.eq_zero_or_pos (x.place / octave) with hE | hE
  · rw [hE, Nat.zero_mul, Nat.zero_add] at hdiv
    refine ⟨1, x.place, le_refl 1, by omega, Or.inr rfl, by simp, ?_⟩
    simp only [binary, hE, if_true, hdiv]
    rfl
  · refine ⟨x.place / octave, octave + x.place % octave, hE, by omega,
      Or.inl (Nat.le_add_right _ _), ?_, ?_⟩
    · rw [Nat.sub_mul, Nat.one_mul]
      have hle : octave ≤ x.place / octave * octave := Nat.le_mul_of_pos_left _ hE
      omega
    · simp only [binary, if_neg hE.ne']

/-- A significand is rounded to itself in its octave. -/
lemma nearestPlace_of_binary {num den e m : Nat} (hden : 0 < den) (he : 1 ≤ e) (hm : 0 < m)
    (hlt : m < 2 * octave) (hnorm : octave ≤ m ∨ e = 1)
    (h : (num : ℚ) / den = m * 2 ^ ((e : Int) - 1075)) :
    nearestPlace num den = (e - 1) * octave + m := by
  have hmq : (0 : ℚ) < m := by exact_mod_cast hm
  have hpow : (0 : ℚ) < 2 ^ ((e : Int) - 1075) := zpow_pos two_pos _
  have hv : (0 : ℚ) < num / den := by rw [h]; exact mul_pos hmq hpow
  have hnum := num_pos_of_div_pos hv
  have hlow (k : Int) (hk : (2 : ℚ) ^ k ≤ m) : k + (e - 1075) ≤ binaryExponent num den := by
    rw [binaryExponent_eq_log hnum hden, ← Int.zpow_le_iff_le_log (by norm_num) hv, h,
      Nat.cast_ofNat, zpow_add₀ two_ne_zero]
    gcongr
  have hhigh (k : Int) (hk : (m : ℚ) < 2 ^ k) : binaryExponent num den < k + (e - 1075) := by
    rw [binaryExponent_eq_log hnum hden, ← Int.lt_zpow_iff_log_lt (by norm_num) hv, h,
      Nat.cast_ofNat, zpow_add₀ two_ne_zero]
    gcongr
  -- the significand has 53 bits unless the exponent is the least one
  have hmax : max 1 (binaryExponent num den + 1023) = e := by
    have h53 := hhigh 53 (by
      calc (m : ℚ) < ((2 * octave : Nat) : ℚ) := by exact_mod_cast hlt
        _ = 2 ^ (53 : Int) := by norm_num [octave])
    rcases hnorm with hle | rfl
    · have h52 := hlow 52 (by rw [← octave_eq]; exact_mod_cast hle)
      omega
    · omega
  rw [nearestPlace_of_pos hnum, hmax, Int.toNat_natCast]
  congr 1
  apply roundHalfEven_of_div_eq (scale_pos two_pos hden _ _)
  rw [scale_div two_pos hden, h, Nat.cast_ofNat, mul_assoc, ← zpow_add₀ two_ne_zero]
  simp

/-- Rounding the value of a double gives its place. -/
theorem nearestPlace_ratio (x : Double) : nearestPlace x.ratio.1 x.ratio.2 = x.place := by
  have hmag : (x.ratio.1 : ℚ) / x.ratio.2 = x.binary.1 * 2 ^ x.binary.2 := x.magnitude_eq
  obtain ⟨e, m, he, hlt, hnorm, hplace, hb⟩ := x.binary_spec
  rw [hb] at hmag
  rw [hplace]
  rcases Nat.eq_zero_or_pos m with rfl | hm
  · obtain rfl : e = 1 := by
      rcases hnorm with h | h
      · exact absurd h (not_le.mpr octave_pos)
      · exact h
    rw [Nat.cast_zero, zero_mul, div_eq_zero_iff, or_iff_left (by exact_mod_cast x.ratio_pos.ne')]
      at hmag
    have hnum : x.ratio.1 = 0 := by exact_mod_cast hmag
    rw [hnum, nearestPlace_zero]
    rfl
  · exact nearestPlace_of_binary x.ratio_pos he hm hlt hnorm hmag

/-- A double is the one that is nearest to its value. -/
theorem nearest?_ratio (x : Double) :
    nearest? x.negative x.ratio.1 x.ratio.2 = some x := by
  simp only [nearest?, nearestPlace_ratio, x.place_lt, dif_pos]

end Double

end ResourceBuild.Decimal

import Mathlib.Data.List.Range
import ResourceBuild.Decimal.Shortest
import ResourceBuild.Proofs.Decimal.Rounding

/-!
# Shortest decimals read back

A decimal is read as the double nearest to its value, so decimals of one value are read alike. The
shortest decimal of a double is read as that double.
-/

namespace ResourceBuild.Decimal

namespace Double

/-! ### Reading a decimal -/

/-- Ten has more than three binary digits. -/
lemma ten_zpow_le {e : Int} (he : e ≤ 0) : (10 : ℚ) ^ e ≤ 2 ^ (3 * e) := by
  obtain ⟨n, hn⟩ := Int.eq_ofNat_of_zero_le (a := -e) (by omega)
  obtain rfl : e = -n := by omega
  rw [zpow_mul, zpow_neg, zpow_neg, zpow_natCast, zpow_natCast]
  apply inv_anti₀ (by positivity)
  gcongr
  norm_num

lemma decimal_pos (e : Int) (m : Nat) : 0 < (scale 10 e m 1).2 :=
  scale_pos (by norm_num) Nat.one_pos e m

/-- The quotient that a decimal is read from has its value. -/
lemma decimal_div (e : Int) (m : Nat) :
    ((scale 10 e m 1).1 : ℚ) / (scale 10 e m 1).2 = m * 10 ^ e := by
  rw [scale_div (by norm_num) Nat.one_pos]
  simp

/-- What is rounded to nothing is read as zero. -/
lemma nearest?_eq_zero (negative : Bool) {num den : Nat} (h : nearestPlace num den = 0) :
    nearest? negative num den = some (zero negative) := by
  have hlt : 0 < 2047 * octave := by decide
  simp only [nearest?, h, hlt, dif_pos, zero]

/-- The shortcuts far outside the range of doubles do not change what is read. -/
theorem ofDecimal?_eq_nearest? (negative : Bool) (m : Nat) (e : Int) :
    ofDecimal? negative m e = nearest? negative (scale 10 e m 1).1 (scale 10 e m 1).2 := by
  simp only [ofDecimal?]
  split_ifs with hm hbig hsmall
  · -- the value is zero
    symm
    apply nearest?_eq_zero
    apply nearestPlace_eq_zero (decimal_pos e m)
    rw [decimal_div, hm, Nat.cast_zero, zero_mul]
    positivity
  · -- the value is at least `10 ^ 1100`
    have hle : (2 : ℚ) ^ (1024 : Int) ≤ (scale 10 e m 1).1 / (scale 10 e m 1).2 := by
      rw [decimal_div]
      have hm1 : (1 : ℚ) ≤ m := by exact_mod_cast Nat.pos_of_ne_zero hm
      calc (2 : ℚ) ^ (1024 : Int) ≤ 2 ^ e := zpow_le_zpow_right₀ (by norm_num) (by omega)
        _ ≤ 10 ^ e := zpow_le_zpow_left₀ (by omega) (by norm_num) (by norm_num)
        _ ≤ m * 10 ^ e := le_mul_of_one_le_left (by positivity) hm1
    have hplace := le_nearestPlace (decimal_pos e m) hle
    simp only [nearest?, not_lt.mpr hplace, dif_neg, not_false_eq_true]
  · -- the value is less than `2 ^ (-1200)`
    symm
    apply nearest?_eq_zero
    apply nearestPlace_eq_zero (decimal_pos e m)
    rw [decimal_div]
    have hlog : (m : ℚ) < 2 ^ ((m.log2 : Int) + 1) := (two_zpow_log2_le (Nat.pos_of_ne_zero hm)).2
    calc (m : ℚ) * 10 ^ e < 2 ^ ((m.log2 : Int) + 1) * 10 ^ e := by gcongr
      _ ≤ 2 ^ ((m.log2 : Int) + 1) * 2 ^ (3 * e) := by gcongr; exact ten_zpow_le (by omega)
      _ = 2 ^ ((m.log2 : Int) + 1 + 3 * e) := (zpow_add₀ two_ne_zero _ _).symm
      _ ≤ 2 ^ (-1075 : Int) := zpow_le_zpow_right₀ (by norm_num) (by omega)
  · rfl

/-- Decimals of one value are read alike. -/
theorem ofDecimal?_congr (negative : Bool) {m m' : Nat} {e e' : Int}
    (h : (m : ℚ) * 10 ^ e = m' * 10 ^ e') :
    ofDecimal? negative m e = ofDecimal? negative m' e' := by
  rw [ofDecimal?_eq_nearest?, ofDecimal?_eq_nearest?]
  apply nearest?_congr negative (decimal_pos e m) (decimal_pos e' m')
  rw [decimal_div, decimal_div, h]

/-- A decimal with the value of a double is read as that double. -/
theorem ofDecimal?_of_magnitude (x : Double) {m : Nat} {e : Int}
    (h : (m : ℚ) * 10 ^ e = x.magnitude) : ofDecimal? x.negative m e = some x := by
  rw [ofDecimal?_eq_nearest?, ← nearest?_ratio x]
  apply nearest?_congr x.negative (decimal_pos e m) x.ratio_pos
  rw [decimal_div, h]
  rfl

/-- Only a number less than twice the largest power of two is read as a double. -/
lemma lt_of_ofDecimal? {negative : Bool} {m : Nat} {e : Int} {x : Double}
    (h : ofDecimal? negative m e = some x) : (m : ℚ) * 10 ^ e < 2 ^ (1024 : Int) := by
  rw [ofDecimal?_eq_nearest?] at h
  by_contra hle
  rw [not_lt, ← decimal_div] at hle
  have hplace := le_nearestPlace (decimal_pos e m) hle
  simp only [nearest?, not_lt.mpr hplace, dif_neg, not_false_eq_true, reduceCtorEq] at h

/-- What is read as a positive double is not less than half the least one. -/
lemma le_of_ofDecimal? {negative : Bool} {m : Nat} {e : Int} {x : Double} (hx : x.place ≠ 0)
    (h : ofDecimal? negative m e = some x) : (2 : ℚ) ^ (-1075 : Int) ≤ m * 10 ^ e := by
  rw [ofDecimal?_eq_nearest?] at h
  by_contra hlt
  rw [not_le, ← decimal_div] at hlt
  have hplace := nearestPlace_eq_zero (decimal_pos e m) hlt
  rw [nearest?_eq_zero negative hplace, Option.some.injEq] at h
  exact hx (by rw [← h]; rfl)

end Double

/-! ### The shortest decimal -/

def Scientific.value (s : Scientific) : ℚ :=
  s.digits * 10 ^ s.power

/-- Whether a decimal, with the sign of a double, is read as that double. -/
def Scientific.Reads (s : Scientific) (x : Double) : Prop :=
  Double.ofDecimal? x.negative s.digits s.power = some x

lemma Scientific.Reads.congr {s t : Scientific} {x : Double} (h : s.Reads x)
    (hvalue : t.value = s.value) : t.Reads x := by
  rw [Scientific.Reads, Double.ofDecimal?_congr x.negative hvalue]
  exact h

lemma strip_value (fuel : Nat) (s : Scientific) : (s.strip fuel).value = s.value := by
  fun_induction Scientific.strip fuel s with
  | case1 s => rfl
  | case2 fuel s hzero ih =>
    rw [ih]
    have hdigits : s.digits = s.digits / 10 * 10 := by omega
    simp only [Scientific.value]
    rw [zpow_add₀ (by norm_num), zpow_one]
    conv_rhs => rw [hdigits]
    push_cast
    ring
  | case3 fuel s hzero => rfl

lemma exact_value (x : Double) : (exact x).value = x.magnitude := by
  rw [Double.magnitude_eq]
  simp only [exact]
  split_ifs with hq
  · obtain ⟨n, hn⟩ := Int.eq_ofNat_of_zero_le hq
    simp [Scientific.value, hn]
  · obtain ⟨n, hn⟩ := Int.eq_ofNat_of_zero_le (a := -x.binary.2) (by omega)
    obtain hq : x.binary.2 = -n := by omega
    have h5 : (10 : ℚ) ^ n = 2 ^ n * 5 ^ n := by rw [← mul_pow]; norm_num
    simp [Scientific.value, hq, h5]
    field_simp

/-- Both neighbours of a double among the decimals of a length are tried. -/
lemma withDigits?_reads {x : Double} {n : Nat} {s : Scientific} (h : withDigits? x n = some s) :
    s.Reads x := by
  rw [Scientific.Reads]
  unfold withDigits? at h
  simp only at h
  generalize decimalExponent x.ratio.1 x.ratio.2 - (n : Int) = power at h
  generalize scale 10 (-power) x.ratio.1 x.ratio.2 = q at h
  generalize q.1 / q.2 = low at h
  split at h
  · rename_i hlow hnext
    rw [beq_iff_eq] at hlow hnext
    split_ifs at h <;> obtain rfl := Option.some.inj h
    · exact hlow
    · exact hnext
    · rcases Nat.mod_two_eq_zero_or_one low with heven | hodd
      · rw [heven]
        exact hlow
      · rw [hodd]
        exact hnext
  · rename_i hlow hnext
    obtain rfl := Option.some.inj h
    exact beq_iff_eq.mp hlow
  · rename_i hlow hnext
    obtain rfl := Option.some.inj h
    exact beq_iff_eq.mp hnext
  · cases h

/-- The shortest decimal of a double is read as that double. -/
theorem shortest_reads (x : Double) : (shortest x).Reads x := by
  unfold shortest
  split_ifs with hzero
  · obtain ⟨negative, place, hlt⟩ := x
    obtain rfl : place = 0 := beq_iff_eq.mp hzero
    rfl
  · simp only
    apply Scientific.Reads.congr _ (strip_value 18 _)
    cases hfound : (List.range 17).findSome? fun n => withDigits? x (n + 1) with
    | none => exact Double.ofDecimal?_of_magnitude x (exact_value x)
    | some s =>
      obtain ⟨n, -, hn⟩ := List.exists_of_findSome?_eq_some hfound
      exact withDigits?_reads hn

/-! ### The size of the shortest decimal -/

/-- The shortest decimal of a number other than zero has no digits in the far exponents. -/
lemma shortest_bounds {x : Double} (hx : x.place ≠ 0) :
    (2 : ℚ) ^ (-1075 : Int) ≤ (shortest x).value ∧ (shortest x).value < 2 ^ (1024 : Int) :=
  ⟨Double.le_of_ofDecimal? hx (shortest_reads x), Double.lt_of_ofDecimal? (shortest_reads x)⟩

lemma shortest_digits_ne_zero {x : Double} (hx : x.place ≠ 0) : (shortest x).digits ≠ 0 := by
  intro hdigits
  have hle := (shortest_bounds hx).1
  rw [Scientific.value, hdigits, Nat.cast_zero, zero_mul] at hle
  exact absurd hle (not_le.mpr (by positivity))

lemma shortest_of_place_eq_zero {x : Double} (hx : x.place = 0) : shortest x = ⟨0, 0⟩ := by
  have hzero : x.isZero = true := beq_iff_eq.mpr hx
  rw [shortest, if_pos hzero]

end ResourceBuild.Decimal

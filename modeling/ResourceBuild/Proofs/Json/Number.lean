import ResourceBuild.Json.Printer
import ResourceBuild.Json.Reader
import ResourceBuild.Proofs.Decimal.ReadBack
import ResourceBuild.Proofs.Text.Digits

/-!
# Numbers read back

The text of a number is read as that number, whatever follows it, as long as that does not go on
with the number.
-/

namespace ResourceBuild.Json

open Decimal
open Text

/-! ### The parts of a number -/

/-- Whether a text does not go on with a number that stands before it. -/
def EndsNumber (cs : List Char) : Prop :=
  ∀ c r, cs = c :: r → isDigit c = false ∧ c ≠ '.' ∧ c ≠ 'e' ∧ c ≠ 'E'

lemma EndsNumber.nil : EndsNumber [] := by
  intro c r h
  cases h

lemma EndsNumber.cons {c : Char} (r : List Char)
    (hc : isDigit c = false ∧ c ≠ '.' ∧ c ≠ 'e' ∧ c ≠ 'E') : EndsNumber (c :: r) := by
  rintro d s ⟨⟩
  exact hc

lemma EndsNumber.stopsDigits {cs : List Char} (h : EndsNumber cs) : StopsDigits cs :=
  fun c r hcs => (h c r hcs).1

/--
A number as it is spelled: the digits before and after the point and those of the exponent, with
whether that is negative.
-/
structure Spelling where
  whole : List Char
  frac : List Char := []
  exp : Option (Bool × List Char) := none

namespace Spelling

/-- The point and the digits after it, if there are any. -/
def fracText (n : Spelling) : List Char :=
  if n.frac = [] then [] else '.' :: n.frac

def expText (n : Spelling) : List Char :=
  match n.exp with
  | none => []
  | some (low, ds) => 'e' :: (if low then '-' else '+') :: ds

/-- The characters of a number, its sign left out. -/
def text (n : Spelling) : List Char :=
  n.whole ++ (n.fracText ++ n.expText)

/-- The power of ten that the digits, taken together, are multiplied with. -/
def power (n : Spelling) : Int :=
  (match n.exp with
    | none => 0
    | some (low, ds) => if low then -(digitsValue ds : Int) else digitsValue ds) - n.frac.length

/-- What a reader of numbers accepts. -/
structure Lawful (n : Spelling) : Prop where
  whole_ne_nil : n.whole ≠ []
  whole_digits : ∀ c ∈ n.whole, isDigit c = true
  no_leading_zero : ∀ d ds, n.whole ≠ '0' :: d :: ds
  frac_digits : ∀ c ∈ n.frac, isDigit c = true
  exp_digits : ∀ low ds, n.exp = some (low, ds) →
    ds ≠ [] ∧ (∀ c ∈ ds, isDigit c = true) ∧ digitsValue ds < 2 ^ 31

end Spelling

lemma fraction_of_ends {cs : List Char} (h : ∀ r, cs ≠ '.' :: r) : fraction cs = .ok ([], cs) := by
  unfold fraction
  split
  · exact absurd rfl (h _)
  · rfl

/-- The digits after the point are read up to the exponent. -/
lemma fraction_fracText {n : Spelling} (hn : n.Lawful) {rest : List Char}
    (hdigits : StopsDigits rest) (hpoint : ∀ r, rest ≠ '.' :: r) :
    fraction (n.fracText ++ rest) = .ok (n.frac, rest) := by
  unfold Spelling.fracText
  split_ifs with hfrac
  · rw [hfrac]
    exact fraction_of_ends hpoint
  · simp only [fraction, List.cons_append, takeDigits_append hn.frac_digits hdigits]
    -- the digits end where the text behind the number begins, so nothing is taken from it
    split
    · rename_i h
      exact absurd (Prod.mk.inj h).1 hfrac
    · rename_i h
      exact absurd (Prod.mk.inj h).1 hfrac
    · rename_i h
      obtain ⟨rfl, rfl⟩ := Prod.mk.inj h
      rfl

/-- The exponent is read up to the end of the number. -/
lemma exponent_expText {n : Spelling} (hn : n.Lawful) {rest : List Char} (hrest : EndsNumber rest) :
    exponent (n.expText ++ rest) = .ok (n.exp, rest) := by
  unfold Spelling.expText
  cases hexp : n.exp with
  | none =>
    cases rest with
    | nil => rfl
    | cons c r =>
      obtain ⟨-, -, hlow, hhigh⟩ := hrest c r rfl
      simp only [exponent, List.nil_append, hlow, hhigh, or_self, if_false]
  | some e =>
    obtain ⟨low, ds⟩ := e
    obtain ⟨hne, hds, -⟩ := hn.exp_digits low ds hexp
    have htake := takeDigits_append hds hrest.stopsDigits
    cases low
    -- the sign is read in either case, and the digits behind it are the same
    all_goals
      simp only [exponent, List.cons_append, true_or, if_true, if_false, Bool.false_eq_true, htake]
      split
      · rename_i h
        exact absurd (Prod.mk.inj h).1 hne
      · rename_i h
        exact absurd (Prod.mk.inj h).1 hne
      · rename_i h
        obtain ⟨rfl, rfl⟩ := Prod.mk.inj h
        rfl

/-! ### Reading a spelled number -/

/-- An exponent that fits 32 bits with a sign is not beyond them after fewer digits either. -/
lemma beyondExponent_eq_none {read : Nat} {ds : List Char}
    (h : Nat.ofDigitChars 10 ds read < 2 ^ 31) : beyondExponent read ds = none := by
  induction ds generalizing read with
  | nil => rfl
  | cons d ds ih =>
    have hnext : Nat.ofDigitChars 10 (d :: ds) read =
        Nat.ofDigitChars 10 ds (read * 10 + digitsValue [d]) := by
      rw [Nat.ofDigitChars_cons, digitsValue, Nat.ofDigitChars_cons, Nat.ofDigitChars_nil,
        Nat.mul_comm, Nat.mul_zero, Nat.zero_add]
    rw [hnext] at h
    have hle : read * 10 + digitsValue [d] ≤
        Nat.ofDigitChars 10 ds (read * 10 + digitsValue [d]) := by
      rw [Nat.ofDigitChars_eq_ofDigitChars_zero]
      exact Nat.le_add_right_of_le (Nat.le_mul_of_pos_left _ (Nat.pow_pos (by decide)))
    have hfits : Word.fitsSigned 32 ((read * 10 + digitsValue [d] : Nat) : Int) = true := by
      have hsize : (Word.size 31 : Int) = 2 ^ 31 := by rfl
      rw [Word.fitsSigned, decide_eq_true_eq, hsize]
      omega
    simp only [beyondExponent, hfits, if_true]
    exact ih h

lemma realNumber_eq {purpose : Purpose} {negative : Bool} {n : Spelling} (hn : n.Lawful)
    {rest : List Char} {x : Double}
    (hx : Double.ofDecimal? negative (digitsValue (n.whole ++ n.frac)) n.power = some x) :
    realNumber purpose negative n.whole n.frac n.exp rest = .ok (.real x) := by
  unfold Spelling.power at hx
  unfold realNumber
  cases hexp : n.exp with
  | none =>
    have hzero : digitsValue [] = 0 := by rfl
    simp only [hexp] at hx
    simp only [Option.getD_none, beyondExponent, Bool.false_eq_true, if_false, hzero,
      Nat.cast_zero, hx]
  | some e =>
    obtain ⟨low, ds⟩ := e
    obtain ⟨-, -, hlt⟩ := hn.exp_digits low ds hexp
    simp only [hexp] at hx
    simp only [Option.getD_some, beyondExponent_eq_none hlt, hx]

/-- No digit and no point follows the digits after the point. -/
lemma expText_stops (n : Spelling) {rest : List Char} (hrest : EndsNumber rest) :
    StopsDigits (n.expText ++ rest) ∧ ∀ r, n.expText ++ rest ≠ '.' :: r := by
  unfold Spelling.expText
  cases n.exp with
  | none =>
    refine ⟨hrest.stopsDigits, ?_⟩
    intro r h
    exact (hrest '.' r h).2.1 rfl
  | some e =>
    refine ⟨StopsDigits.cons _ (by rfl), ?_⟩
    intro r h
    exact absurd (List.cons.inj h).1 (by decide)

/-- The whole digits of a number are taken off its text. -/
lemma takeDigits_text {n : Spelling} (hn : n.Lawful) {rest : List Char} (hrest : EndsNumber rest) :
    takeDigits (n.text ++ rest) = (n.whole, n.fracText ++ (n.expText ++ rest)) := by
  rw [Spelling.text, List.append_assoc, List.append_assoc]
  apply takeDigits_append hn.whole_digits
  unfold Spelling.fracText
  split_ifs
  · exact (expText_stops n hrest).1
  · exact StopsDigits.cons _ (by rfl)

/-- A number is whole if it has neither fraction nor exponent and fits, and a double otherwise. -/
lemma unsignedNumber_text {purpose : Purpose} {negative : Bool} {n : Spelling} (hn : n.Lawful)
    {rest : List Char} (hrest : EndsNumber rest) :
    unsignedNumber purpose negative (n.text ++ rest) =
      if n.frac.isEmpty && n.exp.isNone && !negative &&
          Word.fitsUnsigned 64 (digitsValue n.whole) then
        .ok (.integer (digitsValue n.whole), rest)
      else if n.frac.isEmpty && n.exp.isNone && negative && digitsValue n.whole != 0 &&
          Word.fitsSigned 64 (-(digitsValue n.whole : Int)) then
        .ok (.integer (-(digitsValue n.whole : Int)), rest)
      else
        (realNumber purpose negative n.whole n.frac n.exp rest).map (·, rest) := by
  obtain ⟨hstops, hpoint⟩ := expText_stops n hrest
  rw [unsignedNumber, takeDigits_text hn hrest]
  split
  · rename_i h
    exact absurd (Prod.mk.inj h).1 hn.whole_ne_nil
  · rename_i h
    exact absurd (Prod.mk.inj h).1 hn.whole_ne_nil
  · rename_i h
    exact absurd (Prod.mk.inj h).1 (hn.no_leading_zero _ _)
  · rename_i h
    obtain ⟨rfl, rfl⟩ := Prod.mk.inj h
    rw [fraction_fracText hn hstops hpoint]
    simp only [bind, Except.bind]
    rw [exponent_expText hn hrest]
    rfl

/-- A number with a fraction or an exponent is read as a double. -/
theorem unsignedNumber_real {purpose : Purpose} {negative : Bool} {n : Spelling} (hn : n.Lawful)
    (hreal : n.frac ≠ [] ∨ n.exp ≠ none) {rest : List Char} (hrest : EndsNumber rest) {x : Double}
    (hx : Double.ofDecimal? negative (digitsValue (n.whole ++ n.frac)) n.power = some x) :
    unsignedNumber purpose negative (n.text ++ rest) = .ok (.real x, rest) := by
  have hparts : (n.frac.isEmpty && n.exp.isNone) = false := by
    rcases hreal with h | h
    · simp [h]
    · simp [Option.isSome_iff_ne_none, h]
  rw [unsignedNumber_text hn hrest, realNumber_eq hn hx]
  simp only [hparts, Bool.false_and, Bool.false_eq_true, if_false]
  rfl

/-! ### Whole numbers -/

lemma lawful_digits (n : Nat) : Spelling.Lawful ⟨digits n, [], none⟩ where
  whole_ne_nil := digits_ne_nil n
  whole_digits := fun c hc => isDigit_of_mem_digits hc
  no_leading_zero := by
    intro d ds
    by_cases hn : n = 0
    · rw [hn]
      exact fun h => absurd (List.cons.inj h).2 (by simp)
    · exact digits_ne_zero_cons hn _
  frac_digits := by simp
  exp_digits := by simp

lemma fits_of_nonneg {z : Int} (h : 0 ≤ z) (hz : Word.fits 64 z = true) :
    Word.fitsUnsigned 64 z = true := by
  have hsize : (Word.size 64 : Int) = 2 ^ 64 ∧ (Word.size (64 - 1) : Int) = 2 ^ 63 := ⟨rfl, rfl⟩
  simp only [Word.fits, Word.fitsSigned, Word.fitsUnsigned, hsize, Bool.or_eq_true,
    decide_eq_true_eq] at hz ⊢
  omega

lemma fits_of_neg {z : Int} (h : z < 0) (hz : Word.fits 64 z = true) :
    Word.fitsSigned 64 z = true := by
  rw [Word.fits, Bool.or_eq_true] at hz
  rcases hz with hsigned | hunsigned
  · exact hsigned
  · rw [Word.fitsUnsigned, decide_eq_true_eq] at hunsigned
    omega

/-- Whole numbers that fit 64 bits either way stay whole. -/
theorem unsignedNumber_integer {purpose : Purpose} {z : Int} (hz : Word.fits 64 z = true)
    {rest : List Char} (hrest : EndsNumber rest) :
    unsignedNumber purpose (decide (z < 0)) (digits z.natAbs ++ rest) = .ok (.integer z, rest) := by
  have htext : digits z.natAbs = Spelling.text ⟨digits z.natAbs, [], none⟩ := by
    simp [Spelling.text, Spelling.fracText, Spelling.expText]
  rw [htext, unsignedNumber_text (lawful_digits z.natAbs) hrest]
  by_cases hneg : z < 0
  · simp [hneg, hneg.ne, abs_of_neg hneg, fits_of_neg hneg hz]
  · have hle : 0 ≤ z := not_lt.mp hneg
    simp [hneg, abs_of_nonneg hle, fits_of_nonneg hle hz]

/-! ### Doubles -/

/-- The first digit of the shortest decimal is not far from the point. -/
lemma shortest_whole_bounds {x : Double} (hx : x.place ≠ 0) :
    -1075 < ((digits (shortest x).digits).length : Int) + (shortest x).power ∧
      ((digits (shortest x).digits).length : Int) + (shortest x).power ≤ 1024 := by
  obtain ⟨hlow, hhigh⟩ := shortest_bounds hx
  have hne := shortest_digits_ne_zero hx
  set m := (shortest x).digits
  set p := (shortest x).power
  have hpos : 0 < (digits m).length := Nat.length_toDigits_pos
  rw [Scientific.value] at hlow hhigh
  constructor
  · -- the first digit is too far behind the point only for values below half the least double
    have hlt : (m : ℚ) < 10 ^ ((digits m).length : Int) := by
      exact_mod_cast lt_ten_pow_length_digits m
    by_contra hle
    apply absurd hlow
    rw [not_le]
    calc (m : ℚ) * 10 ^ p < 10 ^ ((digits m).length : Int) * 10 ^ p := by gcongr
      _ = 10 ^ (((digits m).length : Int) + p) := (zpow_add₀ (by norm_num) _ _).symm
      _ ≤ 2 ^ (3 * (((digits m).length : Int) + p)) := Double.ten_zpow_le (by omega)
      _ ≤ 2 ^ (-1075 : Int) := zpow_le_zpow_right₀ (by norm_num) (by omega)
  · -- and too far in front of it only for values beyond the largest
    have hle : (10 : ℚ) ^ (((digits m).length : Int) - 1) ≤ m := by
      have h := ten_pow_length_digits_le hne
      rw [show ((digits m).length : Int) - 1 = (((digits m).length - 1 : Nat) : Int) by omega,
        zpow_natCast]
      exact_mod_cast h
    by_contra hlt
    apply absurd hhigh
    rw [not_lt]
    calc (2 : ℚ) ^ (1024 : Int) ≤ 2 ^ (((digits m).length : Int) - 1 + p) :=
          zpow_le_zpow_right₀ (by norm_num) (by omega)
      _ ≤ 10 ^ (((digits m).length : Int) - 1 + p) :=
          zpow_le_zpow_left₀ (by omega) (by norm_num) (by norm_num)
      _ = 10 ^ (((digits m).length : Int) - 1) * 10 ^ p := zpow_add₀ (by norm_num) _ _
      _ ≤ m * 10 ^ p := by gcongr

lemma spelled_text_of_frac {w f : List Char} (hf : f ≠ []) :
    Spelling.text ⟨w, f, none⟩ = w ++ '.' :: f := by
  simp [Spelling.text, Spelling.fracText, Spelling.expText, hf]

lemma lawful_of_digits {w f : List Char} (hne : w ≠ []) (hdigits : ∀ c ∈ w ++ f, isDigit c = true)
    (hzero : ∀ d ds, w ≠ '0' :: d :: ds) : Spelling.Lawful ⟨w, f, none⟩ where
  whole_ne_nil := hne
  whole_digits := fun c hc => hdigits c (List.mem_append_left f hc)
  no_leading_zero := hzero
  frac_digits := fun c hc => hdigits c (List.mem_append_right w hc)
  exp_digits := by simp

lemma isDigit_of_mem_zeros {n : Nat} {c : Char} (hc : c ∈ List.replicate n '0') :
    isDigit c = true := by
  rw [(List.mem_replicate.mp hc).2]
  rfl

/-- Zeros between the digits and the point. -/
lemma lawful_padded {m z : Nat} (hz : m = 0 → z = 0) :
    Spelling.Lawful ⟨digits m ++ List.replicate z '0', ['0'], none⟩ := by
  apply lawful_of_digits
  · exact List.append_ne_nil_of_left_ne_nil (digits_ne_nil m) _
  · intro c hc
    rw [List.append_assoc, ← List.replicate_succ', List.mem_append] at hc
    rcases hc with hc | hc
    · exact isDigit_of_mem_digits hc
    · exact isDigit_of_mem_zeros hc
  · intro d ds h
    by_cases hm : m = 0
    · rw [hz hm, hm] at h
      exact absurd (List.cons.inj h).2 (by simp)
    · obtain ⟨c, cs, hcs⟩ := List.exists_cons_of_ne_nil (digits_ne_nil m)
      rw [hcs, List.cons_append] at h
      exact digits_ne_zero_cons hm cs (by rw [hcs, (List.cons.inj h).1])

/-- The point between the digits. -/
lemma lawful_split {m k : Nat} (hm : m ≠ 0) (hk : 0 < k) :
    Spelling.Lawful ⟨(digits m).take k, (digits m).drop k, none⟩ := by
  apply lawful_of_digits
  · simp [List.take_eq_nil_iff, hk.ne', digits_ne_nil]
  · rw [List.take_append_drop]
    exact fun c hc => isDigit_of_mem_digits hc
  · intro d ds h
    apply digits_ne_zero_cons hm (d :: ds ++ (digits m).drop k)
    rw [← List.cons_append, ← h, List.take_append_drop]

/-- Zeros between the point and the digits. -/
lemma lawful_small (m k : Nat) :
    Spelling.Lawful ⟨['0'], List.replicate k '0' ++ digits m, none⟩ := by
  apply lawful_of_digits (by simp)
  · intro c hc
    rw [← List.append_assoc, List.singleton_append, ← List.replicate_succ, List.mem_append] at hc
    rcases hc with hc | hc
    · exact isDigit_of_mem_zeros hc
    · exact isDigit_of_mem_digits hc
  · intro d ds h
    exact absurd (List.cons.inj h).2 (by simp)

/-- A decimal in positional notation with digits after the point. -/
lemma positional_spelled {s : Scientific} (hs : s.digits = 0 → s.power = 0) :
    ∃ n : Spelling, n.Lawful ∧ n.frac ≠ [] ∧ s.positional true = n.text ∧
      (digitsValue (n.whole ++ n.frac) : ℚ) * 10 ^ n.power = s.value := by
  obtain ⟨m, p⟩ := s
  simp only at hs
  simp only [Scientific.positional, if_true, Scientific.value]
  by_cases hp : 0 ≤ p
  · rw [if_pos hp]
    have hz : m = 0 → (if m = 0 then 0 else p.toNat) = 0 := fun h => if_pos h
    -- zeros are put behind the digits, and a fraction that is zero
    refine ⟨_, lawful_padded hz, by simp, (spelled_text_of_frac (by simp)).symm, ?_⟩
    simp only [List.append_assoc, ← List.replicate_succ', digitsValue_append_zeros,
      digitsValue_digits, Spelling.power, List.length_singleton]
    by_cases hm : m = 0
    · simp [hm]
    · obtain ⟨k, rfl⟩ := Int.eq_ofNat_of_zero_le hp
      simp [hm]
      field_simp
      ring
  · have hm : m ≠ 0 := fun h => hp (hs h).ge
    rw [if_neg hp]
    by_cases hwhole : 0 < ((digits m).length : Int) + p
    · rw [if_pos hwhole]
      obtain ⟨k, hk⟩ := Int.eq_ofNat_of_zero_le hwhole.le
      have hfrac : (digits m).drop k ≠ [] := by
        rw [ne_eq, List.drop_eq_nil_iff]
        omega
      have hpower : Spelling.power ⟨(digits m).take k, (digits m).drop k, none⟩ = p := by
        simp only [Spelling.power, List.length_drop]
        omega
      rw [hk, Int.toNat_natCast]
      -- the point stands among the digits
      refine ⟨_, lawful_split hm (by omega), hfrac, (spelled_text_of_frac hfrac).symm, ?_⟩
      rw [hpower, List.take_append_drop, digitsValue_digits]
    · rw [if_neg hwhole]
      obtain ⟨k, hk⟩ := Int.eq_ofNat_of_zero_le (neg_nonneg.mpr (not_lt.mp hwhole))
      have hfrac : List.replicate k '0' ++ digits m ≠ [] :=
        List.append_ne_nil_of_right_ne_nil _ (digits_ne_nil m)
      have hpower : Spelling.power ⟨['0'], List.replicate k '0' ++ digits m, none⟩ = p := by
        simp only [Spelling.power, List.length_append, List.length_replicate]
        omega
      rw [hk, Int.toNat_natCast]
      -- all digits stand behind the point, with zeros between
      refine ⟨_, lawful_small m k, hfrac, ?_, ?_⟩
      · rw [spelled_text_of_frac hfrac]
        rfl
      · rw [hpower, ← List.append_assoc, List.singleton_append, ← List.replicate_succ,
          digitsValue_zeros_append, digitsValue_digits]

/-- A decimal with one digit in front of the point. -/
lemma scientific_spelled {m : Nat} {p e : Int} (he : e = (digits m).length + p - 1)
    (hbound : e.natAbs < 2 ^ 31) :
    ∃ n : Spelling, n.Lawful ∧ n.exp ≠ none ∧
      (match digits m with
        | d :: e :: r => d :: '.' :: e :: r
        | ds => ds) ++ 'e' :: (if e < 0 then '-' else '+') :: digits e.natAbs = n.text ∧
      (digitsValue (n.whole ++ n.frac) : ℚ) * 10 ^ n.power = m * 10 ^ p := by
  -- the first digit stands in front of the point, and the others, if there are any, behind it
  obtain ⟨d, f, hdf⟩ := List.exists_cons_of_ne_nil (digits_ne_nil m)
  have hmem : ∀ c ∈ d :: f, isDigit c = true := by
    rw [← hdf]
    exact fun c hc => isDigit_of_mem_digits hc
  have hlawful : Spelling.Lawful ⟨[d], f, some (decide (e < 0), digits e.natAbs)⟩ :=
    { whole_ne_nil := by simp
      whole_digits := fun c hc => hmem c (List.mem_cons.mpr (Or.inl (List.mem_singleton.mp hc)))
      no_leading_zero := fun _ _ h => absurd (List.cons.inj h).2 (by simp)
      frac_digits := fun c hc => hmem c (List.mem_cons_of_mem d hc)
      exp_digits := by
        rintro low ds ⟨⟩
        exact ⟨digits_ne_nil _, fun c hc => isDigit_of_mem_digits hc, by rwa [digitsValue_digits]⟩ }
  refine ⟨_, hlawful, by simp, ?_, ?_⟩
  · rw [hdf]
    cases f with
    | nil => simp [Spelling.text, Spelling.fracText, Spelling.expText]
    | cons c r => simp [Spelling.text, Spelling.fracText, Spelling.expText]
  · have hpower : Spelling.power ⟨[d], f, some (decide (e < 0), digits e.natAbs)⟩ = p := by
      rw [hdf, List.length_cons] at he
      simp only [Spelling.power, decide_eq_true_eq, digitsValue_digits]
      split_ifs <;> omega
    rw [hpower, List.singleton_append, ← hdf, digitsValue_digits]

/-- How the digits of a double are spelled. -/
lemma realText_spelled (x : Double) :
    ∃ n : Spelling, n.Lawful ∧ (n.frac ≠ [] ∨ n.exp ≠ none) ∧
      realText x = (if x.negative then '-' :: n.text else n.text) ∧
      (digitsValue (n.whole ++ n.frac) : ℚ) * 10 ^ n.power = (shortest x).value := by
  by_cases hpos : -5 < ((digits (shortest x).digits).length : Int) + (shortest x).power ∧
      ((digits (shortest x).digits).length : Int) + (shortest x).power ≤ 16
  · -- the decimal of any other double has digits, and that of zero has no power
    have hzero : (shortest x).digits = 0 → (shortest x).power = 0 := by
      intro h
      by_cases hx : x.place = 0
      · rw [shortest_of_place_eq_zero hx]
      · exact absurd h (shortest_digits_ne_zero hx)
    obtain ⟨n, hn, hfrac, htext, hvalue⟩ := positional_spelled hzero
    refine ⟨n, hn, Or.inl hfrac, ?_, hvalue⟩
    rw [← htext]
    exact congrArg (fun t : List Char => if x.negative then '-' :: t else t) (if_pos hpos)
  · have hx : x.place ≠ 0 := by
      intro hx
      rw [shortest_of_place_eq_zero hx] at hpos
      exact hpos (by decide)
    -- the exponent is small enough for a reader that counts it in 32 bits
    obtain ⟨hlow, hhigh⟩ := shortest_whole_bounds hx
    obtain ⟨n, hn, hexp, htext, hvalue⟩ := scientific_spelled (m := (shortest x).digits)
      (p := (shortest x).power) rfl (by omega)
    refine ⟨n, hn, Or.inr hexp, ?_, hvalue⟩
    rw [← htext]
    exact congrArg (fun t : List Char => if x.negative then '-' :: t else t) (if_neg hpos)

/-- The decimal a double is written as is read as that double. -/
lemma ofDecimal?_of_shortest {x : Double} {n : Spelling}
    (h : (digitsValue (n.whole ++ n.frac) : ℚ) * 10 ^ n.power = (shortest x).value) :
    Double.ofDecimal? x.negative (digitsValue (n.whole ++ n.frac)) n.power = some x :=
  (shortest_reads x).congr (t := ⟨_, n.power⟩) h

/-! ### Numbers -/

/-- Whether a number is one that a reader makes: whole numbers are kept in 64 bits. -/
def Fits : Number → Prop
  | .integer z => Word.fits 64 z = true
  | .real _ => True

/-- The text of a number is its sign and a text that starts with a digit and is read back. -/
theorem numberText_read {n : Number} (hn : Fits n) :
    ∃ (negative : Bool) (d : Char) (ds : List Char),
      numberText n = (if negative then '-' :: d :: ds else d :: ds) ∧ isDigit d = true ∧
        ∀ (purpose : Purpose) (rest : List Char), EndsNumber rest →
          unsignedNumber purpose negative (d :: ds ++ rest) = .ok (n, rest) := by
  cases n with
  | integer z =>
    obtain ⟨d, ds, hds⟩ := List.exists_cons_of_ne_nil (digits_ne_nil z.natAbs)
    refine ⟨decide (z < 0), d, ds, ?_, ?_, ?_⟩
    · rw [← hds]
      by_cases hneg : z < 0
      · simp [numberText, signedDecimal, decimal, hneg]
      · simp [numberText, signedDecimal, decimal, hneg]
    · apply isDigit_of_mem_digits (n := z.natAbs)
      rw [hds]
      exact List.mem_cons_self
    · intro purpose rest hrest
      rw [← hds]
      exact unsignedNumber_integer hn hrest
  | real x =>
    obtain ⟨n, hlawful, hreal, htext, hvalue⟩ := realText_spelled x
    obtain ⟨d, ds, hds⟩ := List.exists_cons_of_ne_nil hlawful.whole_ne_nil
    have hcons : n.text = d :: (ds ++ (n.fracText ++ n.expText)) := by
      rw [Spelling.text, hds, List.cons_append]
    refine ⟨x.negative, d, ds ++ (n.fracText ++ n.expText), ?_, ?_, ?_⟩
    · rw [← hcons]
      exact htext
    · apply hlawful.whole_digits
      rw [hds]
      exact List.mem_cons_self
    · intro purpose rest hrest
      rw [← hcons]
      exact unsignedNumber_real hlawful hreal hrest (ofDecimal?_of_shortest hvalue)

end ResourceBuild.Json

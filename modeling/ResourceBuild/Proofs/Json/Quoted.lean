import Mathlib.Tactic.Lemma
import Mathlib.Tactic.SplitIfs
import ResourceBuild.Json.Printer
import ResourceBuild.Json.Reader

/-!
# Strings read back

The literal of a string is read as that string: each character is read back from its escape, and
only the closing quote ends the literal.
-/

namespace ResourceBuild.Json

open Text

/-! ### Escapes -/

/-- A control character has the last two of its four hexadecimal digits. -/
lemma controlDigits :
    ∀ n < 32, List.replicate (4 - (hexDigits n).length) '0' ++ hexDigits n =
        ['0', '0', (n / 16).digitChar, (n % 16).digitChar] ∧
      hexValue? (n / 16).digitChar = some (n / 16) ∧
      hexValue? (n % 16).digitChar = some (n % 16) := by
  decide

lemma foldl_add_le (cs : List Char) (k : Nat) :
    k ≤ cs.foldl (fun n c => n + c.utf8Size) k := by
  induction cs generalizing k with
  | nil => exact Nat.le_refl k
  | cons c cs ih => exact Nat.le_trans (Nat.le_add_right k _) (ih _)

/-- Four characters have at least four bytes. -/
lemma four_le_byteSize (a b c d : Char) (rest : List Char) :
    4 ≤ byteSize (a :: b :: c :: d :: rest) := by
  have ha := a.utf8Size_pos
  have hb := b.utf8Size_pos
  have hc := c.utf8Size_pos
  have hd := d.utf8Size_pos
  refine Nat.le_trans ?_ (foldl_add_le rest (0 + a.utf8Size + b.utf8Size + c.utf8Size + d.utf8Size))
  omega

lemma hexQuad_control {n : Nat} (hn : n < 32) (rest : List Char) :
    hexQuad (List.replicate (4 - (hexDigits n).length) '0' ++ hexDigits n ++ rest) =
      .ok (n, rest) := by
  obtain ⟨hdigits, hhigh, hlow⟩ := controlDigits n hn
  have hzero : hexValue? '0' = some 0 := by rfl
  have hsize := four_le_byteSize '0' '0' (n / 16).digitChar (n % 16).digitChar rest
  rw [hdigits]
  simp only [hexQuad, List.cons_append, List.nil_append, Nat.not_lt.mpr hsize, if_false, hzero,
    hhigh, hlow]
  congr 2
  omega

/-- A control character is read back from its code unit. -/
lemma unitEscape_control (purpose : Purpose) {c : Char} (hc : c.toNat < 32) (rest : List Char) :
    unitEscape purpose
        (List.replicate (4 - (hexDigits c.toNat).length) '0' ++ hexDigits c.toNat ++ rest) =
      .ok (c, rest) := by
  have htrail : isTrailing c.toNat = false := by
    simp [isTrailing]
    omega
  have hlead : isLeading c.toNat = false := by
    simp [isLeading]
    omega
  rw [unitEscape, hexQuad_control hc]
  simp only [bind, Except.bind, htrail, hlead, Char.ofNat_toNat, Bool.false_eq_true, if_false,
    ite_self]
  rfl

/-! ### The characters of a string -/

/-- What is read when a character stands before a text. -/
def prepend (c : Char) (r : Except Fault (List Char × List Char)) :
    Except Fault (List Char × List Char) :=
  r.map fun p => (c :: p.1, p.2)

lemma stringBody_simple (purpose : Purpose) (fuel : Nat) {e c : Char} (he : e ≠ 'u')
    (h : simpleEscape? e = some c) (cs : List Char) :
    stringBody purpose (fuel + 1) ('\\' :: e :: cs) = prepend c (stringBody purpose fuel cs) := by
  have hquote : ('\\' : Char) ≠ '"' := by decide
  simp only [stringBody, if_neg hquote, if_true, if_neg he, h]
  rfl

lemma stringBody_plain (purpose : Purpose) (fuel : Nat) {c : Char} (hquote : c ≠ '"')
    (hslash : c ≠ '\\') (hcontrol : ¬c.toNat < 0x20) (cs : List Char) :
    stringBody purpose (fuel + 1) (c :: cs) = prepend c (stringBody purpose fuel cs) := by
  simp only [stringBody, if_neg hquote, if_neg hslash, if_neg hcontrol]
  rfl

/-- A character has a short escape, is a control character without one, or stands for itself. -/
lemma escape_cases (c : Char) :
    (∃ e, e ≠ 'u' ∧ simpleEscape? e = some c ∧ escape c = ['\\', e]) ∨
      (c.toNat < 32 ∧ escape c = '\\' :: 'u' ::
        (List.replicate (4 - (hexDigits c.toNat).length) '0' ++ hexDigits c.toNat)) ∨
      (c ≠ '"' ∧ c ≠ '\\' ∧ ¬c.toNat < 32 ∧ escape c = [c]) := by
  unfold escape
  split_ifs with hquote hslash hline hreturn htab hback hfeed hcontrol
  case neg => exact Or.inr (Or.inr ⟨hquote, hslash, hcontrol, rfl⟩)
  any_goals
    subst c
    exact Or.inl ⟨_, by decide, rfl, rfl⟩
  exact Or.inr (Or.inl ⟨hcontrol, rfl⟩)

/-- A character is read back from what is written for it. -/
lemma stringBody_escape (purpose : Purpose) (fuel : Nat) (c : Char) (cs : List Char) :
    stringBody purpose (fuel + 1) (escape c ++ cs) = prepend c (stringBody purpose fuel cs) := by
  rcases escape_cases c with ⟨e, he, hsimple, h⟩ | ⟨hcontrol, h⟩ | ⟨hquote, hslash, hcontrol, h⟩
  · rw [h]
    exact stringBody_simple purpose fuel he hsimple cs
  · have hbegin : ('\\' : Char) ≠ '"' := by decide
    rw [h]
    simp only [List.cons_append, stringBody, if_neg hbegin, if_true]
    rw [unitEscape_control purpose hcontrol]
    rfl
  · rw [h]
    exact stringBody_plain purpose fuel hquote hslash hcontrol cs

lemma length_escape_pos (c : Char) : 0 < (escape c).length := by
  rcases escape_cases c with ⟨e, -, -, h⟩ | ⟨-, h⟩ | ⟨-, -, -, h⟩
  · rw [h]
    exact Nat.zero_lt_succ _
  · rw [h]
    exact Nat.zero_lt_succ _
  · rw [h]
    exact Nat.zero_lt_succ _

/-- Characters are read back from their escapes, up to the closing quote. -/
lemma stringBody_read (purpose : Purpose) (s rest : List Char) {fuel : Nat}
    (hfuel : (s.flatMap escape).length < fuel) :
    stringBody purpose fuel (s.flatMap escape ++ '"' :: rest) = .ok (s, rest) := by
  induction s generalizing fuel with
  | nil =>
    cases fuel with
    | zero => exact absurd hfuel (Nat.not_lt_zero _)
    | succ fuel => simp [stringBody]
  | cons c s ih =>
    have hpos := length_escape_pos c
    rw [List.flatMap_cons, List.length_append] at hfuel
    cases fuel with
    | zero => exact absurd hfuel (Nat.not_lt_zero _)
    | succ fuel =>
      rw [List.flatMap_cons, List.append_assoc, stringBody_escape, ih (by omega)]
      rfl

/-- The literal of a string, from behind its opening quote, is read as that string. -/
theorem string_read (purpose : Purpose) (s : String) (rest : List Char) :
    string purpose (s.toList.flatMap escape ++ '"' :: rest) = .ok (s, rest) := by
  rw [string, stringBody_read purpose s.toList rest (by rw [List.length_append]; omega)]
  simp only [bind, Except.bind, pure, Except.pure, String.ofList_toList]

end ResourceBuild.Json

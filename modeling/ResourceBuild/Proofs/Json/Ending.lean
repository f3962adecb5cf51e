import Mathlib.Data.List.TakeWhile
import Mathlib.Tactic.SplitIfs
import ResourceBuild.Proofs.Json.Reading

/-!
# Where a reader stops

What a reader leaves is the end of what it was given, and what stands in front of it is the last
character that was read. A text with an object ends in a closing brace, blanks aside.
-/

namespace ResourceBuild.Json

open Outcome
open Text

variable {purpose : Purpose} {cs rest : List Char}

lemma skipSpace_suffix (cs : List Char) : skipSpace cs <:+ cs :=
  List.dropWhile_suffix isSpace

/-- What stands behind the next character that is no blank. -/
lemma suffix_of_skipSpace {c : Char} (h : skipSpace cs = c :: rest) : c :: rest <:+ cs :=
  h ▸ skipSpace_suffix cs

/-! ### Words, strings and numbers -/

lemma word_suffix {w : List Char} (h : word w cs = .ok rest) : rest <:+ cs := by
  induction w generalizing cs with
  | nil =>
    cases h
    exact List.suffix_rfl
  | cons d ds ih =>
    cases cs with
    | nil => cases h
    | cons c cs =>
      rw [word] at h
      split_ifs at h
      exact (ih h).trans (List.suffix_cons c cs)

lemma hexQuad_suffix {n : Nat} (h : hexQuad cs = .ok (n, rest)) : rest <:+ cs := by
  unfold hexQuad at h
  split_ifs at h
  split at h
  · split at h
    · cases h
      exact ⟨[_, _, _, _], rfl⟩
    · cases h
  · cases h

lemma unitEscape_suffix {c : Char} (h : unitEscape purpose cs = .ok (c, rest)) : rest <:+ cs := by
  obtain ⟨⟨n, r⟩, hquad, h⟩ := bind_eq_ok_iff.mp h
  have hr := hexQuad_suffix hquad
  simp only at h
  split_ifs at h
  · cases h
    exact hr
  · split at h
    · -- the first half of a pair has to be followed by the escape of the second
      rename_i more
      obtain ⟨⟨m, r'⟩, hquad', h⟩ := bind_eq_ok_iff.mp h
      simp only at h
      split_ifs at h
      obtain ⟨-, rfl⟩ := Prod.mk.inj (Except.ok.inj h)
      exact (hexQuad_suffix hquad').trans (List.IsSuffix.trans ⟨['\\', 'u'], rfl⟩ hr)
    · cases h
    · cases h
    · cases h
    · cases h
  · cases h
    exact hr

lemma stringBody_suffix {fuel : Nat} {s : List Char}
    (h : stringBody purpose fuel cs = .ok (s, rest)) : rest <:+ cs := by
  induction fuel generalizing cs s with
  | zero => cases h
  | succ fuel ih =>
    cases cs with
    | nil => cases h
    | cons c cs =>
      have hcons := List.suffix_cons c cs
      unfold stringBody at h
      by_cases hquote : c = '"'
      · rw [if_pos hquote] at h
        cases h
        exact hcons
      rw [if_neg hquote] at h
      by_cases hescape : c = '\\'
      · rw [if_pos hescape] at h
        cases cs with
        | nil => cases h
        | cons e cs =>
          have hcons := (List.suffix_cons e cs).trans hcons
          simp only at h
          -- an escape by code units is read on its own, a simple one is a single character
          split_ifs at h
          · obtain ⟨⟨d, r⟩, hunit, h⟩ := bind_eq_ok_iff.mp h
            obtain ⟨⟨t, r'⟩, hbody, h⟩ := bind_eq_ok_iff.mp h
            cases h
            exact (ih hbody).trans ((unitEscape_suffix hunit).trans hcons)
          · split at h
            · obtain ⟨⟨t, r'⟩, hbody, h⟩ := bind_eq_ok_iff.mp h
              cases h
              exact (ih hbody).trans hcons
            · cases h
      · rw [if_neg hescape] at h
        split_ifs at h
        obtain ⟨⟨t, r'⟩, hbody, h⟩ := bind_eq_ok_iff.mp h
        cases h
        exact (ih hbody).trans hcons

lemma string_suffix {s : String} (h : string purpose cs = .ok (s, rest)) : rest <:+ cs := by
  obtain ⟨⟨t, r⟩, hbody, h⟩ := bind_eq_ok_iff.mp h
  cases h
  exact stringBody_suffix hbody

lemma takeDigits_suffix {ds : List Char} (h : takeDigits cs = (ds, rest)) : rest <:+ cs := by
  cases h
  exact List.dropWhile_suffix isDigit

lemma fraction_suffix {ds : List Char} (h : fraction cs = .ok (ds, rest)) : rest <:+ cs := by
  unfold fraction at h
  split at h
  · split at h
    · cases h
    · cases h
    · rename_i hdigits
      cases h
      exact (takeDigits_suffix hdigits).trans (List.suffix_cons _ _)
  · cases h
    exact List.suffix_rfl

lemma exponent_suffix {e : Option (Bool × List Char)} (h : exponent cs = .ok (e, rest)) :
    rest <:+ cs := by
  unfold exponent at h
  split at h
  · cases h
    exact List.suffix_rfl
  · rename_i c r
    split_ifs at h
    · split at h
      rename_i negative ds hsigned
      -- the digits stand behind a sign, if there is one
      have hds : ds <:+ c :: r := by
        split at hsigned <;> cases hsigned
        · exact ⟨[c, '+'], rfl⟩
        · exact ⟨[c, '-'], rfl⟩
        · exact ⟨[c], rfl⟩
      split at h
      · cases h
      · cases h
      · rename_i htake
        cases h
        exact (takeDigits_suffix htake).trans hds
    · cases h
      exact List.suffix_rfl

lemma unsignedNumber_suffix {negative : Bool} {n : Number}
    (h : unsignedNumber purpose negative cs = .ok (n, rest)) : rest <:+ cs := by
  unfold unsignedNumber at h
  split at h
  · cases h
  · cases h
  · cases h
  · rename_i hdigits
    obtain ⟨⟨frac, r⟩, hfraction, h⟩ := bind_eq_ok_iff.mp h
    obtain ⟨⟨exp, r'⟩, hexponent, h⟩ := bind_eq_ok_iff.mp h
    have hr := (exponent_suffix hexponent).trans
      ((fraction_suffix hfraction).trans (takeDigits_suffix hdigits))
    simp only at h
    split_ifs at h
    · cases h
      exact hr
    · cases h
      exact hr
    · obtain ⟨x, -, h⟩ := bind_eq_ok_iff.mp h
      cases h
      exact hr

/-! ### Values -/

/-- What stands behind the character that comes next. -/
lemma suffix_behind {c : Char} {ds : List Char} (h : skipSpace cs = c :: ds) : ds <:+ cs :=
  (List.suffix_cons c ds).trans (suffix_of_skipSpace h)

/-- An object ends in a brace, if the members in it do. -/
lemma value_suffix_step {fuel depth : Nat} {v : Json}
    (hitems : ∀ purpose n ds xs r, items purpose fuel n ds = .ok (xs, r) → r <:+ ds)
    (hmembers : ∀ purpose n ds ms r, members purpose fuel n ds = .ok (ms, r) → '\x7d' :: r <:+ ds)
    (h : ReadsValue purpose fuel depth cs v rest) :
    rest <:+ cs ∧ ∀ ms, v = .object ms → '\x7d' :: rest <:+ cs := by
  cases h with
  | null hskip hword => exact ⟨(word_suffix hword).trans (suffix_behind hskip), nofun⟩
  | true hskip hword => exact ⟨(word_suffix hword).trans (suffix_behind hskip), nofun⟩
  | false hskip hword => exact ⟨(word_suffix hword).trans (suffix_behind hskip), nofun⟩
  | text hskip hstring => exact ⟨(string_suffix hstring).trans (suffix_behind hskip), nofun⟩
  | negative hskip hnumber =>
    exact ⟨(unsignedNumber_suffix hnumber).trans (suffix_behind hskip), nofun⟩
  | number hskip hnumber =>
    exact ⟨(unsignedNumber_suffix hnumber).trans (suffix_of_skipSpace hskip), nofun⟩
  | emptyArray hskip _ hclose =>
    exact ⟨(suffix_behind hclose).trans (suffix_behind hskip), nofun⟩
  | array hskip _ hopen hxs =>
    have hds := (hopen ▸ skipSpace_suffix _).trans (suffix_behind hskip)
    exact ⟨(hitems _ _ _ _ _ hxs).trans hds, nofun⟩
  | emptyObject hskip _ hclose =>
    have hend := (suffix_of_skipSpace hclose).trans (suffix_behind hskip)
    exact ⟨(List.suffix_cons _ _).trans hend, fun _ _ => hend⟩
  | object hskip _ hopen hms =>
    have hend := (hmembers _ _ _ _ _ hms).trans ((suffix_behind hopen).trans (suffix_behind hskip))
    exact ⟨(List.suffix_cons _ _).trans hend, fun _ _ => hend⟩

lemma items_suffix_step {fuel depth : Nat} {xs : List Json}
    (hvalue : ∀ purpose n ds v r, value purpose fuel n ds = .ok (v, r) → r <:+ ds)
    (hitems : ∀ purpose n ds xs r, items purpose fuel n ds = .ok (xs, r) → r <:+ ds)
    (h : ReadsItems purpose fuel depth cs xs rest) : rest <:+ cs := by
  cases h with
  | last hx hclose => exact (suffix_behind hclose).trans (hvalue _ _ _ _ _ hx)
  | more hx hcomma hnext hxs =>
    have hbehind := (suffix_behind hcomma).trans (hvalue _ _ _ _ _ hx)
    exact (hitems _ _ _ _ _ hxs).trans ((hnext ▸ skipSpace_suffix _).trans hbehind)

lemma members_suffix_step {fuel depth : Nat} {ms : Members}
    (hvalue : ∀ purpose n ds v r, value purpose fuel n ds = .ok (v, r) → r <:+ ds)
    (hmembers : ∀ purpose n ds ms r, members purpose fuel n ds = .ok (ms, r) → '\x7d' :: r <:+ ds)
    (h : ReadsMembers purpose fuel depth cs ms rest) : '\x7d' :: rest <:+ cs := by
  cases h with
  | last hkey hcolon hv hclose =>
    have hbehind := (suffix_behind hcolon).trans (string_suffix hkey)
    exact (suffix_of_skipSpace hclose).trans ((hvalue _ _ _ _ _ hv).trans hbehind)
  | more hkey hcolon hv hcomma hnext hms =>
    have hbehind := (suffix_behind hcolon).trans (string_suffix hkey)
    have hrest := (suffix_behind hcomma).trans ((hvalue _ _ _ _ _ hv).trans hbehind)
    exact (hmembers _ _ _ _ _ hms).trans ((suffix_behind hnext).trans hrest)

/-- What is left of a text is its end, and behind an object it is what follows a brace. -/
theorem read_suffix (fuel : Nat) :
    (∀ purpose depth cs v rest, value purpose fuel depth cs = .ok (v, rest) →
      rest <:+ cs ∧ ∀ ms, v = .object ms → '\x7d' :: rest <:+ cs) ∧
      (∀ purpose depth cs xs rest, items purpose fuel depth cs = .ok (xs, rest) → rest <:+ cs) ∧
      (∀ purpose depth cs ms rest, members purpose fuel depth cs = .ok (ms, rest) →
        '\x7d' :: rest <:+ cs) := by
  -- the three readers call one another with less fuel: one induction for all of them
  induction fuel with
  | zero =>
    refine ⟨?_, ?_, ?_⟩
    · intro purpose depth cs v rest h
      cases h
    · intro purpose depth cs xs rest h
      cases h
    · intro purpose depth cs ms rest h
      cases h
  | succ fuel ih =>
    obtain ⟨hvalue, hitems, hmembers⟩ := ih
    have hleft : ∀ purpose n ds v r, value purpose fuel n ds = .ok (v, r) → r <:+ ds :=
      fun purpose n ds v r h => (hvalue purpose n ds v r h).1
    refine ⟨?_, ?_, ?_⟩
    · intro purpose depth cs v rest h
      exact value_suffix_step hitems hmembers (readsValue_of_value h)
    · intro purpose depth cs xs rest h
      exact items_suffix_step hleft hitems (readsItems_of_items h)
    · intro purpose depth cs ms rest h
      exact members_suffix_step hleft hmembers (readsMembers_of_members h)

/-- A text with an object in it ends in a closing brace, with nothing but blanks behind it. -/
lemma document_ends {ms : Members} (h : document purpose cs = .ok (.object ms)) :
    ∃ front back, cs = front ++ '\x7d' :: back ∧ ∀ c ∈ back, isSpace c = true := by
  obtain ⟨⟨v, r⟩, hv, h⟩ := bind_eq_ok_iff.mp h
  simp only at h
  split at h
  · rename_i hskip
    cases h
    obtain ⟨front, hfront⟩ := ((read_suffix _).1 _ _ _ _ _ hv).2 ms rfl
    exact ⟨front, r, hfront.symm, List.dropWhile_eq_nil_iff.mp hskip⟩
  · cases h

/-! ### Bytes -/

def isSpaceByte (b : UInt8) : Bool :=
  b == 0x20 || b == 0x0a || b == 0x09 || b == 0x0d

lemma toUTF8_append (s t : String) :
    (s ++ t).toUTF8.data.toList = s.toUTF8.data.toList ++ t.toUTF8.data.toList := by
  simp [String.toUTF8_eq_toByteArray, String.toByteArray_append]

/-- Blanks are blanks byte by byte. -/
lemma isSpaceByte_of_isSpace (h : ∀ c ∈ cs, isSpace c = true) :
    (String.ofList cs).toUTF8.data.toList.all isSpaceByte = true := by
  induction cs with
  | nil => simp
  | cons c cs ih =>
    obtain ⟨hc, hcs⟩ := List.forall_mem_cons.mp h
    have hcons : String.ofList (c :: cs) = String.singleton c ++ String.ofList cs := by
      rw [← String.toList_inj]
      simp
    have hsingle : (String.singleton c).toUTF8.data.toList.all isSpaceByte = true := by
      simp only [isSpace, Bool.or_eq_true, beq_iff_eq] at hc
      rcases hc with ((rfl | rfl) | rfl) | rfl <;> rfl
    rw [hcons, toUTF8_append, List.all_append, hsingle, ih hcs, Bool.and_self]

/-- The object in a text is an object before its repeated keys are dropped, too. -/
lemma document_of_parse {s : String} {ms : Members} (h : parse s = .ok (.object ms)) :
    ∃ ns, document .keep s.toList = .ok (.object ns) := by
  unfold parse at h
  split at h
  · rename_i v hv
    cases v with
    | object ns => exact ⟨ns, hv⟩
    | _ => simp [canonical] at h
  · cases h

/-- Bytes with a brace as the last one that is no blank do not end with another bracket. -/
lemma append_brace_ne {front back before : List UInt8} (h : ∀ b ∈ back, isSpaceByte b = true) :
    front ++ 0x7d :: back ≠ before ++ [0x5d, 0x0a] := by
  intro heq
  have hreverse := congrArg (fun bytes => bytes.reverse.dropWhile isSpaceByte) heq
  have hback : ∀ b ∈ back.reverse, isSpaceByte b = true := by simpa using h
  simp [List.dropWhile_append_of_pos hback, isSpaceByte] at hreverse

/-- A text that ends in another bracket holds no object, whatever bytes are in front of it. -/
theorem toUTF8_ne_of_parse {s : String} {ms : Members} (h : parse s = .ok (.object ms))
    (before : ByteArray) (line : String) : s.toUTF8 ≠ before ++ (line ++ "]\n").toUTF8 := by
  obtain ⟨ns, hdocument⟩ := document_of_parse h
  obtain ⟨front, back, hs, hback⟩ := document_ends hdocument
  have htext : s = String.ofList front ++ ("\x7d" ++ String.ofList back) := by
    rw [← String.toList_inj, hs]
    simp
  intro heq
  have hbytes : s.toUTF8.data.toList = (before ++ (line ++ "]\n").toUTF8).data.toList := by
    rw [heq]
  rw [htext, toUTF8_append, toUTF8_append, ByteArray.data_append, Array.toList_append,
    toUTF8_append] at hbytes
  exact append_brace_ne (List.all_eq_true.mp (isSpaceByte_of_isSpace hback))
    (hbytes.trans (List.append_assoc _ _ _).symm)

end ResourceBuild.Json

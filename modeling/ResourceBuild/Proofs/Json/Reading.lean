import Mathlib.Tactic.Lemma
import Mathlib.Tactic.SplitIfs
import ResourceBuild.Json.Reader
import ResourceBuild.Proofs.Outcome

/-!
# The steps of a reader

All that a reader of values, items or members can do in one step if it succeeds. What is shown of
reading goes by these cases, and never opens the reader itself.
-/

namespace ResourceBuild.Json

open Outcome Text

section Steps

variable (purpose : Purpose) (fuel depth : Nat) (cs : List Char)

/-- The values that are read, each with what is left behind it. -/
inductive ReadsValue : Json → List Char → Prop where
  | null {r rest : List Char} (hskip : skipSpace cs = 'n' :: r)
      (hword : word ['u', 'l', 'l'] r = .ok rest) : ReadsValue .null rest
  | true {r rest : List Char} (hskip : skipSpace cs = 't' :: r)
      (hword : word ['r', 'u', 'e'] r = .ok rest) : ReadsValue (.boolean .true) rest
  | false {r rest : List Char} (hskip : skipSpace cs = 'f' :: r)
      (hword : word ['a', 'l', 's', 'e'] r = .ok rest) : ReadsValue (.boolean .false) rest
  | text {r rest : List Char} {s : String} (hskip : skipSpace cs = '"' :: r)
      (hstring : string purpose r = .ok (s, rest)) : ReadsValue (.text s) rest
  | negative {r rest : List Char} {n : Number} (hskip : skipSpace cs = '-' :: r)
      (hnumber : unsignedNumber purpose .true r = .ok (n, rest)) : ReadsValue (.number n) rest
  | number {c : Char} {r rest : List Char} {n : Number} (hskip : skipSpace cs = c :: r)
      (hnumber : unsignedNumber purpose .false (c :: r) = .ok (n, rest)) :
      ReadsValue (.number n) rest
  | emptyArray {r rest : List Char} (hskip : skipSpace cs = '[' :: r)
      (hdepth : depth = 0 → purpose.passes = .true) (hclose : skipSpace r = ']' :: rest) :
      ReadsValue (.array []) rest
  | array {r ds rest : List Char} {xs : List Json} (hskip : skipSpace cs = '[' :: r)
      (hdepth : depth = 0 → purpose.passes = .true) (hopen : skipSpace r = ds)
      (hitems : items purpose.forItems fuel (depth - 1) ds = .ok (xs, rest)) :
      ReadsValue (.array xs) rest
  | emptyObject {r rest : List Char} (hskip : skipSpace cs = '\x7b' :: r)
      (hdepth : depth = 0 → purpose.passes = .true) (hclose : skipSpace r = '\x7d' :: rest) :
      ReadsValue (.object []) rest
  | object {r ds rest : List Char} {ms : Members} (hskip : skipSpace cs = '\x7b' :: r)
      (hdepth : depth = 0 → purpose.passes = .true) (hopen : skipSpace r = '"' :: ds)
      (hmembers : members purpose fuel (depth - 1) ds = .ok (ms, rest)) :
      ReadsValue (.object ms) rest

/-- The items that are read: a first value, and those behind a comma if there is one. -/
inductive ReadsItems : List Json → List Char → Prop where
  | last {x : Json} {r rest : List Char} (hvalue : value purpose fuel depth cs = .ok (x, r))
      (hclose : skipSpace r = ']' :: rest) : ReadsItems [x] rest
  | more {x : Json} {xs : List Json} {r r' ds rest : List Char}
      (hvalue : value purpose fuel depth cs = .ok (x, r)) (hcomma : skipSpace r = ',' :: r')
      (hnext : skipSpace r' = ds) (hitems : items purpose fuel depth ds = .ok (xs, rest)) :
      ReadsItems (x :: xs) rest

/-- The members that are read: a first key with its value, and those behind a comma. -/
inductive ReadsMembers : Members → List Char → Prop where
  | last {k : String} {v : Json} {r ds r' rest : List Char}
      (hkey : string purpose cs = .ok (k, r)) (hcolon : skipSpace r = ':' :: ds)
      (hvalue : value (purpose.forKey k) fuel depth ds = .ok (v, r'))
      (hclose : skipSpace r' = '\x7d' :: rest) : ReadsMembers [(k, v)] rest
  | more {k : String} {v : Json} {ms : Members} {r ds r' es es' rest : List Char}
      (hkey : string purpose cs = .ok (k, r)) (hcolon : skipSpace r = ':' :: ds)
      (hvalue : value (purpose.forKey k) fuel depth ds = .ok (v, r'))
      (hcomma : skipSpace r' = ',' :: es) (hnext : skipSpace es = '"' :: es')
      (hmembers : members purpose fuel depth es' = .ok (ms, rest)) :
      ReadsMembers ((k, v) :: ms) rest

end Steps

variable {purpose : Purpose} {fuel depth : Nat} {cs rest : List Char}

/-- Where no depth is left the reader only goes down to pass over what is there. -/
lemma passes_of_not_deep (h : ¬(depth = 0 ∧ !purpose.passes)) :
    depth = 0 → purpose.passes = true := by
  simpa using h

theorem readsValue_of_value {v : Json} (h : value purpose (fuel + 1) depth cs = .ok (v, rest)) :
    ReadsValue purpose fuel depth cs v rest := by
  rw [value] at h
  split at h
  · cases h
  · rename_i c r hskip
    -- the first character tells what is read; the reader asks for them in this order
    by_cases hnull : c = 'n'
    · rw [if_pos hnull] at h
      obtain ⟨r', hword, hv⟩ := bind_eq_ok_iff.mp h
      cases hv
      exact .null (hnull ▸ hskip) hword
    rw [if_neg hnull] at h
    by_cases htrue : c = 't'
    · rw [if_pos htrue] at h
      obtain ⟨r', hword, hv⟩ := bind_eq_ok_iff.mp h
      cases hv
      exact .true (htrue ▸ hskip) hword
    rw [if_neg htrue] at h
    by_cases hfalse : c = 'f'
    · rw [if_pos hfalse] at h
      obtain ⟨r', hword, hv⟩ := bind_eq_ok_iff.mp h
      cases hv
      exact .false (hfalse ▸ hskip) hword
    rw [if_neg hfalse] at h
    by_cases hquote : c = '"'
    · rw [if_pos hquote] at h
      obtain ⟨⟨s, r'⟩, hs, hv⟩ := bind_eq_ok_iff.mp h
      cases hv
      exact .text (hquote ▸ hskip) hs
    rw [if_neg hquote] at h
    by_cases hminus : c = '-'
    · rw [if_pos hminus] at h
      obtain ⟨⟨n, r'⟩, hn, hv⟩ := bind_eq_ok_iff.mp h
      cases hv
      exact .negative (hminus ▸ hskip) hn
    rw [if_neg hminus] at h
    by_cases hdigit : isDigit c = true
    · rw [if_pos hdigit] at h
      obtain ⟨⟨n, r'⟩, hn, hv⟩ := bind_eq_ok_iff.mp h
      cases hv
      exact .number hskip hn
    rw [if_neg hdigit] at h
    by_cases hbracket : c = '['
    · rw [if_pos hbracket] at h
      -- going down takes one of the depth, unless what is there is merely passed over
      split_ifs at h with hdeep
      split at h
      · cases h
      · rename_i d ds hopen
        by_cases hclose : d = ']'
        · rw [if_pos hclose] at h
          cases h
          exact .emptyArray (hbracket ▸ hskip) (passes_of_not_deep hdeep) (hclose ▸ hopen)
        · rw [if_neg hclose] at h
          obtain ⟨⟨xs, r'⟩, hxs, hv⟩ := bind_eq_ok_iff.mp h
          cases hv
          exact .array (hbracket ▸ hskip) (passes_of_not_deep hdeep) hopen hxs
    rw [if_neg hbracket] at h
    by_cases hbrace : c = '\x7b'
    · rw [if_pos hbrace] at h
      split_ifs at h with hdeep
      split at h
      · cases h
      · rename_i d ds hopen
        by_cases hclose : d = '\x7d'
        · rw [if_pos hclose] at h
          cases h
          exact .emptyObject (hbrace ▸ hskip) (passes_of_not_deep hdeep) (hclose ▸ hopen)
        rw [if_neg hclose] at h
        by_cases hkey : d = '"'
        · rw [if_pos hkey] at h
          obtain ⟨⟨ms, r'⟩, hms, hv⟩ := bind_eq_ok_iff.mp h
          cases hv
          exact .object (hbrace ▸ hskip) (passes_of_not_deep hdeep) (hkey ▸ hopen) hms
        · rw [if_neg hkey] at h
          cases h
    rw [if_neg hbrace] at h
    cases h

theorem readsItems_of_items {xs : List Json}
    (h : items purpose (fuel + 1) depth cs = .ok (xs, rest)) :
    ReadsItems purpose fuel depth cs xs rest := by
  rw [items] at h
  obtain ⟨⟨x, r⟩, hx, h⟩ := bind_eq_ok_iff.mp h
  simp only at h
  split at h
  · cases h
  · rename_i c r' hskip
    split_ifs at h with hclose hcomma
    · cases h
      exact .last hx (hclose ▸ hskip)
    · split at h
      · cases h
      · rename_i d ds hnext
        split_ifs at h
        obtain ⟨⟨ys, r''⟩, hys, hxs⟩ := bind_eq_ok_iff.mp h
        cases hxs
        exact .more hx (hcomma ▸ hskip) hnext hys

theorem readsMembers_of_members {ms : Members}
    (h : members purpose (fuel + 1) depth cs = .ok (ms, rest)) :
    ReadsMembers purpose fuel depth cs ms rest := by
  rw [members] at h
  obtain ⟨⟨k, r⟩, hk, h⟩ := bind_eq_ok_iff.mp h
  simp only at h
  split at h
  · cases h
  · rename_i c ds hskip
    split_ifs at h with hcolon
    obtain ⟨⟨v, r'⟩, hv, h⟩ := bind_eq_ok_iff.mp h
    simp only at h
    split at h
    · cases h
    · rename_i c' es hskip'
      -- a comma has to be followed by another key, so a comma before the end is refused
      split_ifs at h with hclose hcomma
      · cases h
        exact .last hk (hcolon ▸ hskip) hv (hclose ▸ hskip')
      · split at h
        · cases h
        · rename_i d es' hnext
          split_ifs at h with hquote
          obtain ⟨⟨ns, r''⟩, hns, hms⟩ := bind_eq_ok_iff.mp h
          cases hms
          exact .more hk (hcolon ▸ hskip) hv (hcomma ▸ hskip') (hquote ▸ hnext) hns

end ResourceBuild.Json

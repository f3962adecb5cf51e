import Mathlib.Data.List.Basic
import ResourceBuild.Proofs.Text.Digits
import ResourceBuild.Time.Offset

/-!
# How time zones are spelled

A zone is read from its name in any case, or from a sign and a time of the day. Colons do not count
behind the sign, so that a distance is read from more texts than its documented form has: there, a
colon stands between hours and minutes or nowhere.
-/

namespace ResourceBuild.Time.Zone

open Text

/-! ### Forms -/

/-- Two digits of a number below a bound. -/
structure TwoDigits (bound n : Nat) (ds : List Char) : Prop where
  numeral : Numeral n ds
  length : ds.length = 2
  lt : n < bound

/-- The digits of an hour and those of a minute tell the seconds since midnight. -/
inductive Clock : List Char → List Char → Int → Prop where
  | time {hours minutes : Nat} {hs ms : List Char} (hhours : TwoDigits 24 hours hs)
      (hminutes : TwoDigits 60 minutes ms) : Clock hs ms (hours * 3600 + minutes * 60)

/-- Local time is ahead of the common time or behind it. -/
inductive Signed : Char → Int → Int → Prop where
  | ahead (seconds : Int) : Signed '+' seconds seconds
  | behind (seconds : Int) : Signed '-' seconds (-seconds)

/-- The documented form of a distance: a sign, hours and minutes, and perhaps a colon in between. -/
inductive Documented : List Char → Int → Prop where
  | together {sign : Char} {hs ms : List Char} {seconds offset : Int}
      (hsign : Signed sign seconds offset) (hclock : Clock hs ms seconds) :
      Documented (sign :: (hs ++ ms)) offset
  | apart {sign : Char} {hs ms : List Char} {seconds offset : Int}
      (hsign : Signed sign seconds offset) (hclock : Clock hs ms seconds) :
      Documented (sign :: (hs ++ ':' :: ms)) offset

/-- A sign, hours and minutes, with colons anywhere behind the sign. -/
inductive Distance : List Char → Int → Prop where
  | scattered {sign : Char} {r hs ms : List Char} {seconds offset : Int}
      (hsign : Signed sign seconds offset) (hclock : Clock hs ms seconds)
      (hdigits : r.filter (· != ':') = hs ++ ms) : Distance (sign :: r) offset

/-- There is no colon, or one alone behind the first three characters. -/
inductive ColonsInPlace : List Char → Prop where
  | none {cs : List Char} (h : ':' ∉ cs) : ColonsInPlace cs
  | one {first : Char} {before after : List Char} (hlength : before.length = 2)
      (hfirst : ':' ≠ first) (hbefore : ':' ∉ before) (hafter : ':' ∉ after) :
      ColonsInPlace (first :: (before ++ ':' :: after))

variable {cs hs ms : List Char} {sign : Char} {seconds offset : Int}

lemma ColonsInPlace.getElem? (h : ColonsInPlace cs) (hmem : ':' ∈ cs) : cs[3]? = some ':' := by
  cases h with
  | none h => exact absurd hmem h
  | one hlength => simp [hlength]

lemma Clock.bounds (h : Clock hs ms seconds) : 0 ≤ seconds ∧ seconds < 86400 := by
  obtain ⟨hhours, hminutes⟩ := h
  have := hhours.lt
  have := hminutes.lt
  omega

/-- A distance is less than a day. -/
lemma Distance.bounds (h : Distance cs offset) : -86400 < offset ∧ offset < 86400 := by
  obtain ⟨hsign, hclock, _⟩ := h
  have := hclock.bounds
  cases hsign <;> omega

lemma Signed.ne_colon (h : Signed sign seconds offset) : ':' ≠ sign := by
  cases h <;> decide

lemma Clock.length_hours (h : Clock hs ms seconds) : hs.length = 2 := by
  obtain ⟨hhours, _⟩ := h
  exact hhours.length

lemma Clock.colon_notMem (h : Clock hs ms seconds) : ':' ∉ hs ∧ ':' ∉ ms := by
  obtain ⟨hhours, hminutes⟩ := h
  exact ⟨hhours.numeral.notMem (by decide), hminutes.numeral.notMem (by decide)⟩

lemma filter_colon_eq_self (h : ':' ∉ cs) : cs.filter (· != ':') = cs := by
  rw [List.filter_eq_self]
  rintro c hc
  rw [bne_iff_ne]
  rintro rfl
  exact h hc

lemma Documented.distance (h : Documented cs offset) : Distance cs offset := by
  cases h with
  | together hsign hclock | apart hsign hclock =>
    obtain ⟨hhs, hms⟩ := hclock.colon_notMem
    exact .scattered hsign hclock (by simp [filter_colon_eq_self hhs, filter_colon_eq_self hms])

lemma Documented.colonsInPlace (h : Documented cs offset) : ColonsInPlace cs := by
  cases h with
  | together hsign hclock =>
    obtain ⟨hhs, hms⟩ := hclock.colon_notMem
    exact .none (by simp [hsign.ne_colon, hhs, hms])
  | apart hsign hclock =>
    obtain ⟨hhs, hms⟩ := hclock.colon_notMem
    exact .one hclock.length_hours hsign.ne_colon hhs hms

/-- The documented form is that of the distances whose colons are in place. -/
theorem documented_iff : Documented cs offset ↔ Distance cs offset ∧ ColonsInPlace cs := by
  constructor
  · intro h
    exact ⟨h.distance, h.colonsInPlace⟩
  · rintro ⟨⟨hsign, hclock, hdigits⟩, hcolons⟩
    cases hcolons with
    | none h =>
      rw [filter_colon_eq_self fun hr => h (List.mem_cons_of_mem _ hr)] at hdigits
      rw [hdigits]
      exact .together hsign hclock
    | one hlength _ hbefore hafter =>
      -- both are cut behind two characters, so they are cut at the same place
      rw [List.filter_append, List.filter_cons_of_neg (by simp), filter_colon_eq_self hbefore,
        filter_colon_eq_self hafter] at hdigits
      obtain ⟨rfl, rfl⟩ := List.append_inj hdigits (hlength.trans hclock.length_hours.symm)
      exact .apart hsign hclock

/-! ### Reading -/

lemma clockSeconds?_eq_some_iff {ds : List Char} :
    clockSeconds? ds = some seconds ↔ ∃ hs ms, ds = hs ++ ms ∧ Clock hs ms seconds := by
  constructor
  · intro h
    unfold clockSeconds? at h
    split at h
    · next a b c d =>
      simp only [Option.ite_none_right_eq_some, Bool.and_eq_true, decide_eq_true_eq,
        Option.some.injEq] at h
      obtain ⟨⟨⟨hdigits, hminutes⟩, hhours⟩, rfl⟩ := h
      simp only [List.all_cons, List.all_nil, Bool.and_true, Bool.and_eq_true,
        isDigit_iff] at hdigits
      obtain ⟨ha, hb, hc, hd⟩ := hdigits
      -- the two first digits are the hours
      refine ⟨[a, b], [c, d], rfl, .time ⟨⟨by simp, ?_, rfl⟩, rfl, hhours⟩
        ⟨⟨by simp, ?_, rfl⟩, rfl, hminutes⟩⟩
      · simp [ha, hb]
      · simp [hc, hd]
    · cases h
  · rintro ⟨hs, ms, rfl, hclock⟩
    obtain ⟨hhours, hminutes⟩ := hclock
    obtain ⟨a, b, rfl⟩ := List.length_eq_two.mp hhours.length
    obtain ⟨c, d, rfl⟩ := List.length_eq_two.mp hminutes.length
    have hdigit := hhours.numeral.digit
    have hdigit' := hminutes.numeral.digit
    simp only [List.mem_cons, List.not_mem_nil, or_false, forall_eq_or_imp, forall_eq,
      ← isDigit_iff] at hdigit hdigit'
    have hlt := hhours.lt
    have hlt' := hminutes.lt
    -- the bounds are about what the two digits are worth
    rw [← hhours.numeral.value] at hlt ⊢
    rw [← hminutes.numeral.value] at hlt' ⊢
    simp [clockSeconds?, hdigit, hdigit', hlt, hlt']

lemma signed?_eq_some_iff {s : String} {z : Zone} :
    signed? s = some z ↔ ∃ offset, Distance s.toList offset ∧ z = .fixed offset := by
  unfold signed?
  constructor
  · intro h
    split at h
    · next r hr =>
      obtain ⟨seconds, hseconds, rfl⟩ := Option.map_eq_some_iff.mp h
      obtain ⟨hs, ms, hdigits, hclock⟩ := clockSeconds?_eq_some_iff.mp hseconds
      exact ⟨seconds, hr ▸ .scattered (.ahead seconds) hclock hdigits, rfl⟩
    · next r hr =>
      obtain ⟨seconds, hseconds, rfl⟩ := Option.map_eq_some_iff.mp h
      obtain ⟨hs, ms, hdigits, hclock⟩ := clockSeconds?_eq_some_iff.mp hseconds
      exact ⟨-seconds, hr ▸ .scattered (.behind seconds) hclock hdigits, rfl⟩
    · cases h
  · rintro ⟨offset, h, rfl⟩
    generalize s.toList = cs at h
    obtain ⟨hsign, hclock, hdigits⟩ := h
    -- the reader drops the colons first, wherever they are
    have hseconds := clockSeconds?_eq_some_iff.mpr ⟨_, _, hdigits, hclock⟩
    cases hsign <;> simp [hseconds]

/-- The name that a text may be, without blanks around it and in lower case. -/
def spelledName (s : String) : String :=
  String.ofList ((trim s).toList.map Char.toLower)

lemma lookup_named_iff {name : String} {z : Zone} :
    named.lookup name = some z ↔ z = .utc ∧ name ∈ ["", "utc", "z", "gmt"] ∨
      z = .machine ∧ name = "local" := by
  simp only [named, List.lookup_cons, List.lookup_nil, List.mem_cons, List.not_mem_nil, or_false]
  grind

/-- What begins with a sign is no name. -/
lemma lookup_named_of_distance {s : String} (h : Distance (trim s).toList offset) :
    named.lookup (spelledName s) = none := by
  have hnames : ∀ m ∈ named, m.1.toList.head? ≠ some '+' ∧ m.1.toList.head? ≠ some '-' := by
    simp [named]
  have hsign : (spelledName s).toList.head? = some '+' ∨
      (spelledName s).toList.head? = some '-' := by
    rw [spelledName, String.toList_ofList]
    generalize (trim s).toList = cs at h
    obtain ⟨hsign, _, _⟩ := h
    cases hsign with
    | ahead => exact .inl rfl
    | behind => exact .inr rfl
  rw [List.lookup_eq_none_iff]
  intro m hm
  rw [bne_iff_ne]
  intro heq
  rw [heq] at hsign
  exact hsign.elim (hnames m hm).1 (hnames m hm).2

/-- A zone is read by name, or else as a distance. -/
lemma parse?_eq (s : String) :
    parse? s = (named.lookup (spelledName s)).or (signed? (trim s)) := by
  simp only [parse?, spelledName]
  split
  · next h => rw [h, Option.some_or]
  · next h => rw [h, Option.none_or]

/-- Fixed distances are read from a sign and a time of the day, wherever colons stand behind it. -/
theorem parse?_eq_fixed_iff {s : String} :
    parse? s = some (.fixed offset) ↔ Distance (trim s).toList offset := by
  rw [parse?_eq, Option.or_eq_some_iff, lookup_named_iff, signed?_eq_some_iff]
  constructor
  · rintro ((⟨⟨⟩, _⟩ | ⟨⟨⟩, _⟩) | ⟨_, _, h, ⟨⟩⟩)
    exact h
  · intro h
    exact .inr ⟨lookup_named_of_distance h, offset, h, rfl⟩

/-- The other zones are read from their names alone. -/
theorem parse?_eq_named_iff {s : String} {z : Zone} (hz : ∀ offset, z ≠ .fixed offset) :
    parse? s = some z ↔ named.lookup (spelledName s) = some z := by
  rw [parse?_eq, Option.or_eq_some_iff, signed?_eq_some_iff]
  constructor
  · rintro (h | ⟨_, offset, _, h⟩)
    · exact h
    · exact absurd h (hz offset)
  · exact .inl

/-- No zone is read from a text that is neither a name nor a distance. -/
theorem parse?_eq_none_iff {s : String} :
    parse? s = none ↔ spelledName s ∉ ["", "utc", "z", "gmt", "local"] ∧
      ∀ offset, ¬ Distance (trim s).toList offset := by
  rw [parse?_eq, Option.or_eq_none_iff, List.lookup_eq_none_iff]
  apply and_congr
  · simp [named]
  · constructor
    · intro h offset hoffset
      rw [signed?_eq_some_iff.mpr ⟨offset, hoffset, rfl⟩] at h
      cases h
    · intro h
      rw [Option.eq_none_iff_forall_ne_some]
      intro z hz
      obtain ⟨offset, hoffset, _⟩ := signed?_eq_some_iff.mp hz
      exact h offset hoffset

/--
A fixed zone is read exactly from a sign, two digits of hours and two of minutes, with colons
anywhere behind the sign, and it is less than a day away from the common time. The documented form
is what is left of these texts if a colon may stand between hours and minutes alone. The common zone
and that of the machine are read exactly from their names, in any case, and nothing is read from any
other text.
-/
theorem zone_read_exactly (s : String) :
    (∀ offset, parse? s = some (.fixed offset) ↔
      Distance (trim s).toList offset ∧ -86400 < offset ∧ offset < 86400) ∧
    (∀ offset, Documented (trim s).toList offset ↔
      parse? s = some (.fixed offset) ∧ ColonsInPlace (trim s).toList) ∧
    (parse? s = some .utc ↔ spelledName s ∈ ["", "utc", "z", "gmt"]) ∧
    (parse? s = some .machine ↔ spelledName s = "local") ∧
    (parse? s = none ↔ spelledName s ∉ ["", "utc", "z", "gmt", "local"] ∧
      ∀ offset, ¬ Distance (trim s).toList offset) := by
  refine ⟨fun offset => ?_, fun offset => ?_, ?_, ?_, parse?_eq_none_iff⟩
  · rw [parse?_eq_fixed_iff]
    constructor
    · intro h
      exact ⟨h, h.bounds⟩
    · exact And.left
  · rw [parse?_eq_fixed_iff]
    exact documented_iff
  · rw [parse?_eq_named_iff (by simp), lookup_named_iff]
    simp
  · rw [parse?_eq_named_iff (by simp), lookup_named_iff]
    simp

/-- Colons between other digits go unnoticed: this is read as two hours. -/
theorem misplaced_colon_read :
    parse? "+0:200" = some (.fixed 7200) ∧
      ¬ ∃ offset, Documented (trim "+0:200").toList offset := by
  refine ⟨by decide, ?_⟩
  rintro ⟨offset, h⟩
  have htext : (trim "+0:200").toList = ['+', '0', ':', '2', '0', '0'] := by decide
  rw [htext] at h
  have hcolon := h.colonsInPlace.getElem? (by simp)
  simp at hcolon

end ResourceBuild.Time.Zone

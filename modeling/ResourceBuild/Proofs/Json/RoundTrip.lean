import Mathlib.Data.List.DropRight
import ResourceBuild.Proofs.Json.Canonical
import ResourceBuild.Proofs.Json.Quoted

/-!
# Printed values read back

Whatever its layout, the text of a bounded value is read as that value. Blanks that a layout puts
between the parts of a value are passed over.
-/

namespace ResourceBuild.Json

open Outcome
open Text

/-! ### Blanks -/

def IsBlank (cs : List Char) : Prop :=
  ∀ c ∈ cs, isSpace c = true

lemma IsBlank.lineStart (l : Layout) (depth : Nat) : IsBlank (l.lineStart depth) := by
  cases l with
  | compact =>
    intro c hc
    cases hc
  | indented width =>
    intro c hc
    rcases List.mem_cons.mp hc with rfl | hc
    · rfl
    · rw [(List.mem_replicate.mp hc).2]
      rfl

lemma skipSpace_append {sp : List Char} (hsp : IsBlank sp) (cs : List Char) :
    skipSpace (sp ++ cs) = skipSpace cs :=
  List.dropWhile_append_of_pos hsp

lemma skipSpace_cons {c : Char} (hc : isSpace c = false) (cs : List Char) :
    skipSpace (c :: cs) = c :: cs := by
  rw [skipSpace, List.dropWhile_cons, hc]
  rfl

lemma skipSpace_skipSpace (cs : List Char) : skipSpace (skipSpace cs) = skipSpace cs :=
  List.dropWhile_idempotent isSpace cs

/-- A number ends before blanks as it does without them. -/
lemma EndsNumber.blank_append {sp cs : List Char} (hsp : IsBlank sp) (hcs : EndsNumber cs) :
    EndsNumber (sp ++ cs) := by
  cases sp with
  | nil => exact hcs
  | cons c sp =>
    have hc := hsp c List.mem_cons_self
    apply EndsNumber.cons
    simp only [isSpace, Bool.or_eq_true, beq_iff_eq] at hc
    rcases hc with ((rfl | rfl) | rfl) | rfl <;> decide

lemma digit_ne {d : Char} (hd : isDigit d = true) :
    isSpace d = false ∧ d ≠ 'n' ∧ d ≠ 't' ∧ d ≠ 'f' ∧ d ≠ '"' ∧ d ≠ '-' ∧ d ≠ ']' := by
  have hspace : isSpace d = false := by
    rw [Bool.eq_false_iff]
    intro hspace
    simp only [isSpace, Bool.or_eq_true, beq_iff_eq] at hspace
    rcases hspace with ((rfl | rfl) | rfl) | rfl <;> exact absurd hd (by decide)
  refine ⟨hspace, ?_, ?_, ?_, ?_, ?_, ?_⟩
  all_goals
    rintro rfl
    exact absurd hd (by decide)

/-- Blanks in front of a value do not matter. -/
lemma value_congr {purpose : Purpose} {fuel depth : Nat} {cs ds : List Char}
    (h : skipSpace cs = skipSpace ds) :
    value purpose fuel depth cs = value purpose fuel depth ds := by
  cases fuel with
  | zero => rfl
  | succ fuel => rw [value, value, h]

lemma items_congr {purpose : Purpose} {fuel depth : Nat} {cs ds : List Char}
    (h : skipSpace cs = skipSpace ds) :
    items purpose fuel depth cs = items purpose fuel depth ds := by
  cases fuel with
  | zero => rfl
  | succ fuel => rw [items, items, value_congr h]

/-! ### Leaves -/

section Leaves

variable (purpose : Purpose) (fuel depth : Nat) (rest : List Char)

lemma value_null : value purpose (fuel + 1) depth ('n' :: 'u' :: 'l' :: 'l' :: rest) =
    .ok (.null, rest) := by
  rw [value, skipSpace_cons (by rfl)]
  rfl

lemma value_true : value purpose (fuel + 1) depth ('t' :: 'r' :: 'u' :: 'e' :: rest) =
    .ok (.boolean true, rest) := by
  rw [value, skipSpace_cons (by rfl)]
  rfl

lemma value_false : value purpose (fuel + 1) depth ('f' :: 'a' :: 'l' :: 's' :: 'e' :: rest) =
    .ok (.boolean false, rest) := by
  rw [value, skipSpace_cons (by rfl)]
  rfl

lemma value_text (s : String) :
    value purpose (fuel + 1) depth (quoted s ++ rest) = .ok (.text s, rest) := by
  have hquoted : quoted s ++ rest = '"' :: (s.toList.flatMap escape ++ '"' :: rest) := by
    simp [quoted]
  rw [hquoted, value, skipSpace_cons (by rfl)]
  simp only [string_read, if_true]
  rfl

lemma value_number {n : Number} (hn : Fits n) (hrest : EndsNumber rest) :
    value purpose (fuel + 1) depth (numberText n ++ rest) = .ok (.number n, rest) := by
  obtain ⟨negative, d, ds, htext, hd, hread⟩ := numberText_read hn
  have hread := hread purpose rest hrest
  rw [htext]
  cases negative with
  | true =>
    rw [if_pos rfl, List.cons_append, value, skipSpace_cons (by rfl)]
    simp only [hread]
    rfl
  | false =>
    obtain ⟨hspace, hn, ht, hf, hquote, hminus, -⟩ := digit_ne hd
    rw [if_neg Bool.false_ne_true, List.cons_append, value, skipSpace_cons hspace]
    rw [List.cons_append] at hread
    simp only [if_neg hn, if_neg ht, if_neg hf, if_neg hquote, if_neg hminus, if_pos hd, hread]
    rfl

end Leaves

/-! ### One step into an array or object -/

section Steps

variable {fuel depth : Nat} {cs ds rest : List Char}

/-- A reader goes into an array only where some depth is left. -/
lemma can_descend (depth : Nat) : ¬(depth + 1 = 0 ∧ (!Purpose.keep.passes) = true) :=
  fun h => Nat.succ_ne_zero depth h.1

lemma value_array_nil : value .keep (fuel + 1) (depth + 1) ('[' :: ']' :: rest) =
    .ok (.array [], rest) := by
  rw [value, skipSpace_cons (by rfl)]
  simp only [if_neg (can_descend depth), skipSpace_cons (by rfl : isSpace ']' = false)]
  rfl

lemma value_array {d : Char} {xs : List Json} (hcs : skipSpace cs = d :: ds) (hd : d ≠ ']')
    (hitems : items .keep fuel depth (d :: ds) = .ok (xs, rest)) :
    value .keep (fuel + 1) (depth + 1) ('[' :: cs) = .ok (.array xs, rest) := by
  rw [value, skipSpace_cons (by rfl)]
  simp only [if_neg (can_descend depth), hcs, if_neg hd, Purpose.forItems, Nat.add_sub_cancel,
    hitems]
  rfl

lemma value_object_nil : value .keep (fuel + 1) (depth + 1) ('\x7b' :: '\x7d' :: rest) =
    .ok (.object [], rest) := by
  rw [value, skipSpace_cons (by rfl)]
  simp only [if_neg (can_descend depth), skipSpace_cons (by rfl : isSpace '\x7d' = false)]
  rfl

lemma value_object {ms : Members} (hcs : skipSpace cs = '"' :: ds)
    (hmembers : members .keep fuel depth ds = .ok (ms, rest)) :
    value .keep (fuel + 1) (depth + 1) ('\x7b' :: cs) = .ok (.object ms, rest) := by
  rw [value, skipSpace_cons (by rfl)]
  simp only [if_neg (can_descend depth), hcs, Nat.add_sub_cancel, hmembers]
  rfl

end Steps

/-! ### Arrays and objects -/

/-- Whether a value is read back from its text in a layout, wherever that stands. -/
def Reads (l : Layout) (depth : Nat) (v : Json) : Prop :=
  ∀ k fuel rest, (write l k v).length ≤ fuel → EndsNumber rest →
    value .keep fuel depth (write l k v ++ rest) = .ok (v, rest)

/-- The text of a value starts with a character that does not end an array. -/
lemma write_head {depth : Nat} {v : Json} (h : Bounded depth v) (l : Layout) (k : Nat) :
    ∃ c cs, write l k v = c :: cs ∧ isSpace c = false ∧ c ≠ ']' := by
  cases h with
  | null => exact ⟨_, _, rfl, rfl, by decide⟩
  | boolean b => cases b <;> exact ⟨_, _, rfl, rfl, by decide⟩
  | number hn =>
    obtain ⟨negative, d, ds, htext, hd, -⟩ := numberText_read hn
    obtain ⟨hspace, -, -, -, -, -, hclose⟩ := digit_ne hd
    rw [write, htext]
    cases negative with
    | true => exact ⟨'-', d :: ds, rfl, rfl, by decide⟩
    | false => exact ⟨d, ds, rfl, hspace, hclose⟩
  | text s => exact ⟨_, _, rfl, rfl, by decide⟩
  | @array depth xs hxs =>
    cases xs with
    | nil => exact ⟨_, _, rfl, rfl, by decide⟩
    | cons x xs => exact ⟨_, _, rfl, rfl, by decide⟩
  | @object depth ms hms =>
    cases ms with
    | nil => exact ⟨_, _, rfl, rfl, by decide⟩
    | cons m ms => exact ⟨_, _, rfl, rfl, by decide⟩

/-- The text of items starts like that of the first one. -/
lemma writeItems_head {depth : Nat} {x : Json} (hx : Bounded depth x) (l : Layout) (k : Nat)
    (xs : List Json) (rest : List Char) :
    ∃ c cs, skipSpace (writeItems l k (x :: xs) ++ rest) = c :: cs ∧ c ≠ ']' := by
  obtain ⟨c, cs, hc, hspace, hclose⟩ := write_head hx l k
  -- blanks of the layout may come first, but the first item has a character that is none
  cases xs with
  | nil =>
    rw [writeItems, List.append_assoc, skipSpace_append (IsBlank.lineStart l k), hc,
      List.cons_append, skipSpace_cons hspace]
    exact ⟨c, _, rfl, hclose⟩
  | cons y ys =>
    rw [writeItems, List.append_assoc, List.append_assoc, skipSpace_append (IsBlank.lineStart l k),
      hc, List.cons_append, skipSpace_cons hspace]
    exact ⟨c, _, rfl, hclose⟩

/-- The items of an array are read back if each of them is. -/
lemma items_read {l : Layout} {depth : Nat} {xs : List Json} (hne : xs ≠ [])
    (hxs : ∀ x ∈ xs, Bounded depth x) (hread : ∀ x ∈ xs, Reads l depth x) (k fuel : Nat)
    (hfuel : (writeItems l k xs).length < fuel) {sp : List Char} (hsp : IsBlank sp)
    (rest : List Char) :
    items .keep fuel depth (writeItems l k xs ++ (sp ++ ']' :: rest)) = .ok (xs, rest) := by
  induction xs generalizing fuel with
  | nil => exact absurd rfl hne
  | cons x xs ih =>
    have hx := hread x List.mem_cons_self
    -- a last item ends before the bracket, any other one before the comma
    have hends : EndsNumber (sp ++ ']' :: rest) :=
      EndsNumber.blank_append hsp (EndsNumber.cons rest (by decide))
    cases fuel with
    | zero => exact absurd hfuel (Nat.not_lt_zero _)
    | succ fuel =>
      cases xs with
      | nil =>
        rw [writeItems, List.length_append] at hfuel
        rw [writeItems, List.append_assoc, items,
          value_congr (skipSpace_append (IsBlank.lineStart l k) _), hx k fuel _ (by omega) hends]
        simp only [bind, Except.bind, skipSpace_append hsp,
          skipSpace_cons (by rfl : isSpace ']' = false)]
        rfl
      | cons y ys =>
        rw [writeItems, List.length_append, List.length_append, List.length_cons] at hfuel
        -- every item takes one of the fuel, and its text is longer than that
        have hrest := ih (List.cons_ne_nil y ys) (List.forall_mem_cons.mp hxs).2
          (List.forall_mem_cons.mp hread).2 fuel (by omega)
        obtain ⟨d, ds, hhead, hclose⟩ := writeItems_head (hxs y (by simp)) l k ys
          (sp ++ ']' :: rest)
        have hcomma : EndsNumber (',' :: (writeItems l k (y :: ys) ++ (sp ++ ']' :: rest))) :=
          EndsNumber.cons _ (by decide)
        rw [← items_congr (skipSpace_skipSpace _), hhead] at hrest
        rw [writeItems, List.append_assoc, List.append_assoc, List.cons_append, items,
          value_congr (skipSpace_append (IsBlank.lineStart l k) _), hx k fuel _ (by omega) hcomma]
        simp only [bind, Except.bind, skipSpace_cons (by rfl : isSpace ',' = false), hhead,
          if_neg hclose, hrest]
        rfl

/-- The text of members starts with the quote of the first key. -/
lemma writeMembers_cons (l : Layout) (k : Nat) (key : String) (v : Json) (ms : Members) :
    writeMembers l k ((key, v) :: ms) =
      l.lineStart k ++ ('"' :: (key.toList.flatMap escape ++ '"' :: (l.colon ++ (write l k v ++
        (match ms with
          | [] => []
          | m :: ms => ',' :: writeMembers l k (m :: ms)))))) := by
  cases ms with
  | nil => simp [writeMembers, quoted]
  | cons m ms => simp [writeMembers, quoted]

/-- A colon and the blanks of a layout behind it. -/
lemma colon_eq (l : Layout) : ∃ sp, IsBlank sp ∧ l.colon = ':' :: sp := by
  cases l with
  | compact => exact ⟨[], by simp [IsBlank], rfl⟩
  | indented width => exact ⟨[' '], by simp [IsBlank, isSpace], rfl⟩

/-- The members of an object are read back if the value of each of them is. -/
lemma members_read {l : Layout} {depth : Nat} {ms : Members} (hne : ms ≠ [])
    (hread : ∀ m ∈ ms, Reads l depth m.2) (k fuel : Nat)
    (hfuel : (writeMembers l k ms).length < fuel) {sp : List Char} (hsp : IsBlank sp)
    (rest : List Char) :
    ∃ cs, skipSpace (writeMembers l k ms ++ (sp ++ '\x7d' :: rest)) = '"' :: cs ∧
      members .keep fuel depth cs = .ok (ms, rest) := by
  induction ms generalizing fuel with
  | nil => exact absurd rfl hne
  | cons m ms ih =>
    obtain ⟨key, v⟩ := m
    obtain ⟨blank, hblank, hcolon⟩ := colon_eq l
    have hv : Reads l depth v := hread (key, v) List.mem_cons_self
    rw [writeMembers_cons] at hfuel ⊢
    rw [List.append_assoc, skipSpace_append (IsBlank.lineStart l k), List.cons_append,
      skipSpace_cons (by rfl)]
    -- what is left begins behind the quote of the first key, where a reader of members starts
    refine ⟨_, rfl, ?_⟩
    cases fuel with
    | zero => exact absurd hfuel (Nat.not_lt_zero _)
    | succ fuel =>
      simp only [List.length_append, List.length_cons] at hfuel
      simp only [List.append_assoc, List.cons_append]
      rw [members, string_read, hcolon]
      simp only [bind, Except.bind, List.cons_append, skipSpace_cons (by rfl : isSpace ':' = false),
        if_true, Purpose.forKey]
      rw [value_congr (skipSpace_append hblank _)]
      cases ms with
      | nil =>
        have hends : EndsNumber (sp ++ '\x7d' :: rest) :=
          EndsNumber.blank_append hsp (EndsNumber.cons rest (by decide))
        rw [List.nil_append, hv k fuel _ (by omega) hends]
        simp only [skipSpace_append hsp,
          skipSpace_cons (by rfl : isSpace '\x7d' = false)]
        rfl
      | cons n ns =>
        simp only [List.length_cons] at hfuel
        obtain ⟨cs, hhead, hns⟩ := ih (List.cons_ne_nil n ns) (List.forall_mem_cons.mp hread).2
          fuel (by omega)
        -- the text behind a value decides where a number in it ends
        have hcomma : EndsNumber (',' :: (writeMembers l k (n :: ns) ++ (sp ++ '\x7d' :: rest))) :=
          EndsNumber.cons _ (by decide)
        rw [List.cons_append, hv k fuel _ (by omega) hcomma]
        have hbrace : (',' : Char) ≠ '\x7d' := by decide
        simp only [skipSpace_cons (by rfl : isSpace ',' = false), if_neg hbrace, if_true, hhead,
          hns]
        rfl

/-! ### Values -/

/-- No value is written without a character, so there is fuel to read it. -/
lemma reads_of_succ {l : Layout} {depth : Nat} {v : Json} (h : Bounded depth v)
    (hstep : ∀ k fuel rest, (write l k v).length ≤ fuel + 1 → EndsNumber rest →
      value .keep (fuel + 1) depth (write l k v ++ rest) = .ok (v, rest)) : Reads l depth v := by
  intro k fuel rest hfuel hrest
  cases fuel with
  | zero =>
    obtain ⟨c, cs, hc, -⟩ := write_head h l k
    exact absurd hfuel (by simp [hc])
  | succ fuel => exact hstep k fuel rest hfuel hrest

lemma reads_array {l : Layout} {depth : Nat} {xs : List Json} (hxs : ∀ x ∈ xs, Bounded depth x)
    (hread : ∀ x ∈ xs, Reads l depth x) : Reads l (depth + 1) (.array xs) := by
  apply reads_of_succ (Bounded.array hxs)
  intro k fuel rest hfuel hrest
  cases xs with
  | nil => exact value_array_nil
  | cons x xs =>
    rw [write] at hfuel ⊢
    simp only [List.length_append, List.length_cons, List.length_nil] at hfuel
    have hitems := items_read (List.cons_ne_nil x xs) hxs hread (k + 1) fuel (by omega)
      (IsBlank.lineStart l k) rest
    obtain ⟨d, ds, hhead, hclose⟩ := writeItems_head (hxs x List.mem_cons_self) l (k + 1) xs
      (l.lineStart k ++ ']' :: rest)
    rw [← items_congr (skipSpace_skipSpace _), hhead] at hitems
    simp only [List.cons_append, List.append_assoc, List.nil_append]
    exact value_array hhead hclose hitems

lemma reads_object {l : Layout} {depth : Nat} {ms : Members} (hms : ∀ m ∈ ms, Bounded depth m.2)
    (hread : ∀ m ∈ ms, Reads l depth m.2) : Reads l (depth + 1) (.object ms) := by
  apply reads_of_succ (Bounded.object hms)
  intro k fuel rest hfuel hrest
  cases ms with
  | nil => exact value_object_nil
  | cons m ms =>
    rw [write] at hfuel ⊢
    simp only [List.length_append, List.length_cons, List.length_nil] at hfuel
    obtain ⟨cs, hhead, hmembers⟩ := members_read (List.cons_ne_nil m ms) hread (k + 1) fuel
      (by omega) (IsBlank.lineStart l k) rest
    simp only [List.cons_append, List.append_assoc, List.nil_append]
    exact value_object hhead hmembers

/-- The text of a bounded value is read as that value, in every layout and at every depth. -/
theorem value_write {depth : Nat} {v : Json} (h : Bounded depth v) (l : Layout) :
    Reads l depth v := by
  induction h with
  | null =>
    apply reads_of_succ Bounded.null
    intro k fuel rest hfuel hrest
    exact value_null .keep fuel _ rest
  | boolean b =>
    apply reads_of_succ (Bounded.boolean b)
    intro k fuel rest hfuel hrest
    cases b with
    | true => exact value_true .keep fuel _ rest
    | false => exact value_false .keep fuel _ rest
  | number hn =>
    apply reads_of_succ (Bounded.number hn)
    intro k fuel rest hfuel hrest
    rw [write]
    exact value_number .keep fuel _ rest hn hrest
  | text s =>
    apply reads_of_succ (Bounded.text s)
    intro k fuel rest hfuel hrest
    rw [write]
    exact value_text .keep fuel _ rest s
  | array hxs ih => exact reads_array hxs ih
  | object hms ih => exact reads_object hms ih

/-! ### Texts -/

/-- A text that holds a bounded value, and blanks behind it, is read as that value. -/
lemma document_write {v : Json} (h : Bounded maxDepth v) (l : Layout) {sp : List Char}
    (hsp : IsBlank sp) : document .keep (write l 0 v ++ sp) = .ok v := by
  have hends : EndsNumber sp := by simpa using EndsNumber.blank_append hsp EndsNumber.nil
  have hskip : skipSpace sp = [] := List.dropWhile_eq_nil_iff.mpr hsp
  -- the reader has fuel for every character, and each of its steps goes past one
  have hfuel : (write l 0 v).length ≤ fuelFor (write l 0 v ++ sp) := by
    rw [fuelFor, List.length_append]
    omega
  rw [document, value_write h l 0 _ sp hfuel hends]
  simp only [bind, Except.bind, hskip]
  rfl

/-- A bounded value without repeated keys is read back from its text in any layout. -/
theorem parse_write {v : Json} (h : Bounded maxDepth v) (hd : Distinct v) (l : Layout) {sp : String}
    (hsp : IsBlank sp.toList) : parse (String.ofList (write l 0 v) ++ sp) = .ok v := by
  rw [parse, String.toList_append, String.toList_ofList, document_write h l hsp]
  simp only [hd.canonical_eq]

/-- Every value a text holds is bounded and without repeated keys. -/
theorem parse_eq_ok {s : String} {v : Json} (h : parse s = .ok v) :
    Bounded maxDepth v ∧ Distinct v := by
  unfold parse at h
  split at h
  · rename_i w hw
    cases h
    obtain ⟨⟨w', r⟩, hvalue, hr⟩ := bind_eq_ok_iff.mp hw
    have hbounded := (read_bounded _).1 _ _ _ _ hvalue
    simp only at hr
    split at hr
    · cases hr
      exact hbounded.canonical
    · cases hr
  · cases h

end ResourceBuild.Json

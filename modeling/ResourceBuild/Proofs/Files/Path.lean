import Mathlib.Data.List.DropRight
import Mathlib.Tactic.Lemma
import Mathlib.Tactic.SplitIfs
import ResourceBuild.Files.Tree
import ResourceBuild.Proofs.Text.Pieces

/-!
# Neighbouring paths

A path with a file name and the path with another extension lead to different names in the same
directory, whatever dots are in the name and whatever stands behind it.
-/

namespace ResourceBuild.Files.Path

/-! ### Paths and their parts -/

/-- A dot in front has a slash behind it, and without a start the first part says something. -/
def Written.Fits (parts : List String) : Start → Prop
  | .root => True
  | .dot => parts.head? = some ""
  | .plain => parts.head? ≠ some "" ∧ parts.head? ≠ some "."

/-- Whether a path is written as this start with these parts behind it. -/
structure Written (start : Start) (parts : List String) : Prop where
  nonempty : parts ≠ []
  bare : ∀ part ∈ parts, '/' ∉ part.toList
  fits : Written.Fits parts start

/-- The parts of a path with a slash in front of each. -/
def slashed (parts : List String) : List Char :=
  parts.flatMap fun part => '/' :: part.toList

lemma toList_join_cons (part : String) (parts : List String) :
    (Text.join "/" (part :: parts)).toList = part.toList ++ slashed parts := by
  induction parts generalizing part with
  | nil => simp [slashed]
  | cons s parts ih =>
    rw [Text.join_cons_cons, String.toList_append, ih, String.toList_append, List.append_assoc]
    rfl

lemma cut_join_slash {parts : List String} (hne : parts ≠ [])
    (h : ∀ part ∈ parts, '/' ∉ part.toList) : Text.cut '/' (Text.join "/" parts) = parts :=
  Text.cut_join hne h

lemma split_of_plain {p : Path} (hroot : p.text.toList.head? ≠ some '/')
    (hdot : p.text.toList ≠ ['.']) (hslash : ¬['.', '/'] <+: p.text.toList) :
    p.split = (.plain, Text.cut '/' p.text) := by
  unfold split
  split
  · next h => exact absurd (by rw [h]; rfl) hroot
  · next h => exact absurd h hdot
  · next r h => exact absurd ⟨r, h.symm⟩ hslash
  · rfl

/-- A part that says something has a first character, and a second one if the first is a dot. -/
lemma plain_start {part : String} (hempty : part ≠ "") (hdot : part ≠ ".")
    (hbare : '/' ∉ part.toList) (rest : List Char) :
    (part.toList ++ rest).head? ≠ some '/' ∧ part.toList ++ rest ≠ ['.'] ∧
      ¬['.', '/'] <+: part.toList ++ rest := by
  rw [ne_eq, ← String.toList_inj] at hempty hdot
  match hchars : part.toList with
  | [] => exact absurd hchars hempty
  | [c] => grind
  | c :: d :: cs => grind

/-- The parts of a path that is put together are those it is made of. -/
lemma Written.split {start : Start} {parts : List String} (h : Written start parts) :
    (ofParts start parts).split = (start, parts) := by
  obtain ⟨hne, hbare, hfits⟩ := h
  have hcut := cut_join_slash hne hbare
  obtain ⟨part, parts, rfl⟩ := List.exists_cons_of_ne_nil hne
  cases start with
  | root => simp [Path.split, ofParts, Start.text, hcut]
  | dot =>
    -- the empty first part stands for the slash behind the dot
    obtain rfl : part = "" := by simpa [Fits] using hfits
    cases parts with
    | nil => rfl
    | cons s parts =>
      rw [Text.join_cons_cons, String.empty_append] at hcut
      rw [Path.split, ofParts, Text.join_cons_cons]
      simpa [Start.text] using hcut
  | plain =>
    -- the first part says something, so the text begins like none of the other starts
    obtain ⟨hempty, hdot⟩ : part ≠ "" ∧ part ≠ "." := by simpa [Fits] using hfits
    have htext : (ofParts .plain (part :: parts)).text = Text.join "/" (part :: parts) :=
      String.empty_append
    have hpart : '/' ∉ part.toList := hbare part List.mem_cons_self
    obtain ⟨hroot, hone, hslash⟩ := plain_start hempty hdot hpart (slashed parts)
    rw [split_of_plain, htext, hcut]
    all_goals rwa [htext, toList_join_cons]

/-- A path is put together from its parts. -/
lemma ofParts_split (p : Path) : ofParts p.split.1 p.split.2 = p := by
  have hjoin (s : String) : Text.join "/" (Text.cut '/' s) = s := Text.join_cut '/' s
  obtain ⟨text⟩ := p
  unfold ofParts split
  split <;> rename_i h <;> simp only [Start.text, hjoin, Path.mk.injEq, ← String.toList_inj] <;>
    simp_all

/-- Every path but the empty one is written as its start with its parts. -/
lemma written_split {p : Path} (h : p.text ≠ "") : Written p.split.1 p.split.2 := by
  have hcut (s : String) (start : Start) (hfits : Written.Fits (Text.cut '/' s) start) :
      Written start (Text.cut '/' s) :=
    ⟨Text.cut_ne_nil '/' s, fun _ => Text.not_mem_of_mem_cut, hfits⟩
  unfold split
  split
  · exact hcut _ _ trivial
  · exact ⟨by simp, by simp, rfl⟩
  · next r _ =>
    have hslash : String.ofList ('/' :: r) = "" ++ String.singleton '/' ++ String.ofList r := by
      rw [← String.toList_inj]
      simp
    refine hcut _ _ ?_
    rw [hslash, Text.cut_append (by simp)]
    rfl
  · next hroot hone hslash =>
    refine hcut _ _ ?_
    have htext : p.text = Text.join "/" (Text.cut '/' p.text) := (Text.join_cut '/' p.text).symm
    obtain ⟨part, parts, hparts⟩ := List.exists_cons_of_ne_nil (Text.cut_ne_nil '/' p.text)
    rw [hparts, ← String.toList_inj, toList_join_cons] at htext
    rw [ne_eq, ← String.toList_inj] at h
    -- an empty part or a dot in front of the slashed parts is one of the other starts
    refine ⟨?_, ?_⟩
    all_goals
      rw [hparts, List.head?_cons]
      rintro ⟨rfl⟩
      cases parts with
      | nil => simp_all [slashed]
      | cons s parts => simp_all [slashed]

def Start.steps : Start → List String
  | .dot => ["."]
  | _ => []

lemma Written.steps {start : Start} {parts : List String} (h : Written start parts) :
    (ofParts start parts).steps = start.steps ++ parts.filter (· != "") := by
  have hcut := cut_join_slash h.nonempty h.bare
  have hfits := h.fits
  obtain ⟨part, parts, rfl⟩ := List.exists_cons_of_ne_nil h.nonempty
  cases start with
  | root =>
    have htext : (ofParts .root (part :: parts)).text =
        "" ++ String.singleton '/' ++ Text.join "/" (part :: parts) := rfl
    rw [Path.steps, htext, Text.cut_append (by simp), hcut]
    rfl
  | dot =>
    obtain rfl : part = "" := by simpa [Fits] using hfits
    -- the dot of the start is a step by itself
    have htext : (ofParts .dot ("" :: parts)).text = Text.join "/" ("." :: parts) := by
      rw [← String.toList_inj, ofParts, String.toList_append, toList_join_cons, toList_join_cons]
      rfl
    have hbare : ∀ part ∈ "." :: parts, '/' ∉ part.toList := by
      intro part hpart
      rcases List.mem_cons.mp hpart with rfl | hpart
      · decide
      · exact h.bare part (List.mem_cons_of_mem _ hpart)
    rw [Path.steps, htext, cut_join_slash (List.cons_ne_nil _ _) hbare]
    rfl
  | plain =>
    have htext : (ofParts .plain (part :: parts)).text = Text.join "/" (part :: parts) :=
      String.empty_append
    rw [Path.steps, htext, hcut]
    rfl

/-- A path is absolute exactly when it starts at the root. -/
lemma isAbsolute_iff (p : Path) : p.isAbsolute = true ↔ p.split.1 = .root := by
  rw [isAbsolute, beq_iff_eq]
  unfold split
  split
  · next h => simp [h]
  · next h => simp [h]
  · next h => simp [h]
  · next hroot _ _ =>
    refine iff_of_false (fun h => ?_) (by simp)
    obtain ⟨r, hr⟩ := List.head?_eq_some_iff.mp h
    exact hroot r hr

/-! ### File names -/

/-- Parts at the end that name nothing are left out, up to the one before them. -/
lemma dropTrivialEnd_append {name : String} (init : List String) {junk : List String}
    (hname : isTrivial name = false) (hjunk : ∀ part ∈ junk, isTrivial part = true) :
    dropTrivialEnd (init ++ name :: junk) = init ++ [name] := by
  have hdrop : (junk.reverse ++ (name :: init.reverse)).dropWhile isTrivial =
      name :: init.reverse := by
    rw [List.dropWhile_append_of_pos (by simpa using hjunk), List.dropWhile_cons_of_neg]
    simp [hname]
  simp [dropTrivialEnd, hdrop]

/--
Whether a path ends in a name: behind its start stand some parts, the name, and nothing more than
parts that say nothing.
-/
structure Ends (p : Path) (start : Start) (init : List String) (name : String)
    (junk : List String) : Prop where
  eq : p = ofParts start (init ++ name :: junk)
  written : Written start (init ++ name :: junk)
  named : isTrivial name = false
  silent : ∀ part ∈ junk, isTrivial part = true

/-- A path with a file name ends in it. -/
lemma ends_of_fileName? {p : Path} {name : String} (h : p.fileName? = some name) :
    name ≠ ".." ∧ ∃ start init junk, p.Ends start init name junk := by
  have htext : p.text ≠ "" := by
    rintro hempty
    obtain rfl : p = ⟨""⟩ := by rw [← hempty]
    cases h
  unfold fileName? at h
  split at h
  · rename_i last hlast
    split_ifs at h with hup
    cases h
    -- the name is the last part that says something
    have hparts : p.split.2.rdropWhile isTrivial ++ p.split.2.rtakeWhile isTrivial = p.split.2 :=
      List.rdropWhile_append_rtakeWhile
    change (p.split.2.rdropWhile isTrivial).getLast? = some name at hlast
    obtain ⟨init, hinit⟩ := List.getLast?_eq_some_iff.mp hlast
    have hsplit : p.split.2 = init ++ name :: p.split.2.rtakeWhile isTrivial := by
      rw [hinit, List.append_assoc] at hparts
      exact hparts.symm
    refine ⟨by simpa using hup, p.split.1, init, p.split.2.rtakeWhile isTrivial, ?_, ?_, ?_, ?_⟩
    · rw [← hsplit, ofParts_split]
    · rw [← hsplit]
      exact written_split htext
    · have hne : p.split.2.rdropWhile isTrivial ≠ [] := by simp [hinit]
      have hnot := List.rdropWhile_last_not isTrivial p.split.2 hne
      simpa [hinit] using hnot
    · exact fun part hpart => List.mem_rtakeWhile_imp hpart
  · cases h

section Ends

variable {p : Path} {start : Start} {init junk : List String} {name : String}

lemma isTrivial_eq_false_iff {part : String} : isTrivial part = false ↔ part ≠ "" ∧ part ≠ "." := by
  simp [isTrivial]

lemma Ends.split (h : p.Ends start init name junk) : p.split = (start, init ++ name :: junk) := by
  rw [h.eq, h.written.split]

/-- The steps of a path that ends in a name: behind the name only dots are left. -/
lemma Ends.steps (h : p.Ends start init name junk) :
    ∃ dots, (∀ step ∈ dots, step = ".") ∧
      p.steps = start.steps ++ init.filter (· != "") ++ name :: dots := by
  refine ⟨junk.filter (· != ""), ?_, ?_⟩
  · intro step hstep
    obtain ⟨hjunk, hne⟩ := List.mem_filter.mp hstep
    simpa [isTrivial, bne_iff_ne.mp hne] using h.silent step hjunk
  · have hname : (name != "") = true := bne_iff_ne.mpr (isTrivial_eq_false_iff.mp h.named).1
    rw [h.eq, h.written.steps, List.filter_append, List.filter_cons_of_pos (by simpa using hname),
      List.append_assoc]

/-- A path that ends in a name ends in another one just as well. -/
lemma Ends.replace (h : p.Ends start init name junk) {other : String} {junk' : List String}
    (hbare : '/' ∉ other.toList) (hother : isTrivial other = false)
    (hjunk : ∀ part ∈ junk', isTrivial part = true) :
    (ofParts start (init ++ other :: junk')).Ends start init other junk' where
  eq := rfl
  named := hother
  silent := hjunk
  written := by
    refine ⟨by simp, ?_, ?_⟩
    · intro part hpart
      rcases List.mem_append.mp hpart with hinit | hrest
      · exact h.written.bare part (List.mem_append_left _ hinit)
      · rcases List.mem_cons.mp hrest with rfl | hpart
        · exact hbare
        · have htriv := hjunk part hpart
          rw [isTrivial, Bool.or_eq_true, beq_iff_eq, beq_iff_eq] at htriv
          rcases htriv with rfl | rfl <;> decide
    · have hfits := h.written.fits
      have hname := isTrivial_eq_false_iff.mp h.named
      have hnext := isTrivial_eq_false_iff.mp hother
      -- whether the start fits depends on the first part alone
      cases init with
      | nil => cases start <;> simp_all [Written.Fits]
      | cons part init => cases start <;> simp_all [Written.Fits]

end Ends

/-! ### Extensions -/

/-- A name is cut at its last dot, unless there is none or nothing is in front of it. -/
lemma splitName_of_reverse {name : String} {ext rest : List Char}
    (h : name.toList.reverse = ext ++ rest) (hext : '.' ∉ ext)
    (hrest : ∀ c cs, rest = c :: cs → c = '.') :
    splitName name =
      if rest.length ≤ 1 then (name, none)
      else (String.ofList rest.tail.reverse, some (String.ofList ext.reverse)) := by
  have htake : (ext ++ rest).takeWhile (· != '.') = ext := by
    rw [List.takeWhile_append_of_pos]
    · cases rest with
      | nil => simp
      | cons c cs => simp [hrest c cs rfl]
    · intro c hc
      have hne : c ≠ '.' := fun heq => hext (heq ▸ hc)
      simpa using hne
  rw [splitName, h, htake, List.drop_left]
  -- there is no dot, or only one in front of all, or one behind a stem
  match rest with
  | [] => rfl
  | [c] => simp [hrest c [] rfl]
  | c :: d :: stem => simp

lemma splitName_of_dotted {stem ext : String} (hstem : stem ≠ "") (hext : '.' ∉ ext.toList) :
    splitName (stem ++ "." ++ ext) = (stem, some ext) := by
  have hchars : (stem ++ "." ++ ext).toList.reverse =
      ext.toList.reverse ++ '.' :: stem.toList.reverse := by
    simp
  rw [splitName_of_reverse hchars (by simpa using hext) (by simp [eq_comm]), if_neg (by simpa)]
  simp

/-- A file name has no extension, or it is a stem and an extension without a dot. -/
lemma splitName_cases (name : String) :
    splitName name = (name, none) ∨
      ∃ stem ext, name = stem ++ "." ++ ext ∧ stem ≠ "" ∧ '.' ∉ ext.toList ∧
        splitName name = (stem, some ext) := by
  have hname : name.toList.reverse = name.toList.reverse.takeWhile (· != '.') ++
      name.toList.reverse.dropWhile (· != '.') := List.takeWhile_append_dropWhile.symm
  have hext : '.' ∉ name.toList.reverse.takeWhile (· != '.') := fun hmem => by
    simpa using List.mem_takeWhile_imp hmem
  have hrest : ∀ c cs, name.toList.reverse.dropWhile (· != '.') = c :: cs → c = '.' := by
    intro c cs hcs
    have hhead := List.head_dropWhile_not (· != '.') (l := name.toList.reverse) (by simp [hcs])
    simpa [hcs] using hhead
  have hsplit := splitName_of_reverse hname hext hrest
  generalize name.toList.reverse.takeWhile (· != '.') = ext at hname hext hsplit
  generalize name.toList.reverse.dropWhile (· != '.') = rest at hname hrest hsplit
  match rest with
  | [] => exact Or.inl hsplit
  | [_] => exact Or.inl hsplit
  | c :: d :: stem =>
    refine Or.inr ⟨_, _, ?_, ?_, ?_, hsplit⟩
    · rw [← String.toList_inj, ← List.reverse_inj, hname, hrest c _ rfl]
      simp
    · simp
    · simpa using hext

lemma toList_join_append (init : List String) (name : String) (junk : List String) :
    (Text.join "/" (init ++ name :: junk)).toList =
      init.flatMap (fun part => part.toList ++ ['/']) ++ name.toList ++ slashed junk := by
  induction init with
  | nil => simp [toList_join_cons]
  | cons part init ih =>
    obtain ⟨next, rest, hrest⟩ : ∃ next rest, init ++ name :: junk = next :: rest :=
      List.exists_cons_of_ne_nil (by simp)
    rw [List.cons_append, hrest, Text.join_cons_cons, ← hrest]
    simp [ih]

/-- A part of the text of parts that say nothing is the text of such parts. -/
lemma take_slashed {junk : List String} (h : ∀ part ∈ junk, isTrivial part = true) (n : Nat) :
    ∃ junk', (∀ part ∈ junk', isTrivial part = true) ∧ (slashed junk).take n = slashed junk' := by
  induction junk generalizing n with
  | nil => exact ⟨[], by simp, by simp [slashed]⟩
  | cons part junk ih =>
    rw [List.forall_mem_cons, isTrivial, Bool.or_eq_true, beq_iff_eq, beq_iff_eq] at h
    obtain ⟨hpart, hjunk⟩ := h
    -- what is taken ends before the slash, behind it, or in the parts that follow
    match n with
    | 0 => exact ⟨[], by simp, by simp [slashed]⟩
    | 1 => exact ⟨[""], by simp [isTrivial], by simp [slashed]⟩
    | n + 2 =>
      rcases hpart with rfl | rfl
      · obtain ⟨junk', htriv, htake⟩ := ih hjunk (n + 1)
        refine ⟨"" :: junk', by simpa [isTrivial] using htriv, ?_⟩
        simpa [slashed] using htake
      · obtain ⟨junk', htriv, htake⟩ := ih hjunk n
        refine ⟨"." :: junk', by simpa [isTrivial] using htriv, ?_⟩
        simpa [slashed] using htake

variable {p : Path} {start : Start} {init junk : List String} {name : String}

lemma Ends.fileName? (h : p.Ends start init name junk) (hup : name ≠ "..") :
    p.fileName? = some name := by
  rw [Path.fileName?, h.split, dropTrivialEnd_append init h.named h.silent]
  simp [hup]

lemma isTrivial_dotted {stem : String} (hstem : stem ≠ "") (ext : String) :
    isTrivial (stem ++ "." ++ ext) = false := by
  rw [ne_eq, ← String.toList_inj] at hstem
  obtain ⟨c, cs, hcs⟩ := List.exists_cons_of_ne_nil hstem
  rw [isTrivial_eq_false_iff]
  constructor <;> simp [← String.toList_inj, hcs]

/--
A path that loses as many characters as its extension has keeps the stem of its name and the dot;
what is left of the extension may hold a part of it when something stands behind the name.
-/
lemma Ends.cut {stem ext : String} (h : p.Ends start init (stem ++ "." ++ ext) junk)
    (hstem : stem ≠ "") (hext : '.' ∉ ext.toList) :
    ∃ ext' junk', '.' ∉ ext'.toList ∧
      Ends ⟨String.ofList (p.text.toList.take (p.text.length - ext.length))⟩ start init
        (stem ++ "." ++ ext') junk' := by
  have hbare := h.written.bare (stem ++ "." ++ ext) (by simp)
  obtain ⟨junk', hjunk', htake⟩ :=
    take_slashed h.silent ((slashed junk).length - ext.toList.length)
  refine ⟨String.ofList (ext.toList.take (slashed junk).length), junk', ?_, ?_⟩
  · rw [String.toList_ofList]
    exact fun hmem => hext (List.mem_of_mem_take hmem)
  · -- the characters in front of the extension, and those from it on
    generalize hfront : start.text.toList ++
      init.flatMap (fun part => part.toList ++ ['/']) ++ (stem ++ ".").toList = front
    have htext : p.text.toList = front ++ (ext.toList ++ slashed junk) := by
      rw [h.eq, ofParts, String.toList_append, toList_join_append, ← hfront]
      simp
    have hlength : p.text.length - ext.length = front.length + (slashed junk).length := by
      rw [← String.length_toList, htext, ← String.length_toList, List.length_append,
        List.length_append]
      omega
    have hcut : String.ofList (p.text.toList.take (p.text.length - ext.length)) =
        (ofParts start (init ++ (stem ++ "." ++
          String.ofList (ext.toList.take (slashed junk).length)) :: junk')).text := by
      rw [← String.toList_inj, String.toList_ofList, hlength, htext, List.take_length_add_append,
        List.take_append, htake, ofParts, String.toList_append, toList_join_append, ← hfront]
      simp
    rw [hcut]
    refine h.replace ?_ ?_ hjunk'
    · intro hmem
      simp only [String.toList_append, String.toList_ofList, List.mem_append] at hmem hbare
      rcases hmem with hmem | hmem
      · exact hbare (Or.inl hmem)
      · exact hbare (Or.inr (List.mem_of_mem_take hmem))
    · exact isTrivial_dotted hstem _

lemma withExtension_of_cut {q : Path} {other : String} (hname : p.fileName? = some name)
    (hcut : q = ⟨String.ofList
      (p.text.toList.take (p.text.length - ((splitName name).2.getD "").length))⟩)
    (hq : q.Ends start init other junk) (extension : String) :
    p.withExtension extension =
      if other = ".." then q
      else ofParts start (init ++ [(splitName other).1 ++ "." ++ extension]) := by
  simp only [Path.withExtension, hname, ← hcut, hq.split,
    dropTrivialEnd_append init hq.named hq.silent, List.getLast?_concat, List.dropLast_concat,
    beq_iff_eq]

/-- The path with another extension ends in the stem of the name with it, or leads upwards. -/
lemma Ends.withExtension (h : p.Ends start init name junk) (hup : name ≠ "..") {extension : String}
    (hbare : '/' ∉ extension.toList) :
    (p.withExtension extension).Ends start init ((splitName name).1 ++ "." ++ extension) [] ∨
      ∃ junk', (p.withExtension extension).Ends start init ".." junk' := by
  have hslash := h.written.bare name (by simp)
  rcases splitName_cases name with hsplit | ⟨stem, ext, rfl, hstem, hext, hsplit⟩
  · refine Or.inl ?_
    rw [withExtension_of_cut (h.fileName? hup) (by simp [hsplit, ← String.length_toList]) h,
      if_neg hup, hsplit]
    exact h.replace (by simp [hslash, hbare])
      (isTrivial_dotted (isTrivial_eq_false_iff.mp h.named).1 extension) (by simp)
  · obtain ⟨ext', junk', hext', hcut⟩ := h.cut hstem hext
    rw [withExtension_of_cut (h.fileName? hup) (by rw [hsplit]; rfl) hcut]
    -- a name that was cut may be two dots, which lead upwards
    split_ifs with hparent
    · rw [hparent] at hcut
      exact Or.inr ⟨junk', hcut⟩
    · rw [hsplit, splitName_of_dotted hstem hext']
      refine Or.inl (h.replace ?_ (isTrivial_dotted hstem extension) (by simp))
      simp_all

/-- A name with its extension replaced by one that has a dot in it is another name. -/
lemma stem_ne {extension : String} (hdot : '.' ∈ extension.toList) (name : String) :
    (splitName name).1 ++ "." ++ extension ≠ name := by
  rcases splitName_cases name with hsplit | ⟨stem, ext, rfl, hstem, hext, hsplit⟩
  · intro heq
    have hlength := congrArg String.length heq
    have hone : ".".length = 1 := rfl
    simp only [hsplit, String.length_append] at hlength
    omega
  · intro heq
    rw [hsplit, String.append_right_inj] at heq
    exact hext (heq ▸ hdot)

/-! ### Neighbours -/

/--
Two paths with different last steps from the same directory, which is where the steps before lead.
The first path has a name there, and dots may stand behind it; the second may lead upwards.
-/
structure Neighbours (p q : Path) (steps : List String) (name other : String) : Prop where
  absolute : q.isAbsolute = p.isAbsolute
  first : ∃ dots, (∀ step ∈ dots, step = ".") ∧ p.steps = steps ++ name :: dots
  second : ∃ dots, (∀ step ∈ dots, step = ".") ∧ q.steps = steps ++ other :: dots
  name_ne_dot : name ≠ "."
  name_ne_parent : name ≠ ".."
  other_ne : other ≠ name

/-- A path with a file name is a neighbour of it with an extension that has a dot in it. -/
lemma neighbours_withExtension {extension : String} (h : p.fileName? = some name)
    (hdot : '.' ∈ extension.toList) (hbare : '/' ∉ extension.toList) :
    ∃ steps other, Neighbours p (p.withExtension extension) steps name other := by
  obtain ⟨hup, start, init, junk, hp⟩ := ends_of_fileName? h
  have hname : name ≠ "." := (isTrivial_eq_false_iff.mp hp.named).2
  have hneighbours {other : String} {junk' : List String}
      (hq : (p.withExtension extension).Ends start init other junk') (hne : other ≠ name) :
      Neighbours p (p.withExtension extension) (start.steps ++ init.filter (· != "")) name
        other := by
    refine ⟨?_, hp.steps, hq.steps, hname, hup, hne⟩
    rw [Bool.eq_iff_iff, isAbsolute_iff, isAbsolute_iff, hp.split, hq.split]
  rcases hp.withExtension hup hbare with hq | ⟨junk', hq⟩
  · exact ⟨_, _, hneighbours hq (stem_ne hdot name)⟩
  · exact ⟨_, _, hneighbours hq (Ne.symm hup)⟩

/-- Neighbours are different paths. -/
lemma Neighbours.ne {q : Path} {steps : List String} {other : String}
    (h : Neighbours p q steps name other) : q ≠ p := by
  rintro rfl
  obtain ⟨dots, -, hfirst⟩ := h.first
  obtain ⟨dots', -, hsecond⟩ := h.second
  have hsteps := List.append_cancel_left (hfirst.symm.trans hsecond)
  exact h.other_ne (List.cons.inj hsteps).1.symm

end ResourceBuild.Files.Path

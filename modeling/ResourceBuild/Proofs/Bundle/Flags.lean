import Mathlib.Data.List.Forall2
import Mathlib.Tactic.Lemma
import Mathlib.Tactic.SplitIfs
import ResourceBuild.Bundle.Command
import ResourceBuild.Proofs.Pairs
import ResourceBuild.Proofs.Text.Pieces

/-!
# How options are spelled

The words of an option may be put together with underscores, with capitals or with hyphens: its flag
has hyphens between them. A flag has no other spelling, so it is its own flag. Options that are
spelled in another way give the same flags.
-/

namespace ResourceBuild.Bundle

open Text

/-! ### Characters -/

/-- A character that stands in a flag as it stands in the option. -/
def IsPlain (c : Char) : Prop :=
  c ≠ '_' ∧ c.isUpper = false

instance : DecidablePred IsPlain := fun c =>
  inferInstanceAs (Decidable (c ≠ '_' ∧ c.isUpper = false))

variable {c d : Char} {cs : List Char}

lemma isUpper_iff : c.isUpper = true ↔ 'A' ≤ c ∧ c ≤ 'Z' :=
  decide_eq_true_iff

lemma isLower_iff : c.isLower = true ↔ 'a' ≤ c ∧ c ≤ 'z' := by
  have hlower : c.isLower = ('a' ≤ c && c ≤ 'z') := rfl
  rw [hlower, Bool.and_eq_true, decide_eq_true_iff, decide_eq_true_iff]

lemma isCapital_eq_isUpper (c : Char) : isCapital c = c.isUpper := by
  rw [Bool.eq_iff_iff, isUpper_iff, isCapital, Bool.and_eq_true, decide_eq_true_iff,
    decide_eq_true_iff]

/-- There are 26 letters of each kind. -/
lemma exists_ofNat {first n : Nat} (h : first ≤ c.toNat ∧ c.toNat < first + n) :
    ∃ i : Fin n, c = Char.ofNat (first + i) := by
  refine ⟨⟨c.toNat - first, by omega⟩, ?_⟩
  rw [Nat.add_sub_of_le h.1, Char.ofNat_toNat]

lemma exists_of_isLower (h : c.isLower = true) : ∃ i : Fin 26, c = Char.ofNat (97 + i) := by
  obtain ⟨hfirst, hlast⟩ := isLower_iff.mp h
  exact exists_ofNat ⟨hfirst, Nat.lt_succ_of_le hlast⟩

lemma exists_of_isUpper (h : c.isUpper = true) : ∃ i : Fin 26, c = Char.ofNat (65 + i) := by
  obtain ⟨hfirst, hlast⟩ := isUpper_iff.mp h
  exact exists_ofNat ⟨hfirst, Nat.lt_succ_of_le hlast⟩

lemma isPlain_of_isLower (h : c.isLower = true) : IsPlain c := by
  obtain ⟨i, rfl⟩ := exists_of_isLower h
  revert i
  decide

lemma IsPlain.toLower_eq (h : IsPlain c) : c.toLower = c :=
  dif_neg fun hcapital => Bool.eq_false_iff.mp h.2 (isUpper_iff.mpr hcapital)

lemma isPlain_toLower (h : c ≠ '_') : IsPlain c.toLower := by
  by_cases hc : c.isUpper
  · obtain ⟨i, rfl⟩ := exists_of_isUpper hc
    revert i
    decide
  · have hplain : IsPlain c := ⟨h, Bool.eq_false_iff.mpr hc⟩
    rwa [hplain.toLower_eq]

lemma IsPlain.flagChar_eq (h : IsPlain c) : flagChar c = [c] := by
  simp [flagChar, isCapital_eq_isUpper, h.1, h.2]

/-- A capital letter begins a new word. -/
lemma flagChar_toUpper (h : c.isLower = true) : flagChar c.toUpper = ['-', c] := by
  obtain ⟨i, rfl⟩ := exists_of_isLower h
  revert i
  decide

lemma isPlain_of_mem_flagChar (h : d ∈ flagChar c) : IsPlain d := by
  unfold flagChar at h
  split_ifs at h with hunderscore hcapital
  · rw [List.mem_singleton.mp h]
    decide
  · rcases List.mem_pair.mp h with rfl | rfl
    · decide
    · exact isPlain_toLower hunderscore
  · rw [List.mem_singleton.mp h]
    exact ⟨hunderscore, by rw [← isCapital_eq_isUpper, Bool.eq_false_iff.mpr hcapital]⟩

lemma flatMap_flagChar_eq_self (h : ∀ c ∈ cs, IsPlain c) : cs.flatMap flagChar = cs := by
  induction cs with
  | nil => rfl
  | cons c cs ih =>
    rw [List.flatMap_cons, (h c List.mem_cons_self).flagChar_eq,
      ih fun d hd => h d (List.mem_cons_of_mem c hd), List.singleton_append]

/-! ### Flags -/

variable {key key' : String}

/-- The first character is only special if it is an underscore or a capital. -/
lemma toList_flagName_of_isPlain {r : List Char} (hkey : key.toList = c :: r) (hc : IsPlain c) :
    (flagName key).toList = key.toList.flatMap flagChar := by
  simp only [flagName, hkey, String.toList_ofList, if_neg hc.1, hc.toLower_eq, List.flatMap_cons,
    hc.flagChar_eq, List.singleton_append]

/-- Flags are made of plain characters. -/
lemma isPlain_of_mem_flagName (h : c ∈ (flagName key).toList) : IsPlain c := by
  unfold flagName at h
  split at h
  · simp at h
  · rename_i first rest hkey
    rw [String.toList_ofList, List.mem_cons] at h
    rcases h with rfl | h
    · split_ifs with hfirst
      · decide
      · exact isPlain_toLower hfirst
    · obtain ⟨d, -, hd⟩ := List.mem_flatMap.mp h
      exact isPlain_of_mem_flagChar hd

/-- An option of plain characters is its own flag. -/
lemma flagName_eq_self (h : ∀ c ∈ key.toList, IsPlain c) : flagName key = key := by
  rw [← String.toList_inj]
  cases hkey : key.toList with
  | nil => simp [flagName, hkey]
  | cons c r =>
    rw [toList_flagName_of_isPlain hkey (h c (by simp [hkey])), flatMap_flagChar_eq_self h, hkey]

/-! ### Words -/

/-- A word of an option: it begins with a small letter, and has no underscores and no capitals. -/
structure IsWord (w : String) : Prop where
  first : w.toList.head?.any Char.isLower = true
  plain : ∀ c ∈ w.toList, IsPlain c

instance : DecidablePred IsWord := fun w =>
  -- the characters of the word are tried; instance search would try all there are
  haveI : Decidable (∀ c ∈ w.toList, IsPlain c) := List.decidableBAll IsPlain w.toList
  decidable_of_iff (w.toList.head?.any Char.isLower = true ∧ ∀ c ∈ w.toList, IsPlain c)
    ⟨fun h => ⟨h.1, h.2⟩, fun h => ⟨h.first, h.plain⟩⟩

def capitalized (w : String) : String :=
  match w.toList with
  | [] => ""
  | c :: r => String.ofList (c.toUpper :: r)

def snakeCase (words : List String) : String :=
  join "_" words

/-- Some words of which all but the first one begin with capitals. -/
def camelCase : List String → String
  | [] => ""
  | w :: ws => w ++ join "" (ws.map capitalized)

def kebabCase (words : List String) : String :=
  join "-" words

variable {w : String} {words ws : List String}

lemma IsWord.exists_first (h : IsWord w) : ∃ c r, w.toList = c :: r ∧ c.isLower = true := by
  have hfirst := h.first
  cases hw : w.toList with
  | nil => simp [hw] at hfirst
  | cons c r => exact ⟨c, r, rfl, by simpa [hw] using hfirst⟩

/-- A capital in front of a word is a hyphen in the flag. -/
lemma flatMap_flagChar_capitalized (h : IsWord w) :
    (capitalized w).toList.flatMap flagChar = '-' :: w.toList := by
  obtain ⟨c, r, hw, hc⟩ := h.exists_first
  have hr : ∀ d ∈ r, IsPlain d := fun d hd => h.plain d (hw ▸ List.mem_cons_of_mem c hd)
  simp only [capitalized, hw, String.toList_ofList, List.flatMap_cons, flagChar_toUpper hc,
    flatMap_flagChar_eq_self hr, List.cons_append, List.nil_append]

/-- So is a separator that is put in front of it. -/
lemma flatMap_flagChar_separated {sep : Char} (hsep : flagChar sep = ['-']) (h : IsWord w) :
    (sep :: w.toList).flatMap flagChar = '-' :: w.toList := by
  rw [List.flatMap_cons, hsep, flatMap_flagChar_eq_self h.plain, List.singleton_append]

lemma toList_camelCase_cons (w : String) (ws : List String) :
    (camelCase (w :: ws)).toList = w.toList ++ ws.flatMap fun v => (capitalized v).toList := by
  rw [camelCase, String.toList_append]
  congr 1
  induction ws with
  | nil => simp
  | cons v ws ih => rw [List.map_cons, join_empty_cons, String.toList_append, ih, List.flatMap_cons]

/-- However each word but the first one is marked as a new one, the flag has a hyphen in front of
it. -/
lemma flagName_eq_kebabCase {lead : String → List Char}
    (hlead : ∀ v, IsWord v → (lead v).flatMap flagChar = '-' :: v.toList)
    (hwords : ∀ v ∈ w :: ws, IsWord v) (hkey : key.toList = w.toList ++ ws.flatMap lead) :
    flagName key = kebabCase (w :: ws) := by
  obtain ⟨hw, hws⟩ := List.forall_mem_cons.mp hwords
  obtain ⟨c, r, hcr, hc⟩ := hw.exists_first
  have hfirst : key.toList = c :: (r ++ ws.flatMap lead) := by rw [hkey, hcr, List.cons_append]
  have hkebab := toList_join_cons '-' w ws
  rw [← String.toList_inj, toList_flagName_of_isPlain hfirst (isPlain_of_isLower hc), hkey,
    List.flatMap_append, flatMap_flagChar_eq_self hw.plain, List.flatMap_assoc]
  refine Eq.trans ?_ hkebab.symm
  rw [List.flatMap_congr fun v hv => hlead v (hws v hv)]

lemma flagName_join {sep : Char} (hsep : flagChar sep = ['-']) (hne : words ≠ [])
    (h : ∀ w ∈ words, IsWord w) :
    flagName (join (String.singleton sep) words) = kebabCase words := by
  obtain ⟨w, ws, rfl⟩ := List.exists_cons_of_ne_nil hne
  exact flagName_eq_kebabCase (fun v => flatMap_flagChar_separated hsep) h
    (toList_join_cons sep w ws)

lemma flagName_snakeCase (hne : words ≠ []) (h : ∀ w ∈ words, IsWord w) :
    flagName (snakeCase words) = kebabCase words := by
  have hsep : "_" = String.singleton '_' := by decide
  rw [snakeCase, hsep, flagName_join (by decide) hne h]

lemma flagName_kebabCase (hne : words ≠ []) (h : ∀ w ∈ words, IsWord w) :
    flagName (kebabCase words) = kebabCase words := by
  have hsep : "-" = String.singleton '-' := by decide
  conv_lhs => rw [kebabCase, hsep]
  exact flagName_join (by decide) hne h

lemma flagName_camelCase (hne : words ≠ []) (h : ∀ w ∈ words, IsWord w) :
    flagName (camelCase words) = kebabCase words := by
  obtain ⟨w, ws, rfl⟩ := List.exists_cons_of_ne_nil hne
  exact flagName_eq_kebabCase (fun v => flatMap_flagChar_capitalized) h
    (toList_camelCase_cons w ws)

/-! ### Options -/

/-- The spellings of an option that is made of some words. -/
inductive Spells (words : List String) : String → Prop where
  | snake : Spells words (snakeCase words)
  | camel : Spells words (camelCase words)

/-- Two keys are the same, or they spell the same words. -/
inductive SameOption : String → String → Prop where
  | same (key : String) : SameOption key key
  | respelled {words : List String} {key key' : String} (hne : words ≠ [])
      (hwords : ∀ w ∈ words, IsWord w) (hkey : Spells words key) (hkey' : Spells words key') :
      SameOption key key'

/-- Options in their order with the same values, of which any keys may be spelled in another way. -/
def Respelled (options options' : Members) : Prop :=
  List.Forall₂ (fun m m' => SameOption m.1 m'.1 ∧ m.2 = m'.2) options options'

lemma Spells.flagName_eq (hne : words ≠ []) (hwords : ∀ w ∈ words, IsWord w)
    (h : Spells words key) : flagName key = kebabCase words := by
  cases h with
  | snake => exact flagName_snakeCase hne hwords
  | camel => exact flagName_camelCase hne hwords

lemma SameOption.flagName_eq (h : SameOption key key') : flagName key = flagName key' := by
  cases h with
  | same => rfl
  | respelled hne hwords hkey hkey' =>
    rw [hkey.flagName_eq hne hwords, hkey'.flagName_eq hne hwords]

lemma flagsOf_congr (h : flagName key = flagName key') (v : Json) :
    flagsOf key v = flagsOf key' v := by
  unfold flagsOf
  rw [h]

lemma Respelled.optionFlags_eq {options options' : Members} (h : Respelled options options') :
    optionFlags options = optionFlags options' := by
  refine congrArg List.flatten (map_eq_map_iff_forall₂.mpr (h.imp ?_))
  rintro ⟨key, v⟩ ⟨key', _⟩ ⟨hkey, rfl⟩
  exact flagsOf_congr hkey.flagName_eq v

/--
Words with underscores between them, with capitals or with hyphens all give the flag with hyphens
between the words. No flag has an underscore or a capital, and the flag of a flag is that flag. So
options give the same flags in the same order, however their keys are spelled.
-/
theorem spelling_of_options_free :
    (∀ words : List String, words ≠ [] → (∀ w ∈ words, IsWord w) →
      flagName (snakeCase words) = kebabCase words ∧
      flagName (camelCase words) = kebabCase words ∧
      flagName (kebabCase words) = kebabCase words) ∧
    (∀ key : String, (∀ c ∈ (flagName key).toList, c ≠ '_' ∧ c.isUpper = false) ∧
      flagName (flagName key) = flagName key) ∧
    ∀ options options' : Members, Respelled options options' →
      optionFlags options = optionFlags options' := by
  refine ⟨fun words hne h => ?_, fun key => ?_, fun _ _ => Respelled.optionFlags_eq⟩
  · exact ⟨flagName_snakeCase hne h, flagName_camelCase hne h, flagName_kebabCase hne h⟩
  · exact ⟨fun c => isPlain_of_mem_flagName, flagName_eq_self fun c => isPlain_of_mem_flagName⟩

/-- Two of three options are spelled in another way; the keys of a table stay as they are. -/
theorem spelling_of_options_free_table :
    let options : Members :=
      [("keep_names", .boolean true), ("legalComments", .text "inline"),
        ("define", .object [("DEBUG_MODE", .number (.integer 1))])]
    let options' : Members :=
      [("keepNames", .boolean true), ("legal_comments", .text "inline"),
        ("define", .object [("DEBUG_MODE", .number (.integer 1))])]
    Respelled options options' ∧ optionFlags options = optionFlags options' ∧
      optionFlags options' = ["--keep-names", "--legal-comments=inline", "--define:DEBUG_MODE=1"] ∧
      flagName (camelCase ["größe", "x2-é"]) = "größe-x2-é" := by
  intro options options'
  obtain ⟨hwords, -, hflags⟩ := spelling_of_options_free
  have hnames : SameOption "keep_names" "keepNames" := by
    have hsnake : snakeCase ["keep", "names"] = "keep_names" := by decide
    have hcamel : camelCase ["keep", "names"] = "keepNames" := by decide
    exact .respelled (List.cons_ne_nil "keep" ["names"]) (by decide) (hsnake ▸ .snake)
      (hcamel ▸ .camel)
  have hcomments : SameOption "legalComments" "legal_comments" := by
    have hcamel : camelCase ["legal", "comments"] = "legalComments" := by decide
    have hsnake : snakeCase ["legal", "comments"] = "legal_comments" := by decide
    exact .respelled (List.cons_ne_nil "legal" ["comments"]) (by decide) (hcamel ▸ .camel)
      (hsnake ▸ .snake)
  have hrespelled : Respelled options options' :=
    .cons ⟨hnames, rfl⟩ (.cons ⟨hcomments, rfl⟩ (.cons ⟨.same _, rfl⟩ .nil))
  have hkebab : kebabCase ["größe", "x2-é"] = "größe-x2-é" := by decide
  refine ⟨hrespelled, hflags _ _ hrespelled, by decide, ?_⟩
  exact (hwords ["größe", "x2-é"] (List.cons_ne_nil _ _) (by decide)).2.1.trans hkebab

end ResourceBuild.Bundle

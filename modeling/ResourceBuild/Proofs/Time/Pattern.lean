import ResourceBuild.Proofs.Outcome
import ResourceBuild.Time.Pattern

/-!
# What patterns say

A pattern is a text made of characters that stand for themselves and of directives, and its items
are read off these pieces one by one. No directive begins with another one, so there is one way to
cut a pattern, and patterns are put together piece by piece.
-/

namespace ResourceBuild.Time

/-! ### Directives -/

/-- What may stand behind a percent sign, and the items it stands for. -/
inductive Directive : List Char → List Item → Prop where
  | plain {name : String} {its : List Item} (hname : (name, its) ∈ directives) :
      Directive name.toList its
  /-- A mark in front of the directive of one number says how that is filled up. -/
  | filled {mark : Char} {padding usual : Padding} {name : String} {q : Quantity}
      (hmark : padding? mark = some padding) (hname : (name, [.number q usual]) ∈ directives) :
      Directive (mark :: name.toList) [.number q padding]

/-- A pattern says some items, one behind the other. -/
inductive Says : List Char → List Item → Prop where
  | nothing : Says [] []
  | literal {c : Char} {r : List Char} {its : List Item} (hc : c ≠ '%') (hrest : Says r its) :
      Says (c :: r) (.literal c :: its)
  | directive {ds r : List Char} {its rest : List Item} (hds : Directive ds its)
      (hrest : Says r rest) : Says ('%' :: (ds ++ r)) (its ++ rest)

lemma eq_of_isPrefixOf : ∀ d ∈ directives, ∀ e ∈ directives,
    d.1.toList.isPrefixOf e.1.toList = true → d = e := by
  decide +kernel

/-- No directive is empty or begins with a mark. -/
lemma exists_first_of_mem : ∀ d ∈ directives, ∃ c r, d.1.toList = c :: r ∧ padding? c = none := by
  simp [directives, padding?]

variable {ds cs r : List Char} {its rest : List Item} {name : String} {n : Nat}

/-- Of the directives, one at most stands in front of a text. -/
lemma directive?_append (hname : (name, its) ∈ directives) (r : List Char) :
    directive? (name.toList ++ r) = some (its, name.toList.length) := by
  have hfind : directives.find? (fun d => d.1.toList.isPrefixOf (name.toList ++ r)) =
      some (name, its) := by
    refine Outcome.find?_eq_some_of_unique hname (by simp) fun d hd hfront => ?_
    -- of two beginnings of one text, one is a beginning of the other
    rcases List.prefix_or_prefix_of_prefix (List.isPrefixOf_iff_prefix.mp hfront)
        (List.prefix_append name.toList r) with h | h
    · exact eq_of_isPrefixOf _ hd _ hname (List.isPrefixOf_iff_prefix.mpr h)
    · exact (eq_of_isPrefixOf _ hname _ hd (List.isPrefixOf_iff_prefix.mpr h)).symm
  rw [directive?, hfind, Option.map_some, String.length_toList]

lemma directive?_eq_some_iff :
    directive? cs = some (its, n) ↔
      ∃ name r, cs = name.toList ++ r ∧ (name, its) ∈ directives ∧ n = name.toList.length := by
  constructor
  · intro h
    obtain ⟨⟨name, its⟩, hfind, ⟨⟩⟩ := Option.map_eq_some_iff.mp h
    have hfront := List.find?_some hfind
    obtain ⟨r, rfl⟩ := List.isPrefixOf_iff_prefix.mp hfront
    exact ⟨name, r, rfl, List.mem_of_find?_eq_some hfind, String.length_toList.symm⟩
  · rintro ⟨name, r, rfl, hname, rfl⟩
    exact directive?_append hname r

/-- What is found behind a percent sign is a directive, perhaps with a mark. -/
lemma marked?_eq_some_iff :
    marked? cs = some (its, n) ↔ ∃ ds r, cs = ds ++ r ∧ Directive ds its ∧ n = ds.length := by
  constructor
  · intro h
    unfold marked? at h
    split at h
    · cases h
    · next c r =>
      split at h
      · obtain ⟨name, r', hcs, hname, rfl⟩ := directive?_eq_some_iff.mp h
        exact ⟨name.toList, r', hcs, .plain hname, rfl⟩
      · next padding hmark =>
        split at h
        · next hdirective =>
          obtain ⟨name, r', rfl, hname, rfl⟩ := directive?_eq_some_iff.mp hdirective
          cases h
          exact ⟨c :: name.toList, r', rfl, .filled hmark hname, rfl⟩
        · cases h
  · rintro ⟨ds, r, rfl, hds, rfl⟩
    cases hds with
    | plain hname =>
      -- no directive begins with a mark, so a plain one is not taken for a marked one
      obtain ⟨c, r', hfirst, hc⟩ := exists_first_of_mem _ hname
      have hdirective := directive?_append hname r
      rw [hfirst, List.cons_append] at hdirective ⊢
      simpa [marked?, hc, ← hfirst] using hdirective
    | filled hmark hname =>
      simp [marked?, hmark, directive?_append hname r]

/-! ### Patterns -/

/-- The items of a pattern are read exactly as the pattern says them. -/
theorem items?_eq_some_iff : items? cs = some its ↔ Says cs its := by
  constructor
  · intro h
    -- by the cases of the reader; it finds nothing where a directive is unknown
    induction cs using items?.induct generalizing its with
    | case1 =>
      simp only [items?, Option.some.injEq] at h
      exact h ▸ .nothing
    | case2 r found n hmarked ih =>
      simp only [items?, if_true, hmarked, Option.map_eq_some_iff] at h
      obtain ⟨rest, hrest, rfl⟩ := h
      obtain ⟨ds, r, rfl, hds, rfl⟩ := marked?_eq_some_iff.mp hmarked
      rw [List.drop_left] at ih hrest
      exact .directive hds (ih hrest)
    | case3 r hmarked => simp [items?, hmarked] at h
    | case4 c r hc ih =>
      simp only [items?, hc, if_false, Option.map_eq_some_iff] at h
      obtain ⟨rest, hrest, rfl⟩ := h
      exact .literal hc (ih hrest)
  · intro h
    induction h with
    | nothing => simp [items?]
    | literal hc _ ih => simp [items?, hc, ih]
    | @directive ds r its rest hds _ ih =>
      have hmarked : marked? (ds ++ r) = some (its, ds.length) :=
        marked?_eq_some_iff.mpr ⟨ds, r, rfl, hds, rfl⟩
      simp [items?, hmarked, ih]

lemma Says.unique {its' : List Item} (h : Says cs its) (h' : Says cs its') : its = its' := by
  rw [← items?_eq_some_iff] at h h'
  exact Option.some.inj (h.symm.trans h')

lemma Says.append (h : Says cs its) (h' : Says r rest) : Says (cs ++ r) (its ++ rest) := by
  induction h with
  | nothing => exact h'
  | literal hc _ ih => exact .literal hc ih
  | directive hds _ ih =>
    rw [List.cons_append, List.append_assoc, List.append_assoc]
    exact .directive hds ih

/-! ### The directive for reading alone -/

/-- A pattern with a directive by which times can be read but not written. -/
def ReadsAlone (cs : List Char) : Prop :=
  ∃ before after its rest, cs = before ++ "%#z".toList ++ after ∧ Says before its ∧ Says after rest

lemma name_of_loose_mem : ∀ d ∈ directives, .offset .loose ∈ d.2 → d.1 = "#z" := by
  decide +kernel

lemma Directive.eq_of_loose_mem (h : Directive ds its) (hmem : .offset .loose ∈ its) :
    ds = "#z".toList := by
  cases h with
  | plain hname => exact congrArg String.toList (name_of_loose_mem _ hname hmem)
  | filled => simp at hmem

lemma says_loose : Says "%#z".toList [.offset .loose] := by
  have hname : ("#z", [Item.offset .loose]) ∈ directives := by simp [directives]
  exact .directive (.plain hname) .nothing

/-- That directive alone says the item that cannot be written. -/
theorem Says.loose_mem_iff (h : Says cs its) : .offset .loose ∈ its ↔ ReadsAlone cs := by
  constructor
  · intro hmem
    induction h with
    | nothing => cases hmem
    | @literal c r its hc _ ih =>
      obtain ⟨before, after, its', rest, rfl, hbefore, hafter⟩ := ih (by simpa using hmem)
      exact ⟨c :: before, after, _, rest, rfl, .literal hc hbefore, hafter⟩
    | @directive ds r its rest hds hrest ih =>
      rcases List.mem_append.mp hmem with hmem | hmem
      · rw [hds.eq_of_loose_mem hmem]
        exact ⟨[], r, [], rest, rfl, .nothing, hrest⟩
      · obtain ⟨before, after, its', rest', rfl, hbefore, hafter⟩ := ih hmem
        exact ⟨'%' :: (ds ++ before), after, _, rest', by simp, .directive hds hbefore, hafter⟩
  · rintro ⟨before, after, its', rest, rfl, hbefore, hafter⟩
    -- a pattern says its items in one way only, so the directive is not hidden in others
    rw [h.unique ((hbefore.append says_loose).append hafter)]
    simp

end ResourceBuild.Time

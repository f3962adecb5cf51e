import ResourceBuild.Metadata.Document
import ResourceBuild.Proofs.Text.Digits
import ResourceBuild.Proofs.Text.Pieces

/-!
# Looking up as walking

A key is a path of segments with dots between them, and looking it up is walking along the path
from the root. There is one way to walk: a key without a dot is a path of one segment, and a longer
path is the shorter one and one step more.
-/

namespace ResourceBuild

/-- A value that holds no other values. -/
def Json.IsScalar : Json → Prop
  | .array _ | .object _ => False
  | _ => True

namespace Metadata

open Text

/-! ### Walks -/

/--
A segment that stands for a position: one or more ASCII digits, maybe with a plus sign in front,
whose value fits a word of 64 bits.
-/
def Indexes (segment : String) (position : Nat) : Prop :=
  ∃ ds : List Char, (segment.toList = ds ∨ segment.toList = '+' :: ds) ∧ ds ≠ [] ∧
    (∀ c ∈ ds, '0' ≤ c ∧ c ≤ '9') ∧ digitsValue ds = position ∧ position < Decimal.Word.size 64

/-- One step: from an object to the member of this name, from an array to the item at this
position. -/
inductive Leads : Json → String → Json → Prop where
  | member {ms : Members} {name : String} {v : Json} (hmember : Members.find? name ms = some v) :
      Leads (.object ms) name v
  | item {xs : List Json} {segment : String} {position : Nat} {v : Json}
      (hindex : Indexes segment position) (hitem : xs[position]? = some v) :
      Leads (.array xs) segment v

/-- A walk along some segments, one step for each. -/
inductive Walks : Json → List String → Json → Prop where
  | here (v : Json) : Walks v [] v
  | step {u v w : Json} {segment : String} {rest : List String} (hstep : Leads u segment v)
      (hrest : Walks v rest w) : Walks u (segment :: rest) w

/-- There is no way on from a scalar. -/
lemma Leads.not_isScalar {u v : Json} {segment : String} (h : Leads u segment v) :
    ¬ u.IsScalar := by
  cases h <;> exact not_false

lemma walks_singleton_iff {u v : Json} {segment : String} :
    Walks u [segment] v ↔ Leads u segment v := by
  constructor
  · rintro ⟨_⟩
    rename_i hstep hrest
    cases hrest
    exact hstep
  · intro h
    exact .step h (.here v)

/-- A walk along two paths goes on from where the first one ends. -/
lemma walks_append_iff {u w : Json} {path path' : List String} :
    Walks u (path ++ path') w ↔ ∃ v, Walks u path v ∧ Walks v path' w := by
  induction path generalizing u with
  | nil =>
    constructor
    · intro h
      exact ⟨u, .here u, h⟩
    · rintro ⟨_, ⟨⟩, h⟩
      exact h
  | cons segment path ih =>
    constructor
    · rintro (_ | ⟨hstep, hrest⟩)
      obtain ⟨v, hpath, hpath'⟩ := ih.mp hrest
      exact ⟨v, .step hstep hpath, hpath'⟩
    · rintro ⟨v, _ | ⟨hstep, hpath⟩, hpath'⟩
      exact .step hstep (ih.mpr ⟨v, hpath, hpath'⟩)

/-! ### Steps -/

/-- Positions are read exactly from the segments that stand for them. -/
lemma readIndex?_eq_some_iff {segment : String} {position : Nat} :
    readIndex? (Decimal.Word.size 64) segment = some position ↔ Indexes segment position := by
  unfold readIndex? Indexes
  split
  · next r hsign =>
    rw [readDigits_eq_some_iff, hsign]
    constructor
    · intro h
      exact ⟨r, .inr rfl, h⟩
    · rintro ⟨ds, rfl | hds, h⟩
      · -- a plus sign is no digit
        exact absurd (h.2.1 '+' List.mem_cons_self) (by decide)
      · rwa [(List.cons.inj hds).2]
  · next hplain =>
    rw [readDigits_eq_some_iff]
    constructor
    · intro h
      exact ⟨_, .inl rfl, h⟩
    · rintro ⟨ds, rfl | hds, h⟩
      · exact h
      · exact absurd hds (hplain ds)

/-- A step is taken exactly where the segment leads. -/
theorem step?_eq_some_iff {u v : Json} {segment : String} :
    step? u segment = some v ↔ Leads u segment v := by
  constructor
  · intro h
    cases u with
    | object ms => exact .member h
    | array xs =>
      obtain ⟨position, hindex, hitem⟩ := Option.bind_eq_some_iff.mp h
      exact .item (readIndex?_eq_some_iff.mp hindex) hitem
    | _ => cases h
  · intro h
    cases h with
    | member hmember => exact hmember
    | item hindex hitem =>
      exact Option.bind_eq_some_iff.mpr ⟨_, readIndex?_eq_some_iff.mpr hindex, hitem⟩

lemma foldlM_step?_eq_some_iff {u w : Json} {path : List String} :
    path.foldlM step? u = some w ↔ Walks u path w := by
  induction path generalizing u with
  | nil =>
    rw [List.foldlM_nil, Option.pure_def, Option.some.injEq]
    constructor
    · rintro rfl
      exact .here u
    · rintro ⟨⟩
      rfl
  | cons segment path ih =>
    rw [List.foldlM_cons, Option.bind_eq_bind, Option.bind_eq_some_iff]
    simp only [step?_eq_some_iff, ih]
    constructor
    · rintro ⟨v, hstep, hrest⟩
      exact .step hstep hrest
    · rintro (_ | ⟨hstep, hrest⟩)
      exact ⟨_, hstep, hrest⟩

/-! ### Keys -/

/-- Looking up a key is walking along its segments, whether it has a dot or not. -/
theorem lookup_eq_foldlM (d : Metadata) (key : String) :
    d.lookup key = (cut pathSeparator key).foldlM step? (.object d.members) := by
  unfold lookup
  split
  · split
    · next hcut => exact absurd hcut (cut_ne_nil _ _)
    · next first rest hcut =>
      rw [hcut, List.foldlM_cons]
      rfl
  · next h =>
    rw [cut_of_notMem h, List.foldlM_cons]
    exact (Option.bind_fun_some _).symm

theorem lookup_eq_some_iff {d : Metadata} {key : String} {v : Json} :
    d.lookup key = some v ↔ Walks (.object d.members) (cut pathSeparator key) v := by
  rw [lookup_eq_foldlM, foldlM_step?_eq_some_iff]

/-- A segment behind a dot is one step more. -/
lemma lookup_append_eq_some_iff {d : Metadata} {key segment : String}
    (h : pathSeparator ∉ segment.toList) {v : Json} :
    d.lookup (key ++ "." ++ segment) = some v ↔ ∃ u, d.lookup key = some u ∧ Leads u segment v := by
  simp only [lookup_eq_some_iff]
  rw [show "." = String.singleton pathSeparator from rfl, cut_append_cut, cut_of_notMem h,
    walks_append_iff]
  simp only [walks_singleton_iff]

/--
Looking up segments without dots, joined with dots, is walking along them from the root. With one
more segment behind a dot it is one step more, and nothing is found where there is none or where
it would start from a scalar.
-/
theorem lookup_is_walk (d : Metadata) :
    (∀ path : List String, path ≠ [] → (∀ segment ∈ path, pathSeparator ∉ segment.toList) →
      ∀ v, d.lookup (join "." path) = some v ↔ Walks (.object d.members) path v) ∧
    (∀ key segment : String, pathSeparator ∉ segment.toList →
      (∀ v, d.lookup (key ++ "." ++ segment) = some v ↔
        ∃ u, d.lookup key = some u ∧ Leads u segment v) ∧
      ((∀ u, d.lookup key = some u → u.IsScalar) →
        d.lookup (key ++ "." ++ segment) = none)) := by
  refine ⟨fun path hne hpath v => ?_, fun key segment h => ⟨fun v => ?_, fun hend => ?_⟩⟩
  · rw [lookup_eq_some_iff, show "." = String.singleton pathSeparator from rfl,
      cut_join hne hpath]
  · exact lookup_append_eq_some_iff h
  · rw [Option.eq_none_iff_forall_ne_some]
    intro v hv
    obtain ⟨u, hu, hstep⟩ := (lookup_append_eq_some_iff h).mp hv
    exact hstep.not_isScalar (hend u hu)

/-- A member of an empty name in the first item, whose position has a sign and leading zeros. -/
theorem lookup_is_walk_signed :
    let d : Metadata := ⟨[("a", .array [.object [("", .text "x")]])]⟩
    d.lookup "a.+00." = some (.text "x") ∧ d.lookup "a.+00..b" = none := by
  intro d
  have hindex : Indexes "+00" 0 :=
    ⟨['0', '0'], .inr rfl, by simp, by simp, rfl, by decide⟩
  have hwalk : Walks (.object d.members) ["a", "+00", ""] (.text "x") :=
    .step (.member rfl) (.step (.item hindex rfl) (.step (.member rfl) (.here _)))
  have hfound : d.lookup "a.+00." = some (.text "x") :=
    ((lookup_is_walk d).1 ["a", "+00", ""] (by simp) (by decide) _).mpr hwalk
  refine ⟨hfound, ((lookup_is_walk d).2 "a.+00." "b" (by decide)).2 fun u hu => ?_⟩
  obtain rfl : .text "x" = u := Option.some.inj (hfound.symm.trans hu)
  trivial

end Metadata

end ResourceBuild

import ResourceBuild.Files.System
import ResourceBuild.Proofs.Files.Tree

/-!
# A disk on trial

A disk on which any operation may be refused, with a part of its work done by then. It keeps every
state that its files were in, so that there is an answer to what a program leaves behind at any
point.
-/

namespace ResourceBuild.Files

/-- What changes the files of a disk. -/
inductive Operation where
  | create (p : Path)
  | fill (p : Path) (s : String)
  | append (p : Path) (s : String)
  | rename (p q : Path)
  | remove (p : Path)
  | createDirectories (p : Path)

/-- Why an operation is refused, and how many steps it has made by then. -/
structure Refusal where
  cause : Cause
  reached : Nat

/-- A disk that refuses some operations, though the files on it would allow them. -/
structure Trial where
  tree : Tree := {}
  here : Place := []
  refusals : Operation → Option Refusal := fun _ => none
  /-- Files that cannot be read, and why. -/
  unreadable : Path → Option Cause := fun _ => none
  /-- What the files went through, up to what they are now. -/
  past : List Tree := []

/-- The trees in which a file holds no more than a part of a text, from nothing to all of it. -/
def Tree.partly (t : Tree) (here : Place) (p : Path) (s : String) : List Tree :=
  match t.target here p with
  | .error _ => []
  | .ok (place, _) =>
    (List.range (s.utf8ByteSize + 1)).map fun k => t.put place (.file (s.toUTF8.extract 0 k) none)

namespace Operation

def outcome (t : Tree) (here : Place) : Operation → Except Cause Tree
  | create p => t.create here p
  | fill p s => t.fill here p s
  | append p s => t.append here p s
  | rename p q => t.rename here p q
  | remove p => t.remove here p
  | createDirectories p => t.createDirectories here p

/-- The steps of an operation on the way to its outcome. A file is moved or removed in one step. -/
def way (t : Tree) (here : Place) : Operation → List Tree
  | create p => t.partly here p ""
  | fill p s => t.partly here p s
  | _ => []

end Operation

namespace Trial

/-- The disk after its files went through some trees. -/
def through (trees : List Tree) (d : Trial) : Trial :=
  { d with tree := trees.getLastD d.tree, past := d.past ++ trees }

/-- Carries out an operation; if it is refused, only some of its steps were made. -/
def attempt (o : Operation) : StateM Trial (Except Cause Unit) := fun d =>
  match o.outcome d.tree d.here with
  | .error cause => (.error cause, d)
  | .ok last =>
    match d.refusals o with
    | some refusal => (.error refusal.cause, d.through ((o.way d.tree d.here).take refusal.reached))
    | none => (.ok (), d.through (o.way d.tree d.here ++ [last]))

instance : FileSystem (StateM Trial) where
  read p := fun d =>
    match d.unreadable p with
    | some cause => (.error cause, d)
    | none => (d.tree.read d.here p, d)
  create p := attempt (.create p)
  fill p s := attempt (.fill p s)
  append p s := attempt (.append p s)
  rename p q := attempt (.rename p q)
  remove p := attempt (.remove p)
  isThere p := fun d => ((d.tree.find d.here p).toOption.isSome, d)
  createDirectories p := attempt (.createDirectories p)

variable {d : Trial} {trees more : List Tree}

@[simp] lemma through_nil (d : Trial) : d.through [] = d := by
  simp [through]

@[simp] lemma through_through (trees more : List Tree) (d : Trial) :
    (d.through trees).through more = d.through (trees ++ more) := by
  have hlast : more.getLastD (trees.getLastD d.tree) = (trees ++ more).getLastD d.tree := by
    simp only [List.getLastD_eq_getLast?, List.getLast?_append]
    cases more.getLast? <;> rfl
  simp only [through, hlast, List.append_assoc]

@[simp] lemma tree_through_last (trees : List Tree) (t : Tree) (d : Trial) :
    (d.through (trees ++ [t])).tree = t := by
  simp [through, List.getLastD_eq_getLast?]

/-- Whether a disk is what another one is after its files went through some trees of a kind. -/
def Passes (P : Tree → Prop) (d d' : Trial) : Prop :=
  ∃ trees, d' = d.through trees ∧ ∀ t ∈ trees, P t

section Passes

variable {P Q : Tree → Prop} {d d' d'' : Trial}

lemma Passes.refl (P : Tree → Prop) (d : Trial) : Passes P d d :=
  ⟨[], (through_nil d).symm, by simp⟩

lemma Passes.trans (h : Passes P d d') (h' : Passes P d' d'') : Passes P d d'' := by
  obtain ⟨trees, rfl, htrees⟩ := h
  obtain ⟨more, rfl, hmore⟩ := h'
  refine ⟨trees ++ more, through_through trees more d, fun t ht => ?_⟩
  rcases List.mem_append.mp ht with ht | ht
  · exact htrees t ht
  · exact hmore t ht

lemma Passes.mono (h : Passes P d d') (hle : ∀ t, P t → Q t) : Passes Q d d' := by
  obtain ⟨trees, rfl, htrees⟩ := h
  exact ⟨trees, rfl, fun t ht => hle t (htrees t ht)⟩

/-- What held of the files at first and all along holds of them in the end. -/
lemma Passes.tree (h : Passes P d d') (hd : P d.tree) : P d'.tree := by
  obtain ⟨trees, rfl, htrees⟩ := h
  rw [through]
  cases hlast : trees.getLast? with
  | none => simpa [List.getLastD_eq_getLast?, hlast] using hd
  | some t => simpa [List.getLastD_eq_getLast?, hlast] using htrees t (List.mem_of_getLast? hlast)

lemma Passes.here_eq (h : Passes P d d') : d'.here = d.here := by
  obtain ⟨trees, rfl, -⟩ := h
  rfl

lemma Passes.refusals_eq (h : Passes P d d') : d'.refusals = d.refusals := by
  obtain ⟨trees, rfl, -⟩ := h
  rfl

/-- An operation fails on the way to its outcome, or it goes all the way. -/
lemma attempt_cases (o : Operation) (d : Trial) (hway : ∀ t ∈ o.way d.tree d.here, P t) :
    (∃ cause d', attempt o d = (.error cause, d') ∧ Passes P d d') ∨
    ∃ d', o.outcome d.tree d.here = .ok d'.tree ∧ attempt o d = (.ok (), d') ∧
      (P d'.tree → Passes P d d') := by
  unfold attempt
  cases houtcome : o.outcome d.tree d.here with
  | error cause => exact Or.inl ⟨cause, d, rfl, Passes.refl P d⟩
  | ok last =>
    cases hrefusal : d.refusals o with
    | some refusal =>
      exact Or.inl ⟨refusal.cause, _, rfl, _, rfl, fun t ht => hway t (List.mem_of_mem_take ht)⟩
    | none =>
      refine Or.inr ⟨_, by rw [tree_through_last], rfl, fun hlast => ⟨_, rfl, fun t ht => ?_⟩⟩
      rw [tree_through_last] at hlast
      rcases List.mem_append.mp ht with ht | ht
      · exact hway t ht
      · rw [List.mem_singleton.mp ht]
        exact hlast

/-- An operation without steps on its way does nothing when it fails. -/
lemma attempt_atomic (o : Operation) (d : Trial) (hway : o.way d.tree d.here = []) :
    (∃ cause, attempt o d = (.error cause, d) ∧
      (d.refusals o = none → o.outcome d.tree d.here = .error cause)) ∨
    ∃ last, o.outcome d.tree d.here = .ok last ∧ attempt o d = (.ok (), d.through [last]) := by
  unfold attempt
  cases houtcome : o.outcome d.tree d.here with
  | error cause => exact Or.inl ⟨cause, rfl, fun _ => rfl⟩
  | ok last =>
    cases hrefusal : d.refusals o with
    | some refusal => exact Or.inl ⟨refusal.cause, by simp [hway], by simp⟩
    | none => exact Or.inr ⟨last, rfl, by simp [hway]⟩

lemma passes_through {last : Tree} (h : P last) : Passes P d (d.through [last]) :=
  ⟨[last], rfl, by simpa using h⟩

end Passes

end Trial

/-- A part of a text stands in a file that may be written. -/
lemma Tree.mem_partly {t t' : Tree} {here : Place} {p : Path} {s : String}
    (h : t' ∈ t.partly here p s) :
    ∃ place content, t.Writable here p place ∧ t' = t.put place (.file content none) := by
  unfold partly at h
  split at h
  · cases h
  · rename_i place n htarget
    obtain ⟨k, -, rfl⟩ := List.mem_map.mp h
    exact ⟨place, _, (target_eq_ok_iff.mp htarget).1, rfl⟩

end ResourceBuild.Files

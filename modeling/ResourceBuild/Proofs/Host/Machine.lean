import ResourceBuild.Log.Basic
import ResourceBuild.Host.Machine
import ResourceBuild.Proofs.Files.Tree
import ResourceBuild.Proofs.Outcome

/-!
# Runs on a machine

What an operation does to a machine, and which files a whole run may touch. The log touches no file
but its own.
-/

namespace ResourceBuild

open Files Outcome
open Files.Tree (ChangedOnly LedTo)

namespace Machine

variable {α β : Type} {w w' w'' : Machine} {ps : List Path}

/-! ### Operations -/

section Change

variable {f : Tree → Place → Except Cause Tree}

/-- Files that can be changed are. -/
lemma change_of_ok {t : Tree} (h : f w.tree w.here = .ok t) :
    change f w = (.ok (), { w with tree := t }) := by
  simp only [change, h]

/-- Files that cannot be changed are left as they are. -/
lemma change_of_error {cause : Cause} (h : f w.tree w.here = .error cause) :
    change f w = (.error cause, w) := by
  simp only [change, h]

lemma change_eq_ok (h : change f w = (.ok (), w')) :
    ∃ t, f w.tree w.here = .ok t ∧ w' = { w with tree := t } := by
  unfold change at h
  split at h <;> cases h
  exact ⟨_, ‹_›, rfl⟩

end Change

section Write

variable {p : Path} {s : String}

/-- A file that was filled holds the text. -/
lemma read_of_fill (h : FileSystem.fill (m := StateM Machine) p s w = (.ok (), w')) :
    w'.tree.read w'.here p = .ok s.toUTF8 := by
  obtain ⟨t, hfill, rfl⟩ := change_eq_ok h
  obtain ⟨place, hplace, rfl⟩ := Tree.fill_eq_ok_iff.mp hfill
  exact Tree.read_eq_ok_iff.mpr ⟨place, none, hplace.holds_put _ _⟩

lemma read_of_write (h : FileSystem.write (m := StateM Machine) p s w = (.ok (), w')) :
    w'.tree.read w'.here p = .ok s.toUTF8 := by
  cases hcreate : FileSystem.create (m := StateM Machine) p w with
  | mk result w₁ =>
    have hrun := (bind_run hcreate).symm.trans h
    cases result with
    | error cause => cases hrun
    | ok _ => exact read_of_fill hrun

lemma read_of_writeUnder {directoryAction fileAction : Action}
    (h : FileSystem.writeUnder (m := StateM Machine) directoryAction fileAction p s w =
      (.ok (), w')) : w'.tree.read w'.here p = .ok s.toUTF8 := by
  cases hparent : FileSystem.createParent (m := StateM Machine) p w with
  | mk result w₁ =>
    have hrun := (bind_run hparent).symm.trans h
    cases result with
    | error fault => cases hrun
    | ok _ =>
      cases hwrite : FileSystem.write (m := StateM Machine) p s w₁ with
      | mk result w₂ =>
        have hrun := (bind_run hwrite).symm.trans hrun
        cases result with
        | error cause => cases hrun
        | ok _ =>
          cases hrun
          exact read_of_write hwrite

end Write

/-! ### What a run touches -/

/-- Whether a machine differs from another one in no more than the files at some paths, and in what
it was told. -/
structure Touched (ps : List Path) (w w' : Machine) : Prop where
  here : w'.here = w.here
  environment : w'.environment = w.environment
  output : w'.output = w.output
  feed : w'.feed = w.feed
  interrupt : w'.interrupt = w.interrupt
  files : ChangedOnly (LedTo w.tree w.here ps) w.tree w'.tree

lemma Touched.refl (ps : List Path) (w : Machine) : Touched ps w w :=
  ⟨rfl, rfl, rfl, rfl, rfl, ChangedOnly.refl _ _⟩

lemma Touched.trans (h : Touched ps w w') (h' : Touched ps w' w'') : Touched ps w w'' where
  here := h'.here.trans h.here
  environment := h'.environment.trans h.environment
  output := h'.output.trans h.output
  feed := h'.feed.trans h.feed
  interrupt := h'.interrupt.trans h.interrupt
  files := by
    have hled : LedTo w'.tree w'.here ps = LedTo w.tree w.here ps := by
      rw [h.here, h.files.directories.ledTo]
    exact h.files.trans (hled ▸ h'.files)

/-- Whether a program touches no files but those at some paths. -/
def Touches (ps : List Path) (x : StateM Machine α) : Prop :=
  ∀ w, Touched ps w (x w).2

lemma touches_of_eq {x : StateM Machine α} (h : ∀ w, (x w).2 = w) : Touches ps x :=
  fun w => (h w).symm ▸ Touched.refl ps w

lemma Touches.pure (a : α) : Touches ps (Pure.pure a : StateM Machine α) :=
  Touched.refl ps

lemma Touches.bind {x : StateM Machine α} {f : α → StateM Machine β} (hx : Touches ps x)
    (hf : ∀ a, Touches ps (f a)) : Touches ps (x >>= f) :=
  fun w => (hx w).trans (hf (x w).1 (x w).2)

lemma touches_append {p : Path} (hp : p ∈ ps) (s : String) :
    Touches ps (FileSystem.append (m := StateM Machine) p s) := by
  intro w
  cases happend : w.tree.append w.here p s with
  | error cause =>
    have hrun : FileSystem.append (m := StateM Machine) p s w = (.error cause, w) :=
      change_of_error happend
    rw [hrun]
    exact Touched.refl ps w
  | ok t =>
    have hrun : FileSystem.append (m := StateM Machine) p s w = (.ok (), { w with tree := t }) :=
      change_of_ok happend
    obtain ⟨place, before, program, hplace, rfl⟩ := Tree.append_eq_ok happend
    rw [hrun]
    exact ⟨rfl, rfl, rfl, rfl, rfl, (ChangedOnly.refl _ w.tree).put hp hplace _ _⟩

lemma touches_complainLine (s : String) :
    Touches ps (Host.complainLine (m := StateM Machine) s) :=
  fun _ => ⟨rfl, rfl, rfl, rfl, rfl, ChangedOnly.refl _ _⟩

end Machine

/-! ### The log -/

namespace Log

open Machine (Touches)

variable (log : Log) (message : String)

/-- A message is put at the end of the log file, if that can be written. -/
lemma note_cases (w : Machine) :
    (∃ file place before program, log.file = some file ∧ w.tree.Writable w.here file place ∧
      (log.note (m := StateM Machine) message w).2.tree =
        w.tree.put place (.file (before ++ (log.line w.now message).toUTF8) program)) ∨
    ((∀ file place, log.file = some file → ¬w.tree.Writable w.here file place) ∧
      (log.note (m := StateM Machine) message w).2.tree = w.tree) := by
  unfold note
  cases hfile : log.file with
  | none => exact Or.inr ⟨by simp, rfl⟩
  | some file =>
    have hnow : Host.now (m := StateM Machine) w = (w.now, w) := rfl
    simp only
    rw [bind_run hnow]
    cases happend : w.tree.append w.here file (log.line w.now message) with
    | error cause =>
      have hrun : FileSystem.append (m := StateM Machine) file (log.line w.now message) w =
          (.error cause, w) := Machine.change_of_error happend
      rw [discard_run hrun]
      refine Or.inr ⟨?_, rfl⟩
      rintro _ place ⟨⟩ hplace
      obtain ⟨t, ht⟩ := hplace.append_isOk (log.line w.now message)
      cases happend.symm.trans ht
    | ok t =>
      have hrun : FileSystem.append (m := StateM Machine) file (log.line w.now message) w =
          (.ok (), { w with tree := t }) := Machine.change_of_ok happend
      obtain ⟨place, before, program, hplace, rfl⟩ := Tree.append_eq_ok happend
      rw [discard_run hrun]
      exact Or.inl ⟨file, place, before, program, rfl, hplace, rfl⟩

lemma touches_note : Touches log.file.toList (log.note (m := StateM Machine) message) := by
  unfold note
  cases hfile : log.file with
  | none => exact Touches.pure ()
  | some file =>
    refine (Machine.touches_of_eq fun _ => rfl).bind fun now => ?_
    exact (Machine.touches_append (by simp) _).bind fun _ => Touches.pure ()

lemma touches_info : Touches log.file.toList (log.info (m := StateM Machine) message) := by
  refine (log.touches_note _).bind fun _ => ?_
  split
  · exact Machine.touches_complainLine _
  · exact Touches.pure ()

lemma touches_debug : Touches log.file.toList (log.debug (m := StateM Machine) message) := by
  refine (log.touches_note _).bind fun _ => ?_
  split
  · exact Machine.touches_complainLine _
  · exact Touches.pure ()

lemma touches_warn : Touches log.file.toList (log.warn (m := StateM Machine) message) :=
  (log.touches_note _).bind fun _ => Machine.touches_complainLine _

lemma touches_success : Touches log.file.toList (log.success (m := StateM Machine) message) :=
  (log.touches_note _).bind fun _ => Machine.touches_complainLine _

lemma touches_failed : Touches log.file.toList (log.failed (m := StateM Machine) message) :=
  (log.touches_note _).bind fun _ => Machine.touches_complainLine _

lemma touches_step : Touches log.file.toList (log.step (m := StateM Machine) message) := by
  unfold step
  split
  · exact (Machine.touches_complainLine _).bind fun _ => log.touches_note _
  · exact log.touches_note _

end Log

end ResourceBuild

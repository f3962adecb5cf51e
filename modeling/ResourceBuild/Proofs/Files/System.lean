import ResourceBuild.Files.System
import ResourceBuild.Proofs.Outcome

/-!
# Reading files

What a program that reads a file gives, from what the file system gives it.
-/

namespace ResourceBuild.Files.FileSystem

open Outcome

/-- The text in the bytes of a file, if it could be read. -/
def textIn : Except Cause ByteArray → Except Cause String
  | .error cause => .error cause
  | .ok bytes =>
    match String.fromUTF8? bytes with
    | some s => .ok s
    | none => .error .notText

lemma fromUTF8?_eq_some_iff {bytes : ByteArray} {s : String} :
    String.fromUTF8? bytes = some s ↔ bytes = s.toUTF8 := by
  unfold String.fromUTF8?
  constructor
  · intro h
    split at h <;> cases h
    rfl
  · rintro rfl
    rw [String.toUTF8_eq_toByteArray, dif_pos s.isValidUTF8]
    rfl

/-- A text is in its bytes, and in no others. -/
lemma textIn_eq_ok_iff {bytes : Except Cause ByteArray} {s : String} :
    textIn bytes = .ok s ↔ bytes = .ok s.toUTF8 := by
  cases bytes with
  | error cause => simp [textIn]
  | ok bytes =>
    rw [textIn, Except.ok.injEq, ← fromUTF8?_eq_some_iff]
    cases String.fromUTF8? bytes <;> simp

variable {σ : Type} [FileSystem (StateM σ)] {d d' : σ} {p : Path}

/-- What a program reads is the text in what the file system gives it. -/
lemma readText_of_read {bytes : Except Cause ByteArray}
    (h : read (m := StateM σ) p d = (bytes, d')) :
    readText (m := StateM σ) p d = (textIn bytes, d') := by
  refine (bind_run h).trans ?_
  cases bytes with
  | error cause => rfl
  | ok bytes =>
    simp only [textIn]
    cases String.fromUTF8? bytes <;> rfl

end ResourceBuild.Files.FileSystem

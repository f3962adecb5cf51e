import Mathlib.Tactic.Common
import Mathlib.Tactic.Lemma
import ResourceBuild.Release.Monitor

/-!
# What a monitor tells

A check that is watched goes on until it ends or is called off, whichever comes first. Whatever is
asked of its monitor, and in whatever order, what the check has found is told once at most, and
nothing is told of a check that was called off.
-/

namespace ResourceBuild.Release.Monitor

/-- A step of a monitor, and what is told by it. A check that is going on cannot have been waited
for yet. -/
inductive Step (m : Monitor) : List Outcome → Monitor → Prop where
  | finish (found : Option Outcome) : Step m [] (m.finish found)
  | cancel : Step m [] m.cancel
  | wait (h : m.progress ≠ .pending) : Step m m.wait.2.toList m.wait.1

/-- Any number of steps, and what is told by them. -/
inductive Run (m : Monitor) : List Outcome → Monitor → Prop where
  | nil : Run m [] m
  | snoc {m' m'' : Monitor} {before told : List Outcome} (h : Run m before m')
      (hstep : Step m' told m'') : Run m (before ++ told) m''

variable {m m' : Monitor} {p : Progress} {told told' : List Outcome}

/-! ### Progress -/

lemma settle_of_pending (h : m.progress = .pending) : m.settle p = { m with progress := p } := by
  simp only [settle, h]

lemma settle_eq_self (h : m.progress ≠ .pending) : m.settle p = m := by
  unfold settle
  split
  · contradiction
  · rfl

/-- How far a check has got is only changed while it is going on. -/
lemma Step.progress_eq (h : Step m told m') (hdone : m.progress ≠ .pending) :
    m'.progress = m.progress := by
  cases h with
  | finish | cancel => exact congrArg progress (settle_eq_self hdone)
  | wait => rfl

/-- A check that is over, or was called off, stays as it is. -/
lemma Run.progress_eq (h : Run m told m') (hdone : m.progress ≠ .pending) :
    m'.progress = m.progress := by
  induction h with
  | nil => rfl
  | snoc _ hstep ih => rw [hstep.progress_eq (ih ▸ hdone), ih]

/-! ### What is told -/

/-- The invariant of a monitor: it was waited for only if the check does not go on any longer, and
what the check has found was told with the wait. -/
structure Tells (m : Monitor) (told : List Outcome) : Prop where
  done : m.isAwaited = true → m.progress ≠ .pending
  eq : told = if m.isAwaited then m.progress.found?.toList else []

namespace Tells

lemma started : Tells started [] :=
  ⟨nofun, rfl⟩

/-- That a check ends tells nothing by itself. -/
lemma settle (h : Tells m told) (p : Progress) : Tells (m.settle p) told := by
  by_cases hpending : m.progress = .pending
  · have hnot : ¬ m.isAwaited = true := fun hawaited => h.done hawaited hpending
    rw [settle_of_pending hpending]
    refine ⟨fun hawaited => absurd hawaited hnot, ?_⟩
    rw [h.eq, if_neg hnot, if_neg hnot]
  · rwa [settle_eq_self hpending]

/-- No step tells what was told before. -/
lemma step (h : Tells m told) (hstep : Step m told' m') : Tells m' (told ++ told') := by
  cases hstep with
  | finish found => exact (List.append_nil told).symm ▸ h.settle _
  | cancel => exact (List.append_nil told).symm ▸ h.settle _
  | wait hover =>
    -- only the first wait tells anything
    refine ⟨fun _ => hover, ?_⟩
    rw [h.eq]
    cases hawaited : m.isAwaited <;> simp [wait, hawaited]

end Tells

lemma Run.tells_of_tells {before : List Outcome} (hm : Tells m before) (h : Run m told m') :
    Tells m' (before ++ told) := by
  induction h with
  | nil => rwa [List.append_nil]
  | snoc _ hstep ih => exact List.append_assoc _ _ _ ▸ ih.step hstep

/--
Whatever is asked of a monitor, in any order and any number of times, at most one outcome is told,
and it is the one that the check has found. Once the check has come to its end or was called off,
that is not changed by anything; nothing at all is told of a check that was called off first.
-/
theorem told_once (h : Run started told m) :
    (∀ o, o ∈ told ↔ m.isAwaited = true ∧ m.progress = .ended (some o)) ∧
    told.length ≤ 1 ∧
    (m.isCancelled = true → told = []) ∧
    (m.progress ≠ .pending → ∀ told' m', Run m told' m' → m'.progress = m.progress) := by
  obtain ⟨-, rfl⟩ : Tells m told := h.tells_of_tells .started
  refine ⟨fun o => ?_, ?_, fun hcancelled => ?_, fun hdone told' m' h' => h'.progress_eq hdone⟩
  · cases m.progress <;> cases m.isAwaited <;> simp [Progress.found?]
  · split
    · exact Option.length_toList_le
    · exact Nat.zero_le 1
  · have hprogress : m.progress = .cancelled := by simpa [isCancelled] using hcancelled
    simp [hprogress, Progress.found?]

end ResourceBuild.Release.Monitor

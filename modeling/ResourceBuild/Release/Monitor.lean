import ResourceBuild.Release.Check

/-!
# Watching for a release

A check runs by itself. It can be called off while it is going on, and tells once what it has found.
-/

namespace ResourceBuild.Release

/-- How far a check has got. One that fails is over and has found nothing. -/
inductive Progress where
  | pending
  | ended (found : Option Outcome)
  | cancelled
  deriving DecidableEq

def Progress.found? : Progress → Option Outcome
  | .ended found => found
  | _ => none

/-- A check that was started. -/
structure Monitor where
  progress : Progress
  /-- Whether it was waited for. -/
  isAwaited : Bool
  deriving DecidableEq

namespace Monitor

def started : Monitor := ⟨.pending, false⟩

def isCancelled (m : Monitor) : Bool :=
  m.progress = .cancelled

/-- Goes over from a check that is going on to some progress; any other is left as it is. -/
def settle (p : Progress) (m : Monitor) : Monitor :=
  match m.progress with
  | .pending => { m with progress := p }
  | _ => m

def finish (found : Option Outcome) (m : Monitor) : Monitor :=
  m.settle (.ended found)

/-- Calls the check off, which does nothing once it is over. -/
def cancel (m : Monitor) : Monitor :=
  m.settle .cancelled

/-- What a check has found that is not going on any longer; only the first wait is told. -/
def wait (m : Monitor) : Monitor × Option Outcome :=
  ({ m with isAwaited := true }, if m.isAwaited then none else m.progress.found?)

end Monitor

end ResourceBuild.Release

import ResourceBuild.Text.Blank
import ResourceBuild.Text.Pieces

/-!
# The version from the environment

A version that comes from outside, such as the tag of a release, replaces the one in the metadata.
-/

namespace ResourceBuild.Config

open Text

/-- A version without blanks around it and without its mark; nothing if nothing is left. -/
def normalizeVersion (mark : Option String) (raw : String) : Option String :=
  let trimmed := trim raw
  let bare := (mark.bind fun m => dropStart? m trimmed).getD trimmed
  if bare.isEmpty then none else some bare

/-- The name of the variable to ask for, unless none is configured. -/
def versionKey? (key : Option String) : Option String :=
  nonBlank? key

end ResourceBuild.Config

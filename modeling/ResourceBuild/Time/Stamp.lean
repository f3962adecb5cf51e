import ResourceBuild.Time.Locale

/-!
# Build times

The one line that tells when a build ran.
-/

namespace ResourceBuild.Time

inductive StampFormat where
  | iso
  | locale (locale : Locale) (zone : Zone)
  | custom (pattern : String)

/-- A time in the way of a pattern; one that cannot be followed gives the common form. -/
def followPattern (pattern : String) (now : Instant) : String :=
  ((items? pattern.toList).bind (write? english ⟨now, .utc⟩)).getD (standardText ⟨now, .utc⟩)

def StampFormat.write (format : StampFormat) (now : Instant) : String :=
  match format with
  | .iso => isoMillis ⟨now, .utc⟩
  | .locale l zone => (l.write? ⟨now, zone⟩).getD ""
  | .custom pattern => followPattern pattern now

end ResourceBuild.Time

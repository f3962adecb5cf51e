import ResourceBuild.Time.Format

/-!
# Locales

How dates and times are written in different places.
-/

namespace ResourceBuild.Time

/-- A locale: its name, its patterns for dates and times, and its words. -/
structure Locale where
  name : String
  datePattern : String
  timePattern : String
  words : Vocabulary := english

/-- The date and the time in the way of a locale. -/
def Locale.write? (l : Locale) (t : Moment) : Option String := do
  let date ← items? l.datePattern.toList
  let time ← items? l.timePattern.toList
  Time.write? l.words t (date ++ .literal ' ' :: time)

/-- The locales that there are, each under a name of its own. -/
structure Locales where
  all : List Locale := []
  distinct : (all.map Locale.name).Nodup := by decide

/-- The locale of a name, in which a dash may stand for an underscore. -/
def Locales.named? (locales : Locales) (name : String) : Option Locale :=
  let plain := String.ofList (name.toList.map fun c => if c = '-' then '_' else c)
  locales.all.find? (·.name == plain)

end ResourceBuild.Time

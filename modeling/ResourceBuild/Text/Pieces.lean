/-!
# Cutting texts

Cutting a text at every occurrence of a separator, and putting pieces back together.
-/

namespace ResourceBuild.Text

/-- The pieces of a text between the occurrences of `sep`; there is always at least one piece. -/
def cut (sep : Char) (s : String) : List String :=
  (s.toList.splitOn sep).map String.ofList

/-- The pieces of a text, with `sep` between neighbours. -/
def join (sep : String) (pieces : List String) : String :=
  sep.intercalate pieces

/-- A text without `start` in front of it, if it begins with `start`. -/
def dropStart? (start s : String) : Option String :=
  if start.toList.isPrefixOf s.toList then
    some (String.ofList (s.toList.drop start.toList.length))
  else
    none

end ResourceBuild.Text

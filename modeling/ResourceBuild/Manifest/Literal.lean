/-!
# String literals of the manifest

The manifest is a Lua file. A text stands in it as a single-quoted literal on one line, in which
backslashes, quotes and line feeds are escaped.
-/

namespace ResourceBuild.Manifest

/-- A character inside a literal. -/
def escape (c : Char) : List Char :=
  if c = '\\' then ['\\', '\\']
  else if c = '\'' then ['\\', '\'']
  else if c = '\n' then ['\\', 'n']
  else [c]

def quoteChars (cs : List Char) : List Char :=
  '\'' :: (cs.flatMap escape ++ ['\''])

/-- The literal of a text. -/
def quote (s : String) : String :=
  String.ofList (quoteChars s.toList)

end ResourceBuild.Manifest

import ResourceBuild.Json.Printer
import ResourceBuild.Text.Pieces

/-!
# Plain forms of JSON values

The text a value has outside of JSON, and whether it counts as true.
-/

namespace ResourceBuild.Json

/--
Null, false, zero and the empty text are false; all other values are true, empty arrays and
objects among them.
-/
def isTruthy : Json → Bool
  | .null => false
  | .boolean b => b
  | .number (.integer z) => z != 0
  | .number (.real x) => !x.isZero
  | .text s => !s.isEmpty
  | .array _ => true
  | .object _ => true

mutual

/--
The plain text of a value: nothing for null, a text without quotes, the items of an array with
commas between them, and an object as compact JSON.
-/
def display : Json → String
  | .null => ""
  | .boolean b => if b then "true" else "false"
  | .number n => String.ofList (numberText n)
  | .text s => s
  | .array xs => Text.join "," (displayItems xs)
  | .object ms => compact (.object ms)

def displayItems : List Json → List String
  | [] => []
  | x :: xs => display x :: displayItems xs

end

end ResourceBuild.Json

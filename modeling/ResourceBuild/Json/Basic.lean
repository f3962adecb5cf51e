import ResourceBuild.Decimal.Double

/-!
# JSON values

JSON values with the members of objects in document order. A whole number stays whole as long as
it fits 64 bits with or without a sign; every other number is a double.
-/

namespace ResourceBuild

open Decimal (Double)

inductive Number where
  | integer (z : Int)
  | real (x : Double)
  deriving DecidableEq

/-- A JSON value. -/
inductive Json where
  | null
  | boolean (b : Bool)
  | number (n : Number)
  | text (s : String)
  | array (items : List Json)
  | object (members : List (String × Json))

/-- The members of an object in document order. -/
abbrev Members := List (String × Json)

/-- The value of the first member with this key. -/
def Members.find? (key : String) (ms : Members) : Option Json :=
  ms.lookup key

/-- Sets the value of a key: a present key keeps its place, a new one goes to the end. -/
def Members.insert (key : String) (v : Json) : Members → Members
  | [] => [(key, v)]
  | (k, w) :: ms => if k = key then (k, v) :: ms else (k, w) :: Members.insert key v ms

def Members.keys (ms : Members) : List String :=
  ms.map Prod.fst

/-- Members with each key once, at its first place and with its last value. -/
def Members.ofList (ms : List (String × Json)) : Members :=
  ms.foldl (fun acc m => Members.insert m.1 m.2 acc) []

namespace Members

/-- A key that was set has the value it was set to. -/
@[simp] theorem find?_insert_self (key : String) (v : Json) (ms : Members) :
    find? key (insert key v ms) = some v := by
  fun_induction insert key v ms with
  | case1 => simp [find?]
  | case2 => simp [find?]
  | case3 k w ms h ih => simpa [find?, List.lookup_cons, beq_false_of_ne (Ne.symm h)] using ih

/-- Setting a key leaves the values of the others. -/
theorem find?_insert_of_ne {key other : String} (h : other ≠ key) (v : Json) (ms : Members) :
    find? other (insert key v ms) = find? other ms := by
  fun_induction insert key v ms with
  | case1 => simp [find?, List.lookup_cons, beq_false_of_ne h]
  | case2 => simp [find?, List.lookup_cons, beq_false_of_ne h]
  | case3 k w ms _ ih => simp_all [find?, List.lookup_cons]

/-- A key that is there keeps its place, and a new one goes to the end. -/
theorem keys_insert (key : String) (v : Json) (ms : Members) :
    (insert key v ms).keys = if key ∈ ms.keys then ms.keys else ms.keys ++ [key] := by
  fun_induction insert key v ms with
  | case1 => simp [keys]
  | case2 => simp [keys]
  | case3 k w ms h ih =>
    have apart : ¬key = k := Ne.symm h
    by_cases there : key ∈ keys ms <;> simp_all [keys]

end Members

namespace Json

mutual

/-- The value in which every object has each key once. -/
def canonical : Json → Json
  | .array xs => .array (canonicalItems xs)
  | .object ms => .object (Members.ofList (canonicalMembers ms))
  | v => v

def canonicalItems : List Json → List Json
  | [] => []
  | x :: xs => canonical x :: canonicalItems xs

def canonicalMembers : List (String × Json) → List (String × Json)
  | [] => []
  | (k, v) :: ms => (k, canonical v) :: canonicalMembers ms

end

def text? : Json → Option String
  | .text s => some s
  | _ => none

end Json

end ResourceBuild

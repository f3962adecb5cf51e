import ResourceBuild.Toml.Basic

/-!
# Putting tables together

The members of a TOML document come in any order, under headers and under dotted keys. A tree under
construction remembers how each table came about, since that decides who may still add to it.
-/

namespace ResourceBuild.Toml

/-- How a table came about: by its own header, by a header below it, or by a dotted key. -/
inductive Origin where
  | header
  | path
  | dotted
  deriving DecidableEq

/-- A node of the tree: a finished value, a table, or the tables under a repeated header. -/
inductive Node where
  | value (v : Toml)
  | table (origin : Origin) (members : List (String × Node))
  | tables (items : List (List (String × Node)))

/-- The members of a table under construction. -/
abbrev Nodes := List (String × Node)

/-- Puts another node under a key that is there. -/
def Nodes.replace (key : String) (n : Node) (ms : Nodes) : Nodes :=
  ms.map fun m => if m.1 = key then (key, n) else m

def Nodes.without (key : String) (ms : Nodes) : Nodes :=
  ms.filter fun m => m.1 != key

/-- Changes the last of some tables. -/
def changeLast? (change : Nodes → Option Nodes) : List Nodes → Option (List Nodes)
  | [] => none
  | [ms] => (change ms).map fun ms => [ms]
  | ms :: n :: r => (changeLast? change (n :: r)).map (ms :: ·)

/--
Sets a dotted key. Its path leads through tables that have no header of their own and through the
last of some tables under a repeated header, and tables that are not there are made. The last part
is set in a table that dotted keys made, which is what `free` tells of the table at hand.
-/
def assignDotted? (v : Toml) (free : Bool) : List String → Nodes → Option Nodes
  | [], _ => none
  | [k], ms => if free && (ms.lookup k).isNone then some (ms ++ [(k, .value v)]) else none
  | k :: ks, ms =>
    match ms.lookup k with
    | none => (assignDotted? v true ks []).map fun sub => ms ++ [(k, .table .dotted sub)]
    | some (.table origin sub) =>
      if origin = .header then none
      else
        (assignDotted? v (decide (origin = .dotted)) ks sub).map fun sub =>
          Nodes.replace k (.table origin sub) ms
    | some (.tables items) =>
      (changeLast? (assignDotted? v false ks) items).map fun items =>
        Nodes.replace k (.tables items) ms
    | some (.value _) => none

/-- Sets a key of a table: one of its own, or a dotted one that leads to a table below. -/
def assign? (v : Toml) (path : List String) (ms : Nodes) : Option Nodes :=
  assignDotted? v true path ms

/-- Changes the table at the end of a path, which is made if it is not there. -/
def descend? (change : Nodes → Option Nodes) : List String → Nodes → Option Nodes
  | [], ms => change ms
  | k :: ks, ms =>
    match ms.lookup k with
    | none => (descend? change ks []).map fun sub => ms ++ [(k, .table .path sub)]
    | some (.table origin sub) =>
      (descend? change ks sub).map fun sub => Nodes.replace k (.table origin sub) ms
    | some (.tables items) =>
      (changeLast? (descend? change ks) items).map fun items => Nodes.replace k (.tables items) ms
    | some (.value _) => none

/--
Opens the table under a header. A table that only lies on the path of an earlier header gets its
own header now, and with it a new place at the end.
-/
def openTable? (key : String) (ms : Nodes) : Option Nodes :=
  match ms.lookup key with
  | none => some (ms ++ [(key, .table .header [])])
  | some (.table .path sub) => some (Nodes.without key ms ++ [(key, .table .header sub)])
  | some _ => none

/-- Opens one more table under a repeated header. -/
def openNext? (key : String) (ms : Nodes) : Option Nodes :=
  match ms.lookup key with
  | none => some (ms ++ [(key, .tables [[]])])
  | some (.tables items) => some (Nodes.replace key (.tables (items ++ [[]])) ms)
  | some _ => none

mutual

def Node.finish : Node → Toml
  | .value v => v
  | .table _ ms => .table (finishMembers ms)
  | .tables items => .array (finishTables items)

def finishMembers : List (String × Node) → List (String × Toml)
  | [] => []
  | (k, n) :: ms => (k, n.finish) :: finishMembers ms

def finishTables : List (List (String × Node)) → List Toml
  | [] => []
  | ms :: r => .table (finishMembers ms) :: finishTables r

end

end ResourceBuild.Toml

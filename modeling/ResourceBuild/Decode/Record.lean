import ResourceBuild.Decode.Shape

/-!
# Records

Decoding a value into a record with named fields. A record is written as a table, in which each
field goes by any of its spellings, or as an array with the fields in declared order. The fields
are checked in document order, so that the first fault in the document is the one reported.
-/

namespace ResourceBuild.Decode

/-- A field of a record: its name, and all its spellings as messages list them. -/
structure Field where
  name : String
  spellings : List String

/-- A field with one spelling. -/
def Field.plain (name : String) : Field :=
  ⟨name, [name]⟩

/-- A record type: its name in messages, its fields, and whether other fields are refused. -/
structure Record where
  name : String
  fields : List Field
  closed : Bool

/-- The field that goes by this key. -/
def Record.field? (r : Record) (key : String) : Option Field :=
  r.fields.find? fun f => f.spellings.contains key

def Record.names (r : Record) : List String :=
  r.fields.map Field.name

def Record.spellings (r : Record) : List String :=
  r.fields.flatMap Field.spellings

/-- How a record was written. -/
inductive Form where
  | table
  | sequence
  deriving DecidableEq

/-- The fields found in a value, each under its name, and how they were written. -/
structure Fields (α : Type) where
  record : Record
  form : Form
  values : List (String × α)

variable {α : Type}

section

variable [Document α]

/--
The known fields among some members, checked one after the other; `seen` are those before. Other
members are passed over, unless the record is closed.
-/
def Record.scan (r : Record) (check : String → α → Except DecodeError Unit) :
    List String → List (String × α) → Except DecodeError (List (String × α))
  | _, [] => .ok []
  | seen, (key, v) :: ms =>
    match r.field? key with
    | none =>
      if r.closed then .error (.unknownField key r.spellings)
      else do
        passOver v
        r.scan check seen ms
    | some f =>
      if seen.contains f.name then .error (.duplicateField f.name)
      else do
        check f.name v
        return (f.name, v) :: (← r.scan check (f.name :: seen) ms)

/-- The fields of a record, once every one of them has passed its check. -/
def Record.read (r : Record) (check : String → α → Except DecodeError Unit) (a : α) :
    Except DecodeError (Fields α) :=
  match Document.shape a with
  | .table ms => do return ⟨r, .table, ← r.scan check [] ms⟩
  | .sequence xs => do
    let values := r.names.zip xs
    values.forM fun m => check m.1 m.2
    return ⟨r, .sequence, values⟩
  | s => .error (s.refuse ("struct " ++ r.name))

/-- Refuses an array with more items than the record has fields, where that matters. -/
def Record.bound (r : Record) (a : α) : Except DecodeError Unit :=
  match Document.shape a with
  | .sequence xs =>
    if Document.countsItems α && decide (r.fields.length < xs.length) then
      .error (.tooManyItems xs.length)
    else .ok ()
  | _ => .ok ()

end

def Fields.missing (fs : Fields α) (name : String) : DecodeError :=
  match fs.form with
  | .table => .missingField name
  | .sequence => .tooFewItems (fs.record.names.idxOf name) fs.record.name fs.record.fields.length

def Fields.required {β : Type} (fs : Fields α) (name : String)
    (decode : α → Except DecodeError β) : Except DecodeError β :=
  match fs.values.lookup name with
  | some v => decode v
  | none => .error (fs.missing name)

def Fields.withDefault {β : Type} (fs : Fields α) (name : String) (default : β)
    (decode : α → Except DecodeError β) : Except DecodeError β :=
  match fs.values.lookup name with
  | some v => decode v
  | none => .ok default

/-- A field that may be missing or null. -/
def Fields.optional {β : Type} [Document α] (fs : Fields α) (name : String)
    (decode : α → Except DecodeError β) : Except DecodeError (Option β) :=
  fs.withDefault name none (Decode.optional decode)

end ResourceBuild.Decode

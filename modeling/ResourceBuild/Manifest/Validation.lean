import ResourceBuild.Manifest.Payload

/-!
# Validating declarations

Every declaration is checked, and everything wrong with any of them is reported in one list. The
declarations without a fault become the sections of the manifest.
-/

namespace ResourceBuild.Manifest

open Decode

/-- How a declaration is called in messages: by its id, or by its position from one. -/
inductive Label where
  | named (id : String)
  | numbered (n : Nat)
  deriving DecidableEq

inductive Defect where
  | missingId
  | missingType
  | emptyData
  | unsupportedType (tag : String)
  | missingSingularKey
  | missingPluralKey
  | missingCategoryName
  | missingCategoryDescription
  | invalidData (kind : Kind) (error : DecodeError)
  | duplicateId
  deriving DecidableEq

structure Violation where
  label : Label
  defect : Defect
  deriving DecidableEq

def Label.words : Label → String
  | .named id => "section '" ++ id ++ "'"
  | .numbered n => "section #" ++ Text.decimal n

def Defect.words : Defect → String
  | .missingId => "missing 'id'"
  | .missingType => "missing 'type'"
  | .emptyData => "enabled but 'data' is empty"
  | .unsupportedType tag => "unsupported section type '" ++ tag ++ "'"
  | .missingSingularKey => "list section requires 'singular_key'"
  | .missingPluralKey => "list section requires 'plural_key'"
  | .missingCategoryName => "convar_category section requires 'category.name'"
  | .missingCategoryDescription => "convar_category section requires 'category.description'"
  | .invalidData kind error =>
    "invalid 'data' for " ++ kind.tag ++ " section: " ++ error.message
  | .duplicateId => "duplicate id"

def Violation.message (v : Violation) : String :=
  v.label.words ++ ": " ++ v.defect.words

namespace Declaration

/-- The id without blanks around it, if there is more than blanks. -/
def id? (d : Declaration) : Option String :=
  Text.nonBlank? d.id

/-- The type tag without blanks around it, if there is more than blanks. -/
def tag? (d : Declaration) : Option String :=
  Text.nonBlank? d.kind

/-- The kind that the type tag names. -/
def kind? (d : Declaration) : Option Kind :=
  d.tag?.bind Kind.ofTag?

/-- How the declaration at this position, counted from zero, is called. -/
def label (d : Declaration) (position : Nat) : Label :=
  match d.id? with
  | some id => .named id
  | none => .numbered (position + 1)

/-- Whether the data of a declaration is missing or an empty value. -/
def isEmptyData : Option Json → Bool
  | none => true
  | some .null => true
  | some (.array xs) => xs.isEmpty
  | some (.object ms) => ms.isEmpty
  | some (.text s) => s.isEmpty
  | some _ => false

/-- The defects of an enabled declaration that hang on its kind. -/
def kindDefects (d : Declaration) : List Defect :=
  match d.tag?, d.kind? with
  | some tag, none => [.unsupportedType tag]
  | _, some .list =>
    (if (Text.nonBlank? d.singularKey).isNone then [.missingSingularKey] else []) ++
      (if (Text.nonBlank? d.pluralKey).isNone then [.missingPluralKey] else [])
  | _, some .convarCategory =>
    let header := d.category.getD {}
    (if (Text.nonBlank? header.name).isNone then [.missingCategoryName] else []) ++
      (if (Text.nonBlank? header.description).isNone then [.missingCategoryDescription] else [])
  | _, _ => []

/-- The defects that show without decoding the data. -/
def surfaceDefects (d : Declaration) : List Defect :=
  (if d.id?.isNone then [.missingId] else []) ++
    (if d.tag?.isNone then [.missingType] else []) ++
    (if d.enabled && isEmptyData d.data then [.emptyData] else []) ++
    (if d.enabled then d.kindDefects else [])

/--
The defects of a declaration, and the section it makes when it has none. The data is decoded only
if no other defect was found. A disabled declaration of an unknown type, or with data that does not
decode, makes no section and is no defect, since it would render nothing.
-/
def validate (d : Declaration) : List Defect × Option Section :=
  match d.surfaceDefects with
  | [] =>
    match d.id?, d.kind? with
    | some id, some kind =>
      match d.decodeBody kind with
      | .ok body => ([], some ⟨id, d.enabled, body⟩)
      | .error e => (if d.enabled then [.invalidData kind e] else [], none)
    | _, _ => ([], none)
  | defects => (defects, none)

/-- The violation of a declaration whose id an earlier one has. -/
def duplicates (d : Declaration) (seen : List String) : List Violation :=
  match d.id? with
  | some id => if seen.contains id then [⟨.named id, .duplicateId⟩] else []
  | none => []

end Declaration

/-- Validates declarations from a position on; `seen` are the ids before it. -/
def validateFrom (position : Nat) (seen : List String) :
    List Declaration → List Section × List Violation
  | [] => ([], [])
  | d :: ds =>
    let (defects, made) := d.validate
    let own := d.duplicates seen ++ defects.map (⟨d.label position, ·⟩)
    let (sections, violations) := validateFrom (position + 1) (d.id?.toList ++ seen) ds
    (made.toList ++ sections, own ++ violations)

/-- The sections that the declarations make, in order, and everything wrong with them. -/
def validate (ds : List Declaration) : List Section × List Violation :=
  validateFrom 0 [] ds

end ResourceBuild.Manifest

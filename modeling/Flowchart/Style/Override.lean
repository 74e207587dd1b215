import Flowchart.Style.Basic
import Flowchart.Text.Blank
import Flowchart.Value.Printer

/-!
# Style overrides

A style file maps kinds to the fields they change. `StyleTable.merge` writes such a map into a table
of overrides, kind by kind:

* a field that is not given is inherited from the override of the kind, else from its built-in
  style, else from the plain style in a class of the kind's name,
* the first kind that cannot be accepted stops the merge, with a `StyleError`.
-/

namespace Flowchart

/-- The fields of a style that a file may set. -/
inductive StyleField where
  | fill
  | stroke
  | shape
  | className
deriving DecidableEq, Repr

namespace StyleField

/-- The key of a field. -/
def key : StyleField → String
  | fill => "fill"
  | stroke => "stroke"
  | shape => "shape"
  | className => "class_name"

/-- All fields. -/
def all : List StyleField := [fill, stroke, shape, className]

/-- The field under a key. -/
def ofKey? (k : Value) : Option StyleField :=
  all.find? fun f => Value.str f.key == k

/-- Writes a field of a style. -/
def set (f : StyleField) (text : String) (s : Style) : Style :=
  match f with
  | fill => { s with fill := text }
  | stroke => { s with stroke := text }
  | shape => { s with shape := Shape.ofName text }
  | className => { s with className := text }

end StyleField

/-- Why a kind of a style file is not accepted. -/
inductive StyleError where
  /-- The kind is not a text, or an empty one. -/
  | invalidKind (found : Value)
  /-- The kind is not given fields. -/
  | invalidFields (kind : String) (found : Value)
  /-- Keys that are no fields, in ascending order. -/
  | unknownKeys (kind : String) (keys : List Value)
  /-- Keys that are no fields and cannot be put in order. -/
  | unorderedKeys (later earlier : Value)
  /-- A number that a style would take or a message would show has too many digits. -/
  | limit (e : Decimal.LimitError)
  /-- The value of a field is neither a text nor a number. -/
  | invalidValue (kind : String) (field : StyleField) (found : Value)
  /-- The value of a field is blank. -/
  | blankValue (kind : String) (field : StyleField)
  /-- The shape that the style would have is none that an override may ask for. -/
  | unsupportedShape (kind : String) (shape : Shape)

namespace StyleError

/-- The message for an error. -/
def message : StyleError → String
  | invalidKind found => "style kind must be a non-empty string, got " ++ found.literal
  | invalidFields kind found =>
    "style for " ++ Text.quoted kind ++ " must be a mapping, got " ++ found.typeName
  | unknownKeys kind keys =>
    "style for " ++ Text.quoted kind ++ " has unknown keys: " ++ (Value.list keys).literal
  | unorderedKeys (.date _) (.timestamp _) | unorderedKeys (.timestamp _) (.date _) =>
    "can't compare datetime.datetime to datetime.date"
  | unorderedKeys (.timestamp _) (.timestamp _) =>
    "can't compare offset-naive and offset-aware datetimes"
  | unorderedKeys later earlier =>
    "'<' not supported between instances of '" ++ later.typePath ++ "' and '" ++ earlier.typePath
      ++ "'"
  | limit e => e.message
  | invalidValue kind field found =>
    "style for " ++ Text.quoted kind ++ " field " ++ Text.quoted field.key
      ++ " must be a string, got " ++ found.literal ++ " (quote colours such as '#EEEEEE' in YAML)"
  | blankValue kind field =>
    "style for " ++ Text.quoted kind ++ " field " ++ Text.quoted field.key ++ " must not be empty"
  | unsupportedShape kind shape =>
    "style for " ++ Text.quoted kind ++ " has unsupported shape " ++ Text.quoted shape.name
      ++ " (expected one of " ++ String.intercalate ", " (Shape.supported.map Shape.name) ++ ")"

/-- The values that a message shows. -/
def shown : StyleError → List Value
  | invalidKind found => [found]
  | unknownKeys _ keys => keys
  | invalidValue _ _ found => [found]
  | invalidFields _ _ | unorderedKeys _ _ | blankValue _ _ | unsupportedShape _ _ | limit _ => []

/-- The error that is told: a message cannot show a number with too many digits. -/
def told (e : StyleError) : StyleError :=
  if e.shown.all Value.isWritable then e else limit .writing

end StyleError

namespace StyleTable

/-- Whether the first of two keys comes before the second, if they can be compared: numbers by
their value, texts by their characters, bytes in order, days and times by the calendar. -/
def keyBefore? (v w : Value) : Option Bool :=
  match v.magnitude?, w.magnitude? with
  | some m, some n => some (m.lt n)
  | none, none =>
    match v, w with
    | .str s, .str t => some (s < t)
    | .bytes b, .bytes c => some (b.map UInt8.toNat < c.map UInt8.toNat)
    | .date d, .date e => some (d.dayNumber < e.dayNumber)
    | .timestamp s, .timestamp t =>
      if s.offset.isSome = t.offset.isSome then some (s.instant < t.instant) else none
    | _, _ => none
  | _, _ => none

/-- The first two neighbours that cannot be compared. -/
def incomparable? : List Value → Option (Value × Value)
  | v :: w :: rest => if (keyBefore? w v).isNone then some (v, w) else incomparable? (w :: rest)
  | _ => none

/-- The error for keys that are no fields. -/
def unknownKeysError (kind : String) (keys : List Value) : StyleError :=
  match incomparable? keys with
  | some (earlier, later) => .unorderedKeys later earlier
  | none => .unknownKeys kind (keys.mergeSort fun v w => !(keyBefore? w v).getD false)

/-- The text that a field may take from a value: a text, or a number as it is written. -/
def fieldText (kind : String) (field : StyleField) (v : Value) : Except StyleError String :=
  match v with
  | .str s => pure s
  | .int _ | .float _ => if v.isWritable then pure v.text else throw (.limit .writing)
  | _ => throw (StyleError.told (.invalidValue kind field v))

/-- Writes the fields given for a kind into a style. -/
def setFields (kind : String) (s : Style) : List (Value × Value) → Except StyleError Style
  | [] => pure s
  | (k, v) :: rest =>
    match StyleField.ofKey? k with
    | none => setFields kind s rest
    | some field => do
      let text ← fieldText kind field v
      if text.toList.all Text.isBlank then throw (.blankValue kind field)
      setFields kind (field.set text s) rest

/-- What a kind inherits before its fields are written. -/
def inherited (table : StyleTable) (kind : String) : Style :=
  (Style.known? table kind).getD (Style.plain kind)

/-- Merges one kind. -/
def mergeKind (table : StyleTable) (key spec : Value) : Except StyleError StyleTable :=
  match key with
  | .str kind =>
    if kind = "" then throw (.invalidKind key)
    else
      match spec with
      | .map fields => do
        -- unknown keys are told before any value is looked at
        let unknown := (fields.map Prod.fst).filter fun k => (StyleField.ofKey? k).isNone
        if !unknown.isEmpty then throw (unknownKeysError kind unknown).told
        let style ← setFields kind (table.inherited kind) fields
        -- an inherited shape is checked as well
        if style.shape ∉ Shape.supported then throw (.unsupportedShape kind style.shape)
        pure (table.put kind style)
      | _ => throw (.invalidFields kind spec)
  | _ => throw (StyleError.told (.invalidKind key))

/-- Merges the kinds of a style file one after another. -/
def merge (table : StyleTable) (raw : List (Value × Value)) : Except StyleError StyleTable :=
  raw.foldlM (fun t (key, spec) => t.mergeKind key spec) table

end StyleTable

end Flowchart

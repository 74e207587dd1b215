import Flowchart.Calendar
import Flowchart.Decimal.Limit
import Flowchart.Decimal.Shortest
import Flowchart.Table

/-!
# Values

What a definition or a style file holds once it has been read, whether it was JSON or YAML.

Maps keep the order of their keys, and a key may be any scalar. `Value.sameKey` says when two keys
are one: numbers by their value, so that `1`, `1.0` and `true` are the same key, and every other
scalar only within its own type. `Value.isWritable` says whether all integers in a value are short
enough to be written.
-/

namespace Flowchart

/-- A value of a document. -/
inductive Value where
  | null
  | bool (b : Bool)
  | int (n : Int)
  | float (x : Float)
  | str (s : String)
  | date (d : Date)
  | timestamp (t : Timestamp)
  | bytes (content : List UInt8)
  | list (items : List Value)
  | map (entries : List (Value × Value))
  /-- Keys without values. -/
  | set (items : List Value)
  /-- An entry of an ordered map. -/
  | pair (key value : Value)

namespace Value

instance : Inhabited Value := ⟨null⟩

/-- What a value is as a number. -/
inductive Magnitude where
  | nan
  | infinite (negative : Bool)
  | ratio (num : Int) (den : Nat)

/-- A double, exactly. -/
def Magnitude.ofFloat (x : Float) : Magnitude :=
  let negative := Nat.pow 2 63 ≤ x.toBits.toNat
  if x.isNaN then nan
  else if x.isInf then infinite negative
  else
    let b := Decimal.Binary.ofBits x.toBits
    let num : Int := b.mantissa * Nat.pow 2 b.exponent.toNat
    ratio (if negative then -num else num) (Nat.pow 2 (-b.exponent).toNat)

/-- Equality of numbers; `nan` equals nothing. -/
def Magnitude.eq : Magnitude → Magnitude → Bool
  | infinite a, infinite b => a == b
  | ratio a b, ratio c d => a * d == c * b
  | _, _ => false

/-- The order of numbers; `nan` is not comparable. -/
def Magnitude.lt : Magnitude → Magnitude → Bool
  | infinite true, infinite false => true
  | infinite true, ratio _ _ => true
  | ratio _ _, infinite false => true
  | ratio a b, ratio c d => a * d < c * b
  | _, _ => false

/-- Numbers are the integers, the doubles, and the truth values as zero and one. -/
def magnitude? : Value → Option Magnitude
  | bool b => some (.ratio (if b then 1 else 0) 1)
  | int n => some (.ratio n 1)
  | float x => some (.ofFloat x)
  | _ => none

/-- Whether two keys of a map are the same. Collections cannot be keys, and a double that is not a
number differs from every key. -/
def sameKey (v w : Value) : Bool :=
  match v.magnitude?, w.magnitude? with
  | some m, some n => m.eq n
  | none, none =>
    match v, w with
    | null, null => true
    | str s, str t => s == t
    | date d, date e => d == e
    | timestamp s, timestamp t => s.same t
    | bytes b, bytes c => b == c
    | _, _ => false
  | _, _ => false

instance : BEq Value := ⟨sameKey⟩

/-- The map with these entries, written one after another. -/
def ofEntries (entries : List (Value × Value)) : Value :=
  map (Table.ofEntries entries)

/-- The entries, if the value is a map. -/
def entries? : Value → Option (List (Value × Value))
  | map entries => some entries
  | _ => none

/-- The value of a text key in a list of entries. -/
def field? (entries : List (Value × Value)) (name : String) : Option Value :=
  entries.lookup (str name)

/-- The value under a text key, if the value is a map that has it. -/
def get? (v : Value) (name : String) : Option Value :=
  v.entries?.bind (field? · name)

/-- What messages call the type of a value. -/
def typeName : Value → String
  | null => "NoneType"
  | bool _ => "bool"
  | int _ => "int"
  | float _ => "float"
  | str _ => "str"
  | date _ => "date"
  | timestamp _ => "datetime"
  | bytes _ => "bytes"
  | list _ => "list"
  | map _ => "dict"
  | set _ => "set"
  | pair _ _ => "tuple"

/-- The full name of the type of a value, as messages about comparisons give it. -/
def typePath (v : Value) : String :=
  match v with
  | date _ | timestamp _ => "datetime." ++ v.typeName
  | _ => v.typeName

/-- What is found at an absent key counts as null. -/
def orNull (v : Option Value) : Value := v.getD null

mutual

/-- Whether no integer in a value has too many digits to be written. -/
def isWritable : Value → Bool
  | int n => n.natAbs < Decimal.unwritable
  | list items | set items => areWritable items
  | map entries => areWritableEntries entries
  | pair k v => isWritable k && isWritable v
  | null | bool _ | float _ | str _ | date _ | timestamp _ | bytes _ => true
termination_by structural v => v

private def areWritable : List Value → Bool
  | [] => true
  | v :: rest => isWritable v && areWritable rest
termination_by structural items => items

private def areWritableEntries : List (Value × Value) → Bool
  | [] => true
  | (k, v) :: rest => isWritable k && isWritable v && areWritableEntries rest
termination_by structural entries => entries

end

end Value

end Flowchart

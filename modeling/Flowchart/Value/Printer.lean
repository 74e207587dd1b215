import Flowchart.Decimal.Notation
import Flowchart.Text.Quoted
import Flowchart.Value.Basic

/-!
# Text of a value

Two texts of a value appear in labels and messages:

* `Value.literal` shows the value with its type, so texts stand in quotes and dates say that they
  are dates,
* `Value.text` is the bare text of a scalar, which is how a key becomes a name; for a list or a map
  it is the literal.
-/

namespace Flowchart

namespace Value

/-- Texts between brackets, separated by commas. -/
private def listed (items : List String) : String := String.intercalate ", " items

/-- A span of minutes as whole days and the seconds left over. -/
private def spanLiteral (minutes : Int) : String :=
  let days := minutes.fdiv (24 * 60)
  let seconds := minutes.fmod (24 * 60) * 60
  let parts := (if days = 0 then [] else ["days=" ++ toString days])
    ++ (if seconds = 0 then [] else ["seconds=" ++ toString seconds])
  "datetime.timedelta(" ++ (if parts.isEmpty then "0" else listed parts) ++ ")"

/-- The literal of an offset from universal time. -/
private def offsetLiteral (minutes : Int) : String :=
  if minutes = 0 then "datetime.timezone.utc"
  else "datetime.timezone(" ++ spanLiteral minutes ++ ")"

/-- The literal of a day. -/
private def dateLiteral (d : Date) : String :=
  "datetime.date(" ++ listed ([d.year, d.month, d.day].map toString) ++ ")"

/-- The literal of a time. Seconds and microseconds are left out if they and all after them are
zero. -/
private def timestampLiteral (t : Timestamp) : String :=
  let seconds :=
    if t.microsecond ≠ 0 then [t.second, t.microsecond]
    else if t.second ≠ 0 then [t.second] else []
  let fields := [t.date.year, t.date.month, t.date.day, t.hour, t.minute] ++ seconds
  "datetime.datetime("
    ++ listed (fields.map toString ++ (t.offset.map fun m => "tzinfo=" ++ offsetLiteral m).toList)
    ++ ")"

mutual

/-- The value as a literal. -/
def literal : Value → String
  | null => "None"
  | bool b => if b then "True" else "False"
  | int n => toString n
  | float x => Decimal.write x
  | str s => Text.quoted s
  | date d => dateLiteral d
  | timestamp t => timestampLiteral t
  | bytes content => Text.quotedBytes content
  | list items => "[" ++ listed (literals items) ++ "]"
  | map entries => "\x7b" ++ listed (entryLiterals entries) ++ "\x7d"
  | set [] => "set()"
  | set (first :: rest) => "\x7b" ++ listed (literal first :: literals rest) ++ "\x7d"
  | pair k v => "(" ++ listed [literal k, literal v] ++ ")"
termination_by structural v => v

private def literals : List Value → List String
  | [] => []
  | v :: rest => literal v :: literals rest
termination_by structural items => items

private def entryLiterals : List (Value × Value) → List String
  | [] => []
  | (k, v) :: rest => (literal k ++ ": " ++ literal v) :: entryLiterals rest
termination_by structural entries => entries

end

/-- The bare text of a value. -/
def text : Value → String
  | str s => s
  | date d => d.text
  | timestamp t => t.text
  | v => v.literal

/-- What is wrong with a day or a time. -/
def calendarMessage : CalendarError → String
  | .year y => "year " ++ toString y ++ " is out of range"
  | .month => "month must be in 1..12"
  | .day => "day is out of range for month"
  | .hour => "hour must be in 0..23"
  | .minute => "minute must be in 0..59"
  | .second => "second must be in 0..59"
  | .offset m =>
    "offset must be a timedelta strictly between -timedelta(hours=24) and timedelta(hours=24), not "
      ++ spanLiteral m ++ "."

end Value

end Flowchart

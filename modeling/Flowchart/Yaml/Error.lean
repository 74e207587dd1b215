import Flowchart.Decimal.Limit
import Flowchart.Text.Quoted
import Flowchart.Value.Printer
import Flowchart.Yaml.Library

/-!
# Errors in YAML text

Almost everything that can be wrong with a text is one error here, which says only that the text is
not a document. The exceptions are scalars that have the form of their type and still denote
nothing, whose errors have a wording of their own, and collections that hold themselves, which are
good YAML but no trees.
-/

namespace Flowchart.Yaml

/-- Why a text gives no value. -/
inductive Error where
  /-- The text is not a single document of known types. -/
  | malformed
  /-- An alias inside the collection that it stands for. -/
  | recursive
  /-- A timestamp that the calendar does not have. -/
  | calendar (e : CalendarError)
  /-- A text that is no timestamp under the tag of one. -/
  | noTimestamp
  /-- A mapping under the tag of a timestamp. -/
  | timestampEntries
  /-- Digits that do not fit the base of the integer. -/
  | integer (base : Nat) (text : String)
  /-- An integer with too many digits. -/
  | limit (e : Decimal.LimitError)
  | float (text : String)
  /-- A float with so many groups of base sixty that a group exceeds all floats. -/
  | magnitude
  /-- A number without any character. -/
  | emptyNumber
  /-- A word that is no truth value. -/
  | truthValue (text : String)
  /-- An escape past the last code point. -/
  | codePoint
  /-- An escape that does not even fit a signed word of 32 bits. -/
  | codeWord
deriving DecidableEq, Repr

/-- A text in quotes, of which a message shows the first 200 characters. -/
def Error.excerpt (text : String) : String :=
  String.ofList ((Text.quoted text).toList.take 200)

/-- The error as the failure of a library. -/
def Error.failure : Error → Failure
  | malformed => .malformed "the text is not a single document of known types"
  | recursive => .malformed "a collection holds itself"
  | calendar e => .raised .value (Value.calendarMessage e)
  | noTimestamp =>
    .raised (.other "AttributeError") "'NoneType' object has no attribute 'groupdict'"
  | timestampEntries => .raised .type "expected string or bytes-like object, got 'list'"
  | integer base text =>
    .raised .value
      ("invalid literal for int() with base " ++ toString base ++ ": " ++ Error.excerpt text)
  | limit e => .raised .value e.message
  | float text => .raised .value ("could not convert string to float: " ++ Text.quoted text)
  | magnitude => .raised (.other "OverflowError") "int too large to convert to float"
  | emptyNumber => .raised (.other "IndexError") "string index out of range"
  | truthValue text => .raised (.other "KeyError") (Text.quoted text)
  | codePoint => .raised .value "chr() arg not in range(0x110000)"
  | codeWord => .raised (.other "OverflowError") "Python int too large to convert to C int"

end Flowchart.Yaml

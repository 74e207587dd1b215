import Flowchart.Decimal.Limit
import Flowchart.Diagnostic.Basic

/-!
# Events

While a definition is read and drawn, diagnostics are reported, and a number with too many digits
ends the work. Both are events, in the order in which they occur; what comes after the first halt
has not happened.

* `Event.reports` are the diagnostics before the first halt,
* `Event.halt?` is the limit at which the work ends.
-/

namespace Flowchart

/-- What happens on the way to a diagram. -/
inductive Event where
  | report (d : Diagnostic)
  | halt (e : Decimal.LimitError)
deriving DecidableEq, Repr

namespace Event

/-- The diagnostics before the first halt. -/
def reports : List Event → List Diagnostic
  | [] => []
  | report d :: rest => d :: reports rest
  | halt _ :: _ => []

/-- The first halt. -/
def halt? : List Event → Option Decimal.LimitError
  | [] => none
  | report _ :: rest => halt? rest
  | halt e :: _ => some e

theorem halt?_append (es fs : List Event) : halt? (es ++ fs) = (halt? es).or (halt? fs) := by
  induction es with
  | nil => rfl
  | cons e rest ih => cases e <;> simp [halt?, ih]

theorem reports_append (es fs : List Event) :
    reports (es ++ fs) = reports es ++ if (halt? es).isNone then reports fs else [] := by
  induction es with
  | nil => simp [reports, halt?]
  | cons e rest ih => cases e <;> simp [reports, halt?, ih]

end Event

end Flowchart

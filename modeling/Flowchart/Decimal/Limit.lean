/-!
# The limit on digits

The decimal text of an integer is long to read and long to write, so neither is done beyond a number
of digits. The limit holds for whole numbers in decimal only: other bases and fractions have none.
-/

namespace Flowchart.Decimal

/-- The most digits that an integer is read from or written with. Zeros in front count. -/
def maxDigits : Nat := 4300

/-- The least number that has too many digits. -/
def unwritable : Nat := Nat.pow 10 maxDigits

/-- Why an integer is not turned into its value or into its text. -/
inductive LimitError where
  /-- The text has this many digits. -/
  | reading (digits : Nat)
  /-- The value has too many digits. -/
  | writing
deriving DecidableEq, Repr

/-- The message for an error. -/
def LimitError.message (e : LimitError) : String :=
  "Exceeds the limit (" ++ toString maxDigits ++ " digits) for integer string conversion"
    ++ (match e with
      | reading digits => ": value has " ++ toString digits ++ " digits"
      | writing => "")
    ++ "; use sys.set_int_max_str_digits() to increase the limit"

end Flowchart.Decimal

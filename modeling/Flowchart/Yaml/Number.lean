import Flowchart.Decimal.Limit
import Flowchart.Decimal.Notation
import Flowchart.Text.Blank
import Flowchart.Text.Case
import Flowchart.Text.CharRef
import Flowchart.Text.Digit
import Flowchart.Yaml.Error
import Flowchart.Yaml.Kind

/-!
# Numbers

What the text of a number denotes under its tag:

* `readInt`: an integer in one of four bases, or in groups of base sixty,
* `readFloat`: a decimal, an infinity, something that is not a number, or groups of base sixty.

Underscores between the digits mean nothing. The digits of every script may be used, but only those
of ASCII show a base.
-/

namespace Flowchart.Yaml

/-- The blanks around a number. -/
def isPadding (c : Char) : Bool :=
  c == ' ' || c == '\t' || c == '\n' || c == '\x0b' || c == '\x0c' || c == '\r'

/-- Writes digits and blanks outside ASCII as those of ASCII. -/
def asciiNumber (s : List Char) : List Char :=
  s.map fun c =>
    if c.toNat < 0x7F then c
    else if Text.isBlank c then ' '
    else
      match Text.decimal? c with
      | some digit => Char.ofNat ('0'.toNat + digit)
      | none => c

/-- Leaves out the letter of a base after a zero. -/
def dropBase (base : Nat) (s : List Char) : List Char :=
  match base, s with
  | 2, '0' :: 'b' :: rest | 2, '0' :: 'B' :: rest => rest
  | 8, '0' :: 'o' :: rest | 8, '0' :: 'O' :: rest => rest
  | 16, '0' :: 'x' :: rest | 16, '0' :: 'X' :: rest => rest
  | _, rest => rest

/-- Reads digits in a base. Blanks around them and a sign are allowed, and so is the letter of the
base after a zero. The limit on digits is told before anything behind the digits. -/
def readDigits (base : Nat) (s : List Char) : Except Error Int :=
  let (negative, unsigned) := Decimal.splitSign ((asciiNumber s).dropWhile isPadding)
  let unsigned := dropBase base unsigned
  let digits := unsigned.takeWhile fun c =>
    Text.CharRef.isHexDigit c && Text.CharRef.digitValue c < base
  if base = 10 ∧ Decimal.maxDigits < digits.length then throw (.limit (.reading digits.length))
  else if digits.isEmpty || !(unsigned.drop digits.length).all isPadding then
    throw (.integer base (String.ofList s))
  else
    let n : Int := Text.CharRef.ofDigits base digits
    pure (if negative then -n else n)

/-- The number that groups of base sixty write. -/
def ofSixtieths (groups : List Int) : Int :=
  groups.foldl (fun n g => n * 60 + g) 0

/-- The characters of a number without underscores. -/
def unspaced (text : String) : List Char := text.toList.filter (· != '_')

/-- The integer that a scalar denotes. -/
def readInt (text : String) : Except Error Int := do
  let (negative, s) := Decimal.splitSign (unspaced text)
  let n ← match s with
    | [] => throw .emptyNumber
    | ['0'] => pure 0
    | '0' :: 'b' :: digits => readDigits 2 digits
    | '0' :: 'x' :: digits => readDigits 16 digits
    | '0' :: _ => readDigits 8 s
    | _ =>
      if s.contains ':' then ofSixtieths <$> (splitColons s).mapM (readDigits 10)
      else readDigits 10 s
  pure (if negative then -n else n)

/-- Reads a decimal, an infinity or `nan`, in small letters. -/
def readDecimal (s : List Char) : Except Error Float :=
  let padded := (asciiNumber s).dropWhile isPadding
  let (negative, unsigned) :=
    Decimal.splitSign (padded.reverse.dropWhile isPadding).reverse
  let magnitude? :=
    if unsigned = "inf".toList ∨ unsigned = "infinity".toList then some Decimal.infinity
    else if unsigned = "nan".toList then some (0.0 / 0.0)
    else Decimal.readUnsigned? unsigned
  match magnitude? with
  | some x => pure (Decimal.signed negative x)
  | none => throw (.float (String.ofList s))

/-- The most groups of base sixty whose first one does not exceed all floats. -/
def maxSixtieths : Nat := 174

/-- The sum of groups of base sixty, from the last group on. -/
def sumSixtieths (groups : List Float) : Except Error Float :=
  if maxSixtieths < groups.length then throw .magnitude
  else
    let (sum, _) := groups.reverse.foldl
      (fun (sum, base) g => (sum + g * Float.ofNat base, base * 60)) ((0.0 : Float), 1)
    pure sum

/-- The characters of a float in small letters, and the sign in front of them. -/
def floatForm (text : String) : Bool × List Char :=
  Decimal.splitSign (Text.lower (String.ofList (unspaced text))).toList

/-- Whether a float is written by the word for what is not a number. -/
def isNanWord (text : String) : Bool := (floatForm text).2 == ".nan".toList

/-- The double that a scalar denotes. -/
def readFloat (text : String) : Except Error Float := do
  let (negative, s) := floatForm text
  if (unspaced text).isEmpty then throw .emptyNumber
  if s = ".nan".toList then pure (0.0 / 0.0)
  else
    let x ←
      if s = ".inf".toList then pure Decimal.infinity
      else if s.contains ':' then sumSixtieths (← (splitColons s).mapM readDecimal)
      else readDecimal s
    pure (Decimal.signed negative x)

end Flowchart.Yaml

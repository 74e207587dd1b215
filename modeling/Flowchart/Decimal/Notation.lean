import Flowchart.Decimal.Shortest

/-!
# Decimal notation

How floating-point numbers are written and read.

* `write` gives the shortest decimal that reads back. The point is placed among the digits while
  the exponent lies between -4 and 15, and a whole number keeps `.0`; beyond that an exponent of at
  least two digits follows the letter `e`.
* `ofScientific` reads a decimal, rounded to the nearest double.
-/

namespace Flowchart.Decimal

/-- Decimal digits, by zeros filled to a width of two. -/
private def twoDigits (n : Nat) : List Char :=
  let digits := Nat.toDigits 10 n
  if digits.length < 2 then '0' :: digits else digits

/-- The digits with the point among them. -/
def positional (d : Digits) : List Char :=
  if d.point ≤ 0 then '0' :: '.' :: (List.replicate (-d.point).toNat '0' ++ d.digits)
  else
    let whole := d.point.toNat
    if d.digits.length ≤ whole then
      d.digits ++ List.replicate (whole - d.digits.length) '0' ++ ['.', '0']
    else d.digits.take whole ++ '.' :: d.digits.drop whole

/-- The digits with the point after the first one, and an exponent. -/
def scientific (d : Digits) : List Char :=
  let e := d.point - 1
  let mantissa := match d.digits with
    | first :: second :: rest => first :: '.' :: second :: rest
    | single => single
  mantissa ++ 'e' :: (if e < 0 then '-' else '+') :: twoDigits e.natAbs

/-- The text of a positive finite double. -/
def writePositive (b : Binary) : List Char :=
  let d := shortest b
  if -4 ≤ d.point - 1 ∧ d.point - 1 < 16 then positional d else scientific d

/-- The text of a double. -/
def write (x : Float) : String :=
  if x.isNaN then "nan"
  else
    let sign := if x.toBits.toNat < Nat.pow 2 63 then "" else "-"
    if x.isInf then sign ++ "inf"
    else if x == 0 then sign ++ "0.0"
    else sign ++ String.ofList (writePositive (Binary.ofBits x.toBits))

/-- The number that a list of decimal digits writes. -/
def ofDigits (digits : List Char) : Nat :=
  digits.foldl (fun n c => n * 10 + (c.toNat - '0'.toNat)) 0

/-- Positive infinity. -/
def infinity : Float := 1.0 / 0.0

/-- The double nearest to `mantissa * 10 ^ exponent`. Magnitudes outside the range of doubles are
settled by the count of digits, so that a huge exponent costs nothing. -/
def ofScientific (mantissa : Nat) (exponent : Int) : Float :=
  let magnitude := (Nat.toDigits 10 mantissa).length + exponent
  if mantissa = 0 ∨ magnitude < -330 then 0.0
  else if 310 < magnitude then infinity
  else Float.ofScientific mantissa (exponent < 0) exponent.natAbs

/-- The double that a decimal literal denotes: digits before the point, digits after it, and an
exponent. -/
def ofLiteral (whole fraction : List Char) (exponent : Int) : Float :=
  ofScientific (ofDigits (whole ++ fraction)) (exponent - fraction.length)

/-- The sign at the start of a literal, and the rest. -/
def splitSign : List Char → Bool × List Char
  | '-' :: s => (true, s)
  | '+' :: s => (false, s)
  | s => (false, s)

/-- A negative number for a true sign. -/
def signed (negative : Bool) (x : Float) : Float :=
  if negative then -x else x

/-- The exponent part of a literal, if it is one. -/
private def exponent? : List Char → Option Int
  | [] => some 0
  | e :: s =>
    let (negative, digits) := splitSign s
    if (e == 'e' || e == 'E') && !digits.isEmpty && digits.all Char.isDigit then
      some (if negative then -(ofDigits digits : Int) else ofDigits digits)
    else none

/-- Reads an unsigned decimal literal: digits with a point anywhere among them and an optional
exponent. -/
def readUnsigned? (s : List Char) : Option Float :=
  let whole := s.takeWhile Char.isDigit
  let rest := s.dropWhile Char.isDigit
  let (fraction, rest) := match rest with
    | '.' :: rest => (rest.takeWhile Char.isDigit, rest.dropWhile Char.isDigit)
    | rest => ([], rest)
  if whole.isEmpty && fraction.isEmpty then none
  else (exponent? rest).map (ofLiteral whole fraction)

end Flowchart.Decimal

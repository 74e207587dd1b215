/-!
# Shortest decimals

A double stands for all the reals that round to it. Among the decimals in that interval `shortest`
takes one with the fewest digits, and of those the nearest to the double.

* `Binary` is a positive double as a mantissa and a power of two,
* `Interval` holds the reals that round to it, over a common denominator,
* `Interval.onGrid?` looks for a multiple of a power of ten in the interval.

All arithmetic is exact, in natural numbers.
-/

namespace Flowchart.Decimal

/-- A positive finite double, `mantissa * 2 ^ exponent`. -/
structure Binary where
  mantissa : Nat
  exponent : Int
  /-- The mantissa is the least of its binade, so the next smaller double is only half as far away
  as the next larger one. -/
  leastOfBinade : Bool

/-- The absolute value of a finite double. -/
def Binary.ofBits (bits : UInt64) : Binary :=
  let fraction := bits.toNat % Nat.pow 2 52
  match bits.toNat / Nat.pow 2 52 % Nat.pow 2 11 with
  | 0 => ⟨fraction, -1074, false⟩
  | e => ⟨Nat.pow 2 52 + fraction, e - 1075, fraction == 0 && e != 1⟩

/-- The reals between `low / den` and `high / den`, around `mid / den`. -/
structure Interval where
  low : Nat
  mid : Nat
  high : Nat
  den : Nat
  /-- The ends round to the middle too. -/
  closed : Bool

/-- The reals that round to a double: half of the way to each neighbour, and the ends as well if
the mantissa is even. -/
def Binary.interval (b : Binary) : Interval :=
  let quarter := b.exponent - 2
  let num := Nat.pow 2 quarter.toNat
  let m := 4 * b.mantissa
  ⟨(m - (if b.leastOfBinade then 1 else 2)) * num, m * num, (m + 2) * num,
    Nat.pow 2 (-quarter).toNat, b.mantissa % 2 == 0⟩

namespace Interval

/-- Whether `c * 10 ^ k` lies in the interval. -/
def holds (i : Interval) (c : Nat) (k : Int) : Bool :=
  let x := c * Nat.pow 10 k.toNat * i.den
  let scale := Nat.pow 10 (-k).toNat
  if i.closed then i.low * scale ≤ x && x ≤ i.high * scale
  else i.low * scale < x && x < i.high * scale

/-- The multiple of `10 ^ k` in the interval that is nearest to its middle, as a factor. Only the
two next to the middle can be; at equal distance the even one is taken. -/
def onGrid? (i : Interval) (k : Int) : Option Nat :=
  let mid := i.mid * Nat.pow 10 (-k).toNat
  let unit := Nat.pow 10 k.toNat * i.den
  let c := mid / unit
  match i.holds c k, i.holds (c + 1) k with
  | true, true =>
    let below := mid - c * unit
    let above := (c + 1) * unit - mid
    some (if below < above ∨ (below = above ∧ c % 2 = 0) then c else c + 1)
  | true, false => some c
  | false, true => some (c + 1)
  | false, false => none

/-- The exponent of the leading digit of the middle. -/
def leadingExponent (i : Interval) : Int :=
  if i.den ≤ i.mid then (Nat.toDigits 10 (i.mid / i.den)).length - 1
  else -(Nat.toDigits 10 ((i.den + i.mid - 1) / i.mid - 1)).length

/-- The coarsest grid that meets the interval, tried from one digit up; seventeen digits always
suffice. Gives the factor and the exponent of the grid. -/
def shortest (i : Interval) : Nat × Int :=
  let grids := (List.range 17).map fun (n : Nat) => i.leadingExponent - n
  (grids.findSome? fun k => (i.onGrid? k).map (·, k)).getD (0, 0)

end Interval

/-- A decimal `0.d₁d₂… * 10 ^ point`, without zeros at the end of its digits. -/
structure Digits where
  digits : List Char
  point : Int

/-- The digits of the shortest decimal that rounds to a positive double. -/
def shortest (b : Binary) : Digits :=
  let (c, k) := b.interval.shortest
  let digits := Nat.toDigits 10 c
  ⟨(digits.reverse.dropWhile (· == '0')).reverse, digits.length + k⟩

end Flowchart.Decimal

/-!
# Implicit types

A plain scalar of YAML 1.1 has the type that its text looks like. `implicitKind` tells the type; a
text that looks like none of them is a text.

The forms are regular, and each is a predicate on characters here:

* truth values and null are words,
* integers are binary, octal, decimal, hexadecimal, or groups of base sixty,
* floats have a point; an exponent has a sign,
* timestamps are a date, or a date and a time of day.

A line feed at the end of a text, which only a text in quotes or in a block can have, does not
change the type.
-/

namespace Flowchart.Yaml

/-- The type of a scalar. -/
inductive Kind where
  | null
  | bool
  | int
  | float
  | timestamp
  /-- The key `<<`, which merges other maps into its own. -/
  | merge
  /-- The key `=`, which stands for the value of a map as a whole. -/
  | default
  /-- The mark of an alias, an anchor or a tag by itself; it has no value. -/
  | mark
  | text
deriving DecidableEq, Repr

/-- The words for null. -/
def nullWords : List String := ["", "~", "null", "Null", "NULL"]

/-- The words for true. -/
def trueWords : List String := ["yes", "Yes", "YES", "true", "True", "TRUE", "on", "On", "ON"]

/-- The words for false. -/
def falseWords : List String := ["no", "No", "NO", "false", "False", "FALSE", "off", "Off", "OFF"]

/-! ## Numbers -/

/-- A digit, or an underscore between digits. -/
def isSpacedDigit (c : Char) : Bool := c.isDigit || c == '_'

/-- A text that is not empty and consists of such characters. -/
def isRun (p : Char → Bool) (s : List Char) : Bool := !s.isEmpty && s.all p

/-- Leaves out a sign. -/
def dropSign : List Char → List Char
  | '+' :: s | '-' :: s => s
  | s => s

/-- Splits at every colon. -/
def splitColons (s : List Char) : List (List Char) :=
  match s with
  | [] => [[]]
  | c :: rest =>
    match splitColons rest with
    | [] => [[c]]
    | part :: parts => if c == ':' then [] :: part :: parts else (c :: part) :: parts

/-- A group of base sixty: one digit, or two of which the first is below six. -/
def isSixtieth : List Char → Bool
  | [a] => a.isDigit
  | [a, b] => '0' ≤ a && a ≤ '5' && b.isDigit
  | _ => false

/-- Digits, and then at least one group of base sixty after a colon. -/
def isSexagesimal (isFirst : Char → Bool) (s : List Char) : Bool :=
  match splitColons s with
  | (c :: digits) :: group :: groups =>
    isFirst c && digits.all isSpacedDigit && (group :: groups).all isSixtieth
  | _ => false

/-- A digit that can start a number of several digits. -/
def isNonZero (c : Char) : Bool := c.isDigit && c != '0'

/-- The text of an integer. -/
def isInt (s : List Char) : Bool :=
  match dropSign s with
  | ['0'] => true
  | '0' :: 'b' :: digits => isRun (fun c => c == '0' || c == '1' || c == '_') digits
  | '0' :: 'x' :: digits =>
    isRun (fun c => c.isDigit || c == '_' || ('a' ≤ c && c ≤ 'f') || ('A' ≤ c && c ≤ 'F')) digits
  | '0' :: digits => isRun (fun c => ('0' ≤ c && c ≤ '7') || c == '_') digits
  | c :: digits =>
    (isNonZero c && digits.all isSpacedDigit) || isSexagesimal isNonZero (c :: digits)
  | [] => false

/-- An exponent, or nothing. The sign is required. -/
def isExponent : List Char → Bool
  | [] => true
  | e :: sign :: digits =>
    (e == 'e' || e == 'E') && (sign == '+' || sign == '-') && isRun Char.isDigit digits
  | _ => false

/-- What may follow a point: digits and an exponent. -/
def isFraction (s : List Char) : Bool := isExponent (s.dropWhile isSpacedDigit)

/-- The text of a float. -/
def isFloat (s : List Char) : Bool :=
  match s with
  | ['.', 'n', 'a', 'n'] | ['.', 'N', 'a', 'N'] | ['.', 'N', 'A', 'N'] => true
  | '.' :: c :: rest => (c.isDigit && isFraction rest) || isInfinity s
  | s =>
    let unsigned := dropSign s
    let whole := unsigned.takeWhile (· != '.')
    match unsigned.drop whole.length with
    | '.' :: rest =>
      (whole.head?.any Char.isDigit && whole.all isSpacedDigit && isFraction rest)
        || (isSexagesimal Char.isDigit whole && rest.all isSpacedDigit)
        || isInfinity s
    | _ => false
where
  /-- An infinity, with or without a sign. -/
  isInfinity (s : List Char) : Bool :=
    [".inf", ".Inf", ".INF"].any fun w => dropSign s == w.toList

/-! ## Timestamps -/

/-- Takes between `least` and `most` digits, as many as there are. -/
def takeDigits? (least most : Nat) (s : List Char) : Option (Nat × List Char) :=
  let digits := (s.take most).takeWhile Char.isDigit
  if least ≤ digits.length then
    some (digits.foldl (fun n c => n * 10 + (c.toNat - '0'.toNat)) 0, s.drop digits.length)
  else none

/-- Takes one character. -/
def takeChar? (c : Char) : List Char → Option (List Char)
  | d :: rest => if c == d then some rest else none
  | [] => none

/-- The parts of a timestamp as written; none of them is checked against the calendar. -/
structure WrittenTime where
  hour : Nat
  minute : Nat
  second : Nat
  /-- The digits of the fraction of the second. -/
  fraction : List Char
  /-- The offset in minutes, if one is written. -/
  zone : Option Int

/-- The blanks inside a timestamp. -/
def isGap (c : Char) : Bool := c == ' ' || c == '\t'

/-- The offset that ends a timestamp: nothing, `Z`, or a sign with hours and perhaps minutes. -/
def zone? (s : List Char) : Option (Option Int) :=
  if s.isEmpty then some none
  else
    match s.dropWhile isGap with
    | ['Z'] => some (some 0)
    | sign :: rest => do
      guard (sign == '+' || sign == '-')
      let (hours, rest) ← takeDigits? 1 2 rest
      let minutes ←
        if rest.isEmpty then some 0
        else do
          let (m, rest) ← takeDigits? 2 2 (← takeChar? ':' rest)
          guard rest.isEmpty
          some m
      let total : Int := hours * 60 + minutes
      some (some (if sign == '-' then -total else total))
    | [] => none

/-- The time of day that follows the date of a timestamp. -/
def time? (s : List Char) : Option WrittenTime := do
  let rest ← match s with
    | 'T' :: rest | 't' :: rest => some rest
    | c :: rest => if isGap c then some (rest.dropWhile isGap) else none
    | [] => none
  let (hour, rest) ← takeDigits? 1 2 rest
  let (minute, rest) ← takeDigits? 2 2 (← takeChar? ':' rest)
  let (second, rest) ← takeDigits? 2 2 (← takeChar? ':' rest)
  let (fraction, rest) := match rest with
    | '.' :: rest => (rest.takeWhile Char.isDigit, rest.dropWhile Char.isDigit)
    | rest => ([], rest)
  let zone ← zone? rest
  some ⟨hour, minute, second, fraction, zone⟩

/-- Year, month, day and what follows them. Month and day have at least `least` digits. -/
def date? (least : Nat) (s : List Char) : Option ((Nat × Nat × Nat) × List Char) := do
  let (year, rest) ← takeDigits? 4 4 s
  let (month, rest) ← takeDigits? least 2 (← takeChar? '-' rest)
  let (day, rest) ← takeDigits? least 2 (← takeChar? '-' rest)
  some ((year, month, day), rest)

/-- The text of a date with two digits for month and day, or of a date with a time of day. -/
def isTimestamp (s : List Char) : Bool :=
  (date? 2 s).any (·.2.isEmpty) || (date? 1 s).any fun (_, rest) => (time? rest).isSome

/-! ## The type of a scalar -/

/-- Leaves out a line feed at the end, unless it is all there is. -/
def dropLineFeed (s : List Char) : List Char :=
  match s.reverse with
  | '\n' :: c :: rest => (c :: rest).reverse
  | _ => s

/-- The type that a text looks like. -/
def implicitKind (text : String) : Kind :=
  let cs := dropLineFeed text.toList
  let s := String.ofList cs
  if nullWords.contains s then .null
  else if trueWords.contains s || falseWords.contains s then .bool
  else if isInt cs then .int
  else if isFloat cs then .float
  else if isTimestamp cs then .timestamp
  else if s = "<<" then .merge
  else if s = "=" then .default
  else if ["!", "&", "*"].contains s then .mark
  else .text

end Flowchart.Yaml

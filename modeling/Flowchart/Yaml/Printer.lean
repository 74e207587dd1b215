import Flowchart.Text.Quoted
import Flowchart.Yaml.Kind

/-!
# Writing YAML

A text is written as the value of a key in a block of YAML. The plain form is used if it reads back
as the same text, else the single-quoted one, else the double-quoted one, which holds any text in
ASCII.

A line that has grown past the width is folded at a space. What a scalar is written with:

* `Column` is the column that has been reached and the indentation of the lines that follow,
* `folded` writes a plain or a single-quoted text,
* `doubleQuoted` writes a double-quoted one.
-/

namespace Flowchart.Yaml

/-- The width past which a line is folded. -/
def width : Nat := 80

/-! ## The choice of a form -/

/-- The forms of a scalar. -/
inductive Form where
  | plain
  | single
  | double
deriving DecidableEq, Repr

/-- The characters that every form can hold as they are. -/
def isOrdinary (c : Char) : Bool :=
  c == '\n' || (0x20 ≤ c.toNat && c.toNat ≤ 0x7E)

/-- A space or a line break. -/
def isGapChar (c : Char) : Bool := c == ' ' || c == '\n'

/-- The characters that mean something at the start of a plain scalar. -/
def leadingIndicators : List Char := "#,[]\x7b\x7d&*!|>'\"%@\x60".toList

/-- Whether a text starts like another construct. -/
def startsLikeMarkup (s : List Char) : Bool :=
  "---".toList.isPrefixOf s || "...".toList.isPrefixOf s
    || match s with
      | [] => false
      | c :: rest =>
        leadingIndicators.contains c
          || ((c == '-' || c == '?' || c == ':') && rest.head?.all isGapChar)

/-- Whether a text holds the end of a key or the start of a comment after its first character. -/
def holdsMarkup : List Char → Bool
  | [] => false
  | c :: rest =>
    (match rest with
      | ':' :: after => after.head?.all isGapChar
      | '#' :: _ => isGapChar c
      | _ => false)
      || holdsMarkup rest

/-- Whether two characters stand next to each other in this order. -/
def holdsPair (a b : Char) : List Char → Bool
  | x :: y :: rest => (x == a && y == b) || holdsPair a b (y :: rest)
  | _ => false

/-- The form in which a text is written. -/
def formOf (s : String) : Form :=
  let cs := s.toList
  if !cs.all isOrdinary || holdsPair '\n' ' ' cs || holdsPair ' ' '\n' cs then .double
  else if implicitKind s ≠ .text || cs.contains '\n' || cs.head?.any isGapChar
      || cs.getLast?.any isGapChar || startsLikeMarkup cs || holdsMarkup cs then .single
  else .plain

/-! ## Folding -/

/-- A line break and the indentation of the next line. -/
def newLine (indent : Nat) : List Char := '\n' :: List.replicate indent ' '

/-- Writes the characters of a plain scalar, or of a single-quoted one, in which quotes are doubled.
A single space in the middle becomes a line break if the line is past the width; a run of line
breaks is written with one more. `before` is the character written last, if any. -/
def folded (quotes : Bool) (indent : Nat) :
    (before : Option Char) → (column : Nat) → List Char → List Char
  | _, _, [] => []
  | before, column, c :: rest =>
    if c = '\n' then
      let breaks := if before = some '\n' then ['\n'] else ['\n', '\n']
      let margin := if rest.head? = some '\n' then [] else List.replicate indent ' '
      breaks ++ margin ++ folded quotes indent (some c) indent rest
    else if c = ' ' ∧ before.any (· != ' ') ∧ rest.head?.any (· != ' ') ∧ width < column then
      newLine indent ++ folded quotes indent (some c) indent rest
    else if c = '\'' ∧ quotes then
      '\'' :: '\'' :: folded quotes indent (some c) (column + 2) rest
    else c :: folded quotes indent (some c) (column + 1) rest

/-- The letters of the short escapes. -/
def shortEscapes : List (Char × Char) := [
  ('\x00', '0'), ('\x07', 'a'), ('\x08', 'b'), ('\t', 't'), ('\n', 'n'), ('\x0b', 'v'),
  ('\x0c', 'f'), ('\r', 'r'), ('\x1b', 'e'), ('"', '"'), ('\\', '\\'), ('\u0085', 'N'),
  ('\u00a0', '_'), ('\u2028', 'L'), ('\u2029', 'P')]

/-- The escape of a character, if a double-quoted text cannot hold it as it is. -/
def escape? (c : Char) : Option (List Char) :=
  match shortEscapes.lookup c with
  | some letter => some ['\\', letter]
  | none =>
    if 0x20 ≤ c.toNat ∧ c.toNat ≤ 0x7E then none
    else
      let upper := (Text.codeEscape c.toNat).map Char.toUpper
      -- the letter that tells the number of digits keeps its case
      some ('\\' :: (Text.codeEscape c.toNat).getD 1 'x' :: upper.drop 2)

/-- A break inside a double-quoted text: a backslash ends the line, and another one saves a space at
the start of the next. -/
def escapedBreak (indent : Nat) (next : Option Char) : List Char :=
  '\\' :: newLine indent ++ (if next = some ' ' then ['\\'] else [])

/-- The column after such a break. -/
def columnAfterBreak (indent : Nat) (next : Option Char) : Nat :=
  if next = some ' ' then indent + 1 else indent

/-- Writes the characters of a double-quoted scalar. `pending` are the characters since the last
escape or break, in order, and `column` is the column before them. A line is broken before a space,
or where nothing is pending, but never at the first or the last character. -/
def doubleQuoted (indent : Nat) :
    (isFirst : Bool) → (pending : List Char) → (column : Nat) → List Char → List Char
  | _, pending, _, [] => pending
  | isFirst, pending, column, c :: rest =>
    let inside := !isFirst && !rest.isEmpty
    match escape? c with
    | some e =>
      let column := column + pending.length + e.length
      if inside && width + 1 < column then
        pending ++ e ++ escapedBreak indent rest.head?
          ++ doubleQuoted indent false [] (columnAfterBreak indent rest.head?) rest
      else pending ++ e ++ doubleQuoted indent false [] column rest
    | none =>
      if inside && (c == ' ' || pending.isEmpty) && width < column + pending.length then
        pending ++ escapedBreak indent (some c)
          ++ doubleQuoted indent false [c] (columnAfterBreak indent (some c)) rest
      else doubleQuoted indent false (pending ++ [c]) column rest

/-! ## Scalars -/

/-- Writes a text that starts at a column. Lines after the first are indented. -/
def scalar (indent column : Nat) (s : String) : String :=
  String.ofList <|
    match formOf s with
    | .plain => folded false indent none column s.toList
    | .single => '\'' :: folded true indent none (column + 1) s.toList ++ ['\'']
    | .double => '"' :: doubleQuoted indent true [] (column + 1) s.toList ++ ['"']

/-- A key with a text, at a depth of `indent` columns. -/
def entry (indent : Nat) (key value : String) : String :=
  let start := String.ofList (List.replicate indent ' ') ++ key ++ ": "
  start ++ scalar (indent + 2) start.length value

end Flowchart.Yaml

import Flowchart.Decimal.Notation
import Flowchart.Json.Error
import Flowchart.Text.CharRef
import Flowchart.Value.Basic

/-!
# Reading JSON

A reader takes the start of a text and gives a value together with the rest of the text. The
grammar is the strict one, with three numbers more: `NaN`, `Infinity` and `-Infinity`.

A fault carries the rest of the text at the place that the message names, so the offset of the
fault is the length of what comes before.

Texts are made of characters, and half of a surrogate pair is none. An escape for such a half that
stands alone is read as the replacement character. This is a restriction of the program: names that
differ in these halves only are one name here.
-/

namespace Flowchart.Json

/-- A fault, with the text from its place on. -/
inductive Fault where
  | before (problem : Problem) (rest : List Char)
  | limit (e : Decimal.LimitError)

/-- Fails at the start of `rest`. -/
def fault {α : Type} (problem : Problem) (rest : List Char) : Except Fault α :=
  .error (.before problem rest)

/-- The four characters that may stand between tokens. -/
def isSpace (c : Char) : Bool :=
  c == ' ' || c == '\t' || c == '\n' || c == '\r'

/-- Leaves out white space. -/
def skipSpace (s : List Char) : List Char := s.dropWhile isSpace

/-! ## Strings -/

/-- What a letter after a backslash stands for. -/
def escapedChar? : Char → Option Char
  | '"' => some '"'
  | '\\' => some '\\'
  | '/' => some '/'
  | 'b' => some '\x08'
  | 'f' => some '\x0c'
  | 'n' => some '\n'
  | 'r' => some '\r'
  | 't' => some '\t'
  | _ => none

/-- Four hexadecimal digits after the letter `u`. The text must go on behind them. -/
def codeUnit (s : List Char) : Except Fault Nat :=
  let digits := (s.drop 1).take 4
  if (s.drop 5).isEmpty || !digits.all Text.CharRef.isHexDigit then fault .unicodeEscape s
  else pure (Text.CharRef.ofDigits 16 digits)

/-- A code unit that starts a pair. -/
def isHighSurrogate (n : Nat) : Bool := 0xD800 ≤ n && n < 0xDC00

/-- A code unit that ends a pair. -/
def isLowSurrogate (n : Nat) : Bool := 0xDC00 ≤ n && n < 0xE000

/-- A character; half of a pair is none, and gives the replacement character. -/
def ofCodeUnit (n : Nat) : Char :=
  if isHighSurrogate n || isLowSurrogate n then '\uFFFD' else Char.ofNat n

/-- The character of an escape that starts with the letter `u`, and the length of the escape. Two
escapes may form a pair. -/
def unicodeEscape (s : List Char) : Except Fault (Char × Nat) := do
  let high ← codeUnit s
  let next := s.drop 5
  -- the second escape must not be the last thing in the text
  if isHighSurrogate high && next.take 2 == ['\\', 'u'] && 6 < next.length then
    let low ← codeUnit (next.drop 1)
    if isLowSurrogate low then
      return (Char.ofNat (0x10000 + (high - 0xD800) * 0x400 + (low - 0xDC00)), 11)
  return (ofCodeUnit high, 5)

/-- The character of an escape and the length of the escape, without its backslash. `opening` is the
text from the opening quote on. -/
def escape (opening s : List Char) : Except Fault (Char × Nat) :=
  match s with
  | [] => fault .unterminated opening
  | 'u' :: _ => unicodeEscape s
  | c :: _ =>
    match escapedChar? c with
    | some e => pure (e, 1)
    | none => fault .escape ('\\' :: s)

/-- The characters of a string up to its closing quote. -/
def stringBody (opening s : List Char) : Except Fault (List Char × List Char) :=
  match s with
  | [] => fault .unterminated opening
  | '"' :: rest => pure ([], rest)
  | '\\' :: rest => do
    let (c, n) ← escape opening rest
    let (text, rest) ← stringBody opening (rest.drop n)
    pure (c :: text, rest)
  | c :: rest => do
    if c.toNat < 0x20 then fault .control s
    let (text, rest) ← stringBody opening rest
    pure (c :: text, rest)
termination_by s.length
decreasing_by all_goals (simp only [List.length_drop, List.length_cons]; omega)

/-! ## Numbers -/

/-- The digits of a whole number: a zero stands alone. -/
def wholeDigits : List Char → List Char
  | '0' :: _ => ['0']
  | s => s.takeWhile Char.isDigit

/-- The digits after a point, if at least one follows it. -/
def fractionDigits : List Char → List Char
  | '.' :: s => s.takeWhile Char.isDigit
  | _ => []

/-- The exponent and its length; an `e` without digits behind it is not part of the number. -/
def exponentPart : List Char → Option (Int × Nat)
  | [] => none
  | e :: s =>
    let (negative, afterSign) := Decimal.splitSign s
    let digits := afterSign.takeWhile Char.isDigit
    if (e == 'e' || e == 'E') && !digits.isEmpty then
      let n : Int := Decimal.ofDigits digits
      some (if negative then -n else n, 1 + (s.length - afterSign.length) + digits.length)
    else none

/-- The longest number at the start of the text. -/
def number (s : List Char) : Except Fault (Value × List Char) :=
  let (negative, unsigned) := match s with
    | '-' :: r => (true, r)
    | r => (false, r)
  let whole := wholeDigits unsigned
  if whole.isEmpty then fault .value s
  else
    let rest := unsigned.drop whole.length
    let fraction := fractionDigits rest
    let rest := if fraction.isEmpty then rest else rest.drop (1 + fraction.length)
    -- without a fraction and an exponent the number is an integer
    match fraction, exponentPart rest with
    | [], none =>
      if Decimal.maxDigits < whole.length then .error (.limit (.reading whole.length))
      else
        let n : Int := Decimal.ofDigits whole
        pure (.int (if negative then -n else n), rest)
    | fraction, exponent? =>
      let (exponent, length) := exponent?.getD (0, 0)
      pure (.float (Decimal.signed negative (Decimal.ofLiteral whole fraction exponent)),
        rest.drop length)

/-! ## Values -/

/-- The words that are values by themselves. -/
def words : List (String × Value) := [
  ("null", .null), ("true", .bool true), ("false", .bool false),
  ("NaN", .float (0.0 / 0.0)), ("Infinity", .float Decimal.infinity),
  ("-Infinity", .float (-Decimal.infinity))]

/-- The word that starts the text, and what follows it. -/
def word? (s : List Char) : Option (Value × List Char) :=
  words.findSome? fun (w, v) =>
    if w.toList.isPrefixOf s then some (v, s.drop w.length) else none

mutual

/-- A value at the start of the text. -/
def value : Nat → List Char → Except Fault (Value × List Char)
  | 0, s => fault .value s
  | fuel + 1, s =>
    match s with
    | '"' :: r => do
      let (text, rest) ← stringBody s r
      pure (.str (String.ofList text), rest)
    | '{' :: r =>
      match skipSpace r with
      | '}' :: rest => pure (.map [], rest)
      | r => do
        let (entries, rest) ← members fuel r
        pure (.ofEntries entries, rest)
    | '[' :: r =>
      match skipSpace r with
      | ']' :: rest => pure (.list [], rest)
      | r => do
        let (items, rest) ← elements fuel r
        pure (.list items, rest)
    | _ =>
      match word? s with
      | some found => pure found
      | none => number s

/-- The members of an object up to its closing brace. -/
def members : Nat → List Char → Except Fault (List (Value × Value) × List Char)
  | 0, s => fault .name s
  | fuel + 1, s =>
    match s with
    | '"' :: r => do
      let (name, rest) ← stringBody s r
      match skipSpace rest with
      | ':' :: rest =>
        let (v, rest) ← value fuel (skipSpace rest)
        let entry := (Value.str (String.ofList name), v)
        match skipSpace rest with
        | '}' :: rest => pure ([entry], rest)
        | ',' :: rest =>
          let (entries, rest) ← members fuel (skipSpace rest)
          pure (entry :: entries, rest)
        | rest => fault .comma rest
      | rest => fault .colon rest
    | _ => fault .name s

/-- The elements of an array up to its closing bracket. -/
def elements : Nat → List Char → Except Fault (List Value × List Char)
  | 0, s => fault .value s
  | fuel + 1, s => do
    let (v, rest) ← value fuel s
    match skipSpace rest with
    | ']' :: rest => pure ([v], rest)
    | ',' :: rest =>
      let (vs, rest) ← elements fuel (skipSpace rest)
      pure (v :: vs, rest)
    | rest => fault .comma rest

end

/-- One value with nothing but white space around it. Of two steps of the readers at least one takes
a character, so twice the length of the text bounds the steps. -/
def document (s : List Char) : Except Fault Value := do
  if s.head? = some '\uFEFF' then fault .byteOrderMark s
  let (v, rest) ← value (2 * s.length + 1) (skipSpace s)
  match skipSpace rest with
  | [] => pure v
  | rest => fault .extra rest

/-- The error for a fault in the text `s`. -/
def Fault.error (s : List Char) : Fault → Error
  | .before problem rest =>
    let offset := s.length - rest.length
    let (line, column) := Text.lineColumn s offset
    .malformed problem line column offset
  | .limit e => .limit e

/-- Reads a JSON document. -/
def read (text : String) : Except Error Value :=
  (document text.toList).mapError (Fault.error text.toList)

end Flowchart.Json

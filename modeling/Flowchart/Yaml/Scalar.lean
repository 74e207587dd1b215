import Flowchart.Text.CharRef
import Flowchart.Yaml.Cursor
import Flowchart.Yaml.Error

/-!
# Scalars

The text of a scalar as it is written over one line or several:

* `plain`, which ends where the layout or an indicator ends it,
* `quoted`, single or double,
* `block`, whose lines are kept or folded.

Line breaks inside a plain or quoted scalar are folded: one becomes a space, and of several the
first is left out.

Each loop takes at least one character a turn, so the length of the text bounds its turns.

Texts are made of characters, and a surrogate is none. An escape for one is read as the replacement
character. This is a restriction of the program: texts that differ in surrogates only are one here.
-/

namespace Flowchart.Yaml

/-- What a line break and the empty lines after it become in a folded text. -/
def foldBreaks (first : Char) (more : List Char) : List Char :=
  (if first ≠ '\n' then [first] else if more.isEmpty then [' '] else []) ++ more

/-! ## Plain scalars -/

/-- Whether a colon before `rest` ends a key. -/
def endsKey (inFlow : Bool) (rest : List Char) : Bool :=
  atGap rest || (inFlow && rest.head?.any (",[]\x7b\x7d".toList.contains ·))

/-- The number of characters up to the next blank or indicator. -/
def plainRun (inFlow : Bool) : List Char → Nat
  | [] => 0
  | c :: rest =>
    if isBlank c || isBreak c || (c == ':' && endsKey inFlow rest)
        || (inFlow && ",?[]\x7b\x7d".toList.contains c) then 0
    else plainRun inFlow rest + 1

/-- The empty lines that follow a line break; none if a document marker follows. -/
def plainBreaks : Nat → Cursor → Option (List Char) × Cursor
  | 0, c => (some [], c)
  | fuel + 1, c =>
    let c := c.dropWhile (· == ' ')
    match c.lineBreak? with
    | none => (some [], c)
    | some (b, c) =>
      if atDocumentMarker c.rest then (none, c)
      else
        let (more, c) := plainBreaks fuel c
        (more.map (b :: ·), c)

/-- What lies between two runs of a plain scalar: its text, the place after it, and whether a line
ends in it. An empty text ends the scalar. -/
def plainGap (fuel : Nat) (c : Cursor) : List Char × Cursor × Bool :=
  let (spaces, c) := c.takeWhile (· == ' ')
  match c.lineBreak? with
  | none => (spaces, c, false)
  | some (b, c) =>
    if atDocumentMarker c.rest then ([], c, true)
    else
      let (more, c) := plainBreaks fuel c
      ((more.map (foldBreaks b)).getD [], c, true)

/-- A plain scalar in a block of this indentation: its text, the place after it, and whether that
place is at the start of a line. `gap` is what lies before the next run. -/
def plain (inFlow : Bool) (indent : Int) :
    Nat → (gap : List Char) → (atLineStart : Bool) → Cursor → List Char × Cursor × Bool
  | 0, _, atLineStart, c => ([], c, atLineStart)
  | fuel + 1, gap, atLineStart, c =>
    let n := if c.rest.head? = some '#' then 0 else plainRun inFlow c.rest
    if n = 0 then ([], c, atLineStart)
    else
      let run := gap ++ c.rest.take n
      let (gap, c, atLineStart) := plainGap fuel (c.forward n)
      if gap.isEmpty || c.rest.head? = some '#' || (!inFlow && c.column < indent + 1) then
        (run, c, atLineStart)
      else
        let (text, c, atLineStart) := plain inFlow indent fuel gap atLineStart c
        (run ++ text, c, atLineStart)

/-! ## Quoted scalars -/

/-- The letters of the short escapes in a double-quoted scalar. -/
def escapedChar? : Char → Option Char
  | '0' => some '\x00'
  | 'a' => some '\x07'
  | 'b' => some '\x08'
  | 't' | '\t' => some '\t'
  | 'n' => some '\n'
  | 'v' => some '\x0b'
  | 'f' => some '\x0c'
  | 'r' => some '\r'
  | 'e' => some '\x1b'
  | ' ' => some ' '
  | '"' => some '"'
  | '\\' => some '\\'
  | '/' => some '/'
  | 'N' => some '\u0085'
  | '_' => some '\u00a0'
  | 'L' => some '\u2028'
  | 'P' => some '\u2029'
  | _ => none

/-- The number of hexadecimal digits after the letter of an escape. -/
def escapeWidth? : Char → Option Nat
  | 'x' => some 2
  | 'u' => some 4
  | 'U' => some 8
  | _ => none

/-- The character of a code; a surrogate gives the replacement character. -/
def charOfCode (n : Nat) : Except Error Char :=
  if 0x7FFFFFFF < n then throw .codeWord
  else if 0x10FFFF < n then throw .codePoint
  else if 0xD800 ≤ n ∧ n ≤ 0xDFFF then pure '\uFFFD'
  else pure (Char.ofNat n)

/-- The empty lines inside a quoted scalar. -/
def quotedBreaks : Nat → Cursor → Except Error (List Char × Cursor)
  | 0, c => pure ([], c)
  | fuel + 1, c => do
    if atDocumentMarker c.rest then throw .malformed
    let c := c.dropWhile isBlank
    match c.lineBreak? with
    | none => pure ([], c)
    | some (b, c) =>
      let (more, c) ← quotedBreaks fuel c
      pure (b :: more, c)

/-- The blanks and line breaks inside a quoted scalar. -/
def quotedGap (fuel : Nat) (c : Cursor) : Except Error (List Char × Cursor) := do
  let (blanks, c) := c.takeWhile isBlank
  match c.lineBreak? with
  | none => pure (blanks, c)
  | some (b, c) =>
    let (more, c) ← quotedBreaks fuel c
    pure (foldBreaks b more, c)

/-- An escape after its backslash: its text and the place after it. -/
def escape (fuel : Nat) (c : Cursor) : Except Error (List Char × Cursor) :=
  match c.rest with
  | [] => throw .malformed
  | letter :: digits =>
    match escapedChar? letter, escapeWidth? letter, c.lineBreak? with
    | some ch, _, _ => pure ([ch], c.next)
    | none, some width, _ => do
      let code := digits.take width
      if code.length < width || !code.all Text.CharRef.isHexDigit then throw .malformed
      let ch ← charOfCode (Text.CharRef.ofDigits 16 code)
      pure ([ch], c.forward (width + 1))
    | none, none, some (_, c) => quotedBreaks fuel c
    | none, none, none => throw .malformed

/-- The text up to the closing quote, and the place after it. -/
def quoted (quote : Char) : Nat → Cursor → Except Error (List Char × Cursor)
  | 0, _ => throw .malformed
  | fuel + 1, c =>
    match c.rest with
    | [] => throw .malformed
    | ch :: rest =>
      if ch = quote then
        if quote = '\'' ∧ rest.head? = some '\'' then do
          let (text, c) ← quoted quote fuel (c.forward 2)
          pure ('\'' :: text, c)
        else pure ([], c.next)
      else do
        let (piece, c) ←
          if isBlank ch || isBreak ch then quotedGap (fuel + 1) c
          else if quote = '"' ∧ ch = '\\' then escape (fuel + 1) c.next
          else pure ([ch], c.next)
        let (text, c) ← quoted quote fuel c
        pure (piece ++ text, c)

/-! ## Block scalars -/

/-- What happens to the line breaks at the end of a block scalar. -/
inductive Chomping where
  /-- One is kept. -/
  | clip
  | strip
  | keep
deriving DecidableEq, Repr

/-- The header of a block scalar after its indicator: what happens at the end, and the indentation
if it is given. -/
def blockHeader (c : Cursor) : Except Error (Chomping × Option Nat × Cursor) := do
  let chomping? (c : Cursor) : Option Chomping × Cursor :=
    match c.rest with
    | '+' :: _ => (some .keep, c.next)
    | '-' :: _ => (some .strip, c.next)
    | _ => (none, c)
  let increment? (c : Cursor) : Except Error (Option Nat × Cursor) :=
    match c.rest with
    | d :: _ =>
      if d == '0' then throw .malformed
      else if d.isDigit then pure (some (d.toNat - '0'.toNat), c.next)
      else pure (none, c)
    | [] => pure (none, c)
  let (before, c) := chomping? c
  let (increment, c) ← increment? c
  let (after, c) := if before.isNone && increment.isSome then chomping? c else (none, c)
  if !atSpace c.rest then throw .malformed
  let c := (c.dropWhile (· == ' ')).skipComment
  if !atLineEnd c.rest then throw .malformed
  let c := (c.lineBreak?.map Prod.snd).getD c
  pure ((before.or after).getD .clip, increment, c)

/-- The empty lines before the first line of a block scalar, and the widest indentation on the
way. -/
def blockIndentation : Nat → Nat → Cursor → List Char × Nat × Cursor
  | 0, most, c => ([], most, c)
  | fuel + 1, most, c =>
    let c := c.dropWhile (· == ' ')
    let most := max most c.column
    match c.lineBreak? with
    | none => ([], most, c)
    | some (b, c) =>
      let (more, most, c) := blockIndentation fuel most c
      (b :: more, most, c)

/-- The empty lines inside a block scalar. -/
def blockBreaks (indent : Nat) : Nat → Cursor → List Char × Cursor
  | 0, c => ([], c)
  | fuel + 1, c =>
    let margin := (c.rest.take (indent - c.column)).takeWhile (· == ' ')
    let c := c.forward margin.length
    match c.lineBreak? with
    | none => ([], c)
    | some (b, c) =>
      let (more, c) := blockBreaks indent fuel c
      (b :: more, c)

/-- The lines of a block scalar. Gives the text up to its last line, the break after that line, the
empty lines after it, and the place after those. -/
def blockLines (folds : Bool) (indent : Nat) :
    Nat → (breaks : List Char) → Cursor → List Char × List Char × List Char × Cursor
  | 0, breaks, c => ([], [], breaks, c)
  | fuel + 1, breaks, c =>
    if c.column ≠ indent ∨ c.rest.isEmpty then ([], [], breaks, c)
    else
      let startsBlank := c.rest.head?.any isBlank
      let (line, c) := c.takeWhile (!isBreak ·)
      let (lineBreak, c) := match c.lineBreak? with
        | some (b, c) => ([b], c)
        | none => ([], c)
      let (more, c) := blockBreaks indent (fuel + 1) c
      if c.column ≠ indent ∨ c.rest.isEmpty then (breaks ++ line, lineBreak, more, c)
      else
        let joint :=
          if folds && lineBreak == ['\n'] && !startsBlank && !c.rest.head?.any isBlank then
            if more.isEmpty then [' '] else []
          else lineBreak
        let (text, lineBreak, after, c) := blockLines folds indent fuel more c
        (breaks ++ line ++ joint ++ text, lineBreak, after, c)

/-- A block scalar after its indicator, inside a block of this indentation. -/
def block (folds : Bool) (indent : Int) (c : Cursor) : Except Error (List Char × Cursor) := do
  let fuel := c.left + 1
  let (chomping, increment, c) ← blockHeader c
  let least := max 1 (indent + 1).toNat
  let (breaks, indent, c) := match increment with
    | none =>
      let (breaks, most, c) := blockIndentation fuel 0 c
      (breaks, max least most, c)
    | some n =>
      let (breaks, c) := blockBreaks (least + n - 1) fuel c
      (breaks, least + n - 1, c)
  let (text, lineBreak, after, c) := blockLines folds indent fuel breaks c
  let ending := match chomping with
    | .strip => []
    | .clip => lineBreak
    | .keep => lineBreak ++ after
  pure (text ++ ending, c)

end Flowchart.Yaml

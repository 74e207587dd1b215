/-!
# UTF-8

`decode` reads the characters of a sequence of bytes. It accepts exactly the shortest encodings of
the Unicode scalar values; the first byte that cannot go on such an encoding is an error, and the
error tells which bytes are in the way.
-/

namespace Flowchart.Text.Utf8

/-- What is wrong with the bytes at a place. -/
inductive Problem where
  /-- No character starts with this byte. -/
  | startByte
  /-- The bytes before this one need another one to follow. -/
  | continuationByte
  /-- The last character is not complete. -/
  | endOfData
deriving DecidableEq, Repr

/-- The words for a problem. -/
def Problem.text : Problem → String
  | startByte => "invalid start byte"
  | continuationByte => "invalid continuation byte"
  | endOfData => "unexpected end of data"

/-- The bytes that are no character: `length` of them from `offset` on, the first of which is
`byte`. -/
structure Error where
  problem : Problem
  byte : Nat
  offset : Nat
  length : Nat
deriving DecidableEq, Repr

/-- A byte in two hexadecimal digits. -/
private def hexByte (n : Nat) : String :=
  let digits := String.ofList (Nat.toDigits 16 n)
  if n < 16 then "0" ++ digits else digits

/-- The message for an error. -/
def Error.message (e : Error) : String :=
  let place :=
    if e.length = 1 then "byte 0x" ++ hexByte e.byte ++ " in position " ++ toString e.offset
    else "bytes in position " ++ toString e.offset ++ "-" ++ toString (e.offset + e.length - 1)
  "'utf-8' codec can't decode " ++ place ++ ": " ++ e.problem.text

/-- A byte that can only stand after others. -/
def isContinuation (b : Nat) : Bool := 0x80 ≤ b && b < 0xC0

/-- The number of bytes of a character, by its first byte; none if no character starts with it. -/
def lengthFrom? (b : Nat) : Option Nat :=
  if b < 0x80 then some 1
  else if b < 0xC2 then none
  else if b < 0xE0 then some 2
  else if b < 0xF0 then some 3
  else if b < 0xF5 then some 4
  else none

/-- Whether a second byte may follow a first one. The bounds leave out encodings that are too long,
surrogates, and what lies past the last code point. -/
def secondFits (first second : Nat) : Bool :=
  isContinuation second
    && !(first == 0xE0 && second < 0xA0) && !(first == 0xED && 0xA0 ≤ second)
    && !(first == 0xF0 && second < 0x90) && !(first == 0xF4 && 0x90 ≤ second)

/-- The number of bytes after the first one that fit. -/
def fitting (first : Nat) (following : List Nat) : Nat :=
  match following with
  | [] => 0
  | second :: rest =>
    if secondFits first second then 1 + (rest.takeWhile isContinuation).length else 0

/-- The code point that complete bytes encode. -/
def codePoint (bytes : List Nat) : Nat :=
  match bytes with
  | [a] => a
  | [a, b] => (a - 0xC0) * 0x40 + (b - 0x80)
  | [a, b, c] => (a - 0xE0) * 0x1000 + (b - 0x80) * 0x40 + (c - 0x80)
  | [a, b, c, d] =>
    (a - 0xF0) * 0x40000 + (b - 0x80) * 0x1000 + (c - 0x80) * 0x40 + (d - 0x80)
  | _ => 0

/-- Decodes bytes, the first of which stands at `offset`. -/
def decodeFrom (offset : Nat) (bytes : List Nat) : Except Error (List Char) :=
  match bytes with
  | [] => pure []
  | first :: rest =>
    match lengthFrom? first with
    | none => throw ⟨.startByte, first, offset, 1⟩
    | some length => do
      let following := rest.take (length - 1)
      let fit := fitting first following
      if fit + 1 < length then
        let problem := if fit = following.length then .endOfData else .continuationByte
        throw ⟨problem, first, offset, fit + 1⟩
      let chars ← decodeFrom (offset + length) (rest.drop (length - 1))
      pure (Char.ofNat (codePoint (first :: following)) :: chars)
termination_by bytes.length
decreasing_by simp only [List.length_drop, List.length_cons]; omega

/-- The text that bytes encode. -/
def decode (bytes : ByteArray) : Except Error (List Char) :=
  decodeFrom 0 (bytes.toList.map UInt8.toNat)

end Flowchart.Text.Utf8

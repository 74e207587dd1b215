/-!
# Base64

Bytes are written in groups of four characters, each of which stands for six bits; three bytes fill
a group, and the last group is filled with equals signs. The reader is lenient about everything
between the characters of a group, but a group that is not complete has to end with its signs.
-/

namespace Flowchart.Text.Base64

/-- The six bits that a character stands for. -/
def sextet? (c : Char) : Option Nat :=
  if 'A' ≤ c ∧ c ≤ 'Z' then some (c.toNat - 'A'.toNat)
  else if 'a' ≤ c ∧ c ≤ 'z' then some (c.toNat - 'a'.toNat + 26)
  else if '0' ≤ c ∧ c ≤ '9' then some (c.toNat - '0'.toNat + 52)
  else if c = '+' then some 62
  else if c = '/' then some 63
  else none

/-- The bytes that a group fills; the bits left over are dropped. -/
def groupBytes : List Nat → List UInt8
  | [a, b] => [UInt8.ofNat (a * 4 + b / 16)]
  | [a, b, c] => [UInt8.ofNat (a * 4 + b / 16), UInt8.ofNat (b % 16 * 16 + c / 4)]
  | [a, b, c, d] =>
    [UInt8.ofNat (a * 4 + b / 16), UInt8.ofNat (b % 16 * 16 + c / 4),
      UInt8.ofNat (c % 4 * 64 + d)]
  | _ => []

/-- Reads on in a group that has `group` so far, and then `signs` equals signs. The signs that
complete a group end the text. -/
def decodeFrom (group : List Nat) (signs : Nat) : List Char → Option (List UInt8)
  | [] => if group.isEmpty then some [] else none
  | c :: rest =>
    if c = '=' then
      if group.length < 2 then decodeFrom group signs rest
      else if group.length + signs < 3 then decodeFrom group (signs + 1) rest
      else some (groupBytes group)
    else
      match sextet? c with
      | none => decodeFrom group signs rest
      | some bits =>
        if group.length < 3 then decodeFrom (group ++ [bits]) 0 rest
        else (decodeFrom [] 0 rest).map (groupBytes (group ++ [bits]) ++ ·)

/-- The bytes that a text encodes. -/
def decode? (s : List Char) : Option (List UInt8) := decodeFrom [] 0 s

end Flowchart.Text.Base64

import Flowchart.Text.Utf8
import Flowchart.Yaml.Scalar
import Flowchart.Yaml.Token

/-!
# From text to tokens

A block of YAML is told by its indentation, and a key only by the colon behind it. The lexer
therefore remembers two things besides its place:

* the columns of the blocks that are open, so that a line further to the left ends them,
* the places where a key may have started, one for each level of brackets, so that a colon can put
  the start of the key, and of the block if it is the first key in it, in front of tokens that have
  been given already.

A key without its own indicator has to fit on one line and in 1024 characters.

A fault ends the tokens. Those before it are given as far as they are settled, since they may be no
document by themselves.
-/

namespace Flowchart.Yaml

/-- The characters that a YAML text may hold. -/
def isAllowed (c : Char) : Bool :=
  let n := c.toNat
  n == 0x09 || n == 0x0A || n == 0x0D || (0x20 ≤ n && n ≤ 0x7E) || n == 0x85
    || (0xA0 ≤ n && n ≤ 0xD7FF) || (0xE000 ≤ n && n ≤ 0xFFFD) || 0x10000 ≤ n

/-- A place where a key may have started. -/
structure KeyStart where
  /-- The number of tokens before it. -/
  tokens : Nat
  /-- At the indentation of its block nothing but a key can stand. -/
  required : Bool
  /-- The number of characters from it on. -/
  left : Nat
  line : Nat
  column : Nat

/-- A lexer in the middle of a text. -/
structure Lexer where
  cursor : Cursor
  /-- The tokens so far, last one first. -/
  tokens : List Token
  /-- The number of tokens. -/
  count : Nat
  /-- The number of open brackets. -/
  level : Nat
  /-- The column of the innermost block; -1 outside of all blocks. -/
  indent : Int
  /-- The columns of the blocks around it, innermost first. -/
  outer : List Int
  /-- Whether a key may start here. -/
  keyAllowed : Bool
  /-- The last place where a key may have started, by level of brackets. -/
  keyStarts : List (Nat × KeyStart)

namespace Lexer

/-- At the start of a text. A byte order mark there is left out. -/
def ofText (s : List Char) : Lexer :=
  let start := Cursor.ofText s
  ⟨if s.head? = some '\uFEFF' then start.next else start, [], 0, 0, -1, [], true, []⟩

/-- Whether the place is inside brackets. -/
def inFlow (x : Lexer) : Bool := 0 < x.level

/-- Adds a token. -/
def give (x : Lexer) (t : Token) : Lexer := { x with tokens := t :: x.tokens, count := x.count + 1 }

/-- Adds a token that takes characters. -/
def take (x : Lexer) (n : Nat) (t : Token) : Lexer :=
  { x.give t with cursor := x.cursor.forward n }

/-- Puts a token before those that were given after the first `n`. -/
def insert (x : Lexer) (n : Nat) (t : Token) : Lexer :=
  let later := x.count - n
  { x with tokens := x.tokens.take later ++ t :: x.tokens.drop later, count := x.count + 1 }

/-- Says whether a key may start at the next place. -/
def allowKey (x : Lexer) (allowed : Bool) : Lexer := { x with keyAllowed := allowed }

/-! ## Blocks -/

/-- Ends the blocks that are further to the right than `column`. -/
def endBlocksFrom (column : Int) (tokens : List Token) (indent : Int) :
    List Int → List Token × Int × List Int
  | [] => (tokens, indent, [])
  | next :: outer =>
    if column < indent then endBlocksFrom column (.blockEnd :: tokens) next outer
    else (tokens, indent, next :: outer)

/-- Ends the blocks that do not reach to `column`. Inside brackets indentation means nothing. -/
def endBlocks (x : Lexer) (column : Int) : Lexer :=
  if x.inFlow then x
  else
    let (tokens, indent, outer) := endBlocksFrom column x.tokens x.indent x.outer
    { x with tokens, count := x.count + (x.outer.length - outer.length), indent, outer }

/-- Opens a block at a column further to the right, if it is, by putting a token after the first
`n`. -/
def openBlock (x : Lexer) (column : Nat) (n : Nat) (t : Token) : Lexer :=
  if x.indent < column then
    { x.insert n t with indent := column, outer := x.indent :: x.outer }
  else x

/-! ## Keys -/

/-- Whether a key that started there would have to have ended. -/
def isStale (x : Lexer) (k : KeyStart) : Bool :=
  k.line != x.cursor.line || 1024 < k.left - x.cursor.left

/-- Forgets the places where a key may have started too long ago. -/
def dropStaleKeys (x : Lexer) : Except Error Lexer :=
  if x.keyStarts.any fun (_, k) => x.isStale k && k.required then throw .malformed
  else pure { x with keyStarts := x.keyStarts.filter fun (_, k) => !x.isStale k }

/-- Forgets the place where a key may have started at this level. -/
def dropKey (x : Lexer) : Except Error Lexer :=
  match x.keyStarts.lookup x.level with
  | none => pure x
  | some k =>
    if k.required then throw .malformed
    else pure { x with keyStarts := x.keyStarts.filter fun (level, _) => level != x.level }

/-- Remembers this place, if a key may start here. -/
def markKey (x : Lexer) : Except Error Lexer := do
  if !x.keyAllowed then return x
  let x' ← x.dropKey
  let c := x.cursor
  let required := !x.inFlow && x.indent == c.column
  return { x' with
    keyStarts := (x.level, ⟨x.count, required, c.left, c.line, c.column⟩) :: x'.keyStarts }

/-! ## Names and tags -/

/-- The characters of the name of an anchor, a directive or a handle. -/
def isNameChar (c : Char) : Bool := c.isAlphanum || c == '-' || c == '_'

/-- The name of an anchor or an alias, after its indicator. -/
def anchorName (c : Cursor) : Except Error (String × Cursor) := do
  let (name, c) := c.takeWhile isNameChar
  if name.isEmpty || !(atGap c.rest || c.rest.head?.any ("?:,]\x7d%@\x60".toList.contains ·)) then
    throw .malformed
  pure (String.ofList name, c)

/-- The handle of a tag: an exclamation mark, or a name between two. -/
def tagHandle (c : Cursor) : Except Error (String × Cursor) :=
  match c.rest with
  | '!' :: rest =>
    let name := rest.takeWhile isNameChar
    if (rest.drop name.length).head? = some '!' then
      pure (String.ofList ('!' :: name ++ ['!']), c.forward (name.length + 2))
    else if rest.head? = some ' ' then pure ("!", c.next)
    else throw .malformed
  | _ => throw .malformed

/-- The characters of a tag that stand for themselves. -/
def isTagChar (c : Char) : Bool :=
  c.isAlphanum || "-;/?:@&=+$,_.!~*'()[]".toList.contains c

/-- The bytes that escapes of two hexadecimal digits give, and the place after them. -/
def escapedBytes : Nat → Cursor → Except Error (List Nat × Cursor)
  | 0, c => pure ([], c)
  | fuel + 1, c =>
    match c.rest with
    | '%' :: a :: b :: _ => do
      if !(Text.CharRef.isHexDigit a && Text.CharRef.isHexDigit b) then throw .malformed
      let (bytes, c) ← escapedBytes fuel (c.forward 3)
      pure (Text.CharRef.ofDigits 16 [a, b] :: bytes, c)
    | '%' :: _ => throw .malformed
    | _ => pure ([], c)

/-- The text of a tag up to its end. -/
def tagText : Nat → Cursor → Except Error (List Char × Cursor)
  | 0, c => pure ([], c)
  | fuel + 1, c =>
    match c.rest with
    | '%' :: _ => do
      let (bytes, c) ← escapedBytes (fuel + 1) c
      match Text.Utf8.decodeFrom 0 bytes with
      | .error _ => throw .malformed
      | .ok piece =>
        let (text, c) ← tagText fuel c
        pure (piece ++ text, c)
    | ch :: _ =>
      if isTagChar ch then do
        let (text, c) ← tagText fuel c.next
        pure (ch :: text, c)
      else pure ([], c)
    | [] => pure ([], c)

/-- The text of a tag, which is not empty. -/
def tagSuffix (c : Cursor) : Except Error (String × Cursor) := do
  let (text, c) ← tagText (c.left + 1) c
  if text.isEmpty then throw .malformed
  pure (String.ofList text, c)

/-- A tag, at its exclamation mark. -/
def tag (c : Cursor) : Except Error (Token × Cursor) := do
  let (token, c) ← match c.rest with
    | _ :: '<' :: _ => do
      let (suffix, c) ← tagSuffix (c.forward 2)
      if c.rest.head? ≠ some '>' then throw .malformed
      pure (Token.tag none suffix, c.next)
    | _ :: rest =>
      if atGap rest then pure (Token.tag none "!", c.next)
      else do
        let word := rest.takeWhile fun ch => ch != ' ' && !isBreak ch
        let (handle, c) ←
          if word.contains '!' then tagHandle c else pure ("!", c.next)
        let (suffix, c) ← tagSuffix c
        pure (Token.tag (some handle) suffix, c)
    | [] => throw .malformed
  if atSpace c.rest then pure (token, c) else throw .malformed

/-! ## Directives -/

/-- A number in a directive. -/
def directiveNumber (c : Cursor) : Except Error (Nat × Cursor) := do
  let (digits, c) := c.takeWhile Char.isDigit
  if digits.isEmpty then throw .malformed
  -- a version is an integer like any other, with the same limit
  if Decimal.maxDigits < digits.length then throw (.limit (.reading digits.length))
  pure (Text.CharRef.ofDigits 10 digits, c)

/-- A directive after its percent sign. -/
def directive (c : Cursor) : Except Error (Directive × Cursor) := do
  let (name, c) := c.takeWhile isNameChar
  if name.isEmpty || !atSpace c.rest then throw .malformed
  let (d, c) ←
    if name = "YAML".toList then do
      let (major, c) ← directiveNumber (c.dropWhile (· == ' '))
      if c.rest.head? ≠ some '.' then throw .malformed
      let (_, c) ← directiveNumber c.next
      if !atSpace c.rest then throw .malformed
      pure (Directive.version major, c)
    else if name = "TAG".toList then do
      let (handle, c) ← tagHandle (c.dropWhile (· == ' '))
      if c.rest.head? ≠ some ' ' then throw .malformed
      let (replacement, c) ← tagSuffix (c.dropWhile (· == ' '))
      if !atSpace c.rest then throw .malformed
      pure (Directive.tagHandle handle replacement, c)
    else pure (Directive.other, c.dropWhile (!isBreak ·))
  let c := (c.dropWhile (· == ' ')).skipComment
  if !atLineEnd c.rest then throw .malformed
  pure (d, (c.lineBreak?.map Prod.snd).getD c)

/-! ## Steps -/

/-- Leaves out spaces, comments and line ends before the next token. After a line end in a block a
key may start. -/
def skipGap : Nat → Lexer → Lexer
  | 0, x => x
  | fuel + 1, x =>
    let c := (x.cursor.dropWhile (· == ' ')).skipComment
    match c.lineBreak? with
    | none => { x with cursor := c }
    | some (_, c) => skipGap fuel { x with cursor := c, keyAllowed := x.keyAllowed || !x.inFlow }

/-- A directive or a marker between documents ends all blocks. -/
def endDocument (x : Lexer) : Except Error Lexer :=
  return ((← (x.endBlocks (-1)).dropKey).allowKey false)

/-- An opening bracket, which may start a key. -/
def openBracket (x : Lexer) (t : Token) : Except Error Lexer := do
  let x ← x.markKey
  return { (x.take 1 t).allowKey true with level := x.level + 1 }

/-- A closing bracket. -/
def closeBracket (x : Lexer) (t : Token) : Except Error Lexer := do
  if x.level = 0 then throw .malformed
  let x ← x.dropKey
  return { (x.take 1 t).allowKey false with level := x.level - 1 }

/-- The comma between entries in brackets. -/
def comma (x : Lexer) : Except Error Lexer :=
  return (← (x.allowKey true).dropKey).take 1 .flowEntry

/-- A dash before an item of a block. -/
def dash (x : Lexer) : Except Error Lexer := do
  if !x.inFlow && !x.keyAllowed then throw .malformed
  let x := if x.inFlow then x else x.openBlock x.cursor.column x.count .blockSequenceStart
  return (← (x.allowKey true).dropKey).take 1 .blockEntry

/-- A question mark before a key. -/
def questionMark (x : Lexer) : Except Error Lexer := do
  if !x.inFlow && !x.keyAllowed then throw .malformed
  let x := if x.inFlow then x else x.openBlock x.cursor.column x.count .blockMappingStart
  return (← (x.allowKey (!x.inFlow)).dropKey).take 1 .key

/-- A colon before a value. If a key may have started before it, it did. -/
def colon (x : Lexer) : Except Error Lexer :=
  match x.keyStarts.lookup x.level with
  | some k =>
    let x := { x with keyStarts := x.keyStarts.filter fun (level, _) => level != x.level }
    let x := x.insert k.tokens .key
    -- the first key of a block opens the block, in front of the key
    let x := if x.inFlow then x else x.openBlock k.column k.tokens .blockMappingStart
    return (x.allowKey false).take 1 .value
  | none => do
    if !x.inFlow && !x.keyAllowed then throw .malformed
    let x := if x.inFlow then x else x.openBlock x.cursor.column x.count .blockMappingStart
    return (x.allowKey (!x.inFlow)).take 1 .value

/-- A token that may be a key by itself; `read` gives it and the place after it. -/
def keyLike (x : Lexer) (read : Cursor → Except Error (Token × Cursor)) : Except Error Lexer := do
  let x ← x.markKey
  let (t, cursor) ← read x.cursor
  return { (x.give t).allowKey false with cursor }

/-- A block scalar. -/
def blockScalar (x : Lexer) (folds : Bool) : Except Error Lexer := do
  let x ← (x.allowKey true).dropKey
  let (text, cursor) ← block folds x.indent x.cursor.next
  return { x.give (.scalar false (String.ofList text)) with cursor }

/-- A plain scalar. A key may follow it if it ends with a line. -/
def plainScalar (x : Lexer) : Except Error Lexer := do
  let x ← x.markKey
  let (text, cursor, atLineStart) :=
    plain x.inFlow x.indent (x.cursor.left + 1) [] false x.cursor
  return { (x.give (.scalar true (String.ofList text))).allowKey atLineStart with cursor }

/-- Whether a plain scalar may start with `c` before `rest`. -/
def startsPlain (inFlow : Bool) (c : Char) (rest : List Char) : Bool :=
  !(atGap [c] || "-?:,[]\x7b\x7d#&*!|>'\"%@\x60".toList.contains c)
    || (!atGap rest && (c == '-' || (!inFlow && (c == '?' || c == ':'))))

/-- Gives the token that starts with `c` before `rest`. -/
def token (x : Lexer) (c : Char) (rest : List Char) : Except Error Lexer :=
  let atMargin := x.cursor.column = 0
  let s := c :: rest
  if c = '%' ∧ atMargin then do
    let x ← x.endDocument
    let (d, cursor) ← directive x.cursor.next
    return { x.give (.directive d) with cursor }
  else if atMargin ∧ startsMarker "---" s then return (← x.endDocument).take 3 .documentStart
  else if atMargin ∧ startsMarker "..." s then return (← x.endDocument).take 3 .documentEnd
  else if c = '[' then x.openBracket .flowSequenceStart
  else if c = '{' then x.openBracket .flowMappingStart
  else if c = ']' then x.closeBracket .flowSequenceEnd
  else if c = '}' then x.closeBracket .flowMappingEnd
  else if c = ',' then x.comma
  else if c = '-' ∧ atGap rest then x.dash
  else if c = '?' ∧ (x.inFlow ∨ atGap rest) then x.questionMark
  else if c = ':' ∧ (x.inFlow ∨ atGap rest) then x.colon
  else if c = '*' then x.keyLike fun cursor => do
    let (name, cursor) ← anchorName cursor.next
    pure (.alias name, cursor)
  else if c = '&' then x.keyLike fun cursor => do
    let (name, cursor) ← anchorName cursor.next
    pure (.anchor name, cursor)
  else if c = '!' then x.keyLike tag
  else if c = '|' ∧ !x.inFlow then x.blockScalar false
  else if c = '>' ∧ !x.inFlow then x.blockScalar true
  else if c = '\'' ∨ c = '"' then x.keyLike fun cursor => do
    let (text, cursor) ← quoted c (cursor.left + 1) cursor.next
    pure (.scalar false (String.ofList text), cursor)
  else if startsPlain x.inFlow c rest then x.plainScalar
  else throw .malformed

/-- Takes the next token; none if the text has ended. -/
def step (x : Lexer) : Except Error (Lexer × Bool) := do
  let x ← (x.skipGap (x.cursor.left + 1)).dropStaleKeys
  -- a token further to the left ends the blocks to the right of it
  let x := x.endBlocks x.cursor.column
  match x.cursor.rest with
  | [] => return (← (x.endBlocks (-1)).dropKey, true)
  | c :: rest => return (← x.token c rest, false)

/-- The tokens that nothing further on can change: those before the first place where a key may
still have started. -/
def settled (x : Lexer) : List Token :=
  let isOpen (k : KeyStart) : Bool := k.required || !x.isStale k
  let waiting := (x.keyStarts.map Prod.snd).filter isOpen
  let n := waiting.foldl (fun n k => min n k.tokens) x.count
  x.tokens.reverse.take n

end Lexer

/-- The tokens of a text as far as they can be told, and what is wrong behind them. -/
structure Tokens where
  settled : List Token
  fault : Option Error

/-- Runs to the end of the text, or to the first fault. -/
def Lexer.run : Nat → Lexer → Tokens
  | 0, x => ⟨x.settled, some .malformed⟩
  | fuel + 1, x =>
    match x.step with
    | .ok (x, false) => run fuel x
    | .ok (x, true) => ⟨x.tokens.reverse, none⟩
    | .error e => ⟨x.settled, some e⟩

/-- The tokens of a text. Every step of the lexer takes a character. -/
def tokens (s : List Char) : Tokens :=
  if s.all isAllowed then (Lexer.ofText s).run (s.length + 1) else ⟨[], some .malformed⟩

end Flowchart.Yaml

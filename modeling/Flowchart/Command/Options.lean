import Flowchart.Path
import Flowchart.Text.Digit
import Flowchart.Text.Quoted

/-!
# Command-line options

What the arguments of the command ask for. They are read in two passes:

* `Argument.ofText` says of each argument by itself whether it is an option,
* `Request.ofArguments` goes through them in order; an option takes the argument behind it as its
  value.

An option may be cut short as long as only one option starts that way. What follows `--` is no
option. The first error ends the reading, and so does a request for help.
-/

namespace Flowchart.Command

/-- The flags of the command: the words that an option is given by. -/
inductive Flag where
  | help
  | out
  | title
  | direction
  | layout
  | styles
  | noLegend
  | verbose
  | strict
deriving DecidableEq, Repr

namespace Flag

/-- The ways to write a flag. -/
def spellings : Flag → List String
  | help => ["-h", "--help"]
  | out => ["--out"]
  | title => ["--title"]
  | direction => ["--direction"]
  | layout => ["--layout"]
  | styles => ["--styles"]
  | noLegend => ["--no-legend"]
  | verbose => ["--verbose"]
  | strict => ["--strict"]

/-- All flags, in the order of the help text. -/
def all : List Flag :=
  [help, out, title, direction, layout, styles, noLegend, verbose, strict]

/-- Every way to write a flag, with the flag. -/
def table : List (String × Flag) :=
  all.flatMap fun f => f.spellings.map (·, f)

/-- Whether a value has to follow. -/
def takesValue : Flag → Bool
  | out | title | direction | layout | styles => true
  | help | noLegend | verbose | strict => false

/-- The name of a flag in a message. -/
def name (f : Flag) : String := String.intercalate "/" f.spellings

end Flag

/-- The directions in which a diagram may flow. -/
def directions : List String := ["TD", "TB", "BT", "LR", "RL"]

/-- What is wrong with the arguments. -/
inductive UsageError where
  /-- An argument could be several flags. -/
  | ambiguous (argument : String) (candidates : List String)
  | missingInput
  | unrecognized (arguments : List String)
  | missingValue (flag : Flag)
  /-- A flag is given a value that it does not take. -/
  | ignoredValue (flag : Flag) (value : String)
  | invalidDirection (value : String)
deriving DecidableEq, Repr

/-- The message for an error. -/
def UsageError.message : UsageError → String
  | ambiguous argument candidates =>
    "ambiguous option: " ++ argument ++ " could match " ++ String.intercalate ", " candidates
  | missingInput => "the following arguments are required: input"
  | unrecognized arguments => "unrecognized arguments: " ++ String.intercalate " " arguments
  | missingValue flag => "argument " ++ flag.name ++ ": expected one argument"
  | ignoredValue flag value =>
    "argument " ++ flag.name ++ ": ignored explicit argument " ++ Text.quoted value
  | invalidDirection value =>
    "argument " ++ Flag.direction.name ++ ": invalid choice: " ++ Text.quoted value
      ++ " (choose from " ++ String.intercalate ", " (directions.map Text.quoted) ++ ")"

/-! ## Single arguments -/

/-- An argument by itself. -/
inductive Argument where
  | positional (text : String)
  /-- The argument `--`. -/
  | marker
  /-- A flag, in its short form or not, with the value that is attached to it. -/
  | flag (f : Flag) (isShort : Bool) (value : Option String)
  /-- What looks like a flag and is none. -/
  | unknown (text : String)
deriving DecidableEq, Repr

/-- The text of a negative number, in the digits of any script. A line feed may end it. -/
def isNegativeNumber : List Char → Bool
  | '-' :: s =>
    let s := if s.getLast? = some '\n' then s.dropLast else s
    let digits := s.takeWhile Text.isDecimal
    match s.drop digits.length with
    | [] => !digits.isEmpty
    | '.' :: fraction => !fraction.isEmpty && fraction.all Text.isDecimal
    | _ => false
  | _ => false

/-- The part of an argument before its first equals sign, and the part behind it if there is one. -/
def splitValue (s : List Char) : List Char × Option String :=
  let word := s.takeWhile (· != '=')
  (word, ((s.drop word.length).tail?).map String.ofList)

/-- The flags that an argument could stand for: one in the short form with the value attached, or
all that start with its word. -/
def candidates (s : List Char) : List (String × Argument) :=
  match s with
  | '-' :: '-' :: _ =>
    let (word, value) := splitValue s
    (Flag.table.filter fun (spelling, _) => word.isPrefixOf spelling.toList).map
      fun (spelling, f) => (spelling, .flag f (spelling.length = 2) value)
  | _ =>
    (Flag.table.filter fun (spelling, _) => spelling.toList = s.take 2).map
      fun (spelling, f) => (spelling, .flag f true (some (String.ofList (s.drop 2))))

/-- What an argument is by itself. -/
def Argument.ofText (text : String) : Except UsageError Argument :=
  match text.toList with
  | '-' :: second :: rest =>
    let s := '-' :: second :: rest
    let (word, value) := splitValue s
    -- a spelling in full wins over everything that it is the start of
    match Flag.table.lookup text, Flag.table.lookup (String.ofList word) with
    | some f, _ => pure (.flag f (text.length = 2) none)
    | none, some f => pure (.flag f (word.length = 2) value)
    | none, none =>
      match candidates s with
      | [] =>
        -- a negative number, or a text with a blank in it, is not mistaken for an option
        pure (if isNegativeNumber s ∨ s.contains ' ' then .positional text else .unknown text)
      | [(_, argument)] => pure argument
      | several => throw (.ambiguous text (several.map Prod.fst))
  | _ => pure (.positional text)

/-- What the arguments are by themselves. -/
def classify : List String → Except UsageError (List Argument)
  | [] => pure []
  | "--" :: rest => pure (.marker :: rest.map .positional)
  | text :: rest => return (← Argument.ofText text) :: (← classify rest)

/-! ## Requests -/

/-- What an option is set to: a value, or the marker `--`, which is accepted right behind an equals
sign and is no value. -/
inductive Setting (α : Type) where
  | value (a : α)
  | marker
deriving Repr

/-- What a conversion is asked to do. -/
structure Options where
  input : Path
  out : Option (Setting Path) := none
  title : Option String := none
  direction : String := "TD"
  layout : Setting String := .value "elk"
  styles : Option Path := none
  legend : Bool := true
  verbose : Bool := false
  strict : Bool := false
deriving Repr

/-- What the command is asked to do. -/
inductive Request where
  | help
  | usage (e : UsageError)
  | convert (o : Options)
deriving Repr

/-- What has been read of the arguments: the options, whether there is an input among them, and the
arguments that found no use. -/
structure Settings where
  options : Options := { input := .ofString "" }
  hasInput : Bool := false
  unused : List String := []

namespace Settings

/-- Sets a flag that takes no value. -/
def setFlag (s : Settings) : Flag → Settings
  | .noLegend => { s with options := { s.options with legend := false } }
  | .verbose => { s with options := { s.options with verbose := true } }
  | .strict => { s with options := { s.options with strict := true } }
  | _ => s

/-- Sets a flag to a value. -/
def setValue (s : Settings) (f : Flag) (value : String) : Except UsageError Settings :=
  match f with
  | .out => pure { s with options := { s.options with out := some (.value (.ofString value)) } }
  | .title => pure { s with options := { s.options with title := some value } }
  | .direction =>
    if directions.contains value then
      pure { s with options := { s.options with direction := value } }
    else throw (.invalidDirection value)
  | .layout => pure { s with options := { s.options with layout := .value value } }
  | .styles => pure { s with options := { s.options with styles := some (.ofString value) } }
  | _ => throw (.ignoredValue f value)

/-- The direction of a diagram whose direction is set to the marker. -/
def markerDirection : String := "[]"

/-- Sets a flag to the marker. A title or a style file is then not given at all. -/
def setMarker (s : Settings) (f : Flag) : Except UsageError Settings :=
  match f with
  | .out => pure { s with options := { s.options with out := some .marker } }
  | .title => pure { s with options := { s.options with title := none } }
  | .direction => pure { s with options := { s.options with direction := markerDirection } }
  | .layout => pure { s with options := { s.options with layout := .marker } }
  | .styles => pure { s with options := { s.options with styles := none } }
  | _ => throw (.ignoredValue f "--")

/-- Sets a flag to what is attached to it. -/
def setAttached (s : Settings) (f : Flag) (value : String) : Except UsageError Settings :=
  if value = "--" then s.setMarker f else s.setValue f value

/-- Keeps an argument for which there is no use. -/
def leave (s : Settings) (text : String) : Settings := { s with unused := s.unused ++ [text] }

/-- Takes an argument that is no option. Only the first one is the input. -/
def setInput (s : Settings) (text : String) : Settings :=
  if s.hasInput then s.leave text
  else { s with options := { s.options with input := .ofString text }, hasInput := true }

/-- The request at the end of the arguments. A missing input is told before unused arguments. -/
def request (s : Settings) : Request :=
  if !s.hasInput then .usage .missingInput
  else if !s.unused.isEmpty then .usage (.unrecognized s.unused)
  else .convert s.options

end Settings

/-- A request for help, to which a value is attached: more short flags for help are well, and
anything else is too much. -/
def helpWith (isShort : Bool) : (value : List Char) → Request
  | ['h'] => if isShort then .help else .usage (.ignoredValue .help "h")
  | 'h' :: rest =>
    if isShort then helpWith isShort rest
    else .usage (.ignoredValue .help (String.ofList ('h' :: rest)))
  | value => .usage (.ignoredValue .help (String.ofList value))

/-- Goes through the arguments in order. -/
def Settings.take (s : Settings) : List Argument → Request
  | [] => s.request
  | .positional text :: .marker :: rest =>
    -- a marker right behind the input belongs to it
    if s.hasInput then ((s.leave text).leave "--").take rest else (s.setInput text).take rest
  | .positional text :: rest => (s.setInput text).take rest
  | .marker :: rest =>
    if s.hasInput ∨ rest.isEmpty then (s.leave "--").take rest else s.take rest
  | .unknown text :: rest => (s.leave text).take rest
  | .flag .help _ none :: _ => .help
  | .flag .help isShort (some value) :: _ => helpWith isShort value.toList
  | .flag f _ (some value) :: rest =>
    match s.setAttached f value with
    | .ok s => s.take rest
    | .error e => .usage e
  | .flag f _ none :: rest =>
    if f.takesValue then
      match rest with
      | .positional value :: rest =>
        match s.setValue f value with
        | .ok s => s.take rest
        | .error e => .usage e
      | _ => .usage (.missingValue f)
    else (s.setFlag f).take rest

/-- The request that the arguments make. -/
def Request.ofArguments (arguments : List String) : Request :=
  match classify arguments with
  | .ok as => ({} : Settings).take as
  | .error e => .usage e

end Flowchart.Command

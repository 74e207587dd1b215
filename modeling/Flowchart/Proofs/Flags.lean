import Flowchart.Command.Options

/-!
# Flags in front of the arguments

The two flags about diagnostics take no value and are never taken back, so each may be put in front
of any arguments.

* `Options.telling` are options with the flags in addition;
* `Settings.take_telling`, by induction on the reading of the arguments: what is set before stays
  set, and has no part in what is read;
* `Request.ofArguments_verbose` and `Request.ofArguments_strict` say it of the command line.
-/

namespace Flowchart.Command

/-- The options with one of the flags in addition, or with both. -/
def Options.telling (verbose strict : Bool) (o : Options) : Options :=
  { o with verbose := verbose || o.verbose, strict := strict || o.strict }

def Settings.telling (verbose strict : Bool) (s : Settings) : Settings :=
  { s with options := s.options.telling verbose strict }

/-- Only a request for a conversion has options. -/
def Request.telling (verbose strict : Bool) : Request → Request
  | .convert o => .convert (o.telling verbose strict)
  | .help => .help
  | .usage e => .usage e

variable {verbose strict : Bool}

namespace Settings

/-! ## Steps of the reading -/

theorem setFlag_telling (s : Settings) (f : Flag) :
    (s.telling verbose strict).setFlag f = (s.setFlag f).telling verbose strict := by
  cases f with
  | verbose | strict => simp [setFlag, telling, Options.telling]
  | _ => rfl

theorem setValue_telling (s : Settings) (f : Flag) (value : String) :
    (s.telling verbose strict).setValue f value
      = (s.setValue f value).map (telling verbose strict) := by
  cases f with
  | direction =>
    simp only [setValue]
    split
    · rfl
    · rfl
  | _ => rfl

theorem setMarker_telling (s : Settings) (f : Flag) :
    (s.telling verbose strict).setMarker f = (s.setMarker f).map (telling verbose strict) := by
  cases f with
  | _ => rfl

theorem setAttached_telling (s : Settings) (f : Flag) (value : String) :
    (s.telling verbose strict).setAttached f value
      = (s.setAttached f value).map (telling verbose strict) := by
  unfold setAttached
  split
  · exact s.setMarker_telling f
  · exact s.setValue_telling f value

theorem leave_telling (s : Settings) (text : String) :
    (s.telling verbose strict).leave text = (s.leave text).telling verbose strict := rfl

theorem setInput_telling (s : Settings) (text : String) :
    (s.telling verbose strict).setInput text = (s.setInput text).telling verbose strict := by
  cases h : s.hasInput with
  | true => simp [setInput, telling, leave, h]
  | false => simp [setInput, telling, Options.telling, h]

theorem request_telling (s : Settings) :
    (s.telling verbose strict).request = s.request.telling verbose strict := by
  cases hinput : s.hasInput with
  | false => simp [request, telling, Request.telling, hinput]
  | true =>
    cases hunused : s.unused with
    | nil => simp [request, telling, Request.telling, hinput, hunused]
    | cons text rest => simp [request, telling, Request.telling, hinput, hunused]

/-- An answer to `-h` has no options. -/
theorem helpWith_telling (isShort : Bool) (value : List Char) :
    helpWith isShort value = (helpWith isShort value).telling verbose strict := by
  fun_induction helpWith isShort value with
  | case3 rest h hshort ih => exact ih
  | _ => rfl

/-- A flag without a value is set, whatever follows. -/
theorem take_flag {f : Flag} (hhelp : f ≠ .help) (h : ¬f.takesValue) (s : Settings)
    (isShort : Bool) (rest : List Argument) :
    s.take (.flag f isShort none :: rest) = (s.setFlag f).take rest := by
  rw [take.eq_def]
  cases f with
  | help => exact absurd rfl hhelp
  | noLegend | verbose | strict => rfl
  | _ => exact absurd rfl h

/-- The flags that are set have no part in how the arguments are read. -/
theorem take_telling (s : Settings) (as : List Argument) :
    (s.telling verbose strict).take as = (s.take as).telling verbose strict := by
  -- where the reading looks at the settings, it looks for the input only
  have hinput : ∀ s : Settings, (s.telling verbose strict).hasInput = s.hasInput := fun _ => rfl
  fun_induction take s as with
  | case1 s => exact s.request_telling
  | case2 s text rest h ih => rw [take, hinput, if_pos h, leave_telling, leave_telling, ih]
  | case3 s text rest h ih => rw [take, hinput, if_neg h, setInput_telling, ih]
  | case4 s text rest h ih =>
    rw [take, setInput_telling, ih]
    exact h
  | case5 s rest h ih => rw [take, hinput, if_pos h, leave_telling, ih]
  | case6 s rest h ih => rw [take, hinput, if_neg h, ih]
  | case7 s text rest ih => rw [take, leave_telling, ih]
  | case8 => rfl
  | case9 s isShort value rest => exact helpWith_telling isShort value.toList
  | case10 s f isShort value rest h next hnext ih =>
    rw [take, setAttached_telling, hnext]
    · exact ih
    · exact h
  | case11 s f isShort value rest h e he =>
    rw [take, setAttached_telling, he]
    · rfl
    · exact h
  | case12 s f isShort h hvalue value rest next hnext ih =>
    rw [take, if_pos hvalue, setValue_telling, hnext]
    · exact ih
    · exact h
  | case13 s f isShort h hvalue value rest e he =>
    rw [take, if_pos hvalue, setValue_telling, he]
    · rfl
    · exact h
  | case14 s f isShort rest h hvalue hrest =>
    rw [take, if_pos hvalue]
    · rfl
    · exact h
    · exact hrest
  | case15 s f isShort rest h hvalue ih => rw [take_flag h hvalue, setFlag_telling, ih]

end Settings

/-! ## Command lines -/

namespace Request

/-- A flag in front of the arguments is set before they are read. -/
theorem ofArguments_cons {text : String} {f : Flag} (htext : text ≠ "--")
    (hflag : Argument.ofText text = .ok (.flag f false none)) (hhelp : f ≠ .help)
    (h : ¬f.takesValue)
    (hset : ({} : Settings).setFlag f = ({} : Settings).telling verbose strict)
    (arguments : List String) :
    ofArguments (text :: arguments) = (ofArguments arguments).telling verbose strict := by
  rw [ofArguments, ofArguments, classify, hflag]
  · cases classify arguments with
    | error e => rfl
    | ok as =>
      have htake := Settings.take_flag hhelp h {} false as
      rw [hset, Settings.take_telling] at htake
      exact htake
  · exact htext

theorem ofArguments_verbose (arguments : List String) :
    ofArguments ("--verbose" :: arguments) = (ofArguments arguments).telling true false :=
  ofArguments_cons (by decide) rfl (by decide) (by decide) rfl arguments

theorem ofArguments_strict (arguments : List String) :
    ofArguments ("--strict" :: arguments) = (ofArguments arguments).telling false true :=
  ofArguments_cons (by decide) rfl (by decide) (by decide) rfl arguments

end Request

end Flowchart.Command

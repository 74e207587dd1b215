import Flowchart.Command.Run
import Flowchart.Proofs.Emission
import Flowchart.Proofs.Flags
import Flowchart.Proofs.Halting
import Flowchart.Proofs.Writing

/-!
# What a run shows

Diagnostics are shown as they are reported, so what comes before an error cannot be taken back.

* `Options.convert_cases`: a run that gives no diagram has reported nothing, unless it has halted at
  a limit while it converted. `Options.convert_refused` is the case of a text that the library for
  YAML refuses;
* `Drawn.severity_of_report`: what is reported is a warning or informs;
* `run_outcome` says of every run how it ends, and what of it depends on the two flags that only
  concern diagnostics;
* `run_spoiled` is a run that has shown a warning when it halts at a label.
-/

namespace Flowchart

/-- A step succeeds whatever its errors are turned into. -/
theorem eq_ok_of_mapError_eq_ok {ε ε' α : Type} {x : Except ε α} {f : ε → ε'} {a : α}
    (h : x.mapError f = .ok a) : x = .ok a := by
  cases x with
  | error e => cases h
  | ok a' =>
    cases h
    rfl

namespace Diagram

/-! ## What is reported -/

/-- A conversion reports warnings, and what informs. -/
theorem Drawn.severity_of_report {config : Config} {actions : Actions} {c : Conversion} {t : Trip}
    (h : Drawn config actions c t) {r : Diagnostic} (hr : r ∈ c.reports) :
    r.severity = .info ∨ r.severity = .warning := by
  have hcustom : ∀ severity code message action, r ≠ .custom severity code message action := by
    rintro severity code message action rfl
    rcases h.report_cases hr with hearlier | hstroke | hline
    · exact hearlier
    · exact h.isRemark_of_report_mem _ hstroke
    · exact hline
  cases r with
  | custom severity code message action => exact absurd rfl (hcustom severity code message action)
  | classDefined | connected | subgraphStarted | subgraphEnded | exitNodes => exact Or.inl rfl
  | _ => exact Or.inr rfl

/-- So does a log that was empty before. -/
theorem severity_of_convert (config : Config) (definition : Value) :
    ∀ r ∈ (convert config (.empty []) definition).1.entries,
      r.severity = .info ∨ r.severity = .warning := by
  intro r hr
  rw [convert_fst, Log.entries_recordAll rfl, reportsOn] at hr
  cases hactions : Definition.actions? definition with
  | none =>
    rw [hactions] at hr
    exact absurd hr List.not_mem_nil
  | some entries =>
    rw [hactions] at hr
    obtain ⟨t, ht, -⟩ := ofEntries_drawn config entries
    exact ht.severity_of_report hr

/-- A definition without a diagram leaves no trace, unless the work has halted. -/
theorem convert_eq_error {config : Config} {log : Log} {definition : Value} {e : ConversionError}
    (h : (convert config log definition).2 = .error e) :
    (convert config log definition).1 = log ∨ ∃ entries limit, e = .limit limit ∧
      Definition.actions? definition = some entries ∧
      (Conversion.ofEntries config entries).halt? = some limit := by
  rw [convert] at h ⊢
  cases hactions : Definition.actions? definition with
  | none => exact Or.inl rfl
  | some entries =>
    rw [hactions] at h
    dsimp only at h
    split at h
    · rename_i limit hhalt
      cases h
      exact Or.inr ⟨entries, limit, rfl, rfl, hhalt⟩
    · cases h

end Diagram

namespace Command

open Diagram (labelLimit? convert_eq_error severity_of_convert exists_limit_of_ofEntries
  longReference all_longReference labelLimit?_longReference spoiled ofEntries_spoiled
  reports_spoiled convert_spoiled)

namespace Options

/-! ## Steps of a run -/

/-- Nothing is reported before the conversion. -/
theorem convert_cases (o : Options) (env : Environment) :
    (∃ e, o.load env = .error e ∧ o.convert env = (.empty [], .error e)) ∨
      ∃ config definition, o.load env = .ok (config, definition) ∧
        o.convert env = ((Flowchart.convert config (.empty []) definition).1,
          (Flowchart.convert config (.empty []) definition).2.mapError
            fun e => .load (.conversion e)) := by
  rw [convert]
  cases hload : o.load env with
  | error e => exact Or.inl ⟨e, rfl, rfl⟩
  | ok loaded => exact Or.inr ⟨loaded.1, loaded.2, rfl, rfl⟩

/-- What is loaded is the definition in the input. -/
theorem definition_of_load {o : Options} {env : Environment} {config : Config} {definition : Value}
    (h : o.load env = .ok (config, definition)) :
    loadDefinition env o.input = .ok definition := by
  have hrest : ∀ styles, (do
      let config ← o.config styles
      return (config, ← (loadDefinition env o.input).mapError Failure.load))
        = .ok (config, definition) → loadDefinition env o.input = .ok definition := by
    intro styles h
    obtain ⟨config', -, h⟩ := exists_of_bind_eq_ok h
    obtain ⟨definition', hload, h⟩ := exists_of_bind_eq_ok h
    cases h
    exact eq_ok_of_mapError_eq_ok hload
  rw [load] at h
  cases hstyles : o.styles with
  | none =>
    rw [hstyles] at h
    exact hrest _ h
  | some path =>
    rw [hstyles] at h
    obtain ⟨styles, -, h⟩ := exists_of_bind_eq_ok h
    exact hrest styles h

/-- A text that the library for YAML refuses ends the run before anything is reported. -/
theorem convert_refused {o : Options} {env : Environment} {config : Config} {text : String}
    {e : Yaml.Failure} (hstyles : o.styles = none) (hconfig : o.config [] = .ok config)
    (hyaml : isYamlPath o.input) (htext : env.readText o.input = .ok text)
    (he : env.yaml text = .error e) :
    o.convert env = (.empty [], .error (.load (.yaml o.input e))) := by
  have hdefinition : loadDefinition env o.input = .error (.yaml o.input e) := by
    rw [loadDefinition, if_pos hyaml, Environment.readYaml, htext]
    dsimp only [bind, Except.bind]
    rw [he]
    rfl
  have hload : o.load env = .error (.load (.yaml o.input e)) := by
    rw [load, hstyles]
    dsimp only [pure, Except.pure, bind, Except.bind]
    rw [hconfig, hdefinition]
    rfl
  rw [convert, hload]
  rfl

/-- A definition that is not in YAML names everything by texts. -/
theorem textKeyed_of_load {o : Options} {env : Environment} {config : Config} {definition : Value}
    (h : o.load env = .ok (config, definition)) (hjson : isYamlPath o.input = false) :
    definition.TextKeyed := by
  have hread : ∀ text, (readJson text).mapError LoadError.conversion = .ok definition →
      definition.TextKeyed := by
    intro text h
    have hspec := Json.read_spec text
    rw [eq_ok_of_mapError_eq_ok (eq_ok_of_mapError_eq_ok h)] at hspec
    exact hspec.2
  have hload := definition_of_load h
  rw [loadDefinition, hjson, if_neg (by simp)] at hload
  dsimp only at hload
  split at hload
  · obtain ⟨text, -, h⟩ := exists_of_bind_eq_ok hload
    exact hread text h
  · obtain ⟨text, -, h⟩ := exists_of_bind_eq_ok hload
    exact hread text h

/-- The flags that only concern diagnostics do not change the conversion. -/
theorem convert_flags (o : Options) (env : Environment) (verbose strict : Bool) :
    { o with verbose, strict }.convert env = o.convert env := rfl

/-- A run without a diagram has reported nothing, or it has loaded a definition and halted. -/
theorem log_of_convert_error {o : Options} {env : Environment} {log : Log} {e : Failure}
    (h : o.convert env = (log, .error e)) :
    log = .empty [] ∨ ∃ config definition entries limit, o.load env = .ok (config, definition) ∧
      Definition.actions? definition = some entries ∧
      (Conversion.ofEntries config entries).halt? = some limit ∧
      e = .load (.conversion (.limit limit)) := by
  rcases o.convert_cases env with ⟨e', -, hconvert⟩ | ⟨config, definition, hload, hconvert⟩
  · rw [hconvert] at h
    cases h
    exact Or.inl rfl
  · rw [hconvert, Prod.mk.injEq] at h
    obtain ⟨hlog, herror⟩ := h
    cases hresult : (Flowchart.convert config (.empty []) definition).2 with
    | ok c =>
      rw [hresult] at herror
      cases herror
    | error cause =>
      rw [hresult] at herror
      cases herror
      rw [← hlog]
      refine (convert_eq_error hresult).imp_right ?_
      rintro ⟨entries, limit, rfl, hactions, hhalt⟩
      exact ⟨config, definition, entries, limit, hload, hactions, hhalt, rfl⟩

theorem severity_of_log {o : Options} {env : Environment} {log : Log} {c : Conversion}
    (h : o.convert env = (log, .ok c)) :
    ∀ r ∈ log.entries, r.severity = .info ∨ r.severity = .warning := by
  rcases o.convert_cases env with ⟨e, -, hconvert⟩ | ⟨config, definition, -, hconvert⟩
  · rw [hconvert] at h
    cases h
  · rw [hconvert, Prod.mk.injEq] at h
    rw [← h.1]
    exact severity_of_convert config definition

end Options

/-! ## Runs -/

/-- The lines that show diagnostics. -/
def linesOf (ds : List Diagnostic) : String := String.join (ds.map fun d => d.format ++ "\n")

/-- A verbose run shows all, and any other leaves out what informs. -/
theorem report_flags {o : Options} {log : Log}
    (h : ∀ r ∈ log.entries, r.severity = .info ∨ r.severity = .warning) (verbose strict : Bool) :
    { o with verbose, strict }.report log
      = linesOf (if verbose then log.entries else log.entries.filter (·.severity ≠ .info)) := by
  cases verbose with
  | true =>
    have hshows : ∀ r ∈ log.entries, Options.shows { o with verbose := true, strict } r :=
      fun r _ => Bool.or_true _
    rw [Options.report, List.filter_eq_self.mpr hshows]
    rfl
  | false =>
    have hshows : ∀ r ∈ log.entries,
        Options.shows { o with verbose := false, strict } r = decide (r.severity ≠ .info) := by
      intro r hr
      rcases h r hr with hr | hr
      · simp [Options.shows, hr]
      · simp [Options.shows, hr]
    rw [Options.report, List.filter_congr hshows]
    rfl

/-- A run that converts shows and writes the same whatever the flags. They decide how much it tells
and how it ends. -/
theorem converted_flags {o : Options} {log : Log} (hout : o.out ≠ some .marker)
    (h : ∀ r ∈ log.entries, r.severity = .info ∨ r.severity = .warning) (c : Conversion)
    (verbose strict : Bool) :
    let d := converted { o with verbose, strict } c log
    d.stdout = (converted o c log).stdout ∧ d.page = (converted o c log).page ∧
      d.stderr
        = linesOf (if verbose then log.entries else log.entries.filter (·.severity ≠ .info)) ∧
      d.status = if strict ∧ ∃ r ∈ log.entries, r.severity = .warning then 2 else 0 := by
  have hstatus : (if strict && !log.warnings.isEmpty then 2 else 0)
      = if strict ∧ ∃ r ∈ log.entries, r.severity = .warning then 2 else 0 := by
    congr 1
    simp [Log.warnings, Log.ofSeverity]
  rw [← report_flags h verbose strict, ← hstatus]
  simp only [converted]
  cases hsetting : o.out with
  | none => exact ⟨rfl, rfl, rfl, rfl⟩
  | some setting =>
    cases setting with
    | value path => exact ⟨rfl, rfl, rfl, rfl⟩
    | marker => exact absurd hsetting hout

theorem failed_of_isExpected {e : Failure} (h : e.isExpected) (report : String) :
    failed report e = ⟨2, "", report ++ "error: " ++ e.message ++ "\n", none, some e⟩ :=
  if_pos h

theorem failed_of_not_isExpected {e : Failure} (h : ¬e.isExpected) (report : String) :
    failed report e = ⟨1, "", report, none, some e⟩ :=
  if_neg h

theorem run_of_error {arguments : List String} {o : Options} {env : Environment} {log : Log}
    {e : Failure} (h : Request.ofArguments arguments = .convert o)
    (he : o.convert env = (log, .error e)) : run arguments env = failed (o.report log) e := by
  rw [run, h, answer, he]

theorem run_of_ok {arguments : List String} {o : Options} {env : Environment} {log : Log}
    {c : Conversion} (h : Request.ofArguments arguments = .convert o)
    (hc : o.convert env = (log, .ok c)) : run arguments env = converted o c log := by
  rw [run, h, answer, hc]

/-! ## Runs on the standard input -/

/-- Without a style file, what is loaded from the standard input is converted as the options say. -/
theorem Options.convert_stdin {o : Options} {config : Config} {v : Value} {s : List Char}
    (hinput : o.input = stdinPath) (hstyles : o.styles = none) (hconfig : o.config [] = .ok config)
    (h : Json.Writes v s) (hs : s.all Text.isPrintableAscii) (tree : FileTree)
    (yaml : Yaml.Library) :
    o.convert ⟨tree, Text.asciiBytes s, yaml⟩ = ((Flowchart.convert config (.empty []) v).1,
      (Flowchart.convert config (.empty []) v).2.mapError fun e => .load (.conversion e)) := by
  have hload : o.load ⟨tree, Text.asciiBytes s, yaml⟩ = .ok (config, v) := by
    rw [load, hstyles]
    dsimp only [pure, Except.pure, bind, Except.bind]
    rw [hconfig, hinput, loadDefinition_stdin h hs]
    rfl
  rw [convert, hload]

/-- The options of a run on the standard input. -/
def plainOptions : Options := { input := stdinPath }

theorem ofArguments_plain : Request.ofArguments ["-"] = .convert plainOptions := rfl

theorem config_plain : plainOptions.config [] = .ok {} := rfl

/-- A definition with a member that is no action and an action of this name, as a text. -/
def spoiledText (name : List Char) : List Char :=
  Json.objectText (Json.memberText "actions".toList (Json.objectText
    (Json.memberText "A".toList "null".toList ++ ',' :: Json.memberText name (Json.objectText []))))

theorem writes_spoiledText {name : List Char} (hname : name.all Json.isPlain)
    (hne : "A" ≠ String.ofList name) :
    Json.Writes (definitionOf (spoiled (String.ofList name))) (spoiledText name) := by
  have hmembers : Json.WritesMembers [("A", .null), (String.ofList name, .map [])]
      (Json.memberText "A".toList "null".toList
        ++ ',' :: Json.memberText name (Json.objectText [])) :=
    .cons (by decide) Json.writes_null (.one hname Json.writes_emptyObject)
  have hkeys : ["A", String.ofList name].Nodup :=
    List.nodup_cons.mpr ⟨fun hmem => hne (List.mem_singleton.mp hmem), List.nodup_singleton _⟩
  exact (Json.WritesMembers.one (by decide) (hmembers.object hkeys)).object (List.nodup_singleton _)

theorem ascii_spoiledText {name : List Char} (hname : name.all Text.isPrintableAscii) :
    (spoiledText name).all Text.isPrintableAscii := by
  simp only [spoiledText, List.all_append, List.all_cons, Json.all_memberText, Json.all_objectText,
    hname]
  decide

/-- If the action is named by a reference that is too long, the warning about the other member is
shown before the error. -/
theorem run_spoiled {digits : Nat} (h : Decimal.maxDigits < digits) (tree : FileTree)
    (yaml : Yaml.Library) :
    let d := run ["-"] ⟨tree, Text.asciiBytes (spoiledText (longReference digits)), yaml⟩
    let e : Failure := .load (.conversion (.limit (.reading digits)))
    d.failure = some e ∧ d.status = 2 ∧ ∃ more, d.stderr
      = "warning: Action \"A\": expected an object, got NoneType; skipping\n" ++ linesOf more
        ++ "error: " ++ e.message ++ "\n" := by
  have hne : "A" ≠ String.ofList (longReference digits) := by
    intro heq
    have hfirst := congrArg (fun s => s.toList.head?) heq
    simp [longReference] at hfirst
  have hconvert := Options.convert_stdin rfl rfl config_plain
    (writes_spoiledText (all_longReference (by decide) digits) hne)
    (ascii_spoiledText (all_longReference (by decide) digits)) tree yaml
  obtain ⟨more, hhalts⟩ := convert_spoiled {} (.empty []) (labelLimit?_longReference h)
  rw [hhalts] at hconvert
  have hshown : plainOptions.shows (.malformedAction "A" (.notAnObject "NoneType")) := rfl
  have hline : (Diagnostic.malformedAction "A" (.notAnObject "NoneType")).format ++ "\n"
      = "warning: Action \"A\": expected an object, got NoneType; skipping\n" := by decide
  intro d e
  have hrun : d = failed (plainOptions.report ((Log.empty []).recordAll
      (.malformedAction "A" (.notAnObject "NoneType") :: more))) e :=
    run_of_error ofArguments_plain hconvert
  rw [hrun, failed_of_isExpected rfl, Options.report, Log.entries_recordAll rfl, Log.empty,
    List.nil_append, List.filter_cons_of_pos hshown, List.map_cons, String.join_cons, hline]
  exact ⟨rfl, rfl, more.filter plainOptions.shows, rfl⟩

/-- If the name can be read, there is a diagram next to the warning. -/
theorem convert_harmless (tree : FileTree) (yaml : Yaml.Library) : ∃ log c,
    plainOptions.convert ⟨tree, Text.asciiBytes (spoiledText ['B']), yaml⟩ = (log, .ok c) ∧
      ∃ r ∈ log.entries, r.severity = .warning := by
  have hconvert := Options.convert_stdin rfl rfl config_plain
    (writes_spoiledText (by decide : ['B'].all Json.isPlain) (by decide))
    (ascii_spoiledText (by decide)) tree yaml
  have hactions : Definition.actions? (definitionOf (spoiled (String.ofList ['B'])))
      = some (spoiled (String.ofList ['B'])) := rfl
  have hhalt : (Conversion.ofEntries {} (spoiled (String.ofList ['B']))).halt? = none := by
    rw [Conversion.halt?, Conversion.ofEntries, ofEntries_spoiled]
    decide +kernel
  rw [Diagram.convert_eq_ok hactions hhalt] at hconvert
  refine ⟨_, _, hconvert, .malformedAction "A" (.notAnObject "NoneType"), ?_, rfl⟩
  obtain ⟨more, hreports⟩ := reports_spoiled {} (String.ofList ['B'])
  simp only [Flowchart.convert, hactions]
  rw [Log.entries_recordAll rfl, hreports]
  exact List.mem_append_right _ List.mem_cons_self

/-! ## A run on a file in YAML -/

/-- What a library says about a bracket that is not closed. -/
def openBracket : Yaml.Failure :=
  .malformed ("while parsing a flow node\nexpected the node content, but found '<stream end>'\n"
    ++ "  in \"<unicode string>\", line 1, column 2:\n    [\n     ^")

/-- A file with such a text. -/
def brokenFile : Environment where
  tree := ⟨[(["flow.yaml"], Text.asciiBytes ['['])], []⟩
  stdin := .empty
  yaml := fun _ => .error openBracket

/-- The options of a run on this file. -/
def brokenOptions : Options := { input := ⟨"", ["flow.yaml"]⟩ }

theorem ofArguments_broken : Request.ofArguments ["flow.yaml"] = .convert brokenOptions := rfl

theorem readText_broken : brokenFile.readText brokenOptions.input = .ok (String.ofList ['[']) := by
  refine Environment.readText_ascii ?_ (by decide)
  have hplain : ¬brokenOptions.input.text.contains '\x00' := by
    rw [String.contains_char_eq]
    decide
  have hplace : brokenFile.tree.place brokenOptions.input = .ok ["flow.yaml"] := by
    rw [FileTree.place, if_neg hplain, if_neg (by decide)]
    rfl
  rw [FileTree.read, FileTree.find, hplace]
  rfl

theorem convert_broken : brokenOptions.convert brokenFile
    = (.empty [], .error (.load (.yaml brokenOptions.input openBracket))) :=
  Options.convert_refused rfl config_plain (by decide) readText_broken rfl

/-! ## How runs end -/

/-- Whatever the files and the standard input hold, and whatever the library makes of a text in YAML:
a run fails before it shows or writes anything else, unless it halts at a limit while it converts.
Then there are reports before the error. A failure that is not expected shows nothing at all. A run
that converts shows and writes the same as the runs that differ from it in telling more or in being
strict, shows the reports without what informs if it is not verbose, and ends well if it is not
strict or has nothing to warn of. -/
theorem run_outcome {arguments : List String} {o : Options}
    (h : Request.ofArguments arguments = .convert o) (env : Environment) :
    (∀ log e, o.convert env = (log, .error e) → e.isExpected →
      (run arguments env).status = 2 ∧ (run arguments env).stdout = "" ∧
        (∀ files, (run arguments env).save files = .ok files) ∧
        ((run arguments env).stderr = "error: " ++ e.message ++ "\n" ∨
          ∃ config definition entries limit, o.load env = .ok (config, definition) ∧
            Definition.actions? definition = some entries ∧
            (Conversion.ofEntries config entries).halt? = some limit ∧
            e = .load (.conversion (.limit limit)) ∧
            (run arguments env).stderr = o.report log ++ "error: " ++ e.message ++ "\n" ∧
            (isYamlPath o.input = false →
              ∃ label ∈ (Actions.ofEntries entries).1.labels config.styles,
                labelLimit? label = some limit))) ∧
    (∀ log e, o.convert env = (log, .error e) → ¬e.isExpected →
      run arguments env = ⟨1, "", "", none, some e⟩) ∧
    ∀ log c, o.convert env = (log, .ok c) → o.out ≠ some .marker →
      ∀ arguments' verbose strict,
        Request.ofArguments arguments' = .convert { o with verbose, strict } →
        (run arguments' env).stdout = (run arguments env).stdout ∧
          (∀ files, (run arguments' env).save files = (run arguments env).save files) ∧
          (run arguments' env).stderr = linesOf
            (if verbose then log.entries else log.entries.filter (·.severity ≠ .info)) ∧
          (run arguments' env).status
            = if strict ∧ ∃ r ∈ log.entries, r.severity = .warning then 2 else 0 := by
  refine ⟨fun log e he hexpected => ?_, fun log e he hexpected => ?_, ?_⟩
  · -- only a conversion that halts leaves something in the log of a failure
    rw [run_of_error h he, failed_of_isExpected hexpected]
    refine ⟨rfl, rfl, fun files => rfl, ?_⟩
    rcases Options.log_of_convert_error he with rfl | ⟨config, definition, entries, limit, hload,
      hactions, hhalt, rfl⟩
    · exact Or.inl rfl
    · refine Or.inr ⟨config, definition, entries, limit, hload, hactions, hhalt, rfl, rfl,
        fun hjson => ?_⟩
      exact exists_limit_of_ofEntries ((Options.textKeyed_of_load hload hjson).actions? hactions)
        hhalt
  · rw [run_of_error h he, failed_of_not_isExpected hexpected]
    rcases Options.log_of_convert_error he with rfl | ⟨_, _, _, _, -, -, -, rfl⟩
    · rfl
    · exact absurd rfl hexpected
  · intro log c hc hout arguments' verbose strict h'
    have hc' : { o with verbose, strict }.convert env = (log, .ok c) := by
      rw [Options.convert_flags, hc]
    obtain ⟨hstdout, hpage, hstderr, hstatus⟩ :=
      converted_flags hout (Options.severity_of_log hc) c verbose strict
    rw [run_of_ok h hc, run_of_ok h' hc']
    exact ⟨hstdout, fun files => by rw [Draft.save, hpage, Draft.save], hstderr, hstatus⟩

/-- A run on a file in YAML that breaks off, and two runs that warn. -/
theorem run_outcome_sample :
    (run ["flow.yaml"] brokenFile).stderr
        = "error: Failed to parse YAML flow.yaml: while parsing a flow node\n"
          ++ "expected the node content, but found '<stream end>'\n"
          ++ "  in \"<unicode string>\", line 1, column 2:\n    [\n     ^\n" ∧
      let env := { brokenFile with stdin := Text.asciiBytes (spoiledText ['B']) }
      (run ["--strict", "--verbose", "-"] env).stdout = (run ["-"] env).stdout ∧
        (run ["--strict", "--verbose", "-"] env).status = 2 ∧ (run ["-"] env).status = 0 := by
  refine ⟨?_, ?_⟩
  · obtain ⟨-, -, -, hstderr | ⟨_, _, _, _, -, -, -, he, -⟩⟩ :=
      (run_outcome ofArguments_broken brokenFile).1 _ _ convert_broken rfl
    · rw [hstderr]
      decide +kernel
    · cases he
  · intro env
    obtain ⟨log, c, hconvert, hwarns⟩ := convert_harmless brokenFile.tree brokenFile.yaml
    have hflags : Request.ofArguments ["--strict", "--verbose", "-"]
        = .convert { plainOptions with verbose := true, strict := true } := by
      rw [Request.ofArguments_strict, Request.ofArguments_verbose, ofArguments_plain]
      rfl
    have hout : plainOptions.out ≠ some .marker := fun h => by cases h
    have hruns := (run_outcome ofArguments_plain env).2.2 log c hconvert hout
    obtain ⟨hstdout, -, -, hstrict⟩ := hruns _ true true hflags
    obtain ⟨-, -, -, hplain⟩ := hruns _ false false ofArguments_plain
    rw [if_pos ⟨rfl, hwarns⟩] at hstrict
    exact ⟨hstdout, hstrict, hplain⟩

/-- A run on a spoiled definition fails as expected, and yet the error is not all that it shows. -/
theorem run_outcome_spoiled :
    let text := Text.asciiBytes (spoiledText (longReference 4301))
    let d := run ["-"] { brokenFile with stdin := text }
    ∃ e, d.failure = some e ∧ e.isExpected ∧ d.status = 2 ∧
      d.stderr ≠ "error: " ++ e.message ++ "\n" := by
  -- the number of digits is kept general, so that nothing is computed with so many of them
  have hgeneral : ∀ digits, Decimal.maxDigits < digits →
      let text := Text.asciiBytes (spoiledText (longReference digits))
      let d := run ["-"] { brokenFile with stdin := text }
      ∃ e, d.failure = some e ∧ e.isExpected ∧ d.status = 2 ∧
        d.stderr ≠ "error: " ++ e.message ++ "\n" := by
    intro digits h
    obtain ⟨hfailure, hstatus, more, hstderr⟩ := run_spoiled h brokenFile.tree brokenFile.yaml
    refine ⟨_, hfailure, rfl, hstatus, fun heq => ?_⟩
    have hfirst := congrArg (fun s => s.toList.head?) (hstderr.symm.trans heq)
    simp at hfirst
  exact hgeneral 4301 (by decide)

end Command

end Flowchart

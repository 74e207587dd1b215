import Flowchart.Proofs.Recording

/-!
# Drawing with the log at hand

After the actions of a definition have been read, the drawing is done with the log at hand, too:
every stroke is drawn where the walk comes to it, and whatever is reported goes to the log on the
spot.

* `Emission` is the state of such a drawing, with the log in it, and `emitWithin` is the walk on
  that state;
* `Performs` says that nothing but the order of work is different: `performs_emitWithin`;
* `convertAloud` does all work of a conversion that way, and `convertAloud_eq` says that it comes to
  the same;
* `convert_ignoring`: the codes that a log ignores change what is recorded and told, and nothing
  else.
-/

namespace Flowchart

namespace Diagram

/-! ## Emissions -/

/-- A drawing in progress: the memory of the walk, the canvas, and the log. -/
structure Emission (σ : Type) where
  memo : Memo
  canvas : Canvas
  recorder : Recorder σ

/-- A part of the work. It gives exit nodes and the state after it, or halts and leaves the log. -/
abbrev Emit (σ : Type) :=
  Emission σ → Except (Decimal.LimitError × Recorder σ) (List String × Emission σ)

section Emit

variable {σ : Type} (hear : σ → Diagnostic → σ)

/-- Two parts of the work in a row. -/
def Emit.andThen (first next : Emit σ) : Emit σ := fun st => do
  let (exits, st) ← first st
  let (more, st) ← next st
  return (exits ++ more, st)

/-- The same work with other exit nodes. -/
def Emit.ending (e : Emit σ) (f : List String → List String) : Emit σ := fun st => do
  let (exits, st) ← e st
  return (f exits, st)

/-- Draws strokes one after another; each is reported when it has been drawn. -/
def drawEach : List Stroke → Emit σ
  | [] => fun st => .ok ([], st)
  | s :: rest => fun st => do
    let (canvas, events) := st.canvas.draw s
    let recorder ← st.recorder.follow hear events
    drawEach rest { st with canvas, recorder }

/-! ## The walk, drawn at once -/

/-- Visits the names of a group in order. -/
def emitEach (visit : String → Actions → Emit σ) (group : Actions) (w : Wiring) (isFirst : Bool) :
    List String → Emit σ
  | [] => drawEach hear []
  | name :: rest =>
    ((drawEach hear (w.strokes isFirst name)).andThen (visit name group)).andThen
      (emitEach visit group w false rest)

/-- Visits all actions of a group; an exit node that several share is given once. -/
def emitAll (visit : String → Actions → Emit σ) (group : Actions) (w : Wiring) : Emit σ :=
  (emitEach hear visit group w true group.keys).ending unique

/-- Draws a group inside the action whose node is `id`. -/
def emitGroup (visit : String → Actions → Emit σ) (id : String) (g : Group) : Emit σ :=
  match g.actions.isEmpty, g.whenEmpty with
  | false, _ => emitAll hear visit g.actions ⟨some id, g.reach, g.text, g.note⟩
  | true, some d => (drawEach hear [.report d]).ending fun _ => [id]
  | true, none => drawEach hear []

/-- Draws groups one after another. -/
def emitGroups (visit : String → Actions → Emit σ) (id : String) : List Group → Emit σ
  | [] => drawEach hear []
  | g :: rest => (emitGroup hear visit id g).andThen (emitGroups visit id rest)

/-- Draws an action: its node, the groups inside it, and the box around them. -/
def emitAction (styles : StyleTable) (visit : String → Actions → Emit σ) (name : String)
    (a : Action) : Emit σ :=
  (((drawEach hear (a.opening styles name)).andThen
      (emitGroups hear visit (nodeId name) (a.groups name))).andThen
      (drawEach hear (a.closing name))).ending fun inside =>
    if a.endsAtNode && inside.isEmpty then [nodeId name] else inside

/-- Makes sure that the action `dependency` is drawn, and leads from there to the action `name`. -/
def emitDependency (p : Plan) (visit : String → Actions → Emit σ) (name dependency : String) :
    Emit σ :=
  match p.index.lookup dependency with
  | none => drawEach hear [.report (.dependencyNotFound name dependency)]
  | some declaration =>
    let before : Emit σ := fun st =>
      match st.memo.progress? dependency with
      | none => visit dependency declaration.container st
      | some .underway => drawEach hear [.report (.dependencyCycle name dependency)] st
      | some .done => drawEach hear [] st
    let arrows : Emit σ := fun st =>
      drawEach hear ((st.memo.exitsOf dependency).map fun source =>
        .connect source (nodeId name) none "") st
    (before.andThen arrows).ending fun _ => []

/-- Connects the dependencies of an action in order. -/
def emitDependencies (p : Plan) (visit : String → Actions → Emit σ) (name : String) :
    List String → Emit σ
  | [] => drawEach hear []
  | dependency :: rest =>
    (emitDependency hear p visit name dependency).andThen (emitDependencies p visit name rest)

/-- One step of the walk: an action is marked, its dependencies are drawn, then the action itself,
and its exit nodes are reported. -/
def emitVisit (p : Plan) (deeper : String → Actions → Emit σ) (name : String) (group : Actions) :
    Emit σ := fun st =>
  match group.lookup name with
  | none => drawEach hear [.report (.actionNotFound name)] st
  | some action =>
    match st.memo.progress? name with
    | some _ => .ok (st.memo.exitsOf name, st)
    | none => do
      let (exits, st) ← (((emitDependencies hear p deeper name action.runAfter).andThen
        (emitAction hear p.styles deeper name action)).ending unique)
          { st with memo := st.memo.start name }
      let (_, st) ← drawEach hear [.report (.exitNodes name exits)] st
      return (exits, { st with memo := st.memo.finish name exits })

/-- The walk to a bounded depth. -/
def emitWithin (p : Plan) : Nat → String → Actions → Emit σ
  | 0 => fun _ _ => drawEach hear []
  | depth + 1 => emitVisit hear p (emitWithin p depth)

/-- Draws the start node, and then all actions. -/
def emitDiagram (p : Plan) (actions : Actions) : Emit σ :=
  (drawEach hear (startStrokes actions)).andThen
    (emitAll hear (emitWithin hear p p.depth) actions ⟨none, .none, none, ""⟩)

/-! ## The order of work -/

/-- What is left when the strokes of a part of a walk are drawn after it. -/
def Leg.perform (leg : Leg) : Emit σ := fun st =>
  (st.recorder.follow hear (st.canvas.drawAll leg.strokes).2).map fun recorder =>
    (leg.exits, ⟨leg.memo, (st.canvas.drawAll leg.strokes).1, recorder⟩)

/-- Work that comes to the same as finding out first what is to be drawn. -/
def Performs (e : Emit σ) (next : Memo → Leg) : Prop :=
  ∀ st, e st = (next st.memo).perform hear st

variable {hear}

theorem performs_drawEach (ss : List Stroke) : Performs hear (drawEach hear ss) (.ofStrokes ss) := by
  induction ss with
  | nil => exact fun st => rfl
  | cons s rest ih =>
    intro st
    rw [drawEach, Leg.perform]
    simp only [Leg.ofStrokes, Canvas.drawAll, Recorder.follow_append]
    cases hfollow : st.recorder.follow hear (st.canvas.draw s).2 with
    | error e => rfl
    | ok recorder => exact ih { st with canvas := (st.canvas.draw s).1, recorder }

/-- Strokes may be drawn between two parts of a walk. -/
theorem Performs.andThen {e e' : Emit σ} {next next' : Memo → Leg} (h : Performs hear e next)
    (h' : Performs hear e' next') :
    Performs hear (e.andThen e') fun m => (next m).andThen next' := by
  intro st
  rw [Emit.andThen, h st, Leg.perform, Leg.perform]
  simp only [Leg.andThen, Canvas.drawAll_append, Recorder.follow_append]
  cases hfollow : st.recorder.follow hear (st.canvas.drawAll (next st.memo).strokes).2 with
  | error e => rfl
  | ok recorder =>
    simp only [Except.map, bind, Except.bind, pure, Except.pure, h' _, Leg.perform]
    cases recorder.follow hear (((st.canvas.drawAll (next st.memo).strokes).1.drawAll
        (next' (next st.memo).memo).strokes).2) with
    | error e => rfl
    | ok recorder => rfl

theorem Performs.ending {e : Emit σ} {next : Memo → Leg} (h : Performs hear e next)
    (f : List String → List String) :
    Performs hear (e.ending f) fun m => { next m with exits := f (next m).exits } := by
  intro st
  rw [Emit.ending, h st, Leg.perform, Leg.perform]
  cases st.recorder.follow hear (st.canvas.drawAll (next st.memo).strokes).2 with
  | error e => rfl
  | ok recorder => rfl

theorem Performs.congr {e : Emit σ} {next next' : Memo → Leg} (h : Performs hear e next)
    (heq : ∀ m, next m = next' m) : Performs hear e next' :=
  fun st => heq st.memo ▸ h st

section Walk

variable {visit : String → Actions → Emit σ} {walk : Visit}
  (hvisit : ∀ name group, Performs hear (visit name group) (walk name group))
include hvisit

theorem performs_emitEach (group : Actions) (w : Wiring) (isFirst : Bool) (names : List String) :
    Performs hear (emitEach hear visit group w isFirst names)
      (visitEach walk group w isFirst names) := by
  induction names generalizing isFirst with
  | nil => exact performs_drawEach []
  | cons name rest ih =>
    exact ((performs_drawEach _).andThen (hvisit name group)).andThen (ih false)

theorem performs_emitAll (group : Actions) (w : Wiring) :
    Performs hear (emitAll hear visit group w) (visitGroup walk group w) :=
  (performs_emitEach hvisit group w true group.keys).ending unique

theorem performs_emitGroup (id : String) (g : Group) :
    Performs hear (emitGroup hear visit id g) (g.leg walk id) := by
  unfold emitGroup Group.leg
  cases g.actions.isEmpty with
  | false => exact performs_emitAll hvisit _ _
  | true =>
    cases g.whenEmpty with
    | none => exact performs_drawEach []
    | some d => exact (performs_drawEach [.report d]).ending fun _ => [id]

theorem performs_emitGroups (id : String) (gs : List Group) :
    Performs hear (emitGroups hear visit id gs) (groupLegs walk id gs) := by
  induction gs with
  | nil => exact performs_drawEach []
  | cons g rest ih => exact (performs_emitGroup hvisit id g).andThen ih

theorem performs_emitAction (styles : StyleTable) (name : String) (a : Action) :
    Performs hear (emitAction hear styles visit name a) (a.leg styles walk name) := by
  refine Performs.congr ((((performs_drawEach (a.opening styles name)).andThen
    (performs_emitGroups hvisit (nodeId name) (a.groups name))).andThen
      (performs_drawEach (a.closing name))).ending _) fun m => ?_
  simp [Leg.andThen, Leg.ofStrokes, Action.leg]

theorem performs_emitDependency (p : Plan) (name dependency : String) :
    Performs hear (emitDependency hear p visit name dependency)
      (p.connectDependency walk name dependency) := by
  unfold emitDependency Plan.connectDependency
  cases p.index.lookup dependency with
  | none => exact performs_drawEach _
  | some declaration =>
    let drawn : Memo → Leg := fun m =>
      match m.progress? dependency with
      | none => walk dependency declaration.container m
      | some .underway => .ofStrokes [.report (.dependencyCycle name dependency)] m
      | some .done => .ofStrokes [] m
    have hbefore : Performs hear (fun st : Emission σ =>
        match st.memo.progress? dependency with
        | none => visit dependency declaration.container st
        | some .underway => drawEach hear [.report (.dependencyCycle name dependency)] st
        | some .done => drawEach hear [] st) drawn := by
      intro st
      dsimp only [drawn]
      split
      · exact hvisit dependency declaration.container st
      · exact performs_drawEach _ st
      · exact performs_drawEach _ st
    have harrows : Performs hear (fun st : Emission σ =>
        drawEach hear ((st.memo.exitsOf dependency).map fun source =>
          .connect source (nodeId name) none "") st)
        fun m => .ofStrokes ((m.exitsOf dependency).map fun source =>
          .connect source (nodeId name) none "") m :=
      fun st => performs_drawEach _ st
    exact (hbefore.andThen harrows).ending fun _ => []

theorem performs_emitDependencies (p : Plan) (name : String) (dependencies : List String) :
    Performs hear (emitDependencies hear p visit name dependencies)
      (p.connectDependencies walk name dependencies) := by
  induction dependencies with
  | nil => exact performs_drawEach []
  | cons dependency rest ih => exact (performs_emitDependency hvisit p name dependency).andThen ih

theorem performs_emitVisit (p : Plan) (name : String) (group : Actions) :
    Performs hear (emitVisit hear p visit name group) (p.visit walk name group) := by
  intro st
  unfold emitVisit Plan.visit
  cases group.lookup name with
  | none => exact performs_drawEach _ st
  | some action =>
    cases st.memo.progress? name with
    | some state => rfl
    | none =>
      have hdrawn := ((performs_emitDependencies hvisit p name action.runAfter).andThen
        (performs_emitAction hvisit p.styles name action)).ending unique
          { st with memo := st.memo.start name }
      dsimp only
      rw [hdrawn, Leg.perform, Leg.perform]
      simp only [Canvas.drawAll_append, Recorder.follow_append]
      cases st.recorder.follow hear _ with
      | error e => rfl
      | ok recorder =>
        simp only [Except.map, bind, Except.bind, performs_drawEach _ _, Leg.perform, Leg.ofStrokes]
        cases recorder.follow hear _ with
        | error e => rfl
        | ok recorder => rfl

end Walk

theorem performs_emitWithin (p : Plan) (depth : Nat) (name : String) (group : Actions) :
    Performs hear (emitWithin hear p depth name group) (p.walkWithin depth name group) := by
  induction depth generalizing name group with
  | zero => exact performs_drawEach []
  | succ depth ih => exact performs_emitVisit ih p name group

theorem performs_emitDiagram (p : Plan) (actions : Actions) :
    Performs hear (emitDiagram hear p actions) fun m =>
      (Leg.ofStrokes (startStrokes actions) m).andThen
        (p.walkAll actions ⟨none, .none, none, ""⟩) :=
  (performs_drawEach _).andThen (performs_emitAll (performs_emitWithin p p.depth) actions _)

end Emit

end Diagram

open Diagram

/-! ## Conversions -/

/-- What there is to report of a definition. -/
def reportsOn (config : Config) (definition : Value) : List Diagnostic :=
  ((Definition.actions? definition).map fun entries =>
    (Conversion.ofEntries config entries).reports).getD []

theorem convert_fst (config : Config) (log : Log) (definition : Value) :
    (convert config log definition).1 = log.recordAll (reportsOn config definition) := by
  rw [convert, reportsOn]
  cases Definition.actions? definition with
  | none => exact (Log.recordAll_nil log).symm
  | some entries => rfl

/-- No log has a say in the diagram. -/
theorem convert_snd (config : Config) (log log' : Log) (definition : Value) :
    (convert config log definition).2 = (convert config log' definition).2 := by
  rw [convert, convert]
  cases Definition.actions? definition with
  | none => rfl
  | some entries => rfl

section Conversion

variable {σ : Type} (hear : σ → Diagnostic → σ)

/-- Draws actions on a blank canvas. -/
def drawAloud (plan : Plan) (actions : Actions) : Hearing σ Canvas := fun r =>
  (emitDiagram hear plan actions ⟨.empty, .blank, r⟩).map fun (_, st) => (st.canvas, st.recorder)

/-- Reads, indexes and draws actions. Gives the text of the diagram. -/
def diagramAloud (config : Config) (entries : List (Value × Value)) : Hearing σ String := do
  let actions : Actions := Table.ofEntries (← Action.entriesAloud hear entries)
  let index ← Index.addAllAloud hear [] actions.declarations
  let canvas ← drawAloud hear ⟨index, config.styles⟩ actions
  let canvas := if config.legend then canvas.addLegend config.styles else canvas
  return Header.render ⟨config.direction, config.layout, config.title⟩ ++ canvas.render

/-- Converts a definition with the log at hand. -/
def convertAloud (config : Config) (r : Recorder σ) (definition : Value) :
    Recorder σ × Except ConversionError String :=
  match Definition.actions? definition with
  | none => (r, .error .noActions)
  | some entries =>
    match diagramAloud hear config entries r with
    | .error (e, r) => (r, .error (.limit e))
    | .ok (code, r) => (r, .ok code)

variable {hear}

theorem hears_drawAloud (plan : Plan) (actions : Actions) :
    Hears hear (drawAloud hear plan actions)
      (Canvas.blank.drawAll (startStrokes actions
        ++ (plan.walkAll actions ⟨none, .none, none, ""⟩ .empty).strokes)) := by
  intro r
  rw [drawAloud, performs_emitDiagram, Leg.perform]
  dsimp only [Leg.andThen, Leg.ofStrokes]
  cases r.follow hear _ with
  | error e => rfl
  | ok r => rfl

theorem hears_diagramAloud (config : Config) (entries : List (Value × Value)) :
    Hears hear (diagramAloud hear config entries)
      ((Conversion.ofEntries config entries).code, (Conversion.ofEntries config entries).events) := by
  let actions := (Actions.ofEntries entries).1
  let plan := Plan.ofActions actions config.styles
  refine (Action.hears_entriesAloud entries).bind
    ((Index.hears_addAllAloud [] actions.declarations).bind
      ((hears_drawAloud plan actions).bind_pure _) rfl) (Prod.ext ?_ ?_)
  · exact congrArg (fun canvas => Header.render _ ++ Canvas.render canvas)
      (canvas_ofActions config actions)
  · exact congrArg ((Action.ofEntries entries).2 ++ ·) (events_ofActions config actions)

/-- A conversion with the log at hand gives the same text or the same error, and leaves the same
log. The listener has been told what the log has kept. -/
theorem convertAloud_eq (config : Config) (r : Recorder σ) (definition : Value) :
    convertAloud hear config r definition
      = (⟨(convert config r.log definition).1,
          ((reportsOn config definition).filter r.log.accepts).foldl hear r.heard⟩,
        (convert config r.log definition).2.map Conversion.code) := by
  rw [convertAloud, convert, reportsOn]
  cases Definition.actions? definition with
  | none => rfl
  | some entries =>
    dsimp only [Option.map_some, Option.getD_some]
    rw [hears_diagramAloud config entries r, Recorder.follow_eq, Recorder.tellAll_eq,
      Conversion.halt?]
    cases Event.halt? (Conversion.ofEntries config entries).events with
    | some e => rfl
    | none => rfl

end Conversion

/-- The codes that a log ignores have no influence on the diagram. What is recorded, and what a
listener is told on the way, is what is reported without them, in the same order. -/
theorem convert_ignoring (config : Config) (ignored : List String) (before : List Diagnostic)
    (definition : Value) :
    ∃ reports : List Diagnostic,
      (convert config ⟨[], before⟩ definition).1 = ⟨[], before ++ reports⟩ ∧
      convert config ⟨ignored, before⟩ definition
        = (⟨ignored, before ++ reports.filter fun d => d.code ∉ ignored⟩,
            (convert config ⟨[], before⟩ definition).2) ∧
      ∀ {σ : Type} (hear : σ → Diagnostic → σ) (heard : σ),
        convertAloud hear config ⟨⟨[], before⟩, heard⟩ definition
          = (⟨⟨[], before ++ reports⟩, reports.foldl hear heard⟩,
              (convert config ⟨[], before⟩ definition).2.map Conversion.code) ∧
        convertAloud hear config ⟨⟨ignored, before⟩, heard⟩ definition
          = (⟨⟨ignored, before ++ reports.filter fun d => d.code ∉ ignored⟩,
              (reports.filter fun d => d.code ∉ ignored).foldl hear heard⟩,
              (convert config ⟨[], before⟩ definition).2.map Conversion.code) := by
  have haccepts : ∀ codes : List String,
      (Log.mk codes before).accepts = fun d => decide (d.code ∉ codes) :=
    fun codes => funext fun d => by simp [Log.accepts]
  have hall : (reportsOn config definition).filter (Log.mk [] before).accepts
      = reportsOn config definition := by
    rw [haccepts]
    exact List.filter_eq_self.mpr fun d _ => by simp
  refine ⟨reportsOn config definition, ?_, ?_, fun hear heard => ⟨?_, ?_⟩⟩
  · rw [convert_fst, Log.recordAll, hall]
  · refine Prod.ext ?_ (convert_snd ..)
    rw [convert_fst, Log.recordAll, haccepts]
  · rw [convertAloud_eq, convert_fst, Log.recordAll, hall]
  · rw [convertAloud_eq, convert_fst, Log.recordAll, haccepts,
      convert_snd config ⟨ignored, before⟩ ⟨[], before⟩]

end Flowchart

import Flowchart.Proofs.Classes
import Flowchart.Proofs.Descent
import Flowchart.Proofs.Order

/-!
# Sessions under requests

A caller may ask a session for visits, arrows, lines and classes in any order. Between two requests
the memory is at rest and the canvas says what it has, and nothing that was there before changes.

* `Request` is what may be asked for; `Logged.serve` serves a request and keeps the log, unless it
  comes to a label that cannot be read;
* `Leg.Follows` is what every part of a walk does to a memory and asks of a canvas, and
  `walk_follows` says it of visits in any group of the tree, also of absent names;
* `Session.Sound` is the invariant of sessions, kept by every request: `Logged.serve_sound`. The
  requests that are not served come to a label of the tree or of their own:
  `Logged.exists_limit_of_serve`;
* `Logged.serveAll_sound`: so the invariant holds after any number of requests, and
  `Logged.Extends` compares the session with any earlier one.
-/

namespace Flowchart

open Diagram

/-- The texts that a declared action puts into labels: its own, and those of the arrows to the
groups inside it. -/
def Declaration.labels (styles : StyleTable) (d : Declaration) : List String :=
  (d.action.opening styles d.name).filterMap Stroke.label?
    ++ (d.action.groups d.name).filterMap Group.text

/-- The texts that the actions of a tree put into labels. -/
def Actions.labels (styles : StyleTable) (actions : Actions) : List String :=
  actions.declarations.flatMap (Declaration.labels styles)

namespace Diagram

/-! ## Requests -/

/-- What a caller may ask of a session. -/
inductive Request where
  | visit (name : String) (group : Actions)
  | visitAll (group : Actions) (w : Wiring)
  /-- An arrow that is reported if it is new. -/
  | connect (source target : String) (text : Option String) (note : String)
  | addEdge (source target : String) (text : Option String)
  | addLine (text : String)
  | defineClass (style : Style)
  /-- Puts a node into the class of a style. -/
  | applyClass (id : String) (style : Style)

/-- The request is about a group of the tree, if it is about a group at all. -/
def Request.Within (actions : Actions) : Request → Prop
  | visit _ group | visitAll group _ => actions.HasGroup group
  | _ => True

/-- The texts that a request gives for the labels of arrows. -/
def Request.labels : Request → List String
  | visitAll _ w => w.text.toList
  | connect _ _ text _ | addEdge _ _ text => text.toList
  | _ => []

/-- A session and the log of what is reported in it. -/
structure Logged where
  session : Session
  log : Log

namespace Logged

/-- A session before its first request, with a log that is in use already. -/
def new (plan : Plan) (log : Log) : Logged := ⟨.new plan, log⟩

/-- Logs what happened on the way to the session, unless the work has halted. -/
def close (s : Logged) (session : Session) (events : List Event) :
    Except Decimal.LimitError Logged :=
  match Event.halt? events with
  | some e => .error e
  | none => .ok ⟨session, s.log.recordAll (Event.reports events)⟩

/-- Changes the canvas, and logs nothing. -/
def paint (s : Logged) (change : Canvas → Canvas) : Logged :=
  { s with session := { s.session with canvas := change s.session.canvas } }

/-- Serves a request. A label that cannot be read ends the work. -/
def serve (s : Logged) : Request → Except Decimal.LimitError Logged
  | .visit name group =>
    let (session, _, events) := s.session.visit name group
    s.close session events
  | .visitAll group w =>
    let (session, _, events) := s.session.visitAll group w
    s.close session events
  | .connect source target text note =>
    let (session, events) := s.session.draw [.connect source target text note]
    s.close session events
  | .addEdge source target text =>
    match text.bind labelLimit? with
    | some e => .error e
    | none => .ok (s.paint fun c => (c.addEdge source target text).1)
  | .addLine text => .ok (s.paint fun c => c.addLine (.verbatim text))
  | .defineClass style => .ok (s.paint fun c => (c.defineClass style).1)
  | .applyClass id style =>
    let (session, events) := s.session.draw [.assign id style]
    s.close session events

/-- Serves requests in order. -/
def serveAll (s : Logged) : List Request → Except Decimal.LimitError Logged
  | [] => .ok s
  | r :: rest =>
    match s.serve r with
    | .error e => .error e
    | .ok next => next.serveAll rest

end Logged

/-! ## Labels -/

variable {actions : Actions} {styles : StyleTable} {ts : List Task} {m : Memo} {t : Trip}

/-- The text that a task gives for the label of an arrow. -/
def Task.label? : Task → Option String
  | wire _ _ text _ => text
  | leave _ _ | visit _ | depend _ _ => none

/-- The start node has a label, and its arrows have none. -/
theorem labels_startStrokes (actions : Actions) :
    (startStrokes actions).filterMap Stroke.label? = ["Start"] := by
  have harrows : ((startingNames actions).map fun name =>
      Stroke.connect startId (nodeId name) none "").filterMap Stroke.label? = [] := by
    simp [Stroke.label?]
  rw [startStrokes, List.filterMap_append, List.filterMap_append, harrows]
  split
  · rfl
  · rfl

/-- The start node and its arrows can be drawn. -/
theorem limit?_startStrokes {s : Stroke} (hs : s ∈ startStrokes actions) :
    s.label?.bind labelLimit? = none := by
  cases hlabel : s.label? with
  | none => rfl
  | some label =>
    have hmem : label ∈ (startStrokes actions).filterMap Stroke.label? :=
      List.mem_filterMap.mpr ⟨s, hs, hlabel⟩
    have hstart : labelLimit? "Start" = none := by decide
    rw [labels_startStrokes, List.mem_singleton] at hmem
    rw [hmem]
    exact hstart

/-- The work halts in reading, or else at a label of the walk. -/
theorem ofEntries_halts (config : Config) (entries : List (Value × Value)) :
    ∃ t, Drawn config (Actions.ofEntries entries).1 (Conversion.ofEntries config entries) t ∧
      (Conversion.ofEntries config entries).halt? = (Event.halt? (Action.ofEntries entries).2).or
        (t.strokes.findSome? fun s => s.label?.bind labelLimit?) := by
  obtain ⟨t, ht, hevents⟩ := ofEntries_drawn config entries
  have hstart : ((startStrokes (Actions.ofEntries entries).1).findSome? fun s =>
      s.label?.bind labelLimit?) = none :=
    List.findSome?_eq_none_iff.mpr fun s hs => limit?_startStrokes hs
  refine ⟨t, ht, ?_⟩
  rw [Conversion.halt?, hevents, Event.halt?_append, Event.halt?_append, Event.halt?_map_report,
    Option.none_or, Canvas.halt?_drawAll, List.findSome?_append, hstart, Option.none_or]
  rfl

/-- Visits ask for no labels, and the arrows to members all have the same. -/
theorem labels_memberTasks (w : Wiring) (isFirst : Bool) (ds : List Declaration) :
    (memberTasks w isFirst ds).filterMap Task.label? ⊆ w.text.toList := by
  have hwiring : ∀ isFirst name, (w.tasks isFirst name).filterMap Task.label? ⊆ w.text.toList := by
    intro isFirst name
    unfold Wiring.tasks
    split
    · split
      · cases htext : w.text <;> simp [Task.label?]
      · exact List.nil_subset _
    · exact List.nil_subset _
  induction ds generalizing isFirst with
  | nil => exact List.nil_subset _
  | cons d rest ih =>
    rw [memberTasks, List.filterMap_append]
    exact List.append_subset.mpr ⟨hwiring isFirst d.name, ih false⟩

/-- The groups inside an action ask for no labels but those of their arrows. -/
theorem labels_tasks (d : Declaration) :
    d.tasks.filterMap Task.label? ⊆ d.labels styles := by
  intro text htext
  obtain ⟨task, htask, hlabel⟩ := List.mem_filterMap.mp htext
  obtain ⟨g, hg, htask⟩ := List.mem_flatMap.mp htask
  refine List.mem_append_right _ (List.mem_filterMap.mpr ⟨g, hg, ?_⟩)
  unfold Group.tasks at htask
  split at htask
  · exact Option.mem_toList.mp
      (labels_memberTasks _ _ _ (List.mem_filterMap.mpr ⟨task, htask, hlabel⟩))
  · cases List.mem_singleton.mp htask
    cases hlabel
  · exact absurd htask List.not_mem_nil

/-- A trip puts no texts into labels but those of its tasks and of the tree. -/
theorem Walks.labels_subset (h : Walks actions styles ts m t) :
    t.strokes.filterMap Stroke.label? ⊆ ts.filterMap Task.label? ++ actions.labels styles := by
  have harrows : ∀ (m : Memo) (name k : String),
      (m.arrows name k).filterMap Stroke.label? = [] := by
    intro m name k
    simp [Memo.arrows, Stroke.label?]
  induction h with
  | nil m => exact List.nil_subset _
  | @wire source target text note ts m t _ ih =>
    cases text with
    | none => exact ih
    | some text => exact List.cons_subset_cons text ih
  | leave _ ih | again _ _ _ ih | unknown _ _ ih => exact ih
  | @fresh d ts m before inside t declared _ _ _ _ ih₁ ih₂ ih₃ =>
    have hown : d.labels styles ⊆ actions.labels styles :=
      fun text htext => List.mem_flatMap.mpr ⟨d, declared, htext⟩
    have hdependencies : d.dependencyTasks.filterMap Task.label? = [] := by
      simp [Declaration.dependencyTasks, Task.label?]
    have hclosing : (d.action.closing d.name).filterMap Stroke.label? = [] := by
      cases hbox : d.action.boxTitle? d.name <;> simp [Action.closing, hbox, Stroke.label?]
    have hinside : d.tasks.filterMap Task.label? ++ actions.labels styles ⊆ actions.labels styles :=
      List.append_subset.mpr ⟨List.Subset.trans (labels_tasks d) hown, List.Subset.refl _⟩
    rw [hdependencies] at ih₁
    simp only [Trip.strokes_prepend, List.filterMap_append, hclosing, List.append_nil,
      List.append_subset]
    refine ⟨⟨⟨List.subset_append_of_subset_right _ ih₁, ?_, ?_⟩, List.nil_subset _⟩, ih₃⟩
    · exact List.subset_append_of_subset_right _
        (List.Subset.trans (List.subset_append_left _ _) hown)
    · exact List.subset_append_of_subset_right _ (List.Subset.trans ih₂ hinside)
  | @met name dependency d state ts m t _ _ _ ih =>
    have hreports : (state.reports name dependency).filterMap Stroke.label? = [] := by
      cases state with
      | underway => rfl
      | done => rfl
    rw [Trip.strokes_prepend, List.filterMap_append, List.filterMap_append, hreports, harrows]
    exact ih
  | force _ _ _ _ ih₁ ih₂ =>
    rw [Trip.strokes_prepend, List.filterMap_append, List.filterMap_append, harrows,
      List.append_nil]
    exact List.append_subset.mpr ⟨List.subset_append_of_subset_right _ ih₁, ih₂⟩

/-! ## Parts of a walk -/

/-- A part of a walk from a memory. It only writes to the memory, it finishes what it starts with
different exit nodes, and it draws no lines but those of actions and arrows, with these texts in
their labels. -/
structure Leg.Follows (leg : Leg) (labels : List String) (m : Memo) : Prop where
  later : m.Later leg.memo
  underway_iff : ∀ n, leg.memo.progress? n = some .underway ↔ m.progress? n = some .underway
  nodup_exits : (∀ e ∈ m.exits, e.2.Nodup) → ∀ e ∈ leg.memo.exits, e.2.Nodup
  line_not_mem : ∀ l, .line l ∉ leg.strokes
  labels_subset : leg.strokes.filterMap Stroke.label? ⊆ labels

theorem Walks.nodup_exits (h : Walks actions styles ts m t) (hm : ∀ e ∈ m.exits, e.2.Nodup) :
    ∀ e ∈ t.memo.exits, e.2.Nodup := by
  induction h with
  | nil m => exact hm
  | wire _ ih | leave _ ih | again _ _ _ ih | unknown _ _ ih | met _ _ _ ih => exact ih hm
  | fresh _ _ _ _ _ ih₁ ih₂ ih₃ =>
    refine ih₃ fun e he => ?_
    rcases Table.mem_put he with he | ⟨-, heq⟩
    · exact ih₂ (ih₁ hm) e he
    · rw [heq]
      exact nodup_unique _
  | force _ _ _ _ ih₁ ih₂ => exact ih₂ (ih₁ hm)

theorem Walks.follows (h : Walks actions styles ts m t) :
    t.leg.Follows (ts.filterMap Task.label? ++ actions.labels styles) m :=
  ⟨h.later, h.underway_iff, h.nodup_exits, h.line_not_mem, h.labels_subset⟩

theorem Leg.Follows.mono {leg : Leg} {labels labels' : List String} (h : leg.Follows labels m)
    (hsub : labels ⊆ labels') : leg.Follows labels' m :=
  ⟨h.later, h.underway_iff, h.nodup_exits, h.line_not_mem, List.Subset.trans h.labels_subset hsub⟩

/-- A visit in a group of the tree is such a part, whether or not the group has the name. -/
theorem walk_follows (hw : actions.WellFormed) {group : Actions}
    (hg : actions.HasGroup group) (styles : StyleTable) (name : String) (m : Memo) :
    ((Plan.ofActions actions styles).walk name group m).Follows (actions.labels styles) m := by
  unfold Plan.walk
  cases hlookup : List.lookup name group with
  | none =>
    rw [Plan.depth, Plan.walkWithin, Plan.visit, hlookup]
    exact ⟨.refl, fun _ => Iff.rfl, fun hm => hm, by simp [Leg.ofStrokes], List.nil_subset _⟩
  | some a =>
    obtain ⟨path, hd⟩ := hg.declared hlookup
    obtain ⟨t, ht, hleg⟩ := faithful_walkWithin styles hw _ _ hd m (unvisited_lt_depth m)
    exact hleg ▸ ht.follows

/-- So is a visit of all its members. -/
theorem walkAll_follows (hw : actions.WellFormed) {group : Actions}
    (hg : actions.HasGroup group) (styles : StyleTable) (w : Wiring) (m : Memo) :
    ((Plan.ofActions actions styles).walkAll group w m).Follows
      (w.text.toList ++ actions.labels styles) m := by
  obtain ⟨path, hpath⟩ := hg.exists_path
  obtain ⟨t, ht, hleg⟩ := walks_visitEach (faithful_walkWithin styles hw _) path group w group hpath
    true (unvisited_lt_depth m)
  have hfollows : (visitEach (Plan.ofActions actions styles).walk group w true group.keys m).Follows
      (w.text.toList ++ actions.labels styles) m :=
    hleg ▸ ht.follows.mono (List.append_subset.mpr
      ⟨List.subset_append_of_subset_left _ (labels_memberTasks _ _ _),
        List.subset_append_right _ _⟩)
  exact ⟨hfollows.later, hfollows.underway_iff, hfollows.nodup_exits, hfollows.line_not_mem,
    hfollows.labels_subset⟩

/-! ## Sessions -/

/-- A canvas that has each arrow and each class once, and remembers which. -/
structure Canvas.Sound (c : Canvas) : Prop where
  tidy : c.Tidy
  listed : c.Listed

/-- A session between two requests: nothing is being drawn, and the tables of the memory and the
canvas say what has been done. -/
structure Session.Sound (s : Session) : Prop where
  memo : s.memo.Sound
  atRest : ∀ n, s.memo.progress? n ≠ some .underway
  nodup_exits : ∀ e ∈ s.memo.exits, e.2.Nodup
  canvas : s.canvas.Sound

/-- The first session has been continued: there are new lines, visits and exit nodes at most, after
those that were there. -/
structure Session.Extends (s s' : Session) : Prop where
  lines : s.canvas.lines <+: s'.canvas.lines
  visits : s.memo.visits <+: s'.memo.visits
  exits : s.memo.exits <+: s'.memo.exits

theorem Canvas.Sound.drawAll {c : Canvas} (h : c.Sound) {ss : List Stroke}
    (hlines : ∀ l, .line l ∈ ss → l.isEdge = false ∧ l.class? = none) : (c.drawAll ss).1.Sound :=
  ⟨h.tidy.drawAll fun l hl => (hlines l hl).1, h.listed.drawAll fun l hl => (hlines l hl).2⟩

theorem Canvas.prefix_drawAll (c : Canvas) (ss : List Stroke) :
    c.lines <+: (c.drawAll ss).1.lines := by
  rw [lines_drawAll]
  exact List.prefix_append _ _

theorem Canvas.Sound.defineClass {c : Canvas} (h : c.Sound) (style : Style) :
    (c.defineClass style).1.Sound := by
  refine ⟨?_, h.listed.defineClass style⟩
  unfold Canvas.defineClass
  split
  · exact h.tidy
  · refine ⟨?_, h.tidy.nodup⟩
    show c.edges = edgeTexts (c.lines ++ [Line.ofStyle style])
    rw [edgeTexts_append, h.tidy.edges_eq]
    exact (List.append_nil _).symm

theorem Canvas.prefix_defineClass (c : Canvas) (style : Style) :
    c.lines <+: (c.defineClass style).1.lines := by
  unfold defineClass
  split
  · exact List.prefix_refl _
  · exact List.prefix_append _ _

/-- At rest every action that has been visited is done. -/
theorem Memo.Sound.visits_eq {m : Memo} (h : m.Sound)
    (hrest : ∀ n, m.progress? n ≠ some .underway) :
    m.visits = m.visits.keys.map fun n => (n, .done) := by
  have hdone : ∀ e ∈ m.visits, (e.1, Progress.done) = e := by
    rintro ⟨n, p⟩ he
    have hlookup : m.progress? n = some p := Table.lookup_of_mem h.nodup_visits he
    cases p with
    | underway => exact absurd hlookup (hrest n)
    | done => rfl
  rw [Table.keys, List.map_map]
  exact (List.map_id' _).symm.trans (List.map_congr_left fun e he => (hdone e he).symm)

namespace Session

theorem sound_new (plan : Plan) : (Session.new plan).Sound :=
  ⟨Memo.sound_empty, by simp [Session.new, Memo.empty, Memo.progress?],
    by simp [Session.new, Memo.empty], Canvas.tidy_blank, Canvas.listed_blank⟩

/-- What has been visited has exit nodes, and nothing else has. -/
theorem Sound.mem_visits_iff {s : Session} (h : s.Sound) (n : String) :
    n ∈ s.memo.visits.keys ↔ n ∈ s.memo.exits.keys := by
  rw [h.memo.mem_exits, Memo.mem_keys_visits]
  constructor
  · exact fun hv => hv.done (h.atRest n)
  · intro hdone
    rw [Memo.Visited, hdone]
    exact Option.some_ne_none _

theorem Extends.refl (s : Session) : s.Extends s :=
  ⟨List.prefix_refl _, List.prefix_refl _, List.prefix_refl _⟩

theorem Extends.trans {s₁ s₂ s₃ : Session} (h : s₁.Extends s₂) (h' : s₂.Extends s₃) :
    s₁.Extends s₃ :=
  ⟨h.lines.trans h'.lines, h.visits.trans h'.visits, h.exits.trans h'.exits⟩

/-- A canvas may be exchanged for one that continues it. -/
theorem Sound.repaint {s : Session} (h : s.Sound) {c : Canvas} (hc : c.Sound)
    (hlines : s.canvas.lines <+: c.lines) :
    { s with canvas := c }.Sound ∧ s.Extends { s with canvas := c } :=
  ⟨⟨h.memo, h.atRest, h.nodup_exits, hc⟩, hlines, List.prefix_refl _, List.prefix_refl _⟩

/-- A part of a walk keeps a session sound and continues it. -/
theorem Sound.take {s : Session} (h : s.Sound) {next : Memo → Leg} {labels : List String}
    (hnext : (next s.memo).Follows labels s.memo) :
    (s.take next).1.Sound ∧ s.Extends (s.take next).1 := by
  have hmemo := hnext.later.sound h.memo
  have hrest : ∀ n, (next s.memo).memo.progress? n ≠ some .underway :=
    fun n hu => h.atRest n ((hnext.underway_iff n).mp hu)
  refine ⟨⟨hmemo, hrest, hnext.nodup_exits h.nodup_exits, h.canvas.drawAll fun l hl => ?_⟩,
    s.canvas.prefix_drawAll _, ?_, hnext.later.exits_prefix h.memo⟩
  · exact absurd hl (hnext.line_not_mem l)
  · -- before and after the walk all states are `done`, so the order of the names says it all
    show s.memo.visits <+: (next s.memo).memo.visits
    rw [h.memo.visits_eq h.atRest, hmemo.visits_eq hrest]
    exact hnext.later.visits_prefix.map _

theorem Sound.draw {s : Session} (h : s.Sound) (ss : List Stroke)
    (hlines : ∀ l, .line l ∈ ss → l.isEdge = false ∧ l.class? = none) :
    (s.draw ss).1.Sound ∧ s.Extends (s.draw ss).1 :=
  h.repaint (h.canvas.drawAll hlines) (s.canvas.prefix_drawAll ss)

end Session

/-! ## Served requests -/

/-- The session and the log have been continued. -/
structure Logged.Extends (s s' : Logged) : Prop where
  session : s.session.Extends s'.session
  entries : s.log.entries <+: s'.log.entries

namespace Logged

theorem Extends.refl (s : Logged) : s.Extends s := ⟨.refl _, List.prefix_refl _⟩

theorem Extends.trans {s₁ s₂ s₃ : Logged} (h : s₁.Extends s₂) (h' : s₂.Extends s₃) :
    s₁.Extends s₃ :=
  ⟨h.session.trans h'.session, h.entries.trans h'.entries⟩

/-- What a request does to a sound session: it keeps the plan, and continues everything else. -/
structure Serves (s s' : Logged) : Prop where
  plan_eq : s'.session.plan = s.session.plan
  sound : s'.session.Sound
  continued : s.Extends s'

theorem serves_of_close {s s' : Logged} {session : Session} {events : List Event}
    (h : s.close session events = .ok s') (hplan : session.plan = s.session.plan)
    (hsession : session.Sound ∧ s.session.Extends session) : s.Serves s' := by
  unfold close at h
  split at h
  · cases h
  · cases h
    exact ⟨hplan, hsession.1, hsession.2, List.prefix_append _ _⟩

theorem serves_paint {s : Logged} {change : Canvas → Canvas}
    (h : { s.session with canvas := change s.session.canvas }.Sound ∧
      s.session.Extends { s.session with canvas := change s.session.canvas }) :
    s.Serves (s.paint change) :=
  ⟨rfl, h.1, h.2, List.prefix_refl _⟩

/-- Every request within the tree keeps the session sound. -/
theorem serve_sound (hw : actions.WellFormed) {s s' : Logged}
    (hplan : s.session.plan = Plan.ofActions actions styles) (hs : s.session.Sound) {r : Request}
    (hr : r.Within actions) (h : s.serve r = .ok s') : s.Serves s' := by
  cases r with
  | visit name group =>
    have hfollows := walk_follows hw hr styles name s.session.memo
    rw [← hplan] at hfollows
    exact serves_of_close h rfl (hs.take hfollows)
  | visitAll group w =>
    have hfollows := walkAll_follows hw hr styles w s.session.memo
    rw [← hplan] at hfollows
    exact serves_of_close h rfl (hs.take hfollows)
  | connect source target text note =>
    exact serves_of_close h rfl (hs.draw [.connect source target text note] (by simp))
  | applyClass id style =>
    exact serves_of_close h rfl (hs.draw [.assign id style] (by simp))
  | addEdge source target text =>
    simp only [serve] at h
    split at h
    · cases h
    · cases h
      exact serves_paint (hs.draw [.connect source target text ""] (by simp))
  | addLine text =>
    cases h
    refine serves_paint (hs.draw [.line (.verbatim text)] fun l hl => ?_)
    cases List.mem_singleton.mp hl
    exact ⟨rfl, rfl⟩
  | defineClass style =>
    cases h
    exact serves_paint (hs.repaint (hs.canvas.defineClass style)
      (s.session.canvas.prefix_defineClass style))

theorem serveAll_serves (hw : actions.WellFormed) {s s' : Logged}
    (hplan : s.session.plan = Plan.ofActions actions styles) (hs : s.session.Sound)
    {rs : List Request} (hrs : ∀ r ∈ rs, r.Within actions) (h : s.serveAll rs = .ok s') :
    s.Serves s' := by
  induction rs generalizing s with
  | nil =>
    cases h
    exact ⟨rfl, hs, .refl _⟩
  | cons r rest ih =>
    rw [serveAll] at h
    split at h
    · cases h
    · rename_i next hnext
      have hfirst := serve_sound hw hplan hs (hrs r List.mem_cons_self) hnext
      have hrest := ih (hfirst.plan_eq.trans hplan) hfirst.sound
        (fun r hr => hrs r (List.mem_cons_of_mem _ hr)) h
      exact ⟨hrest.plan_eq.trans hfirst.plan_eq, hrest.sound,
        hfirst.continued.trans hrest.continued⟩

theorem exists_limit_of_close {s : Logged} {session : Session} {c : Canvas} {ss : List Stroke}
    {e : Decimal.LimitError} {labels : List String}
    (h : s.close session (c.drawAll ss).2 = .error e)
    (hlabels : ss.filterMap Stroke.label? ⊆ labels) :
    ∃ text ∈ labels, labelLimit? text = some e := by
  unfold close at h
  split at h
  · rename_i heq
    rw [Except.error.inj h] at heq
    rw [Canvas.halt?_drawAll] at heq
    obtain ⟨text, htext, hlimit⟩ := Canvas.exists_limit_of_findSome? heq
    exact ⟨text, hlabels htext, hlimit⟩
  · cases h

/-- A request that is not served comes to a label that cannot be read, one of its own or one of the
tree. -/
theorem exists_limit_of_serve (hw : actions.WellFormed) {s : Logged}
    (hplan : s.session.plan = Plan.ofActions actions styles) {r : Request}
    (hr : r.Within actions) {e : Decimal.LimitError} (h : s.serve r = .error e) :
    ∃ text ∈ r.labels ++ actions.labels styles, labelLimit? text = some e := by
  cases r with
  | visit name group =>
    have hfollows := walk_follows hw hr styles name s.session.memo
    rw [← hplan] at hfollows
    exact exists_limit_of_close h hfollows.labels_subset
  | visitAll group w =>
    have hfollows := walkAll_follows hw hr styles w s.session.memo
    rw [← hplan] at hfollows
    exact exists_limit_of_close h hfollows.labels_subset
  | connect source target text note =>
    refine @exists_limit_of_close _ _ _ [.connect source target text note] _ _ h ?_
    cases text with
    | none => exact List.nil_subset _
    | some text => exact List.cons_subset_cons text (List.nil_subset _)
  | applyClass id style =>
    exact @exists_limit_of_close _ _ _ [.assign id style] _ _ h (List.nil_subset _)
  | addEdge source target text =>
    simp only [serve] at h
    split at h
    · rename_i heq
      obtain ⟨text, rfl, htext⟩ := Option.bind_eq_some_iff.mp heq
      exact ⟨text, List.mem_cons_self, Except.error.inj h ▸ htext⟩
    · cases h
  | addLine text => cases h
  | defineClass style => cases h

theorem exists_limit_of_serveAll (hw : actions.WellFormed) {s : Logged}
    (hplan : s.session.plan = Plan.ofActions actions styles) (hs : s.session.Sound)
    {rs : List Request} (hrs : ∀ r ∈ rs, r.Within actions) {e : Decimal.LimitError}
    (h : s.serveAll rs = .error e) :
    ∃ text ∈ rs.flatMap Request.labels ++ actions.labels styles, labelLimit? text = some e := by
  induction rs generalizing s with
  | nil => cases h
  | cons r rest ih =>
    have hr := hrs r List.mem_cons_self
    rw [List.flatMap_cons, List.append_assoc]
    rw [serveAll] at h
    split at h
    · rename_i hfirst
      cases h
      obtain ⟨text, htext, hlimit⟩ := exists_limit_of_serve hw hplan hr hfirst
      refine ⟨text, ?_, hlimit⟩
      rcases List.mem_append.mp htext with htext | htext
      · exact List.mem_append_left _ htext
      · exact List.mem_append_right _ (List.mem_append_right _ htext)
    · rename_i next hnext
      have hfirst := serve_sound hw hplan hs hr hnext
      obtain ⟨text, htext, hlimit⟩ := ih (hfirst.plan_eq.trans hplan) hfirst.sound
        (fun r hr => hrs r (List.mem_cons_of_mem _ hr)) h
      exact ⟨text, List.mem_append_right _ htext, hlimit⟩

/-- Whatever is asked of a session over a tree whose groups have each name once, in any order, the
requests are served unless they come to a label that cannot be read. After each request nothing is
being drawn, the actions that have been visited are those with exit nodes, which are all different,
and the canvas has each arrow and each class once. All that was there after earlier requests is
there unchanged, and before what is new. -/
theorem serveAll_sound (hw : actions.WellFormed) {styles : StyleTable} {log : Log}
    {earlier later : List Request} (hearlier : ∀ r ∈ earlier, r.Within actions)
    (hlater : ∀ r ∈ later, r.Within actions) {s : Logged}
    (h : (new (Plan.ofActions actions styles) log).serveAll earlier = .ok s) :
    (∃ s', s.serveAll later = .ok s' ∧ s'.session.Sound ∧
      (∀ n, n ∈ s'.session.memo.visits.keys ↔ n ∈ s'.session.memo.exits.keys) ∧ s.Extends s') ∨
    ∃ e, s.serveAll later = .error e ∧
      ∃ text ∈ later.flatMap Request.labels ++ actions.labels styles,
        labelLimit? text = some e := by
  have hbefore := serveAll_serves hw rfl (Session.sound_new _) hearlier h
  cases hserved : s.serveAll later with
  | ok s' =>
    have hafter := serveAll_serves hw hbefore.plan_eq hbefore.sound hlater hserved
    exact Or.inl ⟨s', rfl, hafter.sound, hafter.sound.mem_visits_iff, hafter.continued⟩
  | error e =>
    exact Or.inr ⟨e, rfl,
      exists_limit_of_serveAll hw hbefore.plan_eq hbefore.sound hlater hserved⟩

theorem serveAll_append (s : Logged) (rs rs' : List Request) :
    s.serveAll (rs ++ rs') = (s.serveAll rs).bind fun next => next.serveAll rs' := by
  induction rs generalizing s with
  | nil => rfl
  | cons r rest ih =>
    rw [List.cons_append, serveAll, serveAll]
    cases s.serve r with
    | error e => rfl
    | ok next => exact ih next

/-- The sample may be visited from its middle first, and asked for an action that it does not have
at the top. -/
theorem serveAll_sound_sample :
    let plan := Plan.ofActions sampleActions []
    let earlier := [Request.visit "Send" sampleActions, .visit "Notify" sampleActions]
    let later := [Request.visitAll sampleActions ⟨none, .none, none, ""⟩, .addEdge "Log" "Send" none]
    ∃ s s', (new plan ⟨[], []⟩).serveAll earlier = .ok s ∧ s.serveAll later = .ok s' ∧
      s'.session.Sound ∧ s.Extends s' := by
  intro plan earlier later
  have hserved : ((new plan ⟨[], []⟩).serveAll (earlier ++ later)).isOk = true := by decide +kernel
  rw [serveAll_append] at hserved
  have hroot : sampleActions.HasGroup sampleActions := Or.inl rfl
  cases h : (new plan ⟨[], []⟩).serveAll earlier with
  | error e => simp [h, Except.bind, Except.isOk, Except.toBool] at hserved
  | ok s =>
    rcases @serveAll_sound _ distinct_sample.wellFormed _ _ _ later
        (by simp [earlier, Request.Within, hroot]) (by simp [later, Request.Within, hroot]) s h
      with ⟨s', h', hsound, -, hextends⟩ | ⟨e, h', -⟩
    · exact ⟨s, s', rfl, h', hsound, hextends⟩
    · simp [h, h', Except.bind, Except.isOk, Except.toBool] at hserved

end Logged

end Diagram

end Flowchart

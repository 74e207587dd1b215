import Flowchart.Proofs.Nodes
import Flowchart.Proofs.Reports
import Flowchart.Proofs.Scopes

/-!
# The boxes of a diagram

Opening a box is reported with the action whose box it is, and so is closing it. With these names
from the log the lines of a diagram are read back with the boxes that are open at each of them.

* `Nested` is the shape of the strokes of a walk: what is drawn between opening a box and closing it
  opens and closes whole boxes. `Walks.nested` holds whatever is forced in between;
* `Nested.balanced`, `Nested.readAll` and `Nested.boxesAtEnds`: the lines of nested strokes are
  balanced, leave the place among the boxes as it was, and close each box where it is innermost;
* `Walks.opened_perm`: a trip opens the boxes of the declarations it draws;
* `convert_boxes`: in every diagram each box is closed by the action that opened it.
-/

namespace Flowchart

open Diagram

/-! ## Boxed actions -/

/-- An action that is drawn as a box. -/
def Action.isBoxed (a : Action) : Bool := boxKinds.contains a.kind

/-- A box has a title, and nothing else has. -/
theorem Action.isBoxed_eq {a : Action} (h : a.Sound) (name : String) :
    a.isBoxed = (a.boxTitle? name).isSome := by
  cases a with
  | simple kind runAfter body =>
    have hkind : boxKinds.contains kind = false := by
      rw [← Bool.not_eq_true, List.contains_iff_mem]
      exact h
    exact hkind
  | condition runAfter yes no => rfl
  | switch runAfter cases default => rfl
  | scope kind runAfter body =>
    cases kind with
    | _ => rfl

/-- The box of a declared action, if it has one: the name of the action and the title. -/
def Declaration.box? (d : Declaration) : Option (String × String) :=
  (d.action.boxTitle? d.name).map fun title => (d.name, title)

/-- The names of boxed declarations are the owners of their boxes. -/
theorem Declaration.map_filterMap_box? {ds : List Declaration} (h : ∀ d ∈ ds, d.action.Sound) :
    (ds.filterMap box?).map Prod.fst = (ds.filter fun d => d.action.isBoxed).map name := by
  induction ds with
  | nil => rfl
  | cons d rest ih =>
    have hrest := ih fun d' hd' => h d' (List.mem_cons_of_mem _ hd')
    rw [List.filterMap_cons, List.filter_cons, Action.isBoxed_eq (h d List.mem_cons_self) d.name,
      box?]
    cases d.action.boxTitle? d.name with
    | none => exact hrest
    | some title => exact congrArg (d.name :: ·) hrest

/-! ## What the log says about boxes -/

/-- The box that a report says to be opened, or to be closed: its action and its title. -/
def Diagnostic.box? (opens : Bool) : Diagnostic → Option (String × String)
  | subgraphStarted action title => if opens then some (action, title) else none
  | subgraphEnded action title => if opens then none else some (action, title)
  | _ => none

theorem Diagnostic.IsRemark.box?_eq {r : Diagnostic} (h : r.IsRemark) (opens : Bool) :
    r.box? opens = none := by
  cases r with
  | subgraphStarted action title => exact h.elim
  | subgraphEnded action title => exact h.elim
  | _ => rfl

/-- Nothing is said about boxes before the drawing. -/
theorem Diagnostic.box?_of_preliminary {r : Diagnostic} (h : (Event.report r).IsPreliminary)
    (opens : Bool) : r.box? opens = none := by
  cases r with
  | subgraphStarted action title => exact h.elim
  | subgraphEnded action title => exact h.elim
  | _ => rfl

namespace Conversion

/-- The boxes that were opened, in order. -/
def openedBoxes (c : Conversion) : List (String × String) :=
  c.reports.filterMap (Diagnostic.box? true)

/-- The boxes that were closed, in order. -/
def closedBoxes (c : Conversion) : List (String × String) :=
  c.reports.filterMap (Diagnostic.box? false)

/-- The lines of a diagram, each with the actions whose boxes are open before it. -/
def places (c : Conversion) : List (Line × List String) :=
  (Scope.mk [] (c.openedBoxes.map Prod.fst)).places c.canvas.lines

end Conversion

namespace Diagram

/-! ## Strokes that open and close -/

/-- The box that a stroke opens, or closes. -/
def Stroke.box? (opens : Bool) : Stroke → Option (String × String)
  | openBox action title => if opens then some (action, title) else none
  | closeBox action title => if opens then none else some (action, title)
  | _ => none

/-- A stroke that neither opens nor closes a box. -/
def Stroke.isFlat : Stroke → Bool
  | line l => l.isFlat
  | openBox _ _ | closeBox _ _ => false
  | node _ _ _ | connect _ _ _ _ | assign _ _ | report _ => true

theorem Stroke.box?_of_flat {s : Stroke} (h : s.isFlat) (opens : Bool) : s.box? opens = none := by
  cases s with
  | openBox action title => cases h
  | closeBox action title => cases h
  | _ => rfl

theorem Canvas.flat_linesOf {s : Stroke} (h : s.isFlat) (c : Canvas) :
    ∀ l ∈ c.linesOf s, l.isFlat := by
  intro l hl
  have hblank := c.linesOf_subset s hl
  cases s with
  | line l' => exact List.mem_singleton.mp hblank ▸ h
  | node id text shape => exact List.mem_singleton.mp hblank ▸ rfl
  | connect source target text note =>
    have heq : l = .ofEdge source target text := by
      simpa [Canvas.linesOf, Canvas.blank] using hblank
    exact heq ▸ rfl
  | assign id style =>
    have heq : l = .inClass id style.className ∨ l = .ofStyle style := by
      simpa [Canvas.linesOf, Canvas.blank] using hblank
    rcases heq with rfl | rfl
    · rfl
    · rfl
  | openBox action title => cases h
  | closeBox action title => cases h
  | report r => exact absurd hblank List.not_mem_nil

theorem Canvas.flat_linesOfAll {ss : List Stroke} (h : ∀ s ∈ ss, s.isFlat) (c : Canvas) :
    ∀ l ∈ c.linesOfAll ss, l.isFlat := by
  intro l hl
  obtain ⟨s, hs, hl⟩ := Canvas.mem_linesOfAll hl
  exact Canvas.flat_linesOf (h s hs) _ l hl

/-- Each report about a box comes from a stroke that opens or closes it. -/
theorem Canvas.filterMap_box? (opens : Bool) {ss : List Stroke}
    (h : ∀ r, .report r ∈ ss → r.IsRemark) (c : Canvas) :
    (c.reportsOfAll ss).filterMap (Diagnostic.box? opens) = ss.filterMap (Stroke.box? opens) := by
  refine Canvas.filterMap_reportsOfAll (fun s hs c => ?_) c
  cases s with
  | report r => exact List.filterMap_cons_none ((h r hs).box?_eq opens)
  | openBox action title =>
    cases opens with
    | _ => rfl
  | closeBox action title =>
    cases opens with
    | _ => rfl
  | connect source target text note =>
    rw [Canvas.apply]
    dsimp only
    split
    · rfl
    · rfl
  | assign id style =>
    rw [Canvas.apply]
    dsimp only
    split
    · rfl
    · rfl
  | line l => rfl
  | node id text shape => rfl

/-! ## Nested strokes -/

/-- The boxes that strokes open, or close, in order. -/
def boxesOf (opens : Bool) (ss : List Stroke) : List (String × String) :=
  ss.filterMap (Stroke.box? opens)

/-- The actions whose boxes strokes open. -/
def owners (ss : List Stroke) : List String := (boxesOf true ss).map Prod.fst

theorem boxesOf_append (opens : Bool) (ss ss' : List Stroke) :
    boxesOf opens (ss ++ ss') = boxesOf opens ss ++ boxesOf opens ss' :=
  List.filterMap_append

theorem boxesOf_cons_of_flat (opens : Bool) {s : Stroke} (h : s.isFlat) (ss : List Stroke) :
    boxesOf opens (s :: ss) = boxesOf opens ss :=
  List.filterMap_cons_none (Stroke.box?_of_flat h opens)

theorem boxesOf_of_flat (opens : Bool) {ss : List Stroke} (h : ∀ s ∈ ss, s.isFlat) :
    boxesOf opens ss = [] :=
  List.filterMap_eq_nil_iff.mpr fun s hs => Stroke.box?_of_flat (h s hs) opens

theorem owners_append (ss ss' : List Stroke) : owners (ss ++ ss') = owners ss ++ owners ss' := by
  rw [owners, boxesOf_append, List.map_append]
  rfl

theorem owners_cons_of_flat {s : Stroke} (h : s.isFlat) (ss : List Stroke) :
    owners (s :: ss) = owners ss := by
  rw [owners, boxesOf_cons_of_flat true h]
  rfl

/-- Strokes in which every box that is opened is closed again under the same name, with nested
strokes in between. -/
inductive Nested : List Stroke → Prop where
  | nil : Nested []
  | flat {s : Stroke} {ss : List Stroke} (h : s.isFlat) (rest : Nested ss) : Nested (s :: ss)
  | box {action title : String} {inside ss : List Stroke} (h : Nested inside) (rest : Nested ss) :
      Nested (.openBox action title :: (inside ++ .closeBox action title :: ss))

section Box

variable (action title : String) (inside rest : List Stroke)

/-- The lines of a box are those inside it between its first and its last. -/
theorem Canvas.linesOfAll_box (c : Canvas) :
    ∃ c₁ c₂ : Canvas,
      c.linesOfAll (.openBox action title :: (inside ++ .closeBox action title :: rest))
        = .ofTitle title :: (c₁.linesOfAll inside ++ .closeSubgraph :: c₂.linesOfAll rest) := by
  refine ⟨(c.draw (.openBox action title)).1,
    (((c.draw (.openBox action title)).1.drawAll inside).1.draw (.closeBox action title)).1, ?_⟩
  rw [Canvas.linesOfAll, Canvas.linesOfAll_append, Canvas.linesOfAll]
  rfl

theorem opened_box :
    boxesOf true (.openBox action title :: (inside ++ .closeBox action title :: rest))
      = (action, title) :: (boxesOf true inside ++ boxesOf true rest) := by
  simp [boxesOf, Stroke.box?]

theorem closed_box :
    boxesOf false (.openBox action title :: (inside ++ .closeBox action title :: rest))
      = boxesOf false inside ++ (action, title) :: boxesOf false rest := by
  simp [boxesOf, Stroke.box?]

theorem owners_box :
    owners (.openBox action title :: (inside ++ .closeBox action title :: rest))
      = action :: (owners inside ++ owners rest) := by
  rw [owners, opened_box, List.map_cons, List.map_append]
  rfl

end Box

namespace Nested

variable {ss : List Stroke}

theorem of_flat (h : ∀ s ∈ ss, s.isFlat) : Nested ss := by
  induction ss with
  | nil => exact .nil
  | cons s rest ih =>
    exact .flat (h s List.mem_cons_self) (ih fun s' hs' => h s' (List.mem_cons_of_mem _ hs'))

theorem append {ss' : List Stroke} (h : Nested ss) (h' : Nested ss') : Nested (ss ++ ss') := by
  induction h with
  | nil => exact h'
  | flat hflat _ ih => exact .flat hflat ih
  | box hin _ _ ih =>
    rw [List.cons_append, List.append_assoc, List.cons_append]
    exact .box hin ih

/-- The boxes that are closed are those that are opened. -/
theorem closed_perm (h : Nested ss) :
    (boxesOf false ss).Perm (boxesOf true ss) := by
  induction h with
  | nil => exact List.Perm.refl _
  | flat hflat _ ih =>
    rw [boxesOf_cons_of_flat false hflat, boxesOf_cons_of_flat true hflat]
    exact ih
  | @box action title inside ss _ _ ihin ih =>
    rw [opened_box, closed_box]
    -- the box is closed after all boxes inside it and opened before them
    exact List.perm_middle.trans ((ihin.append ih).cons (action, title))

theorem balanced (h : Nested ss) (c : Canvas) : Balanced (c.linesOfAll ss) := by
  induction h generalizing c with
  | nil => exact .of_flat fun l hl => absurd hl List.not_mem_nil
  | flat hflat _ ih => exact (Balanced.of_flat (Canvas.flat_linesOf hflat c)).append (ih _)
  | @box action title inside ss _ _ ihin ih =>
    obtain ⟨c₁, c₂, hlines⟩ := c.linesOfAll_box action title inside ss
    have hbox := ((ihin c₁).wrap (labelText title)).append (ih c₂)
    rw [List.cons_append, List.append_assoc] at hbox
    exact hlines ▸ hbox

/-- The titles of boxes stand among the lines in the order in which the boxes are opened. -/
theorem filter_opens (h : Nested ss) (c : Canvas) :
    (c.linesOfAll ss).filter Line.opens
      = (boxesOf true ss).map fun box => Line.ofTitle box.2 := by
  induction h generalizing c with
  | nil => rfl
  | flat hflat _ ih =>
    rw [Canvas.linesOfAll, List.filter_append, filter_opens_of_flat (Canvas.flat_linesOf hflat c),
      ih, boxesOf_cons_of_flat true hflat, List.nil_append]
  | @box action title inside ss _ _ ihin ih =>
    obtain ⟨c₁, c₂, hlines⟩ := c.linesOfAll_box action title inside ss
    rw [hlines, List.filter_cons_of_pos rfl, List.filter_append, ihin,
      List.filter_cons_of_neg Bool.false_ne_true, ih, opened_box, List.map_cons, List.map_append]

/-- Reading the lines of nested strokes uses up the names of their boxes and leaves open what was
open before. -/
theorem readAll (h : Nested ss) (c : Canvas) (outer names : List String) :
    (Scope.mk outer (owners ss ++ names)).readAll (c.linesOfAll ss) = ⟨outer, names⟩ := by
  induction h generalizing c outer names with
  | nil => rfl
  | @flat s ss hflat _ ih =>
    rw [Canvas.linesOfAll, Scope.readAll_append,
      Scope.readAll_of_flat _ (Canvas.flat_linesOf hflat c), owners_cons_of_flat hflat]
    exact ih _ _ _
  | @box action title inside ss _ _ ihin ih =>
    obtain ⟨c₁, c₂, hlines⟩ := c.linesOfAll_box action title inside ss
    rw [hlines, owners_box, List.cons_append, List.append_assoc, Scope.readAll_cons,
      Scope.read_title, Scope.readAll_append, ihin, Scope.readAll_cons, Scope.read_end]
    exact ih _ _ _

/-- The lines of a box with what is open at each of them: inside it there is its action, too. -/
theorem places_box (h : Nested ss) (c : Canvas) (action title : String) (outer names : List String)
    (rest : List Line) :
    (Scope.mk outer (action :: (owners ss ++ names))).places
        (.ofTitle title :: (c.linesOfAll ss ++ .closeSubgraph :: rest))
      = (.ofTitle title, outer)
        :: ((Scope.mk (outer ++ [action]) (owners ss ++ names)).places (c.linesOfAll ss)
          ++ (.closeSubgraph, outer ++ [action]) :: (Scope.mk outer names).places rest) := by
  rw [Scope.places, Scope.read_title, Scope.places_append, h.readAll, Scope.places, Scope.read_end]

/-- Each box is innermost where it is closed. -/
theorem boxesAtEnds (h : Nested ss) (c : Canvas) (outer names : List String) :
    boxesAtEnds ((Scope.mk outer (owners ss ++ names)).places (c.linesOfAll ss))
      = (boxesOf false ss).map fun box => some box.1 := by
  induction h generalizing c outer names with
  | nil => rfl
  | @flat s ss hflat _ ih =>
    have hflat' := Canvas.flat_linesOf hflat c
    rw [Canvas.linesOfAll, Scope.places_append, boxesAtEnds_append, boxesAtEnds_of_flat _ hflat',
      Scope.readAll_of_flat _ hflat', owners_cons_of_flat hflat, ih,
      boxesOf_cons_of_flat false hflat, List.nil_append]
  | @box action title inside ss hin _ ihin ih =>
    obtain ⟨c₁, c₂, hlines⟩ := c.linesOfAll_box action title inside ss
    have hinside := ihin c₁ (outer ++ [action]) (owners ss ++ names)
    have hrest := ih c₂ outer names
    rw [hlines, owners_box, List.cons_append, List.append_assoc, hin.places_box, closed_box,
      List.map_append, List.map_cons, ← hinside, ← hrest, boxesAtEnds_title, boxesAtEnds_append,
      boxesAtEnds_end]

end Nested

/-! ## The boxes of a walk -/

/-- The strokes between the first of a box and the groups inside it: the node of the action, and
what is reported about it. -/
def face (styles : StyleTable) (name : String) (a : Action) : List Stroke :=
  [a.nodeStroke styles name, .assign (nodeId name) (styleFor styles a.kind)]
    ++ (a.reports name).map .report

theorem flat_face (styles : StyleTable) (name : String) (a : Action) :
    ∀ s ∈ face styles name a, s.isFlat := by
  intro s hs
  rcases List.mem_append.mp hs with hs | hs
  · rcases List.mem_pair.mp hs with rfl | rfl
    · rfl
    · rfl
  · obtain ⟨r, -, rfl⟩ := List.mem_map.mp hs
    rfl

/-- An action without a box is drawn as its face and what is inside it. -/
theorem drawing_of_plain {styles : StyleTable} {d : Declaration}
    (h : d.action.boxTitle? d.name = none) (inside : List Stroke) :
    d.action.opening styles d.name ++ inside ++ d.action.closing d.name
      = face styles d.name d.action ++ inside := by
  rw [Action.opening, Action.closing, h]
  simp [face]

/-- A boxed action is drawn as the same strokes inside its box. -/
theorem drawing_of_boxed {styles : StyleTable} {d : Declaration} {title : String}
    (h : d.action.boxTitle? d.name = some title) (inside : List Stroke) :
    d.action.opening styles d.name ++ inside ++ d.action.closing d.name
      = .openBox d.name title
        :: ((face styles d.name d.action ++ inside) ++ Stroke.closeBox d.name title :: []) := by
  rw [Action.opening, Action.closing, h]
  simp [face]

theorem Nested.drawing {inside : List Stroke} (h : Nested inside) (styles : StyleTable)
    (d : Declaration) :
    Nested (d.action.opening styles d.name ++ inside ++ d.action.closing d.name) := by
  have hface := (Nested.of_flat (flat_face styles d.name d.action)).append h
  cases hbox : d.action.boxTitle? d.name with
  | none => exact drawing_of_plain hbox inside ▸ hface
  | some title => exact drawing_of_boxed hbox inside ▸ .box hface .nil

/-- An action opens its own box and those inside it. -/
theorem opened_drawing (styles : StyleTable) (d : Declaration) (inside : List Stroke) :
    boxesOf true (d.action.opening styles d.name ++ inside ++ d.action.closing d.name)
      = d.box?.toList ++ boxesOf true inside := by
  have hface := boxesOf_of_flat true (flat_face styles d.name d.action)
  cases hbox : d.action.boxTitle? d.name with
  | none =>
    rw [drawing_of_plain hbox, boxesOf_append, hface, Declaration.box?, hbox]
    rfl
  | some title =>
    rw [drawing_of_boxed hbox, opened_box, boxesOf_append, hface, Declaration.box?, hbox]
    simp [boxesOf]

variable {actions : Actions} {styles : StyleTable} {ts : List Task} {m : Memo} {t : Trip}

theorem flat_arrows (m : Memo) (name dependency : String) :
    ∀ s ∈ m.arrows name dependency, s.isFlat := by
  intro s hs
  obtain ⟨source, -, rfl⟩ := List.mem_map.mp hs
  rfl

theorem flat_reports (state : Progress) (name dependency : String) :
    ∀ s ∈ state.reports name dependency, s.isFlat := by
  intro s hs
  cases state with
  | underway => exact List.mem_singleton.mp hs ▸ rfl
  | done => exact absurd hs List.not_mem_nil

/-- The strokes of a trip are nested, whatever is drawn in the middle of other actions. -/
theorem Walks.nested (h : Walks actions styles ts m t) : Nested t.strokes := by
  induction h with
  | nil m => exact .nil
  | wire _ ih | leave _ ih | unknown _ _ ih => exact .flat rfl ih
  | again _ _ _ ih => exact ih
  | @fresh d ts m before inside t _ _ _ _ _ ih₁ ih₂ ih₃ =>
    exact ((ih₁.append (ih₂.drawing styles d)).append (.flat rfl .nil)).append ih₃
  | @met name dependency d state ts m t _ _ _ ih =>
    have hreports := Nested.of_flat (flat_reports state name dependency)
    exact (hreports.append (.of_flat (flat_arrows m name dependency))).append ih
  | @force name dependency d ts m first t _ _ _ _ ih₁ ih₂ =>
    exact (ih₁.append (.of_flat (flat_arrows first.memo name dependency))).append ih₂

/-- A trip opens the boxes of the declarations it draws, and no other. -/
theorem Walks.opened_perm (h : Walks actions styles ts m t) :
    (boxesOf true t.strokes).Perm (t.drawn.filterMap Declaration.box?) := by
  induction h with
  | nil m => exact List.Perm.refl _
  | wire _ ih | leave _ ih | unknown _ _ ih | again _ _ _ ih => exact ih
  | @fresh d ts m before inside t _ _ _ _ _ ih₁ ih₂ ih₃ =>
    have hstrokes : boxesOf true (before.strokes
          ++ (d.action.opening styles d.name ++ inside.strokes ++ d.action.closing d.name)
          ++ [.report (.exitNodes d.name (d.exitsFrom inside.exits))])
        = boxesOf true before.strokes ++ (d.box?.toList ++ boxesOf true inside.strokes) := by
      rw [boxesOf_append, boxesOf_append, opened_drawing]
      exact List.append_nil _
    have hdrawn : (d :: (before.drawn ++ inside.drawn)).filterMap Declaration.box?
        = d.box?.toList ++ (before.drawn.filterMap Declaration.box?
          ++ inside.drawn.filterMap Declaration.box?) := by
      rw [← List.singleton_append, List.filterMap_append, List.filterMap_append]
      cases hbox : d.box? with
      | none => rw [List.filterMap_cons_none hbox]; rfl
      | some box => rw [List.filterMap_cons_some hbox]; rfl
    rw [Trip.strokes_prepend, boxesOf_append, hstrokes, Trip.drawn_prepend, List.filterMap_append,
      hdrawn]
    -- the boxes of the dependencies are opened before the box of the action
    refine List.Perm.append ?_ ih₃
    exact (List.perm_append_comm_assoc _ _ _).trans ((ih₁.append ih₂).append_left _)
  | @met name dependency d state ts m t _ _ _ ih =>
    rw [Trip.strokes_prepend, Trip.drawn_prepend, boxesOf_append, boxesOf_append,
      boxesOf_of_flat true (flat_reports state name dependency),
      boxesOf_of_flat true (flat_arrows m name dependency)]
    exact ih
  | @force name dependency d ts m first t _ _ _ _ ih₁ ih₂ =>
    rw [Trip.strokes_prepend, Trip.drawn_prepend, boxesOf_append, boxesOf_append,
      boxesOf_of_flat true (flat_arrows first.memo name dependency), List.append_nil,
      List.filterMap_append]
    exact ih₁.append ih₂

/-! ## Diagrams -/

theorem flat_startStrokes (actions : Actions) : ∀ s ∈ startStrokes actions, s.isFlat := by
  intro s hs
  rw [startStrokes] at hs
  rcases List.mem_append.mp hs with hs | hs
  · rcases List.mem_append.mp hs with hs | hs
    · rcases List.mem_pair.mp hs with rfl | rfl
      · rfl
      · rfl
    · split at hs
      · exact List.mem_singleton.mp hs ▸ rfl
      · exact absurd hs List.not_mem_nil
  · obtain ⟨name, -, rfl⟩ := List.mem_map.mp hs
    rfl

/-- The colours of classes are outside of all boxes. -/
theorem flat_legend (used : List Style) : ∀ l ∈ used.map Line.ofStyle, l.isFlat := by
  intro l hl
  obtain ⟨style, -, rfl⟩ := List.mem_map.mp hl
  rfl

section Drawn

variable {config : Config} {c : Conversion}

theorem Drawn.nested (h : Drawn config actions c t) : Nested (startStrokes actions ++ t.strokes) :=
  (Nested.of_flat (flat_startStrokes actions)).append h.walks.nested

/-- The log names the boxes that the strokes open, and those that they close. -/
theorem Drawn.filterMap_box? (h : Drawn config actions c t) (hhalt : c.halt? = none)
    (opens : Bool) : c.reports.filterMap (Diagnostic.box? opens)
      = boxesOf opens (startStrokes actions ++ t.strokes) := by
  obtain ⟨earlier, hearlier, hreports⟩ := h.reports_eq hhalt
  have hnone : earlier.filterMap (Diagnostic.box? opens) = [] :=
    List.filterMap_eq_nil_iff.mpr fun r hr => Diagnostic.box?_of_preliminary (hearlier r hr) opens
  rw [hreports, List.filterMap_append, hnone, List.nil_append,
    Canvas.filterMap_box? opens h.isRemark_of_report_mem, boxesOf]

theorem Drawn.openedBoxes_eq (h : Drawn config actions c t) (hhalt : c.halt? = none) :
    c.openedBoxes = boxesOf true (startStrokes actions ++ t.strokes) :=
  h.filterMap_box? hhalt true

theorem Drawn.closedBoxes_eq (h : Drawn config actions c t) (hhalt : c.halt? = none) :
    c.closedBoxes = boxesOf false (startStrokes actions ++ t.strokes) :=
  h.filterMap_box? hhalt false

/-- The places of a diagram are those of its strokes, and after them there is at most the legend. -/
theorem Drawn.places_eq (h : Drawn config actions c t) (hhalt : c.halt? = none) :
    ∃ used : List Style, c.places
      = (Scope.mk [] (owners (startStrokes actions ++ t.strokes))).places
          (Canvas.blank.linesOfAll (startStrokes actions ++ t.strokes))
        ++ (Scope.mk [] []).places (used.map Line.ofStyle) := by
  obtain ⟨used, hused⟩ := h.lines_eq
  have hread := h.nested.readAll Canvas.blank [] []
  rw [List.append_nil] at hread
  refine ⟨used, ?_⟩
  rw [Conversion.places, h.openedBoxes_eq hhalt, hused, ← owners, Scope.places_append, hread]

/-- The titles of the boxes that were opened stand among the lines. -/
theorem Drawn.filter_opens (h : Drawn config actions c t) (hhalt : c.halt? = none) :
    c.canvas.lines.filter Line.opens = c.openedBoxes.map fun box => Line.ofTitle box.2 := by
  obtain ⟨used, hused⟩ := h.lines_eq
  rw [hused, List.filter_append, h.nested.filter_opens, h.openedBoxes_eq hhalt,
    filter_opens_of_flat (flat_legend used), List.append_nil]

/-- The boxes that were opened are those of the declarations that were drawn. -/
theorem Drawn.openedBoxes_perm (h : Drawn config actions c t) (hhalt : c.halt? = none) :
    c.openedBoxes.Perm (t.drawn.filterMap Declaration.box?) := by
  rw [h.openedBoxes_eq hhalt, boxesOf_append, boxesOf_of_flat true (flat_startStrokes actions),
    List.nil_append]
  exact h.walks.opened_perm

end Drawn

/-- Whatever an accepted definition holds, the first and last lines of the boxes of its diagram
match: none is closed before it was opened, and each `end` closes the innermost box, which belongs
to the action that was reported with it. There is one box for each boxed action that was drawn. -/
theorem convert_boxes {config : Config} {log : Log} {definition : Value} {c : Conversion}
    (h : (convert config log definition).2 = .ok c) :
    ∃ (actions : Actions) (drawn : List Declaration),
      Definition.tree? definition = some actions ∧ (∀ d ∈ drawn, d ∈ actions.declarations) ∧
      drawn.map Declaration.name = c.memo.visits.keys ∧
      (nodeLines c.canvas.lines).Perm
        (startEntry :: drawn.map (Declaration.nodeEntry config.styles)) ∧
      Balanced c.canvas.lines ∧
      c.canvas.lines.filter Line.opens = c.openedBoxes.map (fun box => Line.ofTitle box.2) ∧
      boxesAtEnds c.places = c.closedBoxes.map (fun box => some box.1) ∧
      c.closedBoxes.Perm c.openedBoxes ∧
      (c.openedBoxes.map Prod.fst).Perm
        ((drawn.filter fun d => d.action.isBoxed).map Declaration.name) ∧
      c.canvas.lines.countP Line.opens = drawn.countP fun d => d.action.isBoxed := by
  obtain ⟨actions, t, htree, ht⟩ := convert_drawn h
  have hhalt := convert_halt? h
  obtain ⟨used, hused⟩ := ht.lines_eq
  have hends : boxesAtEnds c.places = c.closedBoxes.map fun box => some box.1 := by
    obtain ⟨used, hplaces⟩ := ht.places_eq hhalt
    have hstrokes := ht.nested.boxesAtEnds Canvas.blank [] []
    rw [List.append_nil] at hstrokes
    rw [hplaces, boxesAtEnds_append, hstrokes, boxesAtEnds_of_flat _ (flat_legend used),
      List.append_nil, ht.closedBoxes_eq hhalt]
  have howners : (c.openedBoxes.map Prod.fst).Perm
      ((t.drawn.filter fun d => d.action.isBoxed).map Declaration.name) := by
    have hsound : ∀ d ∈ t.drawn, d.action.Sound := fun d hd =>
      ht.readable.sound d (ht.walks.drawn_declared d hd)
    rw [← Declaration.map_filterMap_box? hsound]
    exact (ht.openedBoxes_perm hhalt).map Prod.fst
  refine ⟨actions, t.drawn, htree, ht.walks.drawn_declared, ht.names_drawn.1, ht.nodeLines_perm,
    hused ▸ (ht.nested.balanced _).append (.of_flat (flat_legend used)),
    ht.filter_opens hhalt, hends, ?_, howners, ?_⟩
  · rw [ht.openedBoxes_eq hhalt, ht.closedBoxes_eq hhalt]
    exact ht.nested.closed_perm
  · have hlength := howners.length_eq
    have hlines := congrArg List.length (ht.filter_opens hhalt)
    rw [List.length_map, List.length_map] at hlength
    rw [List.length_map] at hlines
    rw [List.countP_eq_length_filter, List.countP_eq_length_filter, hlines, hlength]

/-- The only box of the sample is the one of its switch, and its end closes it. -/
theorem convert_boxes_sample :
    boxesAtEnds (Conversion.ofEntries {} sampleEntries).places = [some "Check"] := by
  obtain ⟨-, -, -, -, -, -, -, -, hends, -⟩ := convert_boxes convert_sample.1
  rw [hends, Conversion.ofEntries, ofEntries_sample.1]
  decide +kernel

end Diagram

end Flowchart

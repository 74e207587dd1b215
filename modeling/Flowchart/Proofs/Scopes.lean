import Mathlib.Tactic.Common
import Flowchart.Diagram.Line

/-!
# Lines and the boxes around them

Boxes are subgraphs, and the lines `subgraph` and `end` around them name no action. Whose they are
has to be known from elsewhere.

* `Line.opens` and `Line.closes` tell these lines, and `Balanced` says that they match as brackets
  do;
* `Scope.places` reads lines with the boxes that are open at each of them, given the owners of the
  boxes in order;
* `boxesAtEnds` are the boxes that such a reading finds to be closed.
-/

namespace Flowchart.Diagram

/-! ## Lines that open and close -/

/-- The first line of a box. -/
def Line.opens : Line → Bool
  | openSubgraph _ => true
  | _ => false

/-- The last line of a box. -/
def Line.closes : Line → Bool
  | closeSubgraph => true
  | _ => false

/-- Any other line. -/
def Line.isFlat (l : Line) : Bool := !l.opens && !l.closes

/-- Lines in which no box is closed before it was opened, and none is left open. -/
structure Balanced (ls : List Line) : Prop where
  ahead : ∀ n, (ls.take n).countP Line.closes ≤ (ls.take n).countP Line.opens
  even : ls.countP Line.opens = ls.countP Line.closes

theorem Line.opens_of_flat {l : Line} (h : l.isFlat) : l.opens = false := by
  simp only [isFlat, Bool.and_eq_true, Bool.not_eq_true'] at h
  exact h.1

theorem Line.closes_of_flat {l : Line} (h : l.isFlat) : l.closes = false := by
  simp only [isFlat, Bool.and_eq_true, Bool.not_eq_true'] at h
  exact h.2

theorem filter_opens_of_flat {ls : List Line} (h : ∀ l ∈ ls, l.isFlat) :
    ls.filter Line.opens = [] :=
  List.filter_eq_nil_iff.mpr fun l hl => by simp [Line.opens_of_flat (h l hl)]

theorem countP_opens_of_flat {ls : List Line} (h : ∀ l ∈ ls, l.isFlat) :
    ls.countP Line.opens = 0 := by
  rw [List.countP_eq_length_filter, filter_opens_of_flat h, List.length_nil]

theorem countP_closes_of_flat {ls : List Line} (h : ∀ l ∈ ls, l.isFlat) :
    ls.countP Line.closes = 0 :=
  List.countP_eq_zero.mpr fun l hl => by simp [Line.closes_of_flat (h l hl)]

namespace Balanced

theorem of_flat {ls : List Line} (h : ∀ l ∈ ls, l.isFlat) : Balanced ls := by
  refine ⟨fun n => ?_, ?_⟩
  · rw [countP_closes_of_flat fun l hl => h l (List.mem_of_mem_take hl)]
    exact Nat.zero_le _
  · rw [countP_opens_of_flat h, countP_closes_of_flat h]

theorem append {ls ls' : List Line} (h : Balanced ls) (h' : Balanced ls') :
    Balanced (ls ++ ls') := by
  refine ⟨fun n => ?_, ?_⟩
  · rw [List.take_append, List.countP_append, List.countP_append]
    exact Nat.add_le_add (h.ahead n) (h'.ahead _)
  · rw [List.countP_append, List.countP_append, h.even, h'.even]

/-- A box around balanced lines. -/
theorem wrap {ls : List Line} (h : Balanced ls) (title : String) :
    Balanced (.openSubgraph title :: (ls ++ [.closeSubgraph])) := by
  have hlast : ∀ n, ([Line.closeSubgraph].take n).countP Line.closes ≤ 1 := fun n =>
    Nat.le_trans List.countP_le_length (List.length_take_le' _ _)
  refine ⟨fun n => ?_, ?_⟩
  · cases n with
    | zero => simp
    | succ n =>
      -- the line that opens the box makes up for the one that closes it
      have hinside := h.ahead n
      have hend := hlast (n - ls.length)
      rw [List.take_succ_cons, List.take_append, List.countP_cons, List.countP_cons,
        List.countP_append, List.countP_append]
      simp only [Line.opens, Line.closes, if_true, Bool.false_eq_true, if_false]
      omega
  · simp [List.countP_append, List.countP_cons, Line.opens, Line.closes, h.even]

end Balanced

/-! ## Reading lines with their boxes -/

/-- A place among lines: the boxes that are open, outermost first, and the owners of those that are
still to be opened, in order. -/
structure Scope where
  opened : List String
  owners : List String

namespace Scope

/-- The place after a line. -/
def read (s : Scope) : Line → Scope
  | .openSubgraph _ => ⟨s.opened ++ s.owners.take 1, s.owners.drop 1⟩
  | .closeSubgraph => ⟨s.opened.dropLast, s.owners⟩
  | _ => s

/-- The place after lines. -/
def readAll (s : Scope) (ls : List Line) : Scope := ls.foldl read s

/-- Each line with the boxes that are open before it, outermost first. -/
def places (s : Scope) : List Line → List (Line × List String)
  | [] => []
  | l :: rest => (l, s.opened) :: (s.read l).places rest

/-- The first line of a box takes its owner from the names. -/
theorem read_title (outer names : List String) (owner title : String) :
    (Scope.mk outer (owner :: names)).read (.ofTitle title) = ⟨outer ++ [owner], names⟩ := rfl

theorem read_end (outer names : List String) (owner : String) :
    (Scope.mk (outer ++ [owner]) names).read .closeSubgraph = ⟨outer, names⟩ := by
  rw [read, List.dropLast_concat]

theorem readAll_cons (s : Scope) (l : Line) (ls : List Line) :
    s.readAll (l :: ls) = (s.read l).readAll ls := rfl

theorem readAll_append (s : Scope) (ls ls' : List Line) :
    s.readAll (ls ++ ls') = (s.readAll ls).readAll ls' :=
  List.foldl_append

theorem places_append (s : Scope) (ls ls' : List Line) :
    s.places (ls ++ ls') = s.places ls ++ (s.readAll ls).places ls' := by
  induction ls generalizing s with
  | nil => rfl
  | cons l rest ih =>
    rw [List.cons_append, places, ih, places, List.cons_append]
    rfl

theorem read_of_flat (s : Scope) {l : Line} (h : l.isFlat) : s.read l = s := by
  cases l with
  | openSubgraph title => cases h
  | closeSubgraph => cases h
  | _ => rfl

theorem readAll_of_flat (s : Scope) {ls : List Line} (h : ∀ l ∈ ls, l.isFlat) :
    s.readAll ls = s := by
  induction ls with
  | nil => rfl
  | cons l rest ih =>
    rw [readAll, List.foldl_cons, s.read_of_flat (h l List.mem_cons_self)]
    exact ih fun l' hl' => h l' (List.mem_cons_of_mem _ hl')

/-- Between lines of boxes the place stays the same. -/
theorem places_of_flat (s : Scope) {ls : List Line} (h : ∀ l ∈ ls, l.isFlat) :
    s.places ls = ls.map fun l => (l, s.opened) := by
  induction ls with
  | nil => rfl
  | cons l rest ih =>
    rw [places, s.read_of_flat (h l List.mem_cons_self), List.map_cons,
      ih fun l' hl' => h l' (List.mem_cons_of_mem _ hl')]

end Scope

/-- The innermost open box at each line that closes one. -/
def boxesAtEnds (ps : List (Line × List String)) : List (Option String) :=
  (ps.filter fun p => p.1.closes).map fun p => p.2.getLast?

theorem boxesAtEnds_append (ps ps' : List (Line × List String)) :
    boxesAtEnds (ps ++ ps') = boxesAtEnds ps ++ boxesAtEnds ps' := by
  rw [boxesAtEnds, List.filter_append, List.map_append]
  rfl

theorem boxesAtEnds_title (outer : List String) (title : String) (ps : List (Line × List String)) :
    boxesAtEnds ((.ofTitle title, outer) :: ps) = boxesAtEnds ps := rfl

theorem boxesAtEnds_end (outer : List String) (owner : String) (ps : List (Line × List String)) :
    boxesAtEnds ((.closeSubgraph, outer ++ [owner]) :: ps) = some owner :: boxesAtEnds ps := by
  rw [boxesAtEnds, List.filter_cons_of_pos rfl, List.map_cons, List.getLast?_concat]
  rfl

theorem boxesAtEnds_of_flat (s : Scope) {ls : List Line} (h : ∀ l ∈ ls, l.isFlat) :
    boxesAtEnds (s.places ls) = [] := by
  have hnone : ∀ p ∈ s.places ls, ¬ p.1.closes := by
    rw [s.places_of_flat h]
    intro p hp
    obtain ⟨l, hl, rfl⟩ := List.mem_map.mp hp
    simp [Line.closes_of_flat (h l hl)]
  rw [boxesAtEnds, List.filter_eq_nil_iff.mpr hnone, List.map_nil]

end Flowchart.Diagram

import Mathlib.Data.List.TakeWhile
import Flowchart.Proofs.Escaping
import Flowchart.Proofs.Legibility
import Flowchart.Proofs.Redeclaration

/-!
# Labels that can be seen

A name without a visible character is replaced before the references in it are decoded. So a name
that is made of references to blanks is kept, and its label is empty.

* `Text.CharRef.Vacant` texts are made of blanks and of references that stand for blanks or for
  nothing. They are those that decode to blanks, as `vacant_iff` says, and `isBlank_ofCode_iff` says
  which numbers such a reference may have;
* `labelText_displayName_ne_empty_iff`: a name has a label that can be seen unless its readable form
  is vacant, and a name without an ampersand always has one;
* `Drawn.edge_mem_lines` and `Drawn.leads_of_edge_mem_lines`: the texts on the arrows of a diagram
  are those that its actions lead along;
* `convert_captions` says which diagrams have an empty label. `convert_captions_blank` is one.
-/

namespace Flowchart

namespace Text

/-! ## Blanks -/

/-- If anything is left by trimming, some of it can be seen. -/
theorem exists_not_isBlank_of_trim {s : List Char} (h : trim s ≠ []) :
    ∃ c ∈ trim s, ¬isBlank c := by
  rw [trim, trimEnd] at h ⊢
  cases hrest : (s.dropWhile isBlank).reverse.dropWhile isBlank with
  | nil =>
    rw [hrest] at h
    exact absurd rfl h
  | cons c rest =>
    exact ⟨c, by simp, not_isBlank_of_mem_head?_dropWhile (by rw [hrest]; rfl)⟩

theorem trim_eq_nil_iff {s : List Char} : trim s = [] ↔ ∀ c ∈ s, isBlank c := by
  constructor
  · intro h
    rw [trim, trimEnd, List.reverse_eq_nil_iff, List.dropWhile_eq_nil_iff] at h
    rw [← List.dropWhile_eq_nil_iff]
    cases hrest : s.dropWhile isBlank with
    | nil => rfl
    | cons c rest =>
      have hblank := h c (by simp [hrest])
      exact absurd hblank (not_isBlank_of_mem_head?_dropWhile (by rw [hrest]; rfl))
  · intro h
    by_contra hne
    obtain ⟨c, hc, hblank⟩ := exists_not_isBlank_of_trim hne
    exact hblank (h c (mem_of_mem_trim hc))

/-- Squeezing leaves blanks alone with blanks. -/
theorem all_isBlank_squeeze (s : List Char) : (squeeze s).all isBlank = s.all isBlank := by
  induction s with
  | nil => rfl
  | cons c rest ih =>
    rw [squeeze]
    split
    · rename_i hc
      split
      · rw [ih, List.all_cons, hc, Bool.true_and]
      · rw [List.all_cons, List.all_cons, ih, hc, isBlank_space]
    · rw [List.all_cons, List.all_cons, ih]

namespace CharRef

/-! ## References that show nothing -/

/-- A text of blanks and of references that stand for blanks, or for nothing at all. -/
inductive Vacant : List Char → Prop where
  | nil : Vacant []
  | blank {c : Char} {rest : List Char} (hc : isBlank c) (h : Vacant rest) : Vacant (c :: rest)
  | reference {rest text : List Char} {n : Nat} (href : reference? rest = some (text, n))
      (htext : ∀ c ∈ text, isBlank c) (h : Vacant (rest.drop n)) : Vacant ('&' :: rest)

/-- The vacant texts are those that decode to blanks. -/
theorem vacant_iff {s : List Char} : Vacant s ↔ ∀ c ∈ decode s, isBlank c := by
  constructor
  · intro h
    induction h with
    | nil =>
      rw [decode]
      exact List.forall_mem_nil _
    | @blank c rest hc _ ih =>
      have hother : c ≠ '&' := by
        rintro rfl
        exact absurd hc (by decide)
      rw [decode, if_neg hother]
      exact List.forall_mem_cons.mpr ⟨hc, ih⟩
    | reference href htext _ ih =>
      rw [decode, if_pos rfl, href]
      exact List.forall_mem_append.mpr ⟨htext, ih⟩
  · intro h
    fun_induction decode s with
    | case1 => exact .nil
    | case2 rest text n href ih =>
      obtain ⟨htext, hrest⟩ := List.forall_mem_append.mp h
      exact .reference href htext (ih hrest)
    | case3 rest _ _ =>
      -- an ampersand that starts no reference can be seen
      exact absurd (h '&' List.mem_cons_self) (by decide)
    | case4 c rest _ ih =>
      obtain ⟨hc, hrest⟩ := List.forall_mem_cons.mp h
      exact .blank hc (ih hrest)

/-- Only references can hide what is no blank. -/
theorem not_vacant_of_no_ampersand {s : List Char} (h : '&' ∉ s) (hs : ∃ c ∈ s, ¬isBlank c) :
    ¬Vacant s := by
  rw [vacant_iff, decode_eq_self h]
  obtain ⟨c, hc, hblank⟩ := hs
  exact fun hall => hblank (hall c hc)

/-- The numbers of blanks, and those that a reference cannot produce. -/
def isSilent (n : Nat) : Bool :=
  (0x1 ≤ n && n ≤ 0x20) || n == 0x7F || n == 0xA0 || n == 0x1680 || (0x2000 ≤ n && n ≤ 0x200A)
    || n == 0x2028 || n == 0x2029 || n == 0x202F || n == 0x205F || n == 0x3000
    || (0xFDD0 ≤ n && n ≤ 0xFDEF) || (0xFFFE ≤ n % 0x10000 && n ≤ 0x10FFFF)

/-- The encoding that stands in for the controls has no blanks, not even at the next line. -/
theorem not_isBlank_windows1252 {n : Nat} (hn : 0x80 ≤ n ∧ n ≤ 0x9F) :
    ¬isBlank (Char.ofNat (windows1252.getD (n - 0x80) n)) := by
  have hall : ∀ k < 0x20, ¬isBlank (Char.ofNat (windows1252.getD k (k + 0x80))) := by decide
  have hblank := hall (n - 0x80) (by omega)
  rwa [Nat.sub_add_cancel hn.1] at hblank

/-- A reference by number shows nothing just if the number is one of these. -/
theorem isBlank_ofCode_iff (n : Nat) : (∀ c ∈ ofCode n, isBlank c) ↔ isSilent n := by
  have hreplacement : ¬∀ c ∈ ['\uFFFD'], isBlank c := by
    rw [List.forall_mem_singleton]
    decide
  rw [ofCode]
  split
  · rename_i hzero
    exact iff_of_false hreplacement (by rw [hzero]; decide)
  split
  · rename_i hcontrol
    refine iff_of_false (fun h => not_isBlank_windows1252 hcontrol (h _ List.mem_cons_self)) ?_
    simp only [isSilent, Bool.or_eq_true, Bool.and_eq_true, decide_eq_true_eq, beq_iff_eq]
    omega
  split
  · refine iff_of_false hreplacement ?_
    simp only [isSilent, Bool.or_eq_true, Bool.and_eq_true, decide_eq_true_eq, beq_iff_eq]
    omega
  split
  · rename_i hforbidden
    refine iff_of_true (List.forall_mem_nil _) ?_
    simp only [isForbidden, isSilent, Bool.or_eq_true, Bool.and_eq_true, decide_eq_true_eq,
      beq_iff_eq] at hforbidden ⊢
    omega
  · rename_i hforbidden
    have hvalid : n.isValidChar := by
      rw [Nat.isValidChar]
      omega
    have hnat : (Char.ofNat n).toNat = n := by
      rw [Char.ofNat, dif_pos hvalid]
      rfl
    simp only [List.forall_mem_singleton, isBlank, isForbidden, isSilent, hnat, Bool.or_eq_true,
      Bool.and_eq_true, decide_eq_true_eq, beq_iff_eq] at hforbidden ⊢
    omega

end CharRef

end Text

/-- The names of the cases of a switch that hold actions. -/
def Action.caseNames : Action → List String
  | switch _ cases _ => (cases.filter fun e => !e.2.isEmpty).map Prod.fst
  | simple _ _ _ | condition _ _ _ | scope _ _ _ => []

namespace Diagram

open Text

/-! ## The labels of names -/

/-- A name whose readable form shows something. -/
def Visible (name : String) : Prop := ¬CharRef.Vacant (displayName name).toList

theorem labelChar_ne_nil (c : Char) : labelChar c ≠ [] := by
  by_cases hc : c ∈ labelMarks
  · obtain ⟨w, m, heq, -, -⟩ := isCode_of_mem _ (exists_code hc)
    rw [(Prod.mk.inj heq).1]
    exact List.cons_ne_nil _ _
  · rw [labelChar_eq_self hc]
    exact List.cons_ne_nil _ _

/-- The label of a text is empty just if the text is vacant. -/
theorem labelText_eq_empty_iff (text : String) :
    labelText text = "" ↔ CharRef.Vacant text.toList := by
  have hwritten : (visibleText text.toList).flatMap labelChar = [] ↔
      visibleText text.toList = [] := by
    rw [List.flatMap_eq_nil_iff, List.eq_nil_iff_forall_not_mem]
    simp only [labelChar_ne_nil, imp_false]
  rw [labelText, String.ofList_eq_empty_iff, hwritten, visibleText, trim_eq_nil_iff,
    ← List.all_eq_true, all_isBlank_squeeze, List.all_eq_true, CharRef.vacant_iff]

theorem labelText_displayName_ne_empty_iff (name : String) :
    labelText (displayName name) ≠ "" ↔ Visible name :=
  (labelText_eq_empty_iff _).not

/-- The readable form of a name has a character that is no blank. -/
theorem exists_not_isBlank_displayName (name : String) :
    ∃ c ∈ (displayName name).toList, ¬isBlank c := by
  rw [displayName]
  split
  · exact ⟨'U', by decide, by decide⟩
  · rename_i shown hshown
    rw [String.toList_ofList]
    exact exists_not_isBlank_of_trim hshown

theorem displayName_ne_empty (name : String) : displayName name ≠ "" := by
  intro h
  obtain ⟨c, hc, -⟩ := exists_not_isBlank_displayName name
  rw [h] at hc
  exact absurd hc List.not_mem_nil

/-- The readable form of a name has no characters of its own but spaces, unless it is `unnamed`. -/
theorem mem_of_mem_displayName {name : String} {c : Char} (h : c ∈ (displayName name).toList) :
    c ∈ name.toList ∨ c = ' ' ∨ c ∈ unnamed.toList := by
  rw [displayName] at h
  split at h
  · exact .inr (.inr h)
  · rw [String.toList_ofList] at h
    obtain ⟨d, hd, rfl⟩ := List.mem_map.mp (mem_of_mem_trim h)
    split
    · exact .inr (.inl rfl)
    · exact .inl (List.mem_of_mem_filter hd)

/-- A name without references has a label that can be seen. -/
theorem visible_of_no_ampersand {name : String} (h : '&' ∉ name.toList) : Visible name := by
  refine CharRef.not_vacant_of_no_ampersand (fun hmem => ?_) (exists_not_isBlank_displayName name)
  rcases mem_of_mem_displayName hmem with hmem | hmem | hmem
  · exact h hmem
  · exact absurd hmem (by decide)
  · exact absurd hmem (by decide)

/-- So have the texts that are no names. -/
theorem labelText_fixed_ne_empty :
    ∀ text ∈ ["Start", "Yes", "No", "Default"], labelText text ≠ "" := by
  have hplain : ∀ text ∈ ["Start", "Yes", "No", "Default"],
      '&' ∉ text.toList ∧ text.toList.any (!isBlank ·) := by decide
  intro text htext
  obtain ⟨hreferences, hshown⟩ := hplain text htext
  obtain ⟨c, hc, hblank⟩ := List.any_eq_true.mp hshown
  rw [Ne, labelText_eq_empty_iff]
  refine CharRef.not_vacant_of_no_ampersand hreferences ⟨c, hc, fun h => ?_⟩
  rw [h] at hblank
  cases hblank

/-! ## The texts on arrows -/

/-- The text of an arrow inside an action is fixed, or it is the name of a case. -/
theorem text_of_leads {a : Action} {child text : String} (h : a.Leads child (some text)) :
    text ∈ ["Yes", "No", "Default"] ∨ ∃ name ∈ a.caseNames, text = displayName name := by
  cases h with
  | yes h => exact .inl (by decide)
  | no h => exact .inl (by decide)
  | default h => exact .inl (by decide)
  | @case runAfter cases default label _ body hcase h =>
    have hbody : (!body.isEmpty) = true := by
      cases body with
      | nil => cases h
      | cons e rest => rfl
    exact .inr ⟨label, List.mem_map.mpr ⟨_, List.mem_filter.mpr ⟨hcase, hbody⟩, rfl⟩, rfl⟩

/-- The name of each case that holds actions is on an arrow. -/
theorem exists_leads_of_mem_caseNames {a : Action} {name : String} (h : name ∈ a.caseNames) :
    ∃ child, a.Leads child (some (displayName name)) := by
  cases a with
  | switch runAfter cases default =>
    obtain ⟨⟨label, body⟩, hmem, rfl⟩ := List.mem_map.mp h
    obtain ⟨hcase, hbody⟩ := List.mem_filter.mp hmem
    cases body with
    | nil => cases hbody
    | cons e rest => exact ⟨e.1, .case hcase rfl⟩
  | _ => cases h

section Drawn

variable {config : Config} {actions : Actions} {c : Conversion} {t : Trip} {history : List Moment}

/-- An arrow with a text leads from the node of an action to one inside it. -/
theorem HasHistory.leads_of_connect (h : HasHistory config actions c history)
    {styles : StyleTable} {source target text note : String}
    (hmem : .connect source target (some text) note ∈ history.flatMap (Moment.strokes styles)) :
    ∃ d child, .draw d ∈ history ∧ d.action.Leads child (some text) ∧
      source = nodeId d.name ∧ target = nodeId child := by
  obtain ⟨x, hx, hmem⟩ := List.mem_flatMap.mp hmem
  cases x with
  | wire s n text' note' =>
    simp only [Moment.strokes, List.mem_singleton, Stroke.connect.injEq] at hmem
    obtain ⟨rfl, rfl, rfl, rfl⟩ := hmem
    obtain ⟨d, hd, hasked⟩ := h.asked _ hx _ rfl
    have hdependency : .wire source n (some text) note ∉ d.dependencyTasks := by
      simp [Declaration.dependencyTasks]
    obtain ⟨hsource, hleads⟩ := wire_mem_tasks.mp ⟨note, hasked.resolve_left hdependency⟩
    exact ⟨d, n, hd, hleads, hsource, rfl⟩
  | start name => cases hmem
  | draw d => simp [Moment.strokes, Action.opening, Action.nodeStroke] at hmem
  | finish d exits => simp [Moment.strokes, Action.closing] at hmem
  | leave id r => simp [Moment.strokes] at hmem
  | missing name dependency => simp [Moment.strokes] at hmem
  | cycle name dependency => simp [Moment.strokes] at hmem
  | lead name dependency sources => simp [Moment.strokes] at hmem

/-- An arrow that is asked for is among the lines, since no other one is written alike. -/
theorem Drawn.ofEdge_mem_lines (h : Drawn config actions c t) {source target note : String}
    {text : Option String}
    (hmem : .connect source target text note ∈ startStrokes actions ++ t.strokes) :
    Line.ofEdge source target text ∈ c.canvas.lines := by
  have hwritten : (Line.ofEdge source target text).render ∈ edgeTexts c.canvas.lines :=
    h.mem_edgeTexts.mpr ⟨_, hmem, rfl⟩
  obtain ⟨l, hl, hrender⟩ := List.mem_map.mp hwritten
  obtain ⟨hl, hedge⟩ := List.mem_filter.mp hl
  cases l with
  | edge source' target' label =>
    obtain ⟨text', note', hmem', heq⟩ := h.connect_of_edge_mem_lines hl
    obtain ⟨n, k, rfl, rfl⟩ := h.connect_eq hmem
    obtain ⟨n', k', rfl, rfl⟩ := h.connect_eq hmem'
    rw [heq] at hl hrender
    have hsame : Line.ofEdge (nodeId n') (nodeId k') text' = .ofEdge (nodeId n) (nodeId k) text :=
      (Line.Standard.edge n' k' text').seen_eq_of_render_eq (.edge n k text) hrender
    exact hsame ▸ hl
  | _ => cases hedge

/-- The nodes of a diagram are the start node and those of the actions drawn. -/
theorem Drawn.node_mem_lines_iff (h : Drawn config actions c t) {id label : String}
    {shape : Shape} : Line.node id label shape ∈ c.canvas.lines ↔
      Line.node id label shape = .ofNode startId "Start" .circle ∨
        ∃ d ∈ t.drawn, Line.node id label shape = d.nodeLine config.styles := by
  constructor
  · intro hmem
    obtain ⟨next, hnext⟩ := mem_nodeLines_of_mem hmem
    rcases List.mem_cons.mp (h.nodeLines_perm.mem_iff.mp hnext) with heq | hdrawn
    · exact .inl (Prod.mk.inj heq).1
    · obtain ⟨d, hd, heq⟩ := List.mem_map.mp hdrawn
      exact .inr ⟨d, hd, (Prod.mk.inj heq).1.symm⟩
  · intro hmem
    have hlines : ∀ p ∈ startEntry :: t.drawn.map (Declaration.nodeEntry config.styles),
        p.1 ∈ c.canvas.lines :=
      fun p hp => mem_of_mem_nodeLines (h.nodeLines_perm.mem_iff.mpr hp)
    rcases hmem with heq | ⟨d, hd, heq⟩
    · exact heq ▸ hlines _ List.mem_cons_self
    · exact heq ▸ hlines _ (List.mem_cons_of_mem _ (List.mem_map_of_mem hd))

/-- An arrow with a text is among the lines if an action that was drawn leads along it. -/
theorem Drawn.edge_mem_lines (h : Drawn config actions c t) {d : Declaration} (hd : d ∈ t.drawn)
    {child text : String} (hleads : d.action.Leads child (some text)) (htext : text ≠ "") :
    Line.edge (nodeId d.name) (nodeId child) (some (labelText text)) ∈ c.canvas.lines := by
  obtain ⟨note, hwire⟩ := wire_mem_tasks.mpr ⟨rfl, hleads⟩
  have hconnect := (h.walks.carriedOut.drawn d hd _ (Or.inr hwire)).connect_mem
  have hline := h.ofEdge_mem_lines (List.mem_append_right _ hconnect)
  rwa [Line.ofEdge, Option.filter_some, if_pos (bne_iff_ne.mpr htext)] at hline

/-- The text on an arrow in the diagram is one that an action drawn leads along. -/
theorem Drawn.leads_of_edge_mem_lines (h : Drawn config actions c t)
    (hr : Recount actions config.styles (rootTasks actions) t [] history)
    (hhistory : HasHistory config actions c history) {source target label : String}
    (hl : Line.edge source target (some label) ∈ c.canvas.lines) :
    ∃ d child text, .draw d ∈ history ∧ d.action.Leads child (some text) ∧
      labelText text = label := by
  obtain ⟨text, note, hmem, heq⟩ := h.connect_of_edge_mem_lines hl
  rw [Line.ofEdge, Line.edge.injEq] at heq
  obtain ⟨shown, hshown, hlabel⟩ := Option.map_eq_some_iff.mp heq.2.2.symm
  obtain rfl := (Option.filter_eq_some_iff.mp hshown).1
  rcases List.mem_append.mp hmem with hmem | hmem
  · -- the arrows of the start node have no text
    obtain ⟨-, -, -, -, hnone, -⟩ := connect_mem_startStrokes.mp hmem
    cases hnone
  · rw [← hr.strokes_eq] at hmem
    obtain ⟨d, child, hd, hleads, -, -⟩ := hhistory.leads_of_connect hmem
    exact ⟨d, child, shown, hd, hleads, hlabel⟩

/-! ## Empty labels -/

/-- A line without an empty label. -/
def Line.Captioned : Line → Prop
  | node _ label _ => label ≠ ""
  | edge _ _ label => label ≠ some ""
  | _ => True

/-- The node of an action of the kind `Start` says so; any other shows the name. -/
theorem captioned_nodeLine_iff {d : Declaration} {styles : StyleTable} :
    (d.nodeLine styles).Captioned ↔ (d.action.kind ≠ "Start" → Visible d.name) := by
  rw [Declaration.nodeLine, Line.ofNode, Line.Captioned, caption]
  split
  · rename_i hstart
    exact iff_of_true (labelText_fixed_ne_empty _ List.mem_cons_self)
      fun hkind => absurd hstart hkind
  · rename_i hkind
    rw [labelText_displayName_ne_empty_iff, imp_iff_right hkind]

theorem ne_empty_of_leads {a : Action} {child text : String} (h : a.Leads child (some text)) :
    text ≠ "" := by
  rcases text_of_leads h with hfixed | ⟨name, -, rfl⟩
  · rintro rfl
    exact absurd hfixed (by decide)
  · exact displayName_ne_empty name

theorem labelText_ne_empty_of_leads {a : Action} {child text : String}
    (h : a.Leads child (some text)) (hcases : ∀ name ∈ a.caseNames, Visible name) :
    labelText text ≠ "" := by
  rcases text_of_leads h with hfixed | ⟨name, hname, rfl⟩
  · exact labelText_fixed_ne_empty text (List.mem_cons_of_mem _ hfixed)
  · exact (labelText_displayName_ne_empty_iff name).mpr (hcases name hname)

/-- A diagram has an empty label only for the name of an action or of a case in it. -/
theorem Drawn.captioned_iff (h : Drawn config actions c t)
    (hr : Recount actions config.styles (rootTasks actions) t [] history)
    (hhistory : HasHistory config actions c history) :
    (∀ l ∈ c.canvas.lines, l.Captioned) ↔
      ∀ d, .draw d ∈ history →
        (d.action.kind ≠ "Start" → Visible d.name) ∧ ∀ name ∈ d.action.caseNames, Visible name := by
  constructor
  · intro hlines d hd
    have hdrawn := hr.draw_mem_iff.mp hd
    refine ⟨captioned_nodeLine_iff.mp (hlines _ (h.node_mem_lines_iff.mpr (.inr ⟨d, hdrawn, rfl⟩))),
      fun name hname hvacant => ?_⟩
    obtain ⟨child, hleads⟩ := exists_leads_of_mem_caseNames hname
    have hedge := hlines _ (h.edge_mem_lines hdrawn hleads (ne_empty_of_leads hleads))
    exact hedge (congrArg some ((labelText_eq_empty_iff _).mpr hvacant))
  · intro hvisible l hl
    cases l with
    | node id label shape =>
      rcases h.node_mem_lines_iff.mp hl with heq | ⟨d, hd, heq⟩
      · rw [heq]
        exact labelText_fixed_ne_empty "Start" List.mem_cons_self
      · rw [heq]
        exact captioned_nodeLine_iff.mpr (hvisible d (hr.draw_mem_iff.mpr hd)).1
    | edge source target label =>
      rintro rfl
      obtain ⟨d, child, text, hd, hleads, hempty⟩ := h.leads_of_edge_mem_lines hr hhistory hl
      exact labelText_ne_empty_of_leads hleads (hvisible d hd).2 hempty
    | _ => exact trivial

end Drawn

/-! ## Diagrams -/

/-- The label of a name can be seen, unless the readable form of the name is made of blanks and of
references that show nothing; a reference by number is such a one just if the number is silent. So a
name without an ampersand can be seen. The diagram of an accepted definition has a line for the node
of each action drawn and one with a text for each arrow from there with a text, and no label in it
is empty if and only if the names of these actions can be seen, and those of the cases that hold
actions. The kind `Start` is shown by its own word. -/
theorem convert_captions (config : Config) (log : Log) (definition : Value) :
    (∀ name, labelText (displayName name) ≠ "" ↔ Visible name) ∧
    (∀ n, (∀ c ∈ CharRef.ofCode n, isBlank c) ↔ CharRef.isSilent n) ∧
    (∀ name, '&' ∉ name.toList → Visible name) ∧
    ∀ c, (convert config log definition).2 = .ok c →
      ∃ actions history, Definition.tree? definition = some actions ∧
        HasHistory config actions c history ∧
        (∀ d, .draw d ∈ history → d.nodeLine config.styles ∈ c.canvas.lines ∧
          ∀ child text, d.action.Leads child (some text) →
            Line.edge (nodeId d.name) (nodeId child) (some (labelText text)) ∈ c.canvas.lines) ∧
        ((∀ l ∈ c.canvas.lines, l.Captioned) ↔
          ∀ d, .draw d ∈ history →
            (d.action.kind ≠ "Start" → Visible d.name) ∧
            ∀ name ∈ d.action.caseNames, Visible name) := by
  refine ⟨labelText_displayName_ne_empty_iff, CharRef.isBlank_ofCode_iff,
    fun name => visible_of_no_ampersand, ?_⟩
  intro c h
  obtain ⟨actions, t, htree, ht⟩ := convert_drawn h
  obtain ⟨history, hr⟩ := ht.walks.recount (chronicle_nil actions)
  have hhistory := ht.hasHistory (convert_halt? h) hr
  refine ⟨actions, history, htree, hhistory, fun d hd => ?_, ht.captioned_iff hr hhistory⟩
  have hdrawn := hr.draw_mem_iff.mp hd
  exact ⟨ht.node_mem_lines_iff.mpr (.inr ⟨d, hdrawn, rfl⟩),
    fun child text hleads => ht.edge_mem_lines hdrawn hleads (ne_empty_of_leads hleads)⟩

/-- The sample is accepted, and no label in its diagram is empty: none of its names has an
ampersand. -/
theorem convert_captions_sample :
    ∃ c, (convert {} ⟨[], []⟩ (definitionOf sampleEntries)).2 = .ok c ∧
      ∀ l ∈ c.canvas.lines, l.Captioned := by
  obtain ⟨-, -, hvisible, hdiagram⟩ :=
    convert_captions {} ⟨[], []⟩ (definitionOf sampleEntries)
  obtain ⟨actions, history, htree, hhistory, -, hcaptioned⟩ := hdiagram _ convert_sample.1
  rw [tree?_sample.1, Option.some.injEq] at htree
  subst htree
  have hnames : ∀ d ∈ sampleActions.declarations,
      '&' ∉ d.name.toList ∧ ∀ name ∈ d.action.caseNames, '&' ∉ name.toList := by decide
  refine ⟨_, convert_sample.1, hcaptioned.mpr fun d hd => ?_⟩
  obtain ⟨hname, hcases⟩ := hnames d (hhistory.declared d hd)
  exact ⟨fun _ => hvisible _ hname, fun name hmem => hvisible _ (hcases name hmem)⟩

/-- A tree with a case and an action in it that are named by references to blanks. -/
def blankActions : Actions :=
  [("Route", .switch [] [("&#32;", [("&nbsp;", .simple "Compose" [] [])])] none)]

/-- The diagram of this tree has a node and an arrow with empty labels. -/
theorem convert_captions_blank :
    ∃ c, (convert {} ⟨[], []⟩ (definitionOf blankActions.entries)).2 = .ok c ∧
      Line.node "N__nbsp_" "" .rectangle ∈ c.canvas.lines ∧
      Line.edge "Route" "N__nbsp_" (some "") ∈ c.canvas.lines := by
  have hreadable : blankActions.Readable := by decide
  refine ⟨_, hreadable.convert_definitionOf ⟨[], []⟩ (by decide +kernel), ?_⟩
  decide +kernel

end Diagram

end Flowchart

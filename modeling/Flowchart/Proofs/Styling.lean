import Flowchart.Proofs.Legibility
import Flowchart.Proofs.Requests

/-!
# What a style file can do to a diagram

Ids and labels are made safe on their way into a line, but the class and the colours of a style are
written as they are. A style file is accepted whatever characters they hold.

* `Text.Inline` texts stay on one line and do not hold the character that ends them there, and
  `Style.Harmless` styles are made of such texts;
* `Line.decodeWords_ofStyle_iff`: the colours of a class are read back from their line if its parts
  do not hold what ends them, and only then;
* `exists_lines` draws a diagram of one action, which has a line with each part of its style;
* `convert_styled`: a table does no harm to any diagram if and only if its styles are harmless.
-/

namespace Flowchart

/-! ## Harmless styles -/

namespace Text

/-- A text without line breaks. -/
def Unbroken (s : String) : Prop := ∀ c ∈ s.toList, isLineBreak c = false

instance : DecidablePred Unbroken := fun s =>
  decidable_of_iff (s.toList.all fun c => !isLineBreak c) (by simp [Unbroken])

theorem unbroken_append {s s' : String} : Unbroken (s ++ s') ↔ Unbroken s ∧ Unbroken s' := by
  simp only [Unbroken, String.toList_append, List.forall_mem_append]

/-- A text that can be a part of a line: it has no line break, nor the character that ends it. -/
structure Inline (stop : Char) (s : String) : Prop where
  unbroken : Unbroken s
  not_mem : stop ∉ s.toList

instance (stop : Char) : DecidablePred (Inline stop) := fun s =>
  decidable_of_iff (Unbroken s ∧ stop ∉ s.toList) ⟨fun h => ⟨h.1, h.2⟩, fun h => ⟨h.1, h.2⟩⟩

end Text

open Text

/-- The only blanks of a clean text are spaces, and a space breaks no line. -/
theorem Diagram.Clean.unbroken {without : List Char} {s : String} (h : Diagram.Clean without s) :
    Unbroken s := by
  intro c hc
  rw [← Bool.not_eq_true]
  intro hbreak
  obtain ⟨hblank, hspace⟩ := isBlank_of_isLineBreak hbreak
  exact hspace ((h c hc).2 hblank)

/-- A style whose class is one word, and whose colours are single values. -/
structure Style.Harmless (s : Style) : Prop where
  className : Inline ' ' s.className
  fill : Inline ',' s.fill
  stroke : Inline ',' s.stroke

instance : DecidablePred Style.Harmless := fun s =>
  decidable_of_iff (Inline ' ' s.className ∧ Inline ',' s.fill ∧ Inline ',' s.stroke)
    ⟨fun ⟨hname, hfill, hstroke⟩ => ⟨hname, hfill, hstroke⟩,
      fun ⟨hname, hfill, hstroke⟩ => ⟨hname, hfill, hstroke⟩⟩

namespace StyleTable

/-- All styles in the table are harmless. -/
def Harmless (t : StyleTable) : Prop := ∀ e ∈ t, e.2.Harmless

theorem harmless_builtIn : Harmless Style.builtIn := by
  unfold Harmless
  decide +kernel

/-- A style file names each kind once in the table. -/
theorem nodup_keys_merge {t t' : StyleTable} (ht : t.keys.Nodup) {raw : List (Value × Value)}
    (h : t.merge raw = .ok t') : t'.keys.Nodup := by
  induction raw generalizing t with
  | nil =>
    cases h
    exact ht
  | cons e rest ih =>
    obtain ⟨key, spec⟩ := e
    rw [merge_cons] at h
    obtain ⟨next, hnext, h⟩ := exists_of_bind_eq_ok h
    obtain ⟨kind, fields, style, -, -, rfl⟩ := mergeKind_eq_ok hnext
    exact ih (Table.nodup_keys_put ht kind style) h

end StyleTable

namespace Diagram

variable {styles : StyleTable}

/-- The styles of a diagram are harmless if those of its style file are. -/
theorem Resolved.harmless (hstyles : styles.Harmless) {s : Style} (h : Resolved styles s) :
    s.Harmless := by
  have hall : StyleTable.Harmless (styles ++ Style.builtIn) := fun e he =>
    (List.mem_append.mp he).elim (hstyles e) (StyleTable.harmless_builtIn e)
  rcases h with ⟨kind, rfl⟩ | ⟨name, hname, rfl⟩
  · rw [styleFor]
    cases hknown : Style.known? styles kind with
    | none => exact (by decide : (Style.plain "Default").Harmless)
    | some s => exact hall _ (StyleTable.mem_of_known? hknown)
  · rw [classStyle]
    cases hfound : ((styles ++ Style.builtIn).map Prod.snd).find? (·.className == name) with
    | none =>
      have hplain : ∀ name ∈ legendClasses, (Style.plain name).Harmless := by decide +kernel
      exact hplain name hname
    | some s =>
      obtain ⟨e, he, rfl⟩ := List.mem_map.mp (List.mem_of_find?_eq_some hfound)
      exact hall e he

/-! ## Lines with styles in them -/

theorem not_mem_of_upTo {stop : Char} {s before after : List Char}
    (h : upTo stop s = some (before, after)) : stop ∉ before := by
  induction s generalizing before with
  | nil => cases h
  | cons c rest ih =>
    rw [upTo] at h
    split at h
    · cases h
      exact List.not_mem_nil
    · rename_i hc
      obtain ⟨⟨before', after'⟩, hrest, heq⟩ := Option.map_eq_some_iff.mp h
      cases heq
      rw [List.mem_cons, not_or]
      exact ⟨fun heq => hc heq.symm, ih hrest⟩

namespace Line

/-- The parts of a line of colours behind its keyword. -/
theorem toList_render_ofStyle (s : Style) : (ofStyle s).render.toList =
    "classDef".toList ++ ' ' :: (s.className.toList ++ ' ' :: ("fill".toList ++ ':'
      :: (s.fill.toList ++ ',' :: ("stroke".toList ++ ':'
        :: (s.stroke.toList ++ ',' :: "stroke-width:2px;".toList))))) := by
  simp [ofStyle]

/-- Reads a statement behind its keyword. -/
def decodeWords (s : List Char) : Option Line :=
  decodeStatement (leadingWord s).1 ((leadingWord s).2.drop 1)

/-- A line of colours is read back if no part of it holds what ends it, and only then. -/
theorem decodeWords_ofStyle_iff {s : Style} :
    decodeWords (ofStyle s).render.toList = some (ofStyle s) ↔
      ' ' ∉ s.className.toList ∧ ',' ∉ s.fill.toList ∧ ',' ∉ s.stroke.toList := by
  have hkeyword : "classDef".toList ≠ "subgraph".toList := by decide
  have hword : IsWord "classDef" := by decide
  rw [toList_render_ofStyle, decodeWords, leadingWord_append hword rfl]
  simp only [List.drop_one, List.tail_cons]
  rw [decodeStatement, if_neg hkeyword, if_pos rfl]
  constructor
  · intro h
    simp only [Option.bind_eq_bind, Option.bind_eq_some_iff, Prod.exists] at h
    obtain ⟨name, _, hname, _, _, -, fill, _, hfill, _, _, -, stroke, _, hstroke, heq⟩ := h
    obtain ⟨hnameEq, hfillEq, hstrokeEq⟩ := Line.classDef.inj (Option.some.inj heq)
    rw [← hnameEq, ← hfillEq, ← hstrokeEq]
    simp only [String.toList_ofList]
    exact ⟨not_mem_of_upTo hname, not_mem_of_upTo hfill, not_mem_of_upTo hstroke⟩
  · rintro ⟨hname, hfill, hstroke⟩
    have hfillKey : ':' ∉ "fill".toList := by decide
    have hstrokeKey : ':' ∉ "stroke".toList := by decide
    simp only [Option.bind_eq_bind, upTo_append hname, Option.bind_some, upTo_append hfillKey,
      upTo_append hfill, upTo_append hstrokeKey, upTo_append hstroke, String.ofList_toList]
    rfl

/-- A node is put into a class by three words, if the class is one. -/
theorem splitOn_inClass {id name : String} (hid : IsWord id) (hname : ' ' ∉ name.toList) :
    (inClass id name).render.toList.splitOn ' ' =
      ["class".toList, id.toList, name.toList ++ [';']] := by
  have hlist : (inClass id name).render.toList =
      [' '].intercalate ["class".toList, id.toList, name.toList ++ [';']] := by
    simp
  rw [hlist, List.splitOn_intercalate]
  · have hword : ' ' ∉ id.toList := (hid.clean (by decide)).not_mem (List.mem_singleton_self _)
    intro s hs
    simp only [List.mem_cons, List.not_mem_nil, or_false] at hs
    rcases hs with rfl | rfl | rfl
    · decide
    · exact hword
    · simp [hname]
  · exact List.cons_ne_nil _ _

theorem unbroken_render_ofStyle {s : Style} : Unbroken (ofStyle s).render ↔
    Unbroken s.className ∧ Unbroken s.fill ∧ Unbroken s.stroke := by
  have hsigns : Unbroken "classDef " ∧ Unbroken " fill:" ∧ Unbroken ",stroke:" ∧
      Unbroken ",stroke-width:2px;" := by decide
  simp only [ofStyle, render_classDef, unbroken_append, hsigns, true_and, and_true, and_assoc]

/-- The lines of a diagram with harmless styles are lines of their own. -/
theorem Drafted.unbroken {stock : Style → Prop} (hstock : ∀ s, stock s → s.Harmless) {l : Line}
    (h : l.Drafted stock) : Unbroken l.render := by
  cases h with
  | node name text shape => exact (Standard.node name text shape).legible.not_isLineBreak
  | edge source target text => exact (Standard.edge source target text).legible.not_isLineBreak
  | openSubgraph title => exact (Standard.openSubgraph title).legible.not_isLineBreak
  | closeSubgraph => exact Standard.closeSubgraph.legible.not_isLineBreak
  | nodeStyle name => exact (Standard.nodeStyle name).legible.not_isLineBreak
  | classDef hs =>
    obtain ⟨hname, hfill, hstroke⟩ := hstock _ hs
    exact unbroken_render_ofStyle.mpr ⟨hname.unbroken, hfill.unbroken, hstroke.unbroken⟩
  | inClass name hs =>
    have hsigns : Unbroken "class " ∧ Unbroken " " ∧ Unbroken ";" := by decide
    have hclean : Clean [] (nodeId name) := (isWord_nodeId name).clean rfl
    have hid := hclean.unbroken
    simp only [render_inClass, unbroken_append, hsigns, hid, true_and, and_true]
    exact (hstock _ hs).className.unbroken

end Line

/-! ## A diagram for a style -/

/-- A tree of one action. -/
def loneActions (a : Action) : Actions := [("A", a)]

theorem readable_lone {a : Action} (hsound : a.Sound) (hbodies : ∀ b ∈ a.bodies, b = []) :
    (loneActions a).Readable := by
  refine .intro (List.nodup_singleton "A") (List.forall_mem_singleton.mpr hsound) ?_
  intro e he b hb
  obtain rfl := List.mem_singleton.mp he
  rw [hbodies b hb]
  exact Actions.readable_nil

/-- A plain action can be drawn whatever its kind is. -/
theorem halt?_lone_simple (config : Config) (kind : String) :
    (Conversion.ofActions config (loneActions (.simple kind [] []))).halt? = none := by
  have hwalk : ((Plan.ofActions (loneActions (.simple kind [] [])) config.styles).walkAll
        (loneActions (.simple kind [] [])) ⟨none, .none, none, ""⟩ .empty).strokes
      = (Action.simple kind [] []).opening config.styles "A"
        ++ [Stroke.report (.exitNodes "A" [nodeId "A"])] := rfl
  have hindex : (Index.ofActions (loneActions (.simple kind [] []))).2 = [] := rfl
  have hname : labelLimit? (displayName "A") = none := by decide
  rw [Conversion.halt?, events_ofActions, hwalk, hindex, List.map_nil, List.nil_append,
    Canvas.halt?_drawAll, List.findSome?_eq_none_iff]
  intro s hs
  rcases List.mem_append.mp hs with hs | hs
  · exact limit?_startStrokes hs
  · rw [← s.halt?_halts]
    rcases List.mem_append.mp hs with hs | hs
    · rw [halts_opening hname s hs]
      rfl
    · rw [List.mem_singleton.mp hs]
      rfl

/-- For each kind there is a diagram with the lines of its style. -/
theorem exists_lines (styles : StyleTable) (kind : String) : ∃ definition c,
    (convert { styles, legend := false } ⟨[], []⟩ definition).2 = .ok c ∧
    Line.inClass (nodeId "A") (styleFor styles kind).className ∈ c.canvas.lines ∧
    Line.ofStyle (styleFor styles kind) ∈ c.canvas.lines := by
  suffices h : ∃ a : Action, (loneActions a).Readable ∧
      (Conversion.ofActions { styles, legend := false } (loneActions a)).halt? = none ∧
      ∃ before after,
        (Conversion.ofActions { styles, legend := false } (loneActions a)).canvas.lines = before ++
          .inClass (nodeId "A") (styleFor styles kind).className :: .ofStyle (styleFor styles kind)
            :: after by
    obtain ⟨a, hreadable, hhalt, before, after, hlines⟩ := h
    refine ⟨_, _, hreadable.convert_definitionOf _ hhalt, ?_, ?_⟩
    · simp [hlines]
    · simp [hlines]
  by_cases hbox : kind ∈ boxKinds
  · simp only [boxKinds, List.mem_cons, List.not_mem_nil, or_false] at hbox
    rcases hbox with rfl | rfl | rfl | rfl | rfl
    · exact ⟨.condition [] [] [], readable_lone trivial (by simp), rfl, [_, _, _, _, _], _, rfl⟩
    · exact ⟨.switch [] [] none, readable_lone .nil (by simp [Action.mem_bodies_switch]), rfl,
        [_, _, _, _, _], _, rfl⟩
    · exact ⟨.scope .forEach [] [], readable_lone trivial (by simp), rfl, [_, _, _, _, _], _, rfl⟩
    · exact ⟨.scope .doUntil [] [], readable_lone trivial (by simp), rfl, [_, _, _, _, _], _, rfl⟩
    · exact ⟨.scope .scope [] [], readable_lone trivial (by simp), rfl, [_, _, _, _, _], _, rfl⟩
  · exact ⟨.simple kind [] [], readable_lone hbox (by simp), halt?_lone_simple _ kind,
      [_, _, _, _], _, rfl⟩

/-! ## Diagrams -/

/-- What every style should leave to the lines of a diagram. Each is one line; a node is put into a
class by three words; and the line of a class has the class and colours of a style, which are read
back from it. -/
structure Unharmed (styles : StyleTable) (lines : List Line) : Prop where
  unbroken : ∀ l ∈ lines, Unbroken l.render
  words : ∀ id name, .inClass id name ∈ lines →
    (Line.inClass id name).render.toList.splitOn ' ' =
      ["class".toList, id.toList, name.toList ++ [';']]
  colours : ∀ className fill stroke, .classDef className fill stroke ∈ lines →
    (∃ s, Resolved styles s ∧ .classDef className fill stroke = Line.ofStyle s) ∧
    Line.decodeWords (Line.classDef className fill stroke).render.toList =
      some (.classDef className fill stroke)

/-- Harmless styles do no harm. -/
theorem Drawn.unharmed {config : Config} {actions : Actions} {c : Conversion} {t : Trip}
    (h : Drawn config actions c t) (hstyles : config.styles.Harmless) :
    Unharmed config.styles c.canvas.lines := by
  have hresolved : ∀ s, Resolved config.styles s → s.Harmless := fun s hs => hs.harmless hstyles
  refine ⟨fun l hl => (h.drafted l hl).unbroken hresolved, ?_, ?_⟩
  · intro id name hl
    cases h.drafted _ hl with
    | inClass action hs =>
      exact Line.splitOn_inClass (isWord_nodeId action) (hresolved _ hs).className.not_mem
  · intro className fill stroke hl
    cases h.drafted _ hl with
    | classDef hs =>
      obtain ⟨hname, hfill, hstroke⟩ := hresolved _ hs
      exact ⟨⟨_, hs, rfl⟩, Line.decodeWords_ofStyle_iff.mpr
        ⟨hname.not_mem, hfill.not_mem, hstroke.not_mem⟩⟩

/-- Which style files are harmless, of all that are accepted: those that give no class with a space
in it, no colour with a comma, and no line break. Their styles do no harm to any diagram, and the
others do to one that has an action of the kind. -/
theorem convert_styled {raw : List (Value × Value)} {styles : StyleTable}
    (hmerge : StyleTable.merge [] raw = .ok styles) :
    styles.Harmless ↔ ∀ (config : Config) (log : Log) (definition : Value) (c : Conversion),
      config.styles = styles → (convert config log definition).2 = .ok c →
        Unharmed styles c.canvas.lines := by
  constructor
  · rintro hstyles config log definition c rfl h
    obtain ⟨actions, t, -, ht⟩ := convert_drawn h
    exact ht.unharmed hstyles
  · rintro hall ⟨kind, s⟩ he
    have hs : styleFor styles kind = s := by
      have hnodup := StyleTable.nodup_keys_merge (t := []) List.nodup_nil hmerge
      rw [styleFor, Style.known?, Table.lookup_of_mem hnodup he]
      rfl
    obtain ⟨definition, c, haccepted, -, hline⟩ := exists_lines styles kind
    rw [hs] at hline
    obtain ⟨hunbroken, -, hcolours⟩ := hall _ _ _ _ rfl haccepted
    obtain ⟨hname, hfill, hstroke⟩ := Line.unbroken_render_ofStyle.mp (hunbroken _ hline)
    obtain ⟨hspace, hcomma, hcomma'⟩ :=
      Line.decodeWords_ofStyle_iff.mp (hcolours _ _ _ hline).2
    exact ⟨⟨hname, hspace⟩, ⟨hfill, hcomma⟩, ⟨hstroke, hcomma'⟩⟩

/-- A kind may be given another colour. -/
theorem convert_styled_compose :
    let styles : StyleTable := [("Compose", ⟨"#EEEEEE", "#000000", .rectangle, "Compose"⟩)]
    StyleTable.merge [] (fillEntry "Compose" "#EEEEEE") = .ok styles ∧
      ∃ c, (convert { styles } ⟨[], []⟩ (definitionOf (pairActions "Compose" "Http").entries)).2
          = .ok c ∧ Unharmed styles c.canvas.lines := by
  intro styles
  have hmerge : StyleTable.merge [] (fillEntry "Compose" "#EEEEEE") = .ok styles := rfl
  have hstyles : styles.Harmless := List.forall_mem_singleton.mpr (by decide +kernel)
  have hcompose : "Compose" ∉ boxKinds := by decide
  have hhttp : "Http" ∉ boxKinds := by decide
  have haccepted := convert_pair { styles } ⟨[], []⟩ hcompose hhttp
  exact ⟨hmerge, _, haccepted, (convert_styled hmerge).mp hstyles _ _ _ _ rfl haccepted⟩

/-- A style file that gives a class of two words to a kind. -/
def classEntry (kind name : String) : List (Value × Value) :=
  [(.str kind, .map [(.str "class_name", .str name)])]

/-- It is accepted, and the node of an action of this kind is put into the class of the first word
by a line of four. -/
theorem convert_styled_spaced :
    let styles : StyleTable := [("Compose", ⟨"#FFFFFF", "#000000", .rectangle, "My class"⟩)]
    StyleTable.merge [] (classEntry "Compose" "My class") = .ok styles ∧
      ∃ definition c, (convert { styles, legend := false } ⟨[], []⟩ definition).2 = .ok c ∧
        .inClass (nodeId "A") "My class" ∈ c.canvas.lines ∧
        (Line.inClass (nodeId "A") "My class").render = "class A My class;" ∧
        ¬Unharmed styles c.canvas.lines := by
  intro styles
  obtain ⟨definition, c, haccepted, hline, -⟩ := exists_lines styles "Compose"
  refine ⟨rfl, definition, c, haccepted, hline, by decide, fun h => ?_⟩
  exact absurd (h.words _ _ hline) (by decide)

end Diagram

end Flowchart

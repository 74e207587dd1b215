import Flowchart.Command.Run
import Flowchart.Proofs.Files
import Flowchart.Proofs.Legibility

/-!
# One text in all outputs

A diagram is printed, written by itself, or written into a page of Markdown. The files end with one
line break whatever the diagram ends with, so they would lose blanks at its end. There are none:

* `Text.isClosed` is a text that ends in something else than a blank;
* `Drawn.isClosed`: every line of a diagram is closed, under any styles, and so whichever line is
  the last one;
* `convert_pages`: the outputs agree. Trimming the text of a diagram takes away its last line break
  and nothing else.
-/

namespace Flowchart

namespace Text

/-- A text that does not end in a blank, and is not empty. -/
def isClosed (s : List Char) : Bool := s.getLast?.any fun c => !isBlank c

theorem isClosed_append (s : List Char) {s' : List Char} (h : isClosed s') :
    isClosed (s ++ s') := by
  rw [isClosed, Option.any_eq_true] at h ⊢
  obtain ⟨c, hlast, hblank⟩ := h
  exact ⟨c, by rw [List.getLast?_append, hlast, Option.some_or], hblank⟩

/-- A line break behind a closed text is all that is trimmed. -/
theorem trimEnd_append_lineFeed {s : List Char} (h : isClosed s) :
    trimEnd (s ++ ['\n']) = s := by
  rw [isClosed, Option.any_eq_true] at h
  obtain ⟨c, hlast, hblank⟩ := h
  obtain ⟨before, rfl⟩ := List.getLast?_eq_some_iff.mp hlast
  have hfeed : isBlank '\n' = true := rfl
  have hfirst : isBlank c = false := by simpa using hblank
  simp [trimEnd, hfeed, hfirst]

end Text

namespace Diagram

/-! ## Lines -/

/-- The id of a node ends in a character of a word. -/
theorem isClosed_nodeId (name : String) : Text.isClosed (nodeId name).toList := by
  have hne : (nodeId name).toList ≠ [] := by
    rw [nodeId, String.toList_ofList, startWithLetter]
    split
    · rename_i hletter
      rintro hnil
      rw [hnil] at hletter
      cases hletter
    · exact List.cons_ne_nil _ _
  have hlast := List.getLast?_eq_some_getLast hne
  rw [Text.isClosed, hlast, Option.any_some,
    isBlank_of_isWordChar (isWord_nodeId name _ (List.getLast_mem hne))]
  rfl

namespace Line

theorem isClosed_brackets (shape : Shape) : Text.isClosed (brackets shape).2.toList := by
  have hclosing : ∀ s ∈ ["\x7d\x7d", "]", "))", ")"], Text.isClosed s.toList := by decide
  cases shape with
  | _ => exact hclosing _ (by simp [brackets])

/-- A line is closed whatever stands in it, with two exceptions: an arrow ends in its target, and
what a caller has written may end in anything. -/
theorem isClosed_render {l : Line}
    (hedge : ∀ source target label, l = .edge source target label → Text.isClosed target.toList)
    (hverbatim : ∀ text, l ≠ .verbatim text) : Text.isClosed l.render.toList := by
  cases l with
  | node id label shape =>
    rw [render_node, String.toList_append]
    exact Text.isClosed_append _ (isClosed_brackets shape)
  | edge source target label =>
    have htarget := hedge source target label rfl
    cases label with
    | none =>
      rw [render_edge_none, String.toList_append]
      exact Text.isClosed_append _ htarget
    | some label =>
      rw [render_edge_some, String.toList_append]
      exact Text.isClosed_append _ htarget
  | openSubgraph title =>
    rw [render_openSubgraph, String.toList_append]
    exact Text.isClosed_append _ rfl
  | closeSubgraph => rfl
  | classDef className fill stroke =>
    rw [render_classDef, String.toList_append]
    exact Text.isClosed_append _ rfl
  | inClass id className =>
    rw [render_inClass, String.toList_append]
    exact Text.isClosed_append _ rfl
  | nodeStyle id style =>
    rw [render_nodeStyle, String.toList_append]
    exact Text.isClosed_append _ rfl
  | verbatim text => exact absurd rfl (hverbatim text)

end Line

/-! ## Diagrams -/

section Drawn

variable {config : Config} {actions : Actions} {c : Conversion} {t : Trip}

/-- No line of a diagram is one that a caller has written. -/
theorem Drawn.verbatim_not_mem (h : Drawn config actions c t) (text : String) :
    .verbatim text ∉ c.canvas.lines := by
  intro hmem
  obtain ⟨used, hused⟩ := h.lines_eq
  rw [hused, List.mem_append] at hmem
  rcases hmem with hmem | hmem
  · obtain ⟨s, hs, hline⟩ := Canvas.mem_linesOfAll hmem
    cases s with
    | line l =>
      obtain rfl := List.mem_singleton.mp hline
      cases h.walks.line_eq _ hs
    | _ => simp [Canvas.linesOf, Line.ofNode, Line.ofEdge, Line.ofTitle, Line.ofStyle,
        Canvas.blank] at hline
  · obtain ⟨style, -, heq⟩ := List.mem_map.mp hmem
    cases heq

/-- The lines of a diagram are closed. -/
theorem Drawn.isClosed (h : Drawn config actions c t) :
    ∀ l ∈ c.canvas.lines, Text.isClosed l.render.toList := by
  intro l hl
  refine Line.isClosed_render (fun source target label heq => ?_) fun text heq => ?_
  · rw [heq] at hl
    obtain ⟨text, note, hmem, heq⟩ := h.connect_of_edge_mem_lines hl
    rw [Line.ofEdge, Line.edge.injEq] at heq
    obtain ⟨n, k, -, hk⟩ := h.connect_eq hmem
    rw [heq.2.1, hk]
    exact isClosed_nodeId k
  · exact h.verbatim_not_mem text (heq ▸ hl)

/-- There is a line: the start node is drawn before all else. -/
theorem Drawn.lines_ne_nil (h : Drawn config actions c t) : c.canvas.lines ≠ [] := by
  obtain ⟨used, hused⟩ := h.lines_eq
  rw [hused]
  exact List.cons_ne_nil _ _

/-- The text of a diagram is a closed text and a line break. -/
theorem Drawn.exists_code (h : Drawn config actions c t) :
    ∃ s, c.code.toList = s ++ ['\n'] ∧ Text.isClosed s := by
  obtain ⟨before, l, hlines⟩ := (List.eq_nil_or_concat' c.canvas.lines).resolve_left h.lines_ne_nil
  have hlast : Text.isClosed l.render.toList := h.isClosed l (by simp [hlines])
  refine ⟨_, ?_, Text.isClosed_append (c.header.render ++ renderLines before).toList hlast⟩
  rw [Conversion.code, Canvas.render, hlines]
  simp [renderLines, String.join_append]

end Drawn

/-! ## Outputs -/

/-- Trimming the text of a diagram and ending it with a line break changes nothing, whatever the
configuration. So the diagram stands unchanged in both kinds of pages, and the file of a run that
writes is what the run that prints shows, but for the frame of a Markdown page. What is written is
read from the file afterwards. -/
theorem convert_pages {config : Config} {log : Log} {definition : Value} {c : Conversion}
    (h : (convert config log definition).2 = .ok c) :
    String.ofList (Text.trimEnd c.code.toList) ++ "\n" = c.code ∧
      plainPage c.code = c.code ∧
      (∀ title, markdownPage title c.code
        = "# " ++ title ++ "\n\n" ++ "\x60\x60\x60mermaid\n" ++ c.code ++ "\x60\x60\x60\n") ∧
      ∀ (o : Command.Options) (log : Log) (path : Path),
        let printed := Command.converted { o with out := none } c log
        let written := Command.converted { o with out := some (.value path) } c log
        printed.stdout = c.code ∧ printed.page = none ∧ written.stdout = "" ∧
          written.page = some (path,
            if Text.lower path.suffix = ".md" then
              "# " ++ o.pageTitle ++ "\n\n" ++ "\x60\x60\x60mermaid\n" ++ printed.stdout
                ++ "\x60\x60\x60\n"
            else printed.stdout) ∧
          ∀ (files files' : FileTree) (text : String), written.page = some (path, text) →
            written.save files = .ok files' → files'.read path = .ok text.toUTF8 := by
  obtain ⟨actions, t, -, ht⟩ := convert_drawn h
  obtain ⟨s, hcode, hclosed⟩ := ht.exists_code
  have htrim : String.ofList (Text.trimEnd c.code.toList) ++ "\n" = c.code := by
    rw [hcode, Text.trimEnd_append_lineFeed hclosed, ← String.toList_inj, hcode]
    simp
  have hplain : plainPage c.code = c.code := htrim
  have hmarkdown : ∀ title, markdownPage title c.code
      = "# " ++ title ++ "\n\n" ++ "\x60\x60\x60mermaid\n" ++ c.code ++ "\x60\x60\x60\n" := by
    intro title
    have hfence : "\n\x60\x60\x60\n" = "\n" ++ "\x60\x60\x60\n" := by decide
    calc markdownPage title c.code
        = "# " ++ title ++ "\n\n" ++ ("\x60\x60\x60mermaid\n"
            ++ String.ofList (Text.trimEnd c.code.toList) ++ "\n\x60\x60\x60\n") := rfl
      _ = "# " ++ title ++ "\n\n" ++ "\x60\x60\x60mermaid\n"
            ++ (String.ofList (Text.trimEnd c.code.toList) ++ "\n") ++ "\x60\x60\x60\n" := by
        rw [hfence]
        simp only [String.append_assoc]
      _ = _ := by rw [htrim]
  refine ⟨htrim, hplain, hmarkdown, fun o log path => ⟨rfl, rfl, rfl, ?_, ?_⟩⟩
  · have hpage : (Command.converted { o with out := some (.value path) } c log).page
        = some (path, if Text.lower path.suffix = ".md" then markdownPage o.pageTitle c.code
            else plainPage c.code) := rfl
    rw [hpage, hplain, hmarkdown]
    rfl
  · intro files files' text hpage hsave
    rw [Command.Draft.save, hpage] at hsave
    exact FileTree.read_write hsave

/-- A page with the nested sample, and what is in the file under the title of the input. -/
theorem convert_pages_nested :
    let c := Conversion.ofEntries {} nestedEntries
    let o : Command.Options := { input := .ofString "flows/order.json" }
    let written := Command.converted { o with out := some (.value (.ofString "docs/order.md")) } c
      ⟨[], []⟩
    plainPage c.code = c.code ∧
      written.page = some (.ofString "docs/order.md",
        "# order\n\n" ++ "\x60\x60\x60mermaid\n" ++ c.code ++ "\x60\x60\x60\n") := by
  obtain ⟨-, hplain, -, houtputs⟩ := convert_pages convert_nested
  obtain ⟨hprinted, -, -, hpage, -⟩ := houtputs { input := .ofString "flows/order.json" } ⟨[], []⟩
    (.ofString "docs/order.md")
  have hsuffix : Text.lower (Path.ofString "docs/order.md").suffix = ".md" := by decide
  have htitle : "# " ++ Command.Options.pageTitle { input := .ofString "flows/order.json" }
      ++ "\n\n" = "# order\n\n" := by decide
  refine ⟨hplain, ?_⟩
  rw [hpage, if_pos hsuffix, htitle, hprinted]

end Diagram

end Flowchart

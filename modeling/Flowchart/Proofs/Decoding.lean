import Flowchart.Proofs.Canvas
import Flowchart.Proofs.Labels

/-!
# Reading a line back

What a line states can be read back from its text, although names may imitate the signs of the
language.

* `Line.decode` reads a line: an arrow is told by its head, which no other line contains; any other
  line by the word that it starts with and by what follows this word;
* `Line.Legible` says what the parts of a line must not contain, and `Legible.decode_render` that
  the line is then read back, up to shapes that are drawn alike;
* `Line.Standard` are the lines that are made of names and texts with the styles that are built in.
  They are legible, whatever the names and texts, so `Standard.seen_eq_of_render_eq`: two of them
  are written alike only if they state the same.
-/

namespace Flowchart.Diagram

/-! ## Parts of a line -/

/-- The text before the first `stop`, and the text after it. -/
def upTo (stop : Char) : List Char → Option (List Char × List Char)
  | [] => none
  | c :: rest =>
    if c = stop then some ([], rest)
    else (upTo stop rest).map fun (before, after) => (c :: before, after)

theorem upTo_append {stop : Char} {w : List Char} (h : stop ∉ w) (rest : List Char) :
    upTo stop (w ++ stop :: rest) = some (w, rest) := by
  induction w with
  | nil => exact if_pos rfl
  | cons c w ih =>
    rw [List.mem_cons, not_or] at h
    rw [List.cons_append, upTo, if_neg (Ne.symm h.1), ih h.2]
    rfl

/-- The word that a text starts with, and what follows it. -/
def leadingWord (s : List Char) : List Char × List Char :=
  (s.takeWhile isWordChar, s.dropWhile isWordChar)

theorem leadingWord_append {w : List Char} (hw : ∀ c ∈ w, isWordChar c) {c : Char}
    (hc : isWordChar c = false) (rest : List Char) :
    leadingWord (w ++ c :: rest) = (w, c :: rest) := by
  rw [leadingWord, List.takeWhile_append_of_pos hw, List.dropWhile_append_of_pos hw,
    List.takeWhile_cons_of_neg (by simp [hc]), List.dropWhile_cons_of_neg (by simp [hc]),
    List.append_nil]

namespace Line

/-! ## The decoder -/

/-- Reads an arrow. The text on it stands between dashes, after the node where it starts. -/
def decodeEdge (s : List Char) : Option Line := do
  let (before, target) ← upTo '>' s
  let (source, shaft) := leadingWord before
  let label := if shaft = " --".toList then none
    else some (String.ofList ((shaft.drop 4).take (shaft.length - 7)))
  return edge (String.ofList source) (String.ofList (target.drop 1)) label

/-- Reads the declaration of a node after its id. -/
def decodeNode (id rest : List Char) : Option Line := do
  let (opening, quoted) ← upTo '"' rest
  let (label, _) ← upTo '"' quoted
  let shape ← [Shape.diamond, .rectangle, .circle, .rounded].find? fun shape =>
    (brackets shape).1.toList = opening
  return node (String.ofList id) (String.ofList label) shape

/-- Reads a statement after its keyword and a space. -/
def decodeStatement (keyword rest : List Char) : Option Line :=
  if keyword = "subgraph".toList then do
    let (_, quoted) ← upTo '"' rest
    let (title, _) ← upTo '"' quoted
    return openSubgraph (String.ofList title)
  else if keyword = "classDef".toList then do
    let (className, rest) ← upTo ' ' rest
    let (_, rest) ← upTo ':' rest
    let (fill, rest) ← upTo ',' rest
    let (_, rest) ← upTo ':' rest
    let (stroke, _) ← upTo ',' rest
    return classDef (String.ofList className) (String.ofList fill) (String.ofList stroke)
  else do
    let (id, rest) ← upTo ' ' rest
    let (name, _) ← upTo ';' rest
    if keyword = "class".toList then
      return inClass (String.ofList id) (String.ofList name)
    else if keyword = "style".toList then
      return nodeStyle (String.ofList id) (String.ofList name)
    else none

/-- Reads a line. -/
def decode (s : List Char) : Option Line :=
  if '>' ∈ s then decodeEdge s
  else
    match leadingWord s with
    | (word, []) => if word = "end".toList then some closeSubgraph else none
    | (word, c :: rest) =>
      if c = ' ' then decodeStatement word rest else decodeNode word (c :: rest)

/-! ## Legible lines -/

/-- A line as it can be seen: a shape without an outline of its own is drawn rounded. -/
def seen : Line → Line
  | node id label (.other _) => node id label .rounded
  | l => l

/-- A line whose parts do not contain the signs that end them. -/
def Legible : Line → Prop
  | node id label _ => IsWord id ∧ Clean ['"', '>'] label
  | edge source target label =>
    IsWord source ∧ IsWord target ∧ ∀ text ∈ label, Clean ['>'] text
  | openSubgraph title => Clean ['"', '>'] title
  | closeSubgraph => True
  | classDef className fill stroke =>
    Clean [' ', '>'] className ∧ Clean [',', '>'] fill ∧ Clean [',', '>'] stroke
  | inClass id className => IsWord id ∧ Clean [';', '>'] className
  | nodeStyle id style => IsWord id ∧ Clean [';', '>'] style
  | verbatim _ => False

theorem brackets_other (name : String) : brackets (.other name) = brackets .rounded := rfl

theorem clean_brackets (shape : Shape) :
    Clean ['"', '>'] (brackets shape).1 ∧ Clean ['"', '>'] (brackets shape).2 := by
  have hknown : ∀ b ∈ [("\x7b\x7b", "\x7d\x7d"), ("[", "]"), ("((", "))"), ("(", ")")],
      Clean ['"', '>'] b.1 ∧ Clean ['"', '>'] b.2 := by decide
  cases shape with
  | _ => exact hknown _ (by simp [brackets])

namespace Legible

variable {l : Line}

/-- No line has a line break, and only an arrow has the head of one. -/
theorem clean_render (h : l.Legible) : Clean (if l.isEdge then [] else ['>']) l.render := by
  have hgap : Clean ['>'] " " := by decide
  have hend : Clean ['>'] ";" := by decide
  cases l with
  | node id label shape =>
    obtain ⟨hid, hlabel⟩ := h
    obtain ⟨hopening, hclosing⟩ := clean_brackets shape
    have hquote : Clean ['>'] "\"" := by decide
    exact ((((hid.clean (by decide)).append (hopening.mono (by simp))).append hquote).append
      (hlabel.mono (by simp)) |>.append hquote).append (hclosing.mono (by simp))
  | edge source target label =>
    obtain ⟨hsource, htarget, hlabel⟩ := h
    have hsource' : Clean [] source := hsource.clean (by simp)
    have htarget' : Clean [] target := htarget.clean (by simp)
    have hhead : Clean [] " --> " := by decide
    cases label with
    | none => exact (hsource'.append hhead).append htarget'
    | some text =>
      have hdashes : Clean [] " -- " := by decide
      have htext : Clean [] text := (hlabel text rfl).mono (by simp)
      exact (((hsource'.append hdashes).append htext).append hhead).append htarget'
  | openSubgraph title =>
    have hopening : Clean ['>'] "subgraph \"" := by decide
    exact (hopening.append (Clean.mono h (by simp))).append (by decide)
  | closeSubgraph => decide
  | classDef className fill stroke =>
    obtain ⟨hname, hfill, hstroke⟩ := h
    have hkeyword : Clean ['>'] "classDef " := by decide
    have hfillKey : Clean ['>'] " fill:" := by decide
    have hstrokeKey : Clean ['>'] ",stroke:" := by decide
    have hwidth : Clean ['>'] ",stroke-width:2px;" := by decide
    exact (((((hkeyword.append (hname.mono (by simp))).append hfillKey).append
      (hfill.mono (by simp))).append hstrokeKey).append (hstroke.mono (by simp))).append hwidth
  | inClass id className =>
    have hkeyword : Clean ['>'] "class " := by decide
    exact (((hkeyword.append (h.1.clean (by decide))).append hgap).append
      (h.2.mono (by simp))).append hend
  | nodeStyle id style =>
    have hkeyword : Clean ['>'] "style " := by decide
    exact (((hkeyword.append (h.1.clean (by decide))).append hgap).append
      (h.2.mono (by simp))).append hend
  | verbatim text => exact h.elim

theorem not_mem_render (h : l.Legible) (hedge : l.isEdge = false) : '>' ∉ l.render.toList := by
  have hclean := h.clean_render
  rw [hedge] at hclean
  exact hclean.not_mem (by simp)

/-- A legible line is a line of its own in every text. -/
theorem not_isLineBreak (h : l.Legible) : ∀ c ∈ l.render.toList, Text.isLineBreak c = false := by
  intro c hc
  rw [← Bool.not_eq_true]
  intro hbreak
  obtain ⟨hblank, hspace⟩ := Text.isBlank_of_isLineBreak hbreak
  exact hspace ((h.clean_render c hc).2 hblank)

/-- An arrow is what has a head. -/
theorem head_infix_render_iff (h : l.Legible) :
    "-->".toList <:+: l.render.toList ↔ l.isEdge := by
  constructor
  · intro hhead
    by_contra hedge
    exact h.not_mem_render (Bool.not_eq_true _ ▸ hedge) (hhead.subset (by decide))
  · intro hedge
    cases l with
    | edge source target label =>
      cases label with
      | none => exact ⟨source.toList ++ [' '], ' ' :: target.toList, by simp⟩
      | some text =>
        exact ⟨source.toList ++ " -- ".toList ++ text.toList ++ [' '], ' ' :: target.toList,
          by simp⟩
    | _ => cases hedge

end Legible

/-! ## Reading a line back -/

/-- Without the head of an arrow it is the word in front that counts. -/
theorem decode_of_not_mem {word : String} {rest : List Char} {c : Char}
    (h : '>' ∉ word.toList ++ c :: rest) (hword : IsWord word) (hc : isWordChar c = false) :
    decode (word.toList ++ c :: rest)
      = if c = ' ' then decodeStatement word.toList rest
        else decodeNode word.toList (c :: rest) := by
  rw [decode, if_neg h, leadingWord_append hword hc]

/-- A bracket ends the id before it. -/
theorem exists_bracket (shape : Shape) : ∃ bracket more,
    (brackets shape).1.toList = bracket :: more ∧ isWordChar bracket = false ∧ bracket ≠ ' ' := by
  cases shape with
  | diamond => exact ⟨'\x7b', ['\x7b'], rfl, by decide, by decide⟩
  | rectangle => exact ⟨'[', [], rfl, by decide, by decide⟩
  | circle => exact ⟨'(', ['('], rfl, by decide, by decide⟩
  | rounded => exact ⟨'(', [], rfl, by decide, by decide⟩
  | other name => exact ⟨'(', [], congrArg (·.1.toList) (brackets_other name), by decide, by decide⟩

/-- A node is read back with the shape that is seen. -/
theorem decodeNode_brackets (id : String) {label : String} (hlabel : Clean ['"', '>'] label)
    (shape : Shape) :
    decodeNode id.toList ((brackets shape).1.toList
        ++ '"' :: (label.toList ++ '"' :: (brackets shape).2.toList))
      = some (node id label shape).seen := by
  have hopening : '"' ∉ (brackets shape).1.toList := (clean_brackets shape).1.not_mem (by simp)
  have hquote : '"' ∉ label.toList := hlabel.not_mem (by simp)
  rw [decodeNode, upTo_append hopening]
  simp only [Option.bind_eq_bind, Option.bind_some, upTo_append hquote, String.ofList_toList]
  cases shape with
  | other name =>
    rw [brackets_other]
    rfl
  | _ => rfl

/-- An arrow is read back with the text on it. -/
theorem decodeEdge_render {source target : String} {label : Option String} (hsource : IsWord source)
    (hlabel : ∀ text ∈ label, Clean ['>'] text) :
    decodeEdge (edge source target label).render.toList = some (edge source target label) := by
  have hword : '>' ∉ source.toList :=
    (hsource.clean (by decide)).not_mem (List.mem_singleton_self _)
  cases label with
  | none =>
    have hlist : (edge source target none).render.toList
        = (source.toList ++ " --".toList) ++ '>' :: ' ' :: target.toList := by
      simp
    have hbefore : '>' ∉ source.toList ++ " --".toList := by
      simpa using hword
    have hshaft : leadingWord (source.toList ++ " --".toList) = (source.toList, " --".toList) :=
      leadingWord_append hsource rfl _
    rw [hlist, decodeEdge, upTo_append hbefore]
    simp only [Option.bind_eq_bind, Option.bind_some, hshaft, if_pos, String.ofList_toList,
      List.drop_one, List.tail_cons]
    rfl
  | some text =>
    have htext : '>' ∉ text.toList := (hlabel text rfl).not_mem (List.mem_singleton_self _)
    have hlist : (edge source target (some text)).render.toList
        = (source.toList ++ (" -- ".toList ++ (text.toList ++ " --".toList)))
          ++ '>' :: ' ' :: target.toList := by
      simp
    have hbefore : '>' ∉ source.toList ++ (" -- ".toList ++ (text.toList ++ " --".toList)) := by
      simp [hword, htext]
    have hshaft : leadingWord (source.toList ++ (" -- ".toList ++ (text.toList ++ " --".toList)))
        = (source.toList, " -- ".toList ++ (text.toList ++ " --".toList)) :=
      leadingWord_append hsource rfl _
    have hlong : " -- ".toList ++ (text.toList ++ " --".toList) ≠ " --".toList := by
      intro heq
      have hlength := congrArg List.length heq
      simp at hlength
    have hinner : ((" -- ".toList ++ (text.toList ++ " --".toList)).drop 4).take
        ((" -- ".toList ++ (text.toList ++ " --".toList)).length - 7) = text.toList := by
      have hdrop : (" -- ".toList ++ (text.toList ++ " --".toList)).drop 4
          = text.toList ++ " --".toList := rfl
      have hlength : (" -- ".toList ++ (text.toList ++ " --".toList)).length - 7
          = text.toList.length := by
        simp
      rw [hdrop, hlength, List.take_left]
    rw [hlist, decodeEdge, upTo_append hbefore]
    simp only [Option.bind_eq_bind, Option.bind_some, hshaft, if_neg hlong, hinner,
      String.ofList_toList, List.drop_one, List.tail_cons]
    rfl

/-- Two keywords are followed by an id and a name, or by an id and its colours. -/
theorem decodeStatement_pair {keyword : List Char} {id name : String} (hid : IsWord id)
    (hname : ';' ∉ name.toList) (hkeyword : keyword ≠ "subgraph".toList ∧ keyword ≠ "classDef".toList) :
    decodeStatement keyword (id.toList ++ ' ' :: (name.toList ++ [';']))
      = if keyword = "class".toList then some (inClass id name)
        else if keyword = "style".toList then some (nodeStyle id name) else none := by
  have hword : Clean [' '] id := hid.clean (by decide)
  rw [decodeStatement, if_neg hkeyword.1, if_neg hkeyword.2,
    upTo_append (hword.not_mem (List.mem_singleton_self _))]
  simp only [Option.bind_eq_bind, Option.bind_some, upTo_append hname, String.ofList_toList]
  rfl

/-- A legible line is read back as it is seen. -/
theorem Legible.decode_render {l : Line} (h : l.Legible) :
    decode l.render.toList = some l.seen := by
  cases l with
  | edge source target label =>
    have hhead : '>' ∈ (edge source target label).render.toList :=
      (h.head_infix_render_iff.mpr rfl).subset (by decide)
    rw [decode, if_pos hhead]
    exact decodeEdge_render h.1 h.2.2
  | node id label shape =>
    have hnot := h.not_mem_render rfl
    obtain ⟨bracket, more, hbracket, hword, hspace⟩ := exists_bracket shape
    have hlist : (node id label shape).render.toList = id.toList
        ++ bracket :: (more ++ '"' :: (label.toList ++ '"' :: (brackets shape).2.toList)) := by
      simp [hbracket]
    rw [hlist] at hnot ⊢
    rw [decode_of_not_mem hnot h.1 hword, if_neg hspace, ← List.cons_append, ← hbracket,
      decodeNode_brackets id h.2]
  | openSubgraph title =>
    have hnot := h.not_mem_render rfl
    have hquote : '"' ∉ title.toList := Clean.not_mem h (by simp)
    have hlist : (openSubgraph title).render.toList
        = "subgraph".toList ++ ' ' :: '"' :: (title.toList ++ ['"']) := by
      simp
    rw [hlist] at hnot ⊢
    rw [decode_of_not_mem hnot (by decide) rfl, if_pos rfl, decodeStatement, if_pos rfl]
    simp [upTo, upTo_append hquote, seen]
  | closeSubgraph => rfl
  | classDef className fill stroke =>
    have hnot := h.not_mem_render rfl
    have hname : ' ' ∉ className.toList := h.1.not_mem (by simp)
    have hfill : ',' ∉ fill.toList := h.2.1.not_mem (by simp)
    have hstroke : ',' ∉ stroke.toList := h.2.2.not_mem (by simp)
    have hlist : (classDef className fill stroke).render.toList
        = "classDef".toList ++ ' ' :: (className.toList ++ ' ' :: ("fill".toList ++ ':'
          :: (fill.toList ++ ',' :: ("stroke".toList ++ ':'
            :: (stroke.toList ++ ',' :: "stroke-width:2px;".toList))))) := by
      simp
    have hfillKey : ':' ∉ "fill".toList := by decide
    have hstrokeKey : ':' ∉ "stroke".toList := by decide
    rw [hlist] at hnot ⊢
    rw [decode_of_not_mem hnot (by decide) rfl, if_pos rfl, decodeStatement, if_neg (by decide),
      if_pos rfl, upTo_append hname]
    simp only [Option.bind_eq_bind, Option.bind_some, upTo_append hfillKey, upTo_append hfill,
      upTo_append hstrokeKey, upTo_append hstroke, String.ofList_toList]
    rfl
  | inClass id className =>
    have hnot := h.not_mem_render rfl
    have hlist : (inClass id className).render.toList
        = "class".toList ++ ' ' :: (id.toList ++ ' ' :: (className.toList ++ [';'])) := by
      simp
    rw [hlist] at hnot ⊢
    rw [decode_of_not_mem hnot (by decide) rfl, if_pos rfl,
      decodeStatement_pair h.1 (h.2.not_mem (by simp)) (by decide)]
    rfl
  | nodeStyle id style =>
    have hnot := h.not_mem_render rfl
    have hlist : (nodeStyle id style).render.toList
        = "style".toList ++ ' ' :: (id.toList ++ ' ' :: (style.toList ++ [';'])) := by
      simp
    rw [hlist] at hnot ⊢
    rw [decode_of_not_mem hnot (by decide) rfl, if_pos rfl,
      decodeStatement_pair h.1 (h.2.not_mem (by simp)) (by decide)]
    rfl
  | verbatim text => exact h.elim

/-! ## Lines of names and texts -/

/-- The styles that are known without a style file. -/
def builtInStyles : List Style := Style.plain "Default" :: Style.builtIn.map Prod.snd

/-- A line that is made of the names of actions and of any texts, with classes and colours that are
known without a style file. -/
inductive Standard : Line → Prop where
  | node (name text : String) (shape : Shape) : Standard (.ofNode (nodeId name) text shape)
  | edge (source target : String) (text : Option String) :
      Standard (.ofEdge (nodeId source) (nodeId target) text)
  | openSubgraph (title : String) : Standard (.ofTitle title)
  | closeSubgraph : Standard .closeSubgraph
  | classDef {named filled drawn : Style} (hnamed : named ∈ builtInStyles)
      (hfilled : filled ∈ builtInStyles) (hdrawn : drawn ∈ builtInStyles) :
      Standard (.classDef named.className filled.fill drawn.stroke)
  | inClass (name : String) {named : Style} (hnamed : named ∈ builtInStyles) :
      Standard (.inClass (nodeId name) named.className)
  | nodeStyle (name : String) : Standard (.nodeStyle (nodeId name) startStyle)

theorem clean_builtInStyles : ∀ s ∈ builtInStyles,
    Clean [' ', ';', '>'] s.className ∧ Clean [',', '>'] s.fill ∧ Clean [',', '>'] s.stroke := by
  decide +kernel

namespace Standard

variable {a b : Line}

/-- Whatever the names and texts are, the line is legible. -/
theorem legible (h : a.Standard) : a.Legible := by
  cases h with
  | node name text shape =>
    exact ⟨isWord_nodeId name, (clean_labelText text).mono (by decide)⟩
  | edge source target text =>
    refine ⟨isWord_nodeId source, isWord_nodeId target, fun label hlabel => ?_⟩
    obtain ⟨text', -, rfl⟩ := Option.map_eq_some_iff.mp hlabel
    exact (clean_labelText text').mono (by decide)
  | openSubgraph title => exact (clean_labelText title).mono (by decide)
  | closeSubgraph => trivial
  | classDef hnamed hfilled hdrawn =>
    exact ⟨(clean_builtInStyles _ hnamed).1.mono (by decide), (clean_builtInStyles _ hfilled).2.1,
      (clean_builtInStyles _ hdrawn).2.2⟩
  | inClass name hnamed =>
    exact ⟨isWord_nodeId name, (clean_builtInStyles _ hnamed).1.mono (by decide)⟩
  | nodeStyle name => exact ⟨isWord_nodeId name, by decide⟩

/-- Lines are written alike only if they state the same. -/
theorem seen_eq_of_render_eq (ha : a.Standard) (hb : b.Standard) (h : a.render = b.render) :
    a.seen = b.seen := by
  have hdecode := ha.legible.decode_render
  rw [h, hb.legible.decode_render, Option.some.injEq] at hdecode
  exact hdecode.symm

end Standard

end Line

/-! ## Lines in a text -/

/-- The lines of a text are the parts between its line breaks; after the last one there is an empty
part. -/
theorem splitOn_renderLines {ls : List Line} (h : ∀ l ∈ ls, '\n' ∉ l.render.toList) :
    (renderLines ls).toList.splitOn '\n' = ls.map (fun l => l.render.toList) ++ [[]] := by
  have hlist : (renderLines ls).toList
      = ['\n'].intercalate (ls.map (fun l => l.render.toList) ++ [[]]) := by
    clear h
    induction ls with
    | nil => rfl
    | cons l rest ih =>
      have hrest : rest.map (fun l => l.render.toList) ++ [[]] ≠ [] := by simp
      have hfirst : (renderLines (l :: rest)).toList
          = l.render.toList ++ ['\n'] ++ (renderLines rest).toList := by
        simp [renderLines]
      rw [hfirst, ih, List.map_cons, List.cons_append, List.intercalate_cons_of_ne_nil hrest]
  rw [hlist, List.splitOn_intercalate]
  · intro s hs
    rcases List.mem_append.mp hs with hs | hs
    · obtain ⟨l, hl, rfl⟩ := List.mem_map.mp hs
      exact h l hl
    · rw [List.mem_singleton.mp hs]
      exact List.not_mem_nil
  · simp

/-- A text of legible lines is read back line by line. -/
theorem decode_renderLines {ls : List Line} (h : ∀ l ∈ ls, l.Legible) :
    ((renderLines ls).toList.splitOn '\n').dropLast.map Line.decode
      = ls.map fun l => some l.seen := by
  rw [splitOn_renderLines fun l hl hmem => by
    simpa [Text.isLineBreak] using (h l hl).not_isLineBreak '\n' hmem, List.dropLast_concat,
    List.map_map]
  exact List.map_congr_left fun l hl => (h l hl).decode_render

end Flowchart.Diagram

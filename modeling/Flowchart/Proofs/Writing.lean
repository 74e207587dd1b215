import Flowchart.Proofs.Derivation
import Flowchart.Source

/-!
# Documents that are written plainly

From values to bytes, and back by the readers of the program.

* `Json.Writes` is a text that says a value, whatever follows it. Objects are written member by
  member, with names that need no escapes (`Json.WritesMembers`);
* `Text.asciiBytes` are the bytes of a text in ASCII, and `decode_asciiBytes` gets it back;
* `loadDefinition_stdin`: a value that is written into the standard input is the definition that is
  loaded from it.
-/

namespace Flowchart

/-! ## JSON -/

namespace Json

variable {v : Value} {t : Table String Value} {name s s' : List Char}

/-- A character that stands for itself in a string. -/
def isPlain (c : Char) : Bool := 0x20 ≤ c.toNat && c != '"' && c != '\\'

theorem stringBody_of_plain (h : name.all isPlain) (opening rest : List Char) :
    stringBody opening (name ++ '"' :: rest) = .ok (name, rest) := by
  induction name with
  | nil =>
    rw [List.nil_append, stringBody]
    rfl
  | cons c name ih =>
    -- the character neither ends the name nor opens an escape
    rw [List.all_cons, Bool.and_eq_true] at h
    obtain ⟨hc, hname⟩ := h
    simp only [isPlain, Bool.and_eq_true, decide_eq_true_eq, bne_iff_ne] at hc
    rw [List.cons_append, stringBody, ih hname]
    · rw [if_neg (Nat.not_lt.mpr hc.1.1)]
      rfl
    · exact hc.1.2
    · exact hc.2

/-- A text that is no white space at its start. -/
def Starts (s : List Char) : Prop := ∃ c t, s = c :: t ∧ (c = 'n' ∨ c = '{' ∨ c = '"')

theorem Starts.skip (h : Starts s) (rest : List Char) : skipSpace (s ++ rest) = s ++ rest := by
  obtain ⟨c, t, rfl, rfl | rfl | rfl⟩ := h
  · rfl
  · rfl
  · rfl

/-- A text from which a value is read, whatever follows. -/
structure Writes (v : Value) (s : List Char) : Prop where
  starts : Starts s
  value_eq : ∀ fuel rest, s.length ≤ fuel → value fuel (s ++ rest) = .ok (v, rest)

/-- A text from which the members of an object are read up to its closing brace. -/
structure WritesMembers (t : Table String Value) (s : List Char) : Prop where
  starts : ∃ u, s = '"' :: u
  members_eq : ∀ fuel rest, s.length ≤ fuel →
    members fuel (s ++ '}' :: rest) = .ok (named t, rest)

/-- A member whose value has this text. -/
def memberText (name s : List Char) : List Char := '"' :: (name ++ '"' :: ':' :: s)

/-- An object whose members have this text. -/
def objectText (s : List Char) : List Char := '{' :: (s ++ ['}'])

theorem all_memberText (p : Char → Bool) : (memberText name s).all p
    = (p '"' && (name.all p && (p '"' && (p ':' && s.all p)))) := by
  simp [memberText]

theorem all_objectText (p : Char → Bool) :
    (objectText s).all p = (p '{' && (s.all p && p '}')) := by
  simp [objectText]

theorem writes_null : Writes .null "null".toList where
  starts := ⟨'n', _, rfl, Or.inl rfl⟩
  value_eq fuel rest h := by
    obtain ⟨fuel, rfl⟩ : ∃ n, fuel = n + 1 := ⟨fuel - 1, by simp at h; omega⟩
    rfl

theorem writes_emptyObject : Writes (.map []) (objectText []) where
  starts := ⟨'{', _, rfl, Or.inr (Or.inl rfl)⟩
  value_eq fuel rest h := by
    obtain ⟨fuel, rfl⟩ : ∃ n, fuel = n + 1 := ⟨fuel - 1, by simp [objectText] at h; omega⟩
    rfl

/-- The reader of members comes to the value of the first one. -/
theorem members_memberText (hname : name.all isPlain) (h : Writes v s) {fuel : Nat}
    (hfuel : s.length ≤ fuel) (rest : List Char) :
    members (fuel + 1) (memberText name s ++ rest)
      = match skipSpace rest with
        | '}' :: rest => .ok ([(.str (String.ofList name), v)], rest)
        | ',' :: rest => (members fuel (skipSpace rest)).bind fun (entries, rest) =>
            .ok ((.str (String.ofList name), v) :: entries, rest)
        | rest => fault .comma rest := by
  have htext : memberText name s ++ rest = '"' :: (name ++ '"' :: ':' :: (s ++ rest)) := by
    simp [memberText]
  have hcolon : skipSpace (':' :: (s ++ rest)) = ':' :: (s ++ rest) := rfl
  rw [htext, members, stringBody_of_plain hname]
  dsimp only [bind, Except.bind]
  rw [hcolon]
  simp only
  rw [h.starts.skip, h.value_eq fuel rest hfuel]
  rfl

theorem WritesMembers.one (hname : name.all isPlain) (h : Writes v s) :
    WritesMembers [(String.ofList name, v)] (memberText name s) where
  starts := ⟨_, rfl⟩
  members_eq fuel rest hfuel := by
    simp only [memberText, List.length_cons, List.length_append] at hfuel
    obtain ⟨fuel, rfl⟩ : ∃ n, fuel = n + 1 := ⟨fuel - 1, by omega⟩
    have hskip : skipSpace ('}' :: rest) = '}' :: rest := rfl
    rw [members_memberText hname h (by omega), hskip]
    rfl

theorem WritesMembers.cons (hname : name.all isPlain) (h : Writes v s)
    (hs : WritesMembers t s') :
    WritesMembers ((String.ofList name, v) :: t) (memberText name s ++ ',' :: s') where
  starts := ⟨_, rfl⟩
  members_eq fuel rest hfuel := by
    simp only [memberText, List.length_cons, List.length_append] at hfuel
    obtain ⟨fuel, rfl⟩ : ∃ n, fuel = n + 1 := ⟨fuel - 1, by omega⟩
    have hread := hs.members_eq fuel rest (by omega)
    obtain ⟨u, rfl⟩ := hs.starts
    have hskip : skipSpace (',' :: ('"' :: u ++ '}' :: rest)) = ',' :: ('"' :: u ++ '}' :: rest) :=
      rfl
    have hskip' : skipSpace ('"' :: u ++ '}' :: rest) = '"' :: u ++ '}' :: rest := rfl
    rw [List.append_assoc, List.cons_append, members_memberText hname h (by omega), hskip]
    simp only
    rw [hskip', hread]
    rfl

theorem WritesMembers.object (h : WritesMembers t s) (hkeys : t.keys.Nodup) :
    Writes (.map (named t)) (objectText s) where
  starts := ⟨'{', _, rfl, Or.inr (Or.inl rfl)⟩
  value_eq fuel rest hfuel := by
    simp only [objectText, List.length_cons, List.length_append] at hfuel
    obtain ⟨fuel, rfl⟩ : ∃ n, fuel = n + 1 := ⟨fuel - 1, by omega⟩
    have hread := h.members_eq fuel rest (by omega)
    have hentries : Value.ofEntries (named t) = .map (named t) := by
      rw [Value.ofEntries, ofEntries_named, Table.ofEntries_eq_self hkeys]
    obtain ⟨u, rfl⟩ := h.starts
    have htext : objectText ('"' :: u) ++ rest = '{' :: ('"' :: u ++ '}' :: rest) := by
      simp [objectText]
    have hskip : skipSpace ('"' :: u ++ '}' :: rest) = '"' :: u ++ '}' :: rest := rfl
    rw [htext, value, hskip]
    split
    · rename_i heq
      cases heq
    · rw [hread, ← hentries]
      rfl

theorem Writes.document_eq (h : Writes v s) : document s = .ok v := by
  have hread := h.value_eq (2 * s.length + 1) [] (by omega)
  have hskip := h.starts.skip []
  have hmark : s.head? ≠ some '\uFEFF' := by
    obtain ⟨c, t, rfl, rfl | rfl | rfl⟩ := h.starts
    · simp
    · simp
    · simp
  rw [List.append_nil] at hread hskip
  rw [document, if_neg hmark, hskip]
  dsimp only [bind, Except.bind, pure, Except.pure]
  rw [hread]
  rfl

end Json

/-! ## Bytes -/

/-- The elements of an array of bytes, in order. -/
theorem toList_byteArray (bytes : ByteArray) : bytes.toList = bytes.data.toList := by
  have hloop : ∀ (i : Nat) (before : List UInt8), ByteArray.toList.loop bytes i before
      = before.reverse ++ bytes.data.toList.drop i := by
    intro i before
    induction i, before using ByteArray.toList.loop.induct bytes with
    | case1 i before hlt ih =>
      have hlength : i < bytes.data.toList.length := hlt
      have hget : bytes.get! i = bytes.data.toList[i] := getElem!_pos bytes.data i hlt
      rw [ByteArray.toList.loop, if_pos hlt, ih, List.drop_eq_getElem_cons hlength, hget]
      simp
    | case2 i before hge =>
      have hdrop : bytes.data.toList.drop i = [] := List.drop_eq_nil_of_le (Nat.not_lt.mp hge)
      rw [ByteArray.toList.loop, if_neg hge, hdrop, List.append_nil]
  rw [ByteArray.toList, hloop]
  rfl

namespace Text

/-- The bytes of characters in ASCII. -/
def asciiBytes (s : List Char) : ByteArray := ⟨(s.map fun c => UInt8.ofNat c.toNat).toArray⟩

/-- A byte of ASCII is a character by itself. -/
theorem decodeFrom_cons {c : Char} (hc : c.toNat < 0x80) (offset : Nat) (bytes : List Nat) :
    Utf8.decodeFrom offset (c.toNat :: bytes)
      = (Utf8.decodeFrom (offset + 1) bytes).map (c :: ·) := by
  have hlength : Utf8.lengthFrom? c.toNat = some 1 := by
    unfold Utf8.lengthFrom?
    rw [if_pos hc]
  have hself : Char.ofNat (Utf8.codePoint [c.toNat]) = c := Char.ofNat_toNat c
  rw [Utf8.decodeFrom.eq_def]
  dsimp only
  rw [hlength]
  simp only [Nat.sub_self, List.take_zero, List.drop_zero, hself]
  rfl

theorem decode_asciiBytes {s : List Char} (h : ∀ c ∈ s, c.toNat < 0x80) :
    Utf8.decode (asciiBytes s) = .ok s := by
  -- the offset matters for errors only
  have hfrom : ∀ offset, Utf8.decodeFrom offset (s.map Char.toNat) = .ok s := by
    induction s with
    | nil =>
      intro offset
      rw [List.map_nil, Utf8.decodeFrom]
      rfl
    | cons c rest ih =>
      intro offset
      obtain ⟨hc, hrest⟩ := List.forall_mem_cons.mp h
      rw [List.map_cons, decodeFrom_cons hc, ih hrest]
      rfl
  have hbytes : (asciiBytes s).toList.map UInt8.toNat = s.map Char.toNat := by
    rw [toList_byteArray, asciiBytes, List.map_map]
    refine List.map_congr_left fun c hc => ?_
    have hc := h c hc
    simp only [Function.comp_apply, UInt8.toNat_ofNat']
    omega
  rw [Utf8.decode, hbytes]
  exact hfrom 0

/-- There are no line ends to be unified. -/
theorem unifyLineEnds_of_not_mem {s : List Char} (h : '\r' ∉ s) : unifyLineEnds s = s := by
  induction s with
  | nil => rfl
  | cons c rest ih =>
    rw [List.mem_cons, not_or] at h
    rw [unifyLineEnds, ih h.2]
    · exact fun _ heq _ => h.1 heq.symm
    · exact fun heq => h.1 heq.symm

/-- A character of ASCII that is no control. -/
def isPrintableAscii (c : Char) : Bool := 0x20 ≤ c.toNat && c.toNat < 0x80

/-- Nothing in such characters is decoded to anything else, and no line ends in them. -/
theorem decode_printable {s : List Char} (hs : s.all isPrintableAscii) :
    Utf8.decode (asciiBytes s) = .ok s ∧ unifyLineEnds s = s := by
  simp only [List.all_eq_true, isPrintableAscii, Bool.and_eq_true, decide_eq_true_eq] at hs
  exact ⟨decode_asciiBytes fun c hc => (hs c hc).2,
    unifyLineEnds_of_not_mem fun hc => absurd (hs _ hc).1 (by decide)⟩

end Text

/-! ## Sources -/

namespace Environment

variable {env : Environment} {s : List Char}

theorem readText_ascii {p : Path} (h : env.tree.read p = .ok (Text.asciiBytes s))
    (hs : s.all Text.isPrintableAscii) : env.readText p = .ok (String.ofList s) := by
  obtain ⟨hdecode, hlines⟩ := Text.decode_printable hs
  rw [readText, h]
  dsimp only [bind, Except.bind, Except.mapError]
  rw [hdecode]
  exact congrArg (fun s => Except.ok (String.ofList s)) hlines

theorem readStdin_ascii (h : env.stdin = Text.asciiBytes s) (hs : s.all Text.isPrintableAscii) :
    env.readStdin = .ok (String.ofList s) := by
  obtain ⟨hdecode, hlines⟩ := Text.decode_printable hs
  rw [readStdin, h, hdecode]
  exact congrArg (fun s => Except.ok (String.ofList s)) hlines

end Environment

/-- What is written in such characters is loaded from the standard input. -/
theorem loadDefinition_stdin {v : Value} {s : List Char} (h : Json.Writes v s)
    (hs : s.all Text.isPrintableAscii) (tree : FileTree) (yaml : Yaml.Library) :
    loadDefinition ⟨tree, Text.asciiBytes s, yaml⟩ stdinPath = .ok v := by
  have hread : readJson (String.ofList s) = .ok v := by
    rw [readJson, Json.read, String.toList_ofList, h.document_eq]
    rfl
  have hjson : isYamlPath stdinPath = false := by decide
  rw [loadDefinition, hjson, if_neg (by simp)]
  dsimp only
  rw [if_pos rfl, Environment.readStdin_ascii rfl hs]
  dsimp only [bind, Except.bind]
  rw [hread]
  rfl

end Flowchart

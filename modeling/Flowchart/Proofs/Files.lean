import Flowchart.FileTree

/-!
# What is written can be read

`read_write`: when a file has been written at a path, it is read there. The path may lead through
directories that were not there before, and up again out of some of them.

* `FileTree.LeadsOn` says that the components of a path lead to a directory. This stays so when
  there are more directories (`follow_of_subset`), whatever the files;
* `leadsOn_makeDirectories`: directories that have been made lead on.
-/

namespace Flowchart.FileTree

variable {t t' : FileTree} {p q : Place} {root part : String} {parts rest : List String}

/-! ## Following components -/

/-- The place where a path starts. -/
def start (root : String) : Place := if root = "" then [] else ["/"]

theorem isDirectory_start (t : FileTree) (root : String) : t.isDirectory (start root) := by
  rw [start]
  split
  · rfl
  · rfl

theorem follow_cons (t : FileTree) (p : Place) (part : String) (rest : List String) :
    t.follow p (part :: rest)
      = if t.isDirectory p then
          if maxNameBytes < part.utf8ByteSize then .error .tooLong
          else t.follow (step p part) rest
        else if (t.files.lookup p).isSome then .error .blocked
        else .error .missing := rfl

theorem follow_append (t : FileTree) (p : Place) (parts rest : List String) :
    t.follow p (parts ++ rest) = (t.follow p parts).bind fun q => t.follow q rest := by
  induction parts generalizing p with
  | nil => rfl
  | cons part parts ih =>
    rw [List.cons_append, follow_cons, follow_cons]
    split
    · split
      · rfl
      · exact ih _
    · split
      · rfl
      · rfl

/-- More directories do not change where a way leads. -/
theorem follow_of_subset (hmore : ∀ q, t.isDirectory q → t'.isDirectory q)
    (h : t.follow p parts = .ok q) : t'.follow p parts = .ok q := by
  induction parts generalizing p with
  | nil => exact h
  | cons part rest ih =>
    rw [follow_cons] at h ⊢
    split at h
    · rename_i hdirectory
      rw [if_pos (hmore p hdirectory)]
      split at h
      · cases h
      · rename_i hshort
        rw [if_neg hshort]
        exact ih h
    · split at h
      · cases h
      · cases h

/-- A way that leads nowhere is no directory. -/
theorem follow_ne_directory : t.follow p parts ≠ .error .directory := by
  induction parts generalizing p with
  | nil =>
    intro h
    cases h
  | cons part rest ih =>
    rw [follow_cons]
    split
    · split
      · simp
      · exact ih
    · split
      · simp
      · simp

/-! ## Directories -/

/-- Components lead to a directory. -/
def LeadsOn (t : FileTree) (root : String) (parts : List String) : Prop :=
  ∃ q, t.follow (start root) parts = .ok q ∧ t.isDirectory q

theorem isDirectory_append {made : Place} :
    ({ t with directories := t.directories ++ [made] } : FileTree).isDirectory p
      ↔ t.isDirectory p ∨ p = made := by
  simp [isDirectory, or_assoc]

theorem find_eq_of_place {path : Path} {found : Found} (h : t.place path = .error found) :
    t.find path = found := by
  rw [find, h]

/-- A path that is sound as a whole leads where its components lead, in every tree. -/
theorem place_eq_follow {path : Path} (hnul : t.find path ≠ .nul) (hlong : t.find path ≠ .tooLong)
    (t' : FileTree) : t'.place path = t'.follow (start path.root) path.parts := by
  have hplain : ¬path.text.contains '\x00' := fun h =>
    hnul (find_eq_of_place (by rw [place, if_pos h]; rfl))
  have hshort : ¬maxPathBytes < path.text.utf8ByteSize := fun h =>
    hlong (find_eq_of_place (by rw [place, if_neg hplain, if_pos h]; rfl))
  rw [place, if_neg hplain, if_neg hshort]
  rfl

/-- A path with a directory at it leads there. -/
theorem leadsOn_of_find (h : t.find ⟨root, parts⟩ = .directory) : t.LeadsOn root parts := by
  have hfollow := place_eq_follow (by rw [h]; simp) (by rw [h]; simp) t
  rw [find, hfollow] at h
  cases hplace : t.follow (start root) parts with
  | error found =>
    rw [hplace] at h
    obtain rfl : found = .directory := h
    exact absurd hplace follow_ne_directory
  | ok q =>
    rw [hplace] at h
    dsimp only [atPlace] at h
    split at h
    · rename_i hdirectory
      exact ⟨q, hplace, hdirectory⟩
    · split at h
      · cases h
      · cases h

/-- Behind a directory there is a place for every component that is not too long. -/
theorem LeadsOn.follow_concat (h : t.LeadsOn root parts) (part : String) :
    ∃ q, t.follow (start root) (parts ++ [part])
      = if maxNameBytes < part.utf8ByteSize then .error .tooLong else .ok q := by
  obtain ⟨q, hfollow, hdirectory⟩ := h
  refine ⟨step q part, ?_⟩
  rw [follow_append, hfollow, Except.bind, follow_cons, if_pos hdirectory]
  rfl

theorem leadsOn_makeDirectories (h : t.makeDirectories root parts = .ok t') :
    t'.LeadsOn root parts.reverse := by
  induction parts generalizing t' with
  | nil =>
    cases h
    exact ⟨start root, rfl, isDirectory_start t root⟩
  | cons part outer ih =>
    rw [makeDirectories] at h
    cases hfind : t.find ⟨root, (part :: outer).reverse⟩ with
    | directory =>
      simp only [hfind] at h
      cases h
      exact leadsOn_of_find hfind
    | missing =>
      simp only [hfind] at h
      cases hmake : t.makeDirectories root outer with
      | error e =>
        rw [hmake] at h
        cases h
      | ok made =>
        -- the directories around it are there now, so there is a place for it
        rw [hmake] at h
        obtain ⟨q, hfollow⟩ := (ih hmake).follow_concat part
        have hplace := place_eq_follow (by rw [hfind]; simp) (by rw [hfind]; simp) made
        rw [List.reverse_cons] at hplace h ⊢
        dsimp only [bind, Except.bind] at h
        rw [hplace, hfollow] at h
        split at hfollow
        · rename_i hlong
          rw [if_pos hlong] at h
          cases h
        · rename_i hshort
          rw [if_neg hshort] at h
          dsimp only at h
          split at h
          · rename_i hdirectory
            cases h
            exact ⟨q, hfollow, hdirectory⟩
          · cases h
            refine ⟨q, follow_of_subset (fun q' hq' => ?_) hfollow, ?_⟩
            · exact isDirectory_append.mpr (Or.inl hq')
            · exact isDirectory_append.mpr (Or.inr rfl)
    | _ =>
      simp only [hfind] at h
      cases h

/-! ## Files -/

/-- A path has a place if the directory around it is there and nothing is too long. -/
theorem exists_place {path : Path} (h : t.LeadsOn path.root path.parent.parts)
    (hnul : t.find path ≠ .nul) (hlong : t.find path ≠ .tooLong) : ∃ q, t.place path = .ok q := by
  have hfollow := place_eq_follow hnul hlong t
  cases hparts : path.parts.getLast? with
  | none =>
    rw [List.getLast?_eq_none_iff.mp hparts] at hfollow
    exact ⟨_, hfollow⟩
  | some part =>
    obtain ⟨outer, hsplit⟩ := List.getLast?_eq_some_iff.mp hparts
    have hparent : path.parent.parts = outer := by
      rw [Path.parent, hsplit, List.dropLast_concat]
    rw [hparent] at h
    obtain ⟨q, hconcat⟩ := h.follow_concat part
    rw [hsplit, hconcat] at hfollow
    split at hfollow
    · exact absurd (find_eq_of_place hfollow) hlong
    · exact ⟨q, hfollow⟩

/-- Writing puts a file at a place where there is no directory. -/
theorem write_eq_ok {path : Path} {content : ByteArray} (h : t.write path content = .ok t') :
    ∃ (made : FileTree) (q : Place), made.place path = .ok q ∧ made.isDirectory q = false ∧
      t' = { made with files := made.files.put q content } := by
  rw [write] at h
  cases hmake : t.makeDirectories path.root path.parent.parts.reverse with
  | error e =>
    rw [hmake] at h
    cases h
  | ok made =>
    rw [hmake] at h
    dsimp only [bind, Except.bind] at h
    have hleads := leadsOn_makeDirectories hmake
    rw [List.reverse_reverse] at hleads
    have hplace : ∀ found, made.find path = found → found ≠ .directory → found ≠ .nul →
        found ≠ .tooLong → ∃ q, made.place path = .ok q ∧ made.isDirectory q = false := by
      intro found hfind hfree hnul hlong
      obtain ⟨q, hq⟩ := exists_place hleads (by rwa [hfind]) (by rwa [hfind])
      refine ⟨q, hq, ?_⟩
      rw [find, hq] at hfind
      dsimp only [atPlace] at hfind
      split at hfind
      · exact absurd hfind.symm hfree
      · simp_all
    cases hfind : made.find path with
    | file _ | missing =>
      obtain ⟨q, hq, hfree⟩ := hplace _ hfind (by simp) (by simp) (by simp)
      rw [hfind, hq] at h
      cases h
      exact ⟨made, q, hq, hfree, rfl⟩
    | _ =>
      rw [hfind] at h
      cases h

/-- What is written at a path is read there. -/
theorem read_write {path : Path} {content : ByteArray} (h : t.write path content = .ok t') :
    t'.read path = .ok content := by
  obtain ⟨made, q, hplace, hfree, rfl⟩ := write_eq_ok h
  -- a file is no directory, so it is in the way of nothing that led somewhere before
  have hsame : ∀ p, ({ made with files := made.files.put q content } : FileTree).isDirectory p
      = made.isDirectory p := fun _ => rfl
  have hfind : made.find path ≠ .nul ∧ made.find path ≠ .tooLong := by
    rw [find, hplace]
    dsimp only [atPlace]
    rw [hfree]
    cases made.files.lookup q with
    | _ => simp
  have hfollow := place_eq_follow hfind.1 hfind.2
  rw [hfollow made] at hplace
  have hthere := follow_of_subset (fun p hp => (hsame p).trans hp) hplace
  rw [read, find, hfollow, hthere]
  dsimp only [atPlace]
  rw [hsame, hfree, Table.lookup_put]
  simp
  rfl

end Flowchart.FileTree

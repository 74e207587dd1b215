import Mathlib.Tactic.Common
import Flowchart.Diagram.Memo

/-!
# The memory of a walk, move by move

How `Memo.start` and `Memo.finish` change what the memory says about each name, and the algebra of
`unique`, which the exit nodes of an action pass through once for every group around it.
-/

namespace Flowchart

/-! ## Tables -/

namespace Table

variable {α : Type}

theorem mem_keys_iff {t : Table String α} {n : String} :
    n ∈ t.keys ↔ (List.lookup n t).isSome := by
  induction t with
  | nil => simp [Table.keys]
  | cons e rest ih =>
    obtain ⟨k, a⟩ := e
    by_cases h : n = k
    · simp [Table.keys, h]
    · rw [List.lookup_cons, beq_false_of_ne h, ← ih]
      simp [Table.keys, h]

theorem mem_of_lookup {t : Table String α} {n : String} {a : α} (h : List.lookup n t = some a) :
    (n, a) ∈ t := by
  obtain ⟨before, after, rfl, -⟩ := List.lookup_eq_some_iff.mp h
  exact List.mem_append_right _ List.mem_cons_self

theorem mem_put {t : Table String α} {k j : String} {a b : α} (h : (j, b) ∈ t.put k a) :
    (j, b) ∈ t ∨ (j = k ∧ b = a) := by
  induction t with
  | nil =>
    rw [put, List.mem_singleton, Prod.mk.injEq] at h
    exact Or.inr h
  | cons e rest ih =>
    obtain ⟨k', a'⟩ := e
    rw [put] at h
    split at h
    · rename_i hk
      rcases List.mem_cons.mp h with heq | h
      · rw [Prod.mk.injEq] at heq
        exact Or.inr ⟨heq.1.trans (beq_iff_eq.mp hk).symm, heq.2⟩
      · exact Or.inl (List.mem_cons_of_mem _ h)
    · rcases List.mem_cons.mp h with heq | h
      · exact Or.inl (heq ▸ List.mem_cons_self)
      · exact (ih h).imp_left (List.mem_cons_of_mem _)

end Table

namespace Diagram

/-! ## The memory -/

namespace Memo

/-- An action that the walk has come to, whether or not it is finished. -/
def Visited (m : Memo) (n : String) : Prop := m.progress? n ≠ none

/-- What has been visited and is not being drawn is finished. -/
theorem Visited.done {m : Memo} {n : String} (h : m.Visited n)
    (hu : m.progress? n ≠ some .underway) : m.progress? n = some .done := by
  cases hstate : m.progress? n with
  | none => exact absurd hstate h
  | some state =>
    cases state with
    | underway => exact absurd hstate hu
    | done => rfl

theorem progress?_start (m : Memo) (k n : String) :
    (m.start k).progress? n = if n = k then some .underway else m.progress? n := by
  rw [progress?, start, Table.lookup_put]
  simp [progress?]

theorem progress?_finish (m : Memo) (k n : String) (xs : List String) :
    (m.finish k xs).progress? n = if n = k then some .done else m.progress? n := by
  rw [progress?, finish, Table.lookup_put]
  simp [progress?]

theorem visited_start {m : Memo} {k : String} : (m.start k).Visited k := by
  rw [Visited, progress?_start, if_pos rfl]
  exact Option.some_ne_none _

theorem visited_finish {m : Memo} {k : String} {xs : List String} : (m.finish k xs).Visited k := by
  rw [Visited, progress?_finish, if_pos rfl]
  exact Option.some_ne_none _

theorem Visited.start {m : Memo} {n : String} (h : m.Visited n) (k : String) :
    (m.start k).Visited n := by
  rw [Visited, progress?_start]
  split
  · exact Option.some_ne_none _
  · exact h

theorem Visited.finish {m : Memo} {n : String} (h : m.Visited n) (k : String) (xs : List String) :
    (m.finish k xs).Visited n := by
  rw [Visited, progress?_finish]
  split
  · exact Option.some_ne_none _
  · exact h

/-- Finishing what was started leaves what is being drawn as it was before. -/
theorem underway_finish_iff {m m' : Memo} {k : String} (xs : List String)
    (hk : m.progress? k = none)
    (h : ∀ n, m'.progress? n = some .underway ↔ (m.start k).progress? n = some .underway)
    (n : String) :
    (m'.finish k xs).progress? n = some .underway ↔ m.progress? n = some .underway := by
  rw [progress?_finish]
  by_cases hn : n = k
  · rw [if_pos hn, hn, hk]
    simp
  · rw [if_neg hn, h, progress?_start, if_neg hn]

theorem lookup_exits_finish (m : Memo) (k n : String) (xs : List String) :
    (m.finish k xs).exits.lookup n = if n = k then some xs else m.exits.lookup n := by
  rw [finish, Table.lookup_put]
  simp

theorem mem_keys_visits {m : Memo} {n : String} : n ∈ m.visits.keys ↔ m.Visited n := by
  rw [Table.mem_keys_iff, Visited, progress?, Option.isSome_iff_ne_none]

/-- Starting a new action puts it after all others in the order of visits. -/
theorem keys_visits_start {m : Memo} {k : String} (h : m.progress? k = none) :
    (m.start k).visits.keys = m.visits.keys ++ [k] := by
  have hk : m.visits.keys.contains k = false := by
    rw [← Bool.not_eq_true, List.contains_iff_mem, mem_keys_visits]
    exact fun hv => hv h
  rw [start, Table.keys_put, hk]
  rfl

/-- Finishing an action that was started leaves the order of visits. -/
theorem keys_visits_finish {m : Memo} {k : String} (xs : List String) (h : m.Visited k) :
    (m.finish k xs).visits.keys = m.visits.keys := by
  have hk : m.visits.keys.contains k = true := by
    rwa [List.contains_iff_mem, mem_keys_visits]
  rw [finish, Table.keys_put, hk]
  rfl

/-- Known exit nodes are the ones that an action was finished with, unless there are none. -/
theorem exitsOf_of_lookup {m : Memo} {n : String} {xs : List String}
    (h : m.exits.lookup n = some xs) (hne : xs ≠ []) : m.exitsOf n = xs := by
  rw [exitsOf, h]
  cases xs with
  | nil => exact absurd rfl hne
  | cons x rest => rfl

/-- Every exit node of an action is recorded, or is the node of the action itself. -/
theorem mem_exitsOf {m : Memo} {n x : String} (h : x ∈ m.exitsOf n) :
    (∃ e ∈ m.exits, x ∈ e.2) ∨ x = nodeId n := by
  rw [exitsOf] at h
  split at h
  · rename_i first rest heq
    exact Or.inl ⟨(n, first :: rest), Table.mem_of_lookup heq, h⟩
  · exact Or.inr (List.mem_singleton.mp h)

end Memo

/-! ## Dropping repeated nodes -/

theorem unique_append (xs ys : List String) :
    unique (xs ++ ys) = unique xs ++ (unique ys).filter (fun y => y ∉ xs) := by
  induction xs with
  | nil => exact (List.filter_eq_self.mpr (by simp)).symm
  | cons x rest ih =>
    rw [List.cons_append, unique, ih, unique, List.filter_append, List.filter_filter,
      List.cons_append]
    congr 2
    refine List.filter_congr fun y _ => ?_
    by_cases h : y = x
    · simp [h]
    · simp [h]

theorem unique_unique (xs : List String) : unique (unique xs) = unique xs := by
  have hnodup : ∀ ys : List String, ys.Nodup → unique ys = ys := by
    intro ys
    induction ys with
    | nil => exact fun _ => rfl
    | cons y rest ih =>
      intro h
      rw [List.nodup_cons] at h
      rw [unique, ih h.2, List.filter_eq_self.mpr]
      intro z hz
      have hne : z ≠ y := fun heq => h.1 (heq ▸ hz)
      simpa using hne
  exact hnodup _ (nodup_unique xs)

/-- Lists that differ only in repetitions may be exchanged below `unique`. -/
theorem unique_append_congr {xs xs' ys ys' : List String} (hx : unique xs = unique xs')
    (hy : unique ys = unique ys') : unique (xs ++ ys) = unique (xs' ++ ys') := by
  have hmem : ∀ y, y ∈ xs ↔ y ∈ xs' := fun y => by rw [← mem_unique, hx, mem_unique]
  rw [unique_append, unique_append, hx, hy]
  simp only [hmem]

theorem unique_eq_nil {xs : List String} : unique xs = [] ↔ xs = [] := by
  cases xs with
  | nil => simp [unique]
  | cons x rest => simp [unique]

end Diagram

end Flowchart

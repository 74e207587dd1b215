/-!
# Tables in insertion order

Documents, style tables and the memory of a drawing are all tables whose order shows in the
output, so a table here is the list of its entries:

* `List.lookup` of core finds the value of a key,
* `put` keeps the first position of a key and the last value written to it.
-/

namespace Flowchart

/-- Entries in the order in which their keys first appeared. -/
abbrev Table (κ α : Type) := List (κ × α)

namespace Table

/-- Writes a value to a key. A key that is there keeps its place and its spelling. -/
def put {κ α : Type} [BEq κ] (t : Table κ α) (k : κ) (a : α) : Table κ α :=
  match t with
  | [] => [(k, a)]
  | (k', a') :: rest => if k == k' then (k', a) :: rest else (k', a') :: put rest k a

/-- The table that results from writing the entries one after another. -/
def ofEntries {κ α : Type} [BEq κ] (entries : List (κ × α)) : Table κ α :=
  entries.foldl (fun t e => t.put e.1 e.2) []

/-- The keys in order. -/
def keys {κ α : Type} (t : Table κ α) : List κ := t.map Prod.fst

theorem lookup_put {κ α : Type} [BEq κ] [LawfulBEq κ] (t : Table κ α) (k j : κ) (a : α) :
    List.lookup j (t.put k a) = if j == k then some a else List.lookup j t := by
  induction t with
  | nil => cases hj : j == k <;> simp only [put, List.lookup_cons, List.lookup_nil, hj] <;> rfl
  | cons e rest ih =>
    obtain ⟨k', a'⟩ := e
    cases hk : k == k' <;> cases hj : j == k' <;> grind [put]

theorem keys_put {κ α : Type} [BEq κ] [LawfulBEq κ] (t : Table κ α) (k : κ) (a : α) :
    (t.put k a).keys = if t.keys.contains k then t.keys else t.keys ++ [k] := by
  induction t with
  | nil => simp [put, keys]
  | cons e rest ih =>
    obtain ⟨k', a'⟩ := e
    by_cases h : k = k'
    · simp [put, keys, h]
    · cases hk : (Table.keys rest).contains k <;> simp_all [put, keys]

end Table

end Flowchart

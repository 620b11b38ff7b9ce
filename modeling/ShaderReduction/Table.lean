/-
This file defines tables: lists of keys with their values, in the order in which the keys were first
put.

A value put for a key that is present takes the place of the old value, so an object keeps the order
of its members and a directory the place of its files. `find?_put` and `find?_erase` say what each
operation does to what is found, which is all that later proofs use of it.
-/

namespace ShaderReduction

/-- Values by key, in order. -/
abbrev Table (Key Value : Type) := List (Key × Value)

namespace Table

variable {Key Value : Type} [DecidableEq Key]

/-- The keys of a table, in order. -/
def keys (table : Table Key Value) : List Key := table.map Prod.fst

/-- The value for a key. -/
def find? (key : Key) : Table Key Value → Option Value
  | [] => none
  | (other, value) :: table => if other = key then some value else find? key table

/-- The table with a value for a key: in its place, or at the end if the key is new. -/
def put (key : Key) (value : Value) : Table Key Value → Table Key Value
  | [] => [(key, value)]
  | (other, old) :: table =>
    if other = key then (other, value) :: table else (other, old) :: put key value table

/-- The table without a key. -/
def erase (key : Key) (table : Table Key Value) : Table Key Value :=
  table.filter fun entry => entry.1 ≠ key

/-! ### What is found afterwards -/

theorem find?_put (key other : Key) (value : Value) (table : Table Key Value) :
    find? other (put key value table) = if key = other then some value else find? other table := by
  induction table with
  | nil => simp [put, find?]
  | cons entry table inductionHypothesis =>
    obtain ⟨first, old⟩ := entry
    grind [put, find?]

theorem find?_erase (key other : Key) (table : Table Key Value) :
    find? other (erase key table) = if key = other then none else find? other table := by
  induction table with
  | nil => simp [erase, find?]
  | cons entry table inductionHypothesis =>
    obtain ⟨first, old⟩ := entry
    grind [erase, find?]

theorem mem_keys_put (key other : Key) (value : Value) (table : Table Key Value) :
    other ∈ keys (put key value table) ↔ other = key ∨ other ∈ keys table := by
  induction table with
  | nil => simp [put, keys]
  | cons entry table inductionHypothesis =>
    obtain ⟨first, old⟩ := entry
    grind [put, keys]

theorem find?_eq_none_iff (key : Key) (table : Table Key Value) :
    find? key table = none ↔ key ∉ keys table := by
  induction table with
  | nil => simp [find?, keys]
  | cons entry table inductionHypothesis =>
    obtain ⟨first, old⟩ := entry
    grind [find?, keys]

/-! ### Distinct keys -/

theorem nodup_keys_put (key : Key) (value : Value) {table : Table Key Value}
    (distinct : (keys table).Nodup) : (keys (put key value table)).Nodup := by
  induction table with
  | nil => simp [put, keys]
  | cons entry table inductionHypothesis =>
    obtain ⟨first, old⟩ := entry
    simp only [keys, List.map_cons, List.nodup_cons] at distinct
    by_cases same : first = key
    · simp only [put, same, if_true, keys, List.map_cons, List.nodup_cons]
      exact same ▸ distinct
    · simp only [put, same, if_false, keys, List.map_cons, List.nodup_cons]
      refine ⟨fun member => ?_, inductionHypothesis distinct.2⟩
      rcases (mem_keys_put key first value table).1 member with equal | member
      · exact same equal
      · exact distinct.1 member

/-- The table that named values make when each is put in turn. -/
def ofList (entries : List (Key × Value)) : Table Key Value :=
  entries.foldl (fun table entry => put entry.1 entry.2 table) []

theorem nodup_keys_foldl_put (entries : List (Key × Value)) (table : Table Key Value)
    (distinct : (keys table).Nodup) :
    (keys (entries.foldl (fun table entry => put entry.1 entry.2 table) table)).Nodup := by
  induction entries generalizing table with
  | nil => exact distinct
  | cons entry entries inductionHypothesis =>
    exact inductionHypothesis _ (nodup_keys_put entry.1 entry.2 distinct)

theorem nodup_keys_ofList (entries : List (Key × Value)) : (keys (ofList entries)).Nodup :=
  nodup_keys_foldl_put entries [] List.nodup_nil

end Table

end ShaderReduction

import LinkTemplate.Text
/-!
# Tables

A table holds values under keys, in the order in which the keys first came. Binding a key again
changes its value and not its place.
-/

namespace LinkTemplate

namespace Table

variable {α : Type}

/-- The value under the first such key. -/
def lookup (key : Text) : List (Text × α) → Option α
  | [] => none
  | (k, value) :: rest => if k = key then some value else lookup key rest

/-- Puts a value under a key where the key stands, or else at the end. -/
def put (key : Text) (value : α) : List (Text × α) → List (Text × α)
  | [] => [(key, value)]
  | (k, v) :: rest => if k = key then (key, value) :: rest else (k, v) :: put key value rest

theorem mem_keys_put {key k : Text} {value : α} {entries : List (Text × α)} :
    k ∈ (put key value entries).map Prod.fst ↔ k = key ∨ k ∈ entries.map Prod.fst := by
  induction entries with
  | nil => simp [put]
  | cons e rest ih =>
    obtain ⟨k', v'⟩ := e
    by_cases h : k' = key
    · subst h; simp [put]
    · simp only [put, h, if_false, List.map_cons, List.mem_cons, ih]
      constructor
      · rintro (h | h | h) <;> simp [h]
      · rintro (h | h | h) <;> simp [h]

theorem nodup_put {key : Text} {value : α} {entries : List (Text × α)}
    (h : (entries.map Prod.fst).Nodup) : ((put key value entries).map Prod.fst).Nodup := by
  induction entries with
  | nil => simp [put]
  | cons e rest ih =>
    obtain ⟨k', v'⟩ := e
    rw [List.map_cons, List.nodup_cons] at h
    by_cases hk : k' = key
    · subst hk; simpa [put] using h
    · simp only [put, hk, if_false, List.map_cons, List.nodup_cons]
      exact ⟨fun hmem => (mem_keys_put.1 hmem).elim hk h.1, ih h.2⟩

end Table

/-- Entries in order, no key twice. -/
structure Table (α : Type) where
  entries : List (Text × α)
  keys_nodup : (entries.map Prod.fst).Nodup

namespace Table

variable {α : Type}

instance [DecidableEq α] : DecidableEq (Table α) := fun a b =>
  decidable_of_iff (a.entries = b.entries) <| by cases a; cases b; simp

def empty : Table α := ⟨[], List.nodup_nil⟩

def keys (table : Table α) : List Text := table.entries.map Prod.fst

def isEmpty (table : Table α) : Bool := table.entries.isEmpty

def get? (table : Table α) (key : Text) : Option α := lookup key table.entries

def insert (table : Table α) (key : Text) (value : α) : Table α where
  entries := put key value table.entries
  keys_nodup := nodup_put table.keys_nodup

def erase (table : Table α) (key : Text) : Table α where
  entries := table.entries.filter (·.1 ≠ key)
  keys_nodup := (List.filter_sublist.map Prod.fst).nodup table.keys_nodup

/-- Inserts the entries in order, so the last of a repeated key gives its value. -/
def ofList (entries : List (Text × α)) : Table α :=
  entries.foldl (fun table (key, value) => table.insert key value) empty

theorem lookup_put {key k : Text} {value : α} {entries : List (Text × α)} :
    lookup k (put key value entries) = if k = key then some value else lookup k entries := by
  induction entries with
  | nil => simp [put, lookup, eq_comm]
  | cons e rest ih =>
    obtain ⟨k', v'⟩ := e
    by_cases hk : k' = key
    · subst hk
      by_cases h : k = k'
      · simp [put, lookup, h]
      · simp [put, lookup, h, Ne.symm h]
    · by_cases h : k' = k
      · subst h; simp [put, lookup, hk]
      · simp [put, lookup, hk, h, ih]

theorem get?_insert (table : Table α) (key k : Text) (value : α) :
    (table.insert key value).get? k = if k = key then some value else table.get? k :=
  lookup_put

theorem lookup_filter_ne (key k : Text) (entries : List (Text × α)) :
    lookup k (entries.filter (·.1 ≠ key)) = if k = key then none else lookup k entries := by
  induction entries with
  | nil => simp [lookup]
  | cons e rest ih =>
    obtain ⟨k', v'⟩ := e
    by_cases hk : k' = key
    · subst hk
      by_cases h : k = k'
      · simpa [lookup, h] using ih
      · simpa [lookup, h, Ne.symm h] using ih
    · by_cases h : k' = k
      · subst h; simp [lookup, hk]
      · simpa [lookup, hk, h] using ih

theorem get?_erase (table : Table α) (key k : Text) :
    (table.erase key).get? k = if k = key then none else table.get? k :=
  lookup_filter_ne key k table.entries

@[simp] theorem get?_empty (key : Text) : (empty : Table α).get? key = none := rfl

end Table

end LinkTemplate

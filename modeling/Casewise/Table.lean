/-!
# Name tables

A table binds names to values and remembers the order in which the names were first bound. Binding
a name again changes its value and keeps its place. No name is listed twice.

## Main statements

* `Table.get?_insert_self`, `Table.get?_insert_of_ne`: binding a name is seen at that name and
  nowhere else.
* `Table.names_insert_of_mem`, `Table.names_insert_of_notMem`: binding a known name keeps the list
  of names, binding a new one puts it last.
-/

namespace Casewise

/-- Names with values, in the order of their first binding. -/
structure Table (α : Type) where
  /-- The names with their values. -/
  entries : List (String × α)
  /-- No name is listed twice. -/
  nodup : (entries.map Prod.fst).Nodup := by simp

namespace Table

variable {α : Type}

@[ext]
theorem ext {t t' : Table α} (h : t.entries = t'.entries) : t = t' := by
  cases t
  cases t'
  cases h
  rfl

/-- The table without names. -/
def empty : Table α :=
  { entries := [] }

instance : EmptyCollection (Table α) :=
  ⟨empty⟩

instance : Inhabited (Table α) :=
  ⟨empty⟩

/-- The bound names, in the order of their first binding. -/
def names (t : Table α) : List String :=
  t.entries.map Prod.fst

/-- The value bound to `name`, if there is one. -/
def get? (t : Table α) (name : String) : Option α :=
  t.entries.lookup name

/-- Whether `name` is bound. -/
def contains (t : Table α) (name : String) : Bool :=
  (t.get? name).isSome

/-- The entries after binding `name` to `value`: in its old place, or last if it is new. -/
def insertEntry (name : String) (value : α) : List (String × α) → List (String × α)
  | [] => [(name, value)]
  | (other, old) :: rest =>
    if other = name then (name, value) :: rest
    else (other, old) :: insertEntry name value rest

/-- `insertEntry` keeps the list of names if `name` is known and puts it last if it is new. -/
theorem map_fst_insertEntry (name : String) (value : α) (entries : List (String × α)) :
    (insertEntry name value entries).map Prod.fst =
      if name ∈ entries.map Prod.fst then entries.map Prod.fst
      else entries.map Prod.fst ++ [name] := by
  induction entries with
  | nil => simp [insertEntry]
  | cons entry rest ih =>
    obtain ⟨other, old⟩ := entry
    by_cases h : other = name
    · simp [insertEntry, h]
    · have h' : ¬ name = other := fun e => h e.symm
      by_cases hm : name ∈ rest.map Prod.fst
      · rw [if_pos hm] at ih
        simp only [insertEntry, h, if_false, List.map_cons, ih]
        rw [if_pos (List.mem_cons_of_mem _ hm)]
      · rw [if_neg hm] at ih
        simp only [insertEntry, h, if_false, List.map_cons, ih]
        rw [if_neg (by simp [h', hm]), List.cons_append]

/-- The table after binding `name` to `value`. -/
def insert (t : Table α) (name : String) (value : α) : Table α where
  entries := insertEntry name value t.entries
  nodup := by
    rw [map_fst_insertEntry]
    split
    · exact t.nodup
    · next h =>
      rw [List.nodup_append]
      exact ⟨t.nodup, by simp, by
        intro a ha b hb hab
        rw [List.mem_singleton.mp hb] at hab
        exact h (hab ▸ ha)⟩

/-- The table that binds the names of `entries` one after the other. -/
def ofList (entries : List (String × α)) : Table α :=
  entries.foldl (fun t (name, value) => t.insert name value) ∅

/-- Binding a known name keeps `Table.names`. -/
theorem names_insert_of_mem {t : Table α} {name : String} (h : name ∈ t.names) (value : α) :
    (t.insert name value).names = t.names :=
  (map_fst_insertEntry name value t.entries).trans (if_pos h)

/-- `insert` puts a new name last. -/
theorem names_insert_of_notMem {t : Table α} {name : String} (h : name ∉ t.names) (value : α) :
    (t.insert name value).names = t.names ++ [name] :=
  (map_fst_insertEntry name value t.entries).trans (if_neg h)

private theorem lookup_insertEntry (name other : String) (value : α)
    (entries : List (String × α)) :
    (insertEntry name value entries).lookup other =
      if other = name then some value else entries.lookup other := by
  induction entries with
  | nil =>
    by_cases h : other = name
    · simp [insertEntry, h]
    · simp [insertEntry, List.lookup_cons, h, beq_eq_false_iff_ne.mpr h]
  | cons entry rest ih =>
    obtain ⟨key, old⟩ := entry
    by_cases h : key = name
    · by_cases ho : other = name
      · simp [insertEntry, h, ho]
      · simp [insertEntry, h, ho, List.lookup_cons, beq_eq_false_iff_ne.mpr ho]
    · by_cases hk : other = key
      · have : ¬ other = name := fun e => h (hk ▸ e)
        simp [insertEntry, h, hk]
      · simp [insertEntry, List.lookup_cons, h, beq_eq_false_iff_ne.mpr hk, ih]

@[simp]
theorem get?_insert_self (t : Table α) (name : String) (value : α) :
    (t.insert name value).get? name = some value := by
  simp [get?, insert, lookup_insertEntry]

/-- `insert` of a name changes `get?` of no other. -/
theorem get?_insert_of_ne {name other : String} (h : other ≠ name) (t : Table α) (value : α) :
    (t.insert name value).get? other = t.get? other := by
  simp [get?, insert, lookup_insertEntry, h]

end Table

end Casewise

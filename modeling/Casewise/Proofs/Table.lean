import Mathlib.Data.List.Forall2
import Casewise.Table

/-!
# Tables side by side

Two tables are *alike* under a relation if they bind the same names in the same order, each to
related things. That is how the types and the values of the names of one scope belong together.

## Main statements

* `Table.Alike.get?_eq_some`, `Table.Alike.get?_eq_none`: alike tables answer alike.
* `Table.Alike.insert`: binding a new name in both keeps them alike.
-/

namespace Casewise.Table

variable {α β : Type}

/-! ### Names of one table -/

/-- A name is bound if and only if it is one of `Table.names`. -/
theorem contains_iff {t : Table α} {name : String} : t.contains name = true ↔ name ∈ t.names := by
  rw [contains, get?, List.lookup_isSome_iff, names, List.mem_map]
  constructor
  · rintro ⟨entry, hmem, hname⟩
    exact ⟨entry, hmem, (eq_of_beq hname).symm⟩
  · rintro ⟨entry, hmem, rfl⟩
    exact ⟨entry, hmem, beq_self_eq_true _⟩

theorem contains_eq_false {t : Table α} {name : String} :
    t.contains name = false ↔ t.get? name = none := by
  simp [contains]

theorem get?_eq_none_iff {t : Table α} {name : String} : t.get? name = none ↔ name ∉ t.names := by
  rw [← contains_eq_false, ← contains_iff, Bool.not_eq_true]

/-- `get?` finds the value that a name is listed with. -/
theorem get?_eq_some_iff {t : Table α} {name : String} {a : α} :
    t.get? name = some a ↔ (name, a) ∈ t.entries := by
  rw [get?, List.lookup_eq_some_iff]
  constructor
  · rintro ⟨before, after, hsplit, -⟩
    rw [hsplit]
    exact List.mem_append_right before List.mem_cons_self
  · intro hmem
    obtain ⟨before, after, hsplit⟩ := List.append_of_mem hmem
    refine ⟨before, after, hsplit, fun entry hentry => ?_⟩
    have hnodup := t.nodup
    rw [hsplit, List.map_append, List.map_cons, List.nodup_append] at hnodup
    rw [bne_iff_ne]
    exact (hnodup.2.2 _ (List.mem_map_of_mem hentry) _ List.mem_cons_self).symm

@[simp]
theorem get?_empty (name : String) : (∅ : Table α).get? name = none :=
  rfl

private theorem insertEntry_of_notMem {name : String} {entries : List (String × α)}
    (h : name ∉ entries.map Prod.fst) (a : α) :
    insertEntry name a entries = entries ++ [(name, a)] := by
  induction entries with
  | nil => rfl
  | cons entry rest ih =>
    simp only [List.map_cons, List.mem_cons, not_or] at h
    rw [insertEntry, if_neg fun e => h.1 e.symm, ih h.2, List.cons_append]

theorem entries_insert_of_get?_eq_none {t : Table α} {name : String} (h : t.get? name = none)
    (a : α) : (t.insert name a).entries = t.entries ++ [(name, a)] :=
  insertEntry_of_notMem (get?_eq_none_iff.mp h) a

theorem get?_insert (t : Table α) (name other : String) (a : α) :
    (t.insert name a).get? other = if other = name then some a else t.get? other := by
  split
  · next h => rw [h, get?_insert_self]
  · next h => exact get?_insert_of_ne h t a

theorem get?_of_prefix {t u : Table α} (h : t.entries <+: u.entries) {name : String} {a : α}
    (ha : t.get? name = some a) : u.get? name = some a := by
  obtain ⟨rest, hrest⟩ := h
  rw [get?] at ha ⊢
  rw [← hrest, List.lookup_append, ha, Option.some_or]

@[simp]
theorem entries_ofList_singleton (name : String) (a : α) :
    (ofList [(name, a)]).entries = [(name, a)] :=
  rfl

/-! ### Two tables -/

/-- Both tables bind the same names in the same order, each to related things. -/
def Alike (rel : α → β → Prop) (t : Table α) (u : Table β) : Prop :=
  List.Forall₂ (fun a b => a.1 = b.1 ∧ rel a.2 b.2) t.entries u.entries

namespace Alike

variable {rel rel' : α → β → Prop} {t : Table α} {u : Table β}

theorem empty : Alike rel (∅ : Table α) (∅ : Table β) :=
  .nil

theorem singleton {a : α} {b : β} (h : rel a b) (name : String) :
    Alike rel (ofList [(name, a)]) (ofList [(name, b)]) :=
  .cons ⟨rfl, h⟩ .nil

theorem imp (h : Alike rel t u) (hrel : ∀ a b, rel a b → rel' a b) : Alike rel' t u :=
  List.Forall₂.imp (fun _ _ hab => ⟨hab.1, hrel _ _ hab.2⟩) h

private theorem map_fst_eq {as : List (String × α)} {bs : List (String × β)}
    (h : List.Forall₂ (fun a b => a.1 = b.1 ∧ rel a.2 b.2) as bs) :
    as.map Prod.fst = bs.map Prod.fst := by
  induction h with
  | nil => rfl
  | cons hab _ ih => rw [List.map_cons, List.map_cons, hab.1, ih]

theorem names_eq (h : Alike rel t u) : t.names = u.names :=
  map_fst_eq h

private theorem lookup_alike {as : List (String × α)} {bs : List (String × β)}
    (h : List.Forall₂ (fun a b => a.1 = b.1 ∧ rel a.2 b.2) as bs) (name : String) :
    Option.Rel rel (as.lookup name) (bs.lookup name) := by
  induction h with
  | nil => exact .none
  | @cons a b _ _ hab _ ih =>
    obtain ⟨x, a⟩ := a
    obtain ⟨y, b⟩ := b
    obtain rfl : x = y := hab.1
    rw [List.lookup_cons, List.lookup_cons]
    cases name == x with
    | true => exact .some hab.2
    | false => exact ih

theorem get?_rel (h : Alike rel t u) (name : String) : Option.Rel rel (t.get? name) (u.get? name) :=
  lookup_alike h name

/-- A name bound in the first of two `Alike` tables is bound to something related in the second. -/
theorem get?_eq_some (h : Alike rel t u) {name : String} {a : α} (ha : t.get? name = some a) :
    ∃ b, u.get? name = some b ∧ rel a b := by
  have := h.get?_rel name
  rw [ha] at this
  cases hu : u.get? name with
  | none => rw [hu] at this; cases this
  | some b => rw [hu] at this; cases this with | some hab => exact ⟨b, rfl, hab⟩

/-- `Alike` tables leave the same names unbound. -/
theorem get?_eq_none (h : Alike rel t u) {name : String} :
    t.get? name = none ↔ u.get? name = none := by
  rw [get?_eq_none_iff, get?_eq_none_iff, h.names_eq]

/-- Tables stay `Alike` when both bind a new name to related things. -/
theorem insert (h : Alike rel t u) {name : String} (hname : t.get? name = none) {a : α} {b : β}
    (hab : rel a b) : Alike rel (t.insert name a) (u.insert name b) := by
  rw [Alike, entries_insert_of_get?_eq_none hname,
    entries_insert_of_get?_eq_none (h.get?_eq_none.mp hname)]
  exact List.rel_append h (.cons ⟨rfl, hab⟩ .nil)

private theorem insertEntry_alike {as : List (String × α)} {bs : List (String × β)}
    (h : List.Forall₂ (fun a b => a.1 = b.1 ∧ rel a.2 b.2) as bs) {name : String} {a : α}
    (ha : as.lookup name = some a) {b : β} (hab : rel a b) :
    List.Forall₂ (fun a b => a.1 = b.1 ∧ rel a.2 b.2) as (insertEntry name b bs) := by
  induction h with
  | nil => cases ha
  | @cons x y xs ys hxy hrest ih =>
    obtain ⟨key', a'⟩ := x
    obtain ⟨key, old⟩ := y
    have hkey : key' = key := hxy.1
    rw [insertEntry]
    split
    · next hname =>
      have hx : (name == key') = true := by rw [hkey, hname, beq_self_eq_true]
      rw [List.lookup_cons, hx] at ha
      cases ha
      exact .cons ⟨hkey.trans hname, hab⟩ hrest
    · next hname =>
      have hx : (name == key') = false := by
        rw [hkey, beq_eq_false_iff_ne]
        exact fun h => hname h.symm
      rw [List.lookup_cons, hx] at ha
      exact .cons hxy (ih ha)

/-- Tables stay `Alike` when a name of the second gets another value that is related to what the
first binds the name to. -/
theorem overwrite (h : Alike rel t u) {name : String} {a : α} (ha : t.get? name = some a) {b : β}
    (hab : rel a b) : Alike rel t (u.insert name b) :=
  insertEntry_alike h ha hab

end Alike

end Casewise.Table

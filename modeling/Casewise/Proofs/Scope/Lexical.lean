import Casewise.Proofs.Scope.History

/-!
# Lexical scoping

A name means in a scope what has been written last to its binding in the nearest scope that binds
it. Which scope is near is settled by where scopes were made, and what is bound by what has been
written so far, so a history alone tells what every name means: `History.Owner` and
`History.LastWritten` do not look into the forest. A written name is read anew in all scopes from
which its scope is come to before any other that binds the name, and nowhere else.

## Main definitions

* `Reaches`: the way from a scope outwards, up to the first scope that binds a name.
* `Forest.Operation.Writes`: what an operation writes.
* `History.LastWritten`, `History.Owner`: what has been written last, and the nearest binding.
* `Forest.Rereads`: in which scopes a name has got a new meaning.

## Main statements

* `Forest.get?_bindings_after`: a scope binds a name to what an operation writes to it.
* `History.lastWritten_iff`: a scope binds a name to what has been written to it last.
* `Forest.IsLinked.rereads_write`: where a written name is read anew.
* `History.means_last_written`: what names mean after any history, and how far setting and updating
  a name are seen.
-/

namespace Casewise

variable {α : Type}

/-- From a scope outwards, going from each scope to its parent, the scope `t` is come to, and no
scope before it satisfies `binds`. -/
inductive Reaches (parent : ScopeId → ScopeId → Prop) (binds : ScopeId → Prop) (t : ScopeId) :
    ScopeId → Prop
  | here : Reaches parent binds t t
  | around {s p : ScopeId} (hs : ¬ binds s) (hp : parent s p) (h : Reaches parent binds t p) :
    Reaches parent binds t s

/-! ### What has been written -/

/-- Where there are `size` scopes with the parents `parent`, and these bind the names `binds`, the
operation writes `a` to the name `name` of the scope `t`. New scopes are written with what they
bind; a name is set where it is new, and updated in the nearest scope that binds it. -/
def Forest.Operation.Writes (size : Nat) (parent : ScopeId → ScopeId → Prop)
    (binds : ScopeId → String → Prop) (t : ScopeId) (name : String) (a : α) : Operation α → Prop
  | newRoot bindings => t = size ∧ bindings.get? name = some a
  | extend _ bindings => t = size ∧ bindings.get? name = some a
  | set s other b => t = s ∧ name = other ∧ a = b ∧ ¬ binds s name
  | update s other b =>
    name = other ∧ a = b ∧ Reaches parent (binds · name) t s ∧ binds t name
  | declare _ _ _ => False

namespace History

open Forest (Operation)

/-- Of all that has been written to the name `name` of the scope `t`, the last is `a`. -/
def LastWritten : History α → ScopeId → String → α → Prop
  | [], _, _, _ => False
  | op :: h, t, name, a =>
    op.Writes (forest h).scopes.size (Parent h) (fun s n => ∃ b, LastWritten h s n b) t name a ∨
      (∀ c, ¬ op.Writes (forest h).scopes.size (Parent h) (fun s n => ∃ b, LastWritten h s n b)
        t name c) ∧ LastWritten h t name a

/-- Something has been written to the name `name` of the scope `s`. -/
def Binds (h : History α) (s : ScopeId) (name : String) : Prop :=
  ∃ a, h.LastWritten s name a

/-- The scope `t` stands at or around `s`, and no scope before it binds `name`. -/
def ComesTo (h : History α) (name : String) (s t : ScopeId) : Prop :=
  Reaches h.Parent (h.Binds · name) t s

/-- The scope `t` is the nearest one at or around `s` that binds `name`. -/
def Owner (h : History α) (name : String) (s t : ScopeId) : Prop :=
  h.ComesTo name s t ∧ h.Binds t name

end History

/-! ### Reading and writing in a linked forest -/

namespace Forest

/-- Between the forests, the name `name` has got the meaning `a` in the scopes that satisfy `P`, and
nothing else has changed its meaning in any scope. -/
structure Rereads (f f' : Forest α) (name : String) (a : α) (P : ScopeId → Prop) : Prop where
  /-- Where the name has got a new meaning. -/
  changed : ∀ t < f.scopes.size, P t → f'.get t name = .ok a
  /-- What has kept its meaning. -/
  kept : ∀ t < f.scopes.size, ∀ other, ¬ (other = name ∧ P t) → f'.get t other = f.get t other

section Linked

variable {f f' : Forest α}

theorem get?_eq_owner? (f : Forest α) (s : ScopeId) (name : String) :
    f.get? s name = (f.owner? s name).bind fun t => (f.bindings t).get? name := by
  rw [get?, owner?]
  induction f.path s with
  | nil => rfl
  | cons t path ih =>
    rw [List.findSome?_cons, List.find?_cons, Table.contains]
    cases ht : (f.bindings t).get? name with
    | none => exact ih
    | some a => exact ht.symm

/-- `get` finds a meaning exactly as `get?` does. -/
theorem get_eq_ok {s : ScopeId} {name : String} {a : α} :
    f.get s name = .ok a ↔ f.get? s name = some a := by
  rw [get]
  cases f.get? s name with
  | none => exact ⟨fun h => (by cases h), fun h => (by cases h)⟩
  | some b => rw [Except.ok.injEq, Option.some.injEq]

/-- `get` fails exactly if the name means nothing. -/
theorem get_eq_error {s : ScopeId} {name : String} {e : LangError} :
    f.get s name = .error e ↔ f.get? s name = none ∧ e = { cause := .unboundName name } := by
  rw [get]
  cases f.get? s name with
  | none => exact ⟨fun h => (by cases h; exact ⟨rfl, rfl⟩), fun h => (by rw [h.2]; rfl)⟩
  | some b => exact ⟨fun h => (by cases h), fun h => (by cases h.1)⟩

theorem get_congr {s : ScopeId} {name : String} (h : f'.get? s name = f.get? s name) :
    f'.get s name = f.get s name := by
  rw [get, get, h]

namespace IsLinked

/-- `owner?` is the nearest scope that binds a name. -/
theorem owner?_eq_some_iff (h : f.IsLinked) (name : String) (t : ScopeId) :
    ∀ s < f.scopes.size, (f.owner? s name = some t ↔
      Reaches (fun s p => f.parent? s = some p) (fun s => (f.bindings s).contains name = true) t s ∧
        (f.bindings t).contains name = true) := by
  refine h.induction fun s hs ih => ?_
  rw [h.owner?_eq hs]
  by_cases hbound : (f.bindings s).contains name = true
  · rw [if_pos hbound, Option.some.injEq]
    constructor
    · rintro rfl
      exact ⟨.here, hbound⟩
    · rintro ⟨hreach, -⟩
      cases hreach with
      | here => rfl
      | around hs' => exact absurd hbound hs'
  · rw [if_neg hbound]
    constructor
    · intro howner
      obtain ⟨p, hp, howner⟩ := Option.bind_eq_some_iff.mp howner
      obtain ⟨hreach, ht⟩ := (ih p hp).mp howner
      exact ⟨.around hbound hp hreach, ht⟩
    · rintro ⟨hreach, ht⟩
      cases hreach with
      | here => exact absurd ht hbound
      | around hs' hp hreach =>
        rw [Option.bind_eq_some_iff]
        exact ⟨_, hp, (ih _ hp).mpr ⟨hreach, ht⟩⟩

/-- The `owner?` of a name is a scope of the forest. -/
theorem lt_size_of_owner? {name : String} {s t : ScopeId} (howner : f.owner? s name = some t) :
    t < f.scopes.size := by
  have ht : (f.bindings t).contains name = true :=
    @List.find?_some _ (fun t => (f.bindings t).contains name) _ _ howner
  by_contra hlt
  rw [bindings, Array.getElem?_eq_none (Nat.le_of_not_lt hlt)] at ht
  cases ht

/-- A name that is written in a scope is read anew (`Rereads`) in all scopes from which this one is
come to before any other that binds the name, and nowhere else. -/
theorem rereads_write (h : f.IsLinked) {s : ScopeId} (hs : s < f.scopes.size) (name : String)
    (a : α) :
    f.Rereads (f.write s name a) name a
      (Reaches (fun s p => f.parent? s = some p) (fun t => (f.bindings t).contains name = true) s)
    where
  changed := by
    have hread (t : ScopeId) (ht : t < f.scopes.size) :
        (f.write s name a).get? t name = (((f.write s name a).bindings t).get? name).or
          ((f.parent? t).bind ((f.write s name a).get? · name)) := by
      rw [(h.write s name a).get?_eq (size_write f s name a ▸ ht), parent?_write]
    have hself : (f.write s name a).get? s name = some a := by
      rw [hread s hs, bindings_write f s s name a hs, if_pos rfl, Table.get?_insert_self,
        Option.some_or]
    intro t ht hreach
    rw [get_eq_ok]
    induction hreach with
    | here => exact hself
    | @around t p hbound hp _ ih =>
      by_cases hts : t = s
      · rw [hts]
        exact hself
      · have hp' : p < f.scopes.size := h.parent_lt_size hp
        rw [hread t ht, bindings_write f s t name a hs, if_neg hts,
          Table.contains_eq_false.mp (Bool.not_eq_true _ ▸ hbound), Option.none_or, hp]
        exact ih hp'
  kept := by
    suffices hkept : ∀ t < f.scopes.size, ∀ other, ¬ (other = name ∧ Reaches _ _ s t) →
        (f.write s name a).get? t other = f.get? t other from
      fun t ht other hother => get_congr (hkept t ht other hother)
    refine h.induction fun t ht ih other hother => ?_
    have hbindings : ((f.write s name a).bindings t).get? other = (f.bindings t).get? other := by
      rw [bindings_write f s t name a hs]
      split
      · next hts =>
        have hne : other ≠ name := fun heq => hother ⟨heq, hts ▸ .here⟩
        rw [Table.get?_insert_of_ne hne, hts]
      · rfl
    rw [h.get?_eq ht, (h.write s name a).get?_eq (size_write f s name a ▸ ht), parent?_write,
      hbindings]
    cases hbound : (f.bindings t).get? other with
    | some b => rfl
    | none =>
      cases hp : f.parent? t with
      | none => rfl
      | some p =>
        -- where the written scope is come to from the parent, it is come to from here as well
        refine ih p hp other fun ⟨heq, hreach⟩ => hother ⟨heq, .around ?_ hp hreach⟩
        rw [← heq, Bool.not_eq_true]
        exact Table.contains_eq_false.mpr hbound

end IsLinked

end Linked

end Forest

/-! ### What a history has written -/

namespace History

open Forest (Operation)

theorem lastWritten_cons {h : History α} {op : Operation α} {t : ScopeId} {name : String} {a : α} :
    LastWritten (op :: h) t name a ↔
      op.Writes h.forest.scopes.size h.Parent h.Binds t name a ∨
        (∀ c, ¬ op.Writes h.forest.scopes.size h.Parent h.Binds t name c) ∧
          h.LastWritten t name a :=
  Iff.rfl

end History

namespace Forest

/-- After one `write`, a name is bound to what has been written, or else to what it was bound to. -/
theorem get?_bindings_write {f : Forest α} {s t : ScopeId} (hs : s < f.scopes.size)
    {written name : String} {b : α} {W : α → Prop}
    (hW : ∀ a, W a ↔ t = s ∧ name = written ∧ a = b) (a : α) :
    (W a ∨ (∀ c, ¬ W c) ∧ (f.bindings t).get? name = some a) ↔
      ((f.write s written b).bindings t).get? name = some a := by
  rw [bindings_write f s t written b hs]
  by_cases ht : t = s
  · rw [if_pos ht, Table.get?_insert]
    by_cases hname : name = written
    · rw [if_pos hname, Option.some.injEq, hW]
      constructor
      · rintro (⟨-, -, heq⟩ | ⟨hnone, -⟩)
        · exact heq.symm
        · exact absurd ((hW b).mpr ⟨ht, hname, rfl⟩) (hnone b)
      · rintro rfl
        exact .inl ⟨ht, hname, rfl⟩
    · have hnone (c : α) : ¬ W c := fun hc => hname ((hW c).mp hc).2.1
      rw [if_neg hname, or_iff_right (hnone a), and_iff_right hnone, ht]
  · have hnone (c : α) : ¬ W c := fun hc => ht ((hW c).mp hc).1
    rw [if_neg ht, or_iff_right (hnone a), and_iff_right hnone]

/-- In a new scope, `get?` finds what the scope was made with; elsewhere a name is bound as
before. -/
theorem get?_bindings_new {f f' : Forest α} {bound : Table α}
    (hold : ∀ t, t ≠ f.scopes.size → f'.bindings t = f.bindings t)
    (hnew : f'.bindings f.scopes.size = bound) (t : ScopeId) (name : String) (a : α) :
    ((t = f.scopes.size ∧ bound.get? name = some a) ∨
        (∀ c, ¬ (t = f.scopes.size ∧ bound.get? name = some c)) ∧
          (f.bindings t).get? name = some a) ↔
      (f'.bindings t).get? name = some a := by
  by_cases ht : t = f.scopes.size
  · have hempty : (f.bindings t).get? name = none := by
      rw [bindings, ht, Array.getElem?_eq_none (Nat.le_refl _)]
      rfl
    rw [hempty, ht, hnew, and_iff_right rfl, or_iff_left fun h => (by cases h.2)]
  · rw [hold t ht]
    simp only [ht, false_and, false_or, not_false_eq_true, implies_true, true_and]

/-- In the forest, the operation writes `a` to the name `name` of the scope `t`. -/
def Writes (f : Forest α) (op : Operation α) (t : ScopeId) (name : String) (a : α) : Prop :=
  op.Writes f.scopes.size (fun s p => f.parent? s = some p)
    (fun s n => (f.bindings s).contains n = true) t name a

section Writes

variable {f : Forest α} {s t : ScopeId} {name written : String} {a b : α}

/-- `set` writes a name where it is new. -/
theorem writes_set_iff :
    f.Writes (.set s written b) t name a ↔
      (t = s ∧ name = written ∧ a = b) ∧ f.hasLocal s written = false := by
  constructor
  · rintro ⟨ht, rfl, ha, hnew⟩
    exact ⟨⟨ht, rfl, ha⟩, Bool.not_eq_true _ ▸ hnew⟩
  · rintro ⟨⟨ht, rfl, ha⟩, hnew⟩
    exact ⟨ht, rfl, ha, Bool.not_eq_true _ ▸ hnew⟩

/-- `update` writes a name in the nearest scope that binds it. -/
theorem writes_update_iff (h : f.IsLinked) (hs : s < f.scopes.size) :
    f.Writes (.update s written b) t name a ↔
      (name = written ∧ a = b) ∧ f.owner? s written = some t := by
  rw [h.owner?_eq_some_iff written t s hs]
  constructor
  · rintro ⟨rfl, ha, howns⟩
    exact ⟨⟨rfl, ha⟩, howns⟩
  · rintro ⟨⟨rfl, ha⟩, howns⟩
    exact ⟨rfl, ha, howns⟩

end Writes

/-- A scope binds a name to what the operation `Writes` to it, or else to what it was bound to. -/
theorem get?_bindings_after {f : Forest α} (hlinked : f.IsLinked) (op : Operation α)
    (hop : ∀ s ∈ op.scope?, s < f.scopes.size) (t : ScopeId) (name : String) (a : α) :
    (f.Writes op t name a ∨ (∀ c, ¬ f.Writes op t name c) ∧ (f.bindings t).get? name = some a) ↔
      ((f.after op).bindings t).get? name = some a := by
  have hnothing (hnone : ∀ c, ¬ f.Writes op t name c) (hscopes : (f.after op).scopes = f.scopes) :
      (f.Writes op t name a ∨ (∀ c, ¬ f.Writes op t name c) ∧ (f.bindings t).get? name = some a) ↔
        ((f.after op).bindings t).get? name = some a := by
    rw [bindings_congr hscopes, or_iff_right (hnone a), and_iff_right hnone]
  cases op with
  | newRoot bindings =>
    exact get?_bindings_new (fun t ht => bindings_newRoot_of_ne ht bindings)
      (bindings_newRoot_self f bindings) t name a
  | extend s bindings =>
    exact get?_bindings_new (fun t ht => bindings_extend_of_ne f s t bindings ht)
      (bindings_extend_self f s bindings) t name a
  | set s written b =>
    have hs : s < f.scopes.size := hop s rfl
    cases hlocal : f.hasLocal s written with
    | true =>
      refine hnothing (fun c hc => ?_) ?_
      · rw [writes_set_iff, hlocal] at hc
        cases hc.2
      · rw [after, Operation.perform, Operation.outcome_replace, set_of_hasLocal hlocal]
    | false =>
      rw [after, Operation.perform, Operation.outcome_replace, set_of_not_hasLocal hlocal]
      exact get?_bindings_write hs (fun c => writes_set_iff.trans (and_iff_left hlocal)) a
  | update s written b =>
    have hs : s < f.scopes.size := hop s rfl
    cases howner : f.owner? s written with
    | none =>
      refine hnothing (fun c hc => ?_) ?_
      · rw [writes_update_iff hlinked hs, howner] at hc
        cases hc.2
      · rw [after, Operation.perform, Operation.outcome_replace, update_of_owner?_eq_none howner]
    | some o =>
      have hwrites (c : α) :
          f.Writes (.update s written b) t name c ↔ t = o ∧ name = written ∧ c = b := by
        rw [writes_update_iff hlinked hs, howner, Option.some.injEq, and_comm, eq_comm]
      rw [after, Operation.perform, Operation.outcome_replace, update_of_owner?_eq_some howner]
      exact get?_bindings_write (IsLinked.lt_size_of_owner? howner) hwrites a
  | declare s data constructors =>
    refine hnothing (fun c hc => hc) ?_
    exact scopes_setRegistry f s _

end Forest

namespace History

open Forest (Operation)

/-- A scope binds a name to what has been `LastWritten` to it. -/
theorem lastWritten_iff {h : History α} (hpossible : h.IsPossible) {t : ScopeId} {name : String}
    {a : α} : h.LastWritten t name a ↔ (h.forest.bindings t).get? name = some a := by
  induction h generalizing t name a with
  | nil => exact iff_of_false id fun h => (by cases h)
  | cons op h ih =>
    obtain ⟨hbefore, hop⟩ := hpossible
    have hbinds : Binds h = fun s n => ((forest h).bindings s).contains n = true :=
      funext fun s => funext fun n => propext <| by
        rw [Table.contains, Option.isSome_iff_exists]
        exact exists_congr fun b => ih hbefore
    rw [lastWritten_cons, parent_eq hbefore, hbinds, ih hbefore]
    exact Forest.get?_bindings_after (isLinked hbefore) op hop t name a

section Readings

variable {h : History α} {s : ScopeId} {name : String}

theorem binds_iff (hpossible : h.IsPossible) :
    h.Binds s name ↔ (h.forest.bindings s).contains name = true := by
  rw [Table.contains, Option.isSome_iff_exists]
  exact exists_congr fun a => lastWritten_iff hpossible

/-- The way outwards, as the forest knows it. -/
theorem comesTo_iff (hpossible : h.IsPossible) {t : ScopeId} :
    h.ComesTo name s t ↔ Reaches (fun s p => h.forest.parent? s = some p)
      (fun s => (h.forest.bindings s).contains name = true) t s := by
  have hbinds : (h.Binds · name) = fun s => (h.forest.bindings s).contains name = true :=
    funext fun s => propext (binds_iff hpossible)
  rw [ComesTo, parent_eq hpossible, hbinds]

theorem owner_iff (hpossible : h.IsPossible) (hs : s < h.forest.scopes.size) {t : ScopeId} :
    h.Owner name s t ↔ h.forest.owner? s name = some t := by
  rw [(isLinked hpossible).owner?_eq_some_iff name t s hs, Owner, comesTo_iff hpossible,
    binds_iff hpossible]

theorem get?_eq_some_iff (hpossible : h.IsPossible) (hs : s < h.forest.scopes.size) {a : α} :
    h.forest.get? s name = some a ↔ ∃ t, h.Owner name s t ∧ h.LastWritten t name a := by
  rw [Forest.get?_eq_owner?, Option.bind_eq_some_iff]
  exact exists_congr fun t =>
    and_congr (owner_iff hpossible hs).symm (lastWritten_iff hpossible).symm

theorem get?_ne_none_iff (hpossible : h.IsPossible) (hs : s < h.forest.scopes.size) :
    h.forest.get? s name ≠ none ↔ ∃ t, h.Owner name s t := by
  rw [Option.ne_none_iff_exists']
  constructor
  · rintro ⟨a, ha⟩
    obtain ⟨t, howner, -⟩ := (get?_eq_some_iff hpossible hs).mp ha
    exact ⟨t, howner⟩
  · rintro ⟨t, howner⟩
    obtain ⟨a, ha⟩ := howner.2
    exact ⟨a, (get?_eq_some_iff hpossible hs).mpr ⟨t, howner, ha⟩⟩

/-- Setting a name that the scope does not bind is read in all scopes from which the scope is come
to before any that binds the name. -/
theorem set_of_not_binds (hpossible : h.IsPossible) (hs : s < h.forest.scopes.size)
    (hbinds : ¬ h.Binds s name) (a : α) :
    ∃ f', h.forest.set s name a = .ok f' ∧ h.forest.Rereads f' name a (h.ComesTo name · s) := by
  have hlocal : h.forest.hasLocal s name = false := by
    rw [binds_iff hpossible, Bool.not_eq_true] at hbinds
    exact hbinds
  refine ⟨_, Forest.set_of_not_hasLocal hlocal a, ?_⟩
  simp only [comesTo_iff hpossible]
  exact (isLinked hpossible).rereads_write hs name a

/-- Updating a name is read in all scopes with the same nearest binding, and changes no scope's
names nor their order. -/
theorem update_of_owner (hpossible : h.IsPossible) (hs : s < h.forest.scopes.size) {t : ScopeId}
    (howner : h.Owner name s t) (a : α) :
    ∃ f', h.forest.update s name a = .ok f' ∧
      h.forest.Rereads f' name a (h.Owner name · t) ∧
      ∀ u, (f'.bindings u).names = (h.forest.bindings u).names := by
  have howner? := (owner_iff hpossible hs).mp howner
  have ht := Forest.IsLinked.lt_size_of_owner? howner?
  have hname : name ∈ (h.forest.bindings t).names :=
    Table.contains_iff.mp ((binds_iff hpossible).mp howner.2)
  refine ⟨_, Forest.update_of_owner?_eq_some howner? a, ?_, fun u => ?_⟩
  · have hwrite := (isLinked hpossible).rereads_write ht name a
    refine ⟨fun u hu hcomes => hwrite.changed u hu ((comesTo_iff hpossible).mp hcomes.1),
      fun u hu other hother => hwrite.kept u hu other fun ⟨heq, hcomes⟩ => ?_⟩
    exact hother ⟨heq, (comesTo_iff hpossible).mpr hcomes, howner.2⟩
  · rw [Forest.bindings_write _ t u name a ht]
    split
    · next hu => rw [Table.names_insert_of_mem hname, hu]
    · rfl

end Readings

/-- What names mean after any history. A name means in a scope what has been `LastWritten` to its
binding in the nearest scope at or around this one that binds it, its `Owner`, and nothing if there
is none. It can be `set` exactly where the scope itself does not bind it, and then has its new
meaning in this scope and in those below it that have no nearer binding. It can be `update`d exactly
where it means something, and then has its new meaning in all scopes with the same nearest binding;
no binding is made or moved. Nothing else changes, and an operation that fails changes nothing at
all. -/
theorem means_last_written {h : History α} (hpossible : h.IsPossible) {s : ScopeId}
    (hs : s < h.forest.scopes.size) (name : String) :
    (∀ a, h.forest.get s name = .ok a ↔ ∃ t, h.Owner name s t ∧ h.LastWritten t name a) ∧
    (∀ e, h.forest.get s name = .error e ↔
      (¬ ∃ t, h.Owner name s t) ∧ e = { cause := .unboundName name }) ∧
    (h.forest.has s name = true ↔ ∃ t, h.Owner name s t) ∧
    (∀ a, (h.Binds s name → h.forest.set s name a = .error { cause := .redefinition name }) ∧
      (¬ h.Binds s name → ∃ f', h.forest.set s name a = .ok f' ∧
        h.forest.Rereads f' name a (h.ComesTo name · s))) ∧
    (∀ a, (h.forest.has s name = false →
        h.forest.update s name a = .error { cause := .unboundName name }) ∧
      (h.forest.has s name = true → ∃ f' t, h.forest.update s name a = .ok f' ∧
        h.Owner name s t ∧ h.forest.Rereads f' name a (h.Owner name · t) ∧
        ∀ u, (f'.bindings u).names = (h.forest.bindings u).names)) ∧
    ∀ op e, (outcome op.perform h.forest).1 = .error e → forest (op :: h) = h.forest := by
  have hmeans : h.forest.get? s name ≠ none ↔ ∃ t, h.Owner name s t :=
    get?_ne_none_iff hpossible hs
  have hhas : h.forest.has s name = true ↔ ∃ t, h.Owner name s t := by
    rw [← hmeans, Forest.has, Option.isSome_iff_ne_none]
  refine ⟨fun a => ?_, fun e => ?_, hhas, fun a => ⟨fun hbinds => ?_, fun hbinds => ?_⟩,
    fun a => ⟨fun hnone => ?_, fun hsome => ?_⟩, fun op e he => Forest.after_of_error he⟩
  · exact Forest.get_eq_ok.trans (get?_eq_some_iff hpossible hs)
  · rw [Forest.get_eq_error, ← hmeans, not_not]
  · exact Forest.set_of_hasLocal ((binds_iff hpossible).mp hbinds) a
  · exact set_of_not_binds hpossible hs hbinds a
  · refine Forest.update_of_owner?_eq_none ?_ a
    rw [Option.eq_none_iff_forall_ne_some]
    intro t ht
    have hsome := hhas.mpr ⟨t, (owner_iff hpossible hs).mpr ht⟩
    rw [hnone] at hsome
    cases hsome
  · obtain ⟨t, howner⟩ := hhas.mp hsome
    obtain ⟨f', hupdate, hrereads, hnames⟩ := update_of_owner hpossible hs howner a
    exact ⟨f', t, hupdate, howner, hrereads, hnames⟩

/-- A name that is bound at the root and, below it, set in the middle of three scopes, where setting
it at the root again has failed. It was updated last from the innermost scope. -/
private def shadowed : History Nat :=
  [.update 2 "x" 30, .set 0 "x" 9, .set 1 "x" 20, .extend 1 ∅, .extend 0 ∅,
    .newRoot (.ofList [("x", 10)])]

/-- After `shadowed`, an update in the inmost scope reaches the binding in the middle and not the
one at the root. -/
theorem means_last_written_shadowed :
    IsPossible shadowed ∧ 2 < (forest shadowed).scopes.size ∧
      (∃ t, Owner shadowed "x" 2 t ∧ LastWritten shadowed t "x" 30) ∧
      (forest shadowed).get 0 "x" = .ok 10 ∧
      ∃ f' t, (forest shadowed).update 2 "x" 40 = .ok f' ∧ Owner shadowed "x" 2 t ∧
        (forest shadowed).Rereads f' "x" 40 (Owner shadowed "x" · t) := by
  have hpossible : IsPossible shadowed := by
    refine ⟨⟨⟨⟨⟨⟨trivial, ?_⟩, ?_⟩, ?_⟩, ?_⟩, ?_⟩, ?_⟩
    all_goals
      intro s hs
      cases hs
    all_goals decide
  have hsize : 2 < (forest shadowed).scopes.size := by decide
  obtain ⟨hget, -, -, -, hupdate, -⟩ := means_last_written hpossible hsize "x"
  obtain ⟨f', t, hf', howner, hrereads, -⟩ := (hupdate 40).2 rfl
  exact ⟨hpossible, hsize, (hget 30).mp rfl, rfl, f', t, hf', howner, hrereads⟩

end History

end Casewise

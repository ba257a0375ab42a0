import Mathlib.Logic.Relation
import Casewise.Proofs.Scope.Forest

/-!
# Histories of forests

A forest is made of nothing by operations, one after the other: roots and scopes inside other scopes
are made, names are set and updated, data types are declared. An operation is asked for in a scope
that there is. It may fail, and then the forest stays as it is.

The history tells how the scopes belong together: a scope stands inside the one that it was made in.
The forest keeps the way from a scope to its root, which is the scope itself and the way from its
parent.

## Main definitions

* `Forest.Operation`, `History`: what is asked of forests.
* `Forest.IsLinked`: the ways to the roots go through the parents.
* `History.forest`: the forest that a history leads to.
* `History.Parent`, `History.SameTree`: how scopes belong together.

## Main statements

* `History.parent_iff`: the forest knows the parents of its scopes.
* `Forest.IsLinked.after`: what an operation does to the tree of scopes.
* `Forest.IsLinked.induction`: induction along the tree of scopes.
-/

namespace Casewise

variable {α : Type}

namespace Forest

/-! ### Operations -/

/-- What may be asked of a forest. -/
inductive Operation (α : Type) where
  /-- To make a root with the given bindings. -/
  | newRoot (bindings : Table α)
  /-- To make a scope inside the scope `s`, with the given bindings. -/
  | extend (s : ScopeId) (bindings : Table α)
  | set (s : ScopeId) (name : String) (value : α)
  /-- To rebind a name that is bound at or around the scope `s`. -/
  | update (s : ScopeId) (name : String) (value : α)
  /-- To declare a data type in the scope `s`. -/
  | declare (s : ScopeId) (name : String) (constructors : List (String × List Ty))

namespace Operation

/-- The scope in which the operation is asked for. A root is made in none. -/
def scope? : Operation α → Option ScopeId
  | newRoot _ => none
  | extend s _ => some s
  | set s _ _ => some s
  | update s _ _ => some s
  | declare s _ _ => some s

/-- Replaces the forest by what `change` makes of it, if it makes something of it. -/
def replace (change : Forest α → Except LangError (Forest α)) :
    ExceptT LangError (StateM (Forest α)) Unit := do
  MonadStateOf.set (← ExceptT.mk (pure (change (← getThe (Forest α)))))

/-- What the operation does with a forest. -/
def perform : Operation α → ExceptT LangError (StateM (Forest α)) Unit
  | newRoot bindings => modify fun f => (f.newRoot bindings).2
  | extend s bindings => modify fun f => (f.extend s bindings).2
  | set s name value => replace (·.set s name value)
  | update s name value => replace (·.update s name value)
  | declare s name constructors => Forest.declare s name constructors

end Operation

/-- The forest that an operation leaves, however it ends. -/
def after (f : Forest α) (op : Operation α) : Forest α :=
  (outcome op.perform f).2

section After

variable {f f' : Forest α} {op : Operation α}

theorem Operation.outcome_replace (change : Forest α → Except LangError (Forest α))
    (f : Forest α) :
    outcome (replace change) f =
      match change f with
      | .ok f' => (.ok (), f')
      | .error e => (.error e, f) := by
  rw [replace, outcome_bind_of_ok (outcome_get f)]
  cases change f <;> rfl

theorem set_of_hasLocal {s : ScopeId} {name : String} (h : f.hasLocal s name = true) (a : α) :
    f.set s name a = .error { cause := .redefinition name } :=
  if_pos h

theorem set_of_not_hasLocal {s : ScopeId} {name : String} (h : f.hasLocal s name = false)
    (a : α) : f.set s name a = .ok (f.write s name a) :=
  if_neg (Bool.not_eq_true _ ▸ h)

theorem update_of_owner?_eq_none {s : ScopeId} {name : String} (h : f.owner? s name = none)
    (a : α) : f.update s name a = .error { cause := .unboundName name } := by
  rw [Forest.update, h]
  rfl

theorem update_of_owner?_eq_some {s t : ScopeId} {name : String} (h : f.owner? s name = some t)
    (a : α) : f.update s name a = .ok (f.write t name a) := by
  rw [Forest.update, h]

/-- What an operation does by `Forest.after`: it makes a root, makes a scope inside another one,
writes a name, declares a data type, or fails and leaves the forest as it was. -/
theorem after_cases {motive : Forest α → Prop} (f : Forest α) (op : Operation α)
    (newRoot : ∀ bindings, op = .newRoot bindings → motive (f.newRoot bindings).2)
    (extend : ∀ s bindings, op = .extend s bindings → motive (f.extend s bindings).2)
    (set : ∀ s name a, op = .set s name a → f.hasLocal s name = false → motive (f.write s name a))
    (update : ∀ s t name a, op = .update s name a → f.owner? s name = some t →
      motive (f.write t name a))
    (declare : ∀ s name constructors f', op = .declare s name constructors →
      outcome (Forest.declare s name constructors) f = (.ok (), f') → motive f')
    (fails : ∀ e, (outcome op.perform f).1 = .error e → motive f) : motive (f.after op) := by
  rw [after]
  cases op with
  | newRoot bindings => exact newRoot bindings rfl
  | extend s bindings => exact extend s bindings rfl
  | set s name a =>
    rw [Operation.perform, Operation.outcome_replace] at fails ⊢
    cases hlocal : f.hasLocal s name with
    | true =>
      rw [set_of_hasLocal hlocal] at fails ⊢
      exact fails _ rfl
    | false =>
      rw [set_of_not_hasLocal hlocal]
      exact set s name a rfl hlocal
  | update s name a =>
    rw [Operation.perform, Operation.outcome_replace] at fails ⊢
    cases howner : f.owner? s name with
    | none =>
      rw [update_of_owner?_eq_none howner] at fails ⊢
      exact fails _ rfl
    | some t =>
      rw [update_of_owner?_eq_some howner]
      exact update s t name a rfl howner
  | declare s name constructors =>
    rw [Operation.perform] at fails ⊢
    rcases hout : outcome (Forest.declare s name constructors) f with ⟨e | u, f'⟩
    · obtain rfl := eq_of_declare_error hout
      exact fails e (congrArg Prod.fst hout)
    · exact declare s name constructors f' rfl hout

/-- `after` an operation that fails there is what there was. -/
theorem after_of_error {e : LangError} (h : (outcome op.perform f).1 = .error e) :
    f.after op = f := by
  rw [after]
  cases op with
  | newRoot bindings => cases h
  | extend s bindings => cases h
  | set s name a =>
    rw [Operation.perform, Operation.outcome_replace] at h ⊢
    cases hset : f.set s name a with
    | error e => rfl
    | ok f' => rw [hset] at h; cases h
  | update s name a =>
    rw [Operation.perform, Operation.outcome_replace] at h ⊢
    cases hupdate : f.update s name a with
    | error e => rfl
    | ok f' => rw [hupdate] at h; cases h
  | declare s name constructors => exact eq_of_declare_error (Prod.ext h rfl)

end After

/-! ### The tree of scopes -/

/-- The next scope around `s`, if there is one. -/
def parent? (f : Forest α) (s : ScopeId) : Option ScopeId :=
  (f.path s).tail.head?

/-- The way from every scope to its root goes through its parent, which was made before it. -/
structure IsLinked (f : Forest α) : Prop where
  /-- The way to the root is the scope and the way from its parent. -/
  path_eq : ∀ s < f.scopes.size, f.path s = s :: (f.parent? s).elim [] f.path
  /-- The parent was made before. -/
  parent_lt : ∀ s p, f.parent? s = some p → p < s

section Tree

variable {f f' : Forest α}

theorem lt_size_of_parent? {s p : ScopeId} (h : f.parent? s = some p) : s < f.scopes.size := by
  by_contra hs
  rw [parent?, path, Array.getElem?_eq_none (Nat.le_of_not_lt hs)] at h
  cases h

theorem parent?_size (f : Forest α) : f.parent? f.scopes.size = none := by
  rw [Option.eq_none_iff_forall_ne_some]
  intro p hp
  exact Nat.lt_irrefl _ (lt_size_of_parent? hp)

theorem head?_path {s : ScopeId} (hs : s < f.scopes.size) : (f.path s).head? = some s := by
  rw [path, Array.getElem?_eq_getElem hs]
  rfl

theorem path_congr (h : f'.scopes = f.scopes) (s : ScopeId) : f'.path s = f.path s := by
  rw [path, path, h]

theorem bindings_congr (h : f'.scopes = f.scopes) (s : ScopeId) : f'.bindings s = f.bindings s := by
  rw [bindings, bindings, h]

theorem path_newRoot_of_ne {t : ScopeId} (h : t ≠ f.scopes.size) (bound : Table α) :
    (f.newRoot bound).2.path t = f.path t := by
  rw [path, path, newRoot, Array.getElem?_push, if_neg h]

theorem path_newRoot_self (f : Forest α) (bound : Table α) :
    (f.newRoot bound).2.path f.scopes.size = [f.scopes.size] := by
  rw [path, newRoot, Array.getElem?_push_size]

theorem bindings_newRoot_of_ne {t : ScopeId} (h : t ≠ f.scopes.size) (bound : Table α) :
    (f.newRoot bound).2.bindings t = f.bindings t := by
  rw [bindings, bindings, newRoot, Array.getElem?_push, if_neg h]

theorem bindings_newRoot_self (f : Forest α) (bound : Table α) :
    (f.newRoot bound).2.bindings f.scopes.size = bound := by
  rw [bindings, newRoot, Array.getElem?_push_size]

theorem IsLinked.parent_lt_size (h : f.IsLinked) {s p : ScopeId} (hp : f.parent? s = some p) :
    p < f.scopes.size :=
  Nat.lt_trans (h.parent_lt s p hp) (lt_size_of_parent? hp)

theorem parent?_congr (hpath : ∀ t, f'.path t = f.path t) (s : ScopeId) :
    f'.parent? s = f.parent? s := by
  rw [parent?, parent?, hpath]

/-- A forest where the scopes have the same `path` is linked as well. -/
theorem IsLinked.of_path_eq (h : f.IsLinked) (hsize : f'.scopes.size = f.scopes.size)
    (hpath : ∀ t, f'.path t = f.path t) : f'.IsLinked := by
  have hparent := parent?_congr hpath
  have hway : f'.path = f.path := funext hpath
  refine ⟨fun s hs => ?_, fun s p hp => h.parent_lt s p (hparent s ▸ hp)⟩
  rw [hway, hparent]
  exact h.path_eq s (hsize ▸ hs)

/-- A forest with a new scope `IsLinked` if the new scope stands in no other one or in an old
one. -/
theorem IsLinked.of_new (h : f.IsLinked) (hsize : f'.scopes.size = f.scopes.size + 1)
    (hold : ∀ t, t ≠ f.scopes.size → f'.path t = f.path t) (around : Option ScopeId)
    (haround : ∀ p ∈ around, p < f.scopes.size)
    (hnew : f'.path f.scopes.size = f.scopes.size :: around.elim [] f.path) :
    f'.IsLinked ∧ f'.parent? f.scopes.size = around ∧
      ∀ t, t ≠ f.scopes.size → f'.parent? t = f.parent? t := by
  have hparent (t : ScopeId) (ht : t ≠ f.scopes.size) : f'.parent? t = f.parent? t := by
    rw [parent?, parent?, hold t ht]
  have hparentNew : f'.parent? f.scopes.size = around := by
    rw [parent?, hnew]
    cases around with
    | none => rfl
    | some p => exact head?_path (haround p rfl)
  -- no old scope stands in the new one
  have hway (p : ScopeId) (hp : p < f.scopes.size) : f'.path p = f.path p :=
    hold p (Nat.ne_of_lt hp)
  refine ⟨⟨fun s hs => ?_, fun s p hp => ?_⟩, hparentNew, hparent⟩
  · by_cases hs' : s = f.scopes.size
    · rw [hs', hparentNew, hnew]
      cases around with
      | none => rfl
      | some p => rw [Option.elim_some, Option.elim_some, hway p (haround p rfl)]
    · have hlt : s < f.scopes.size := by omega
      rw [hparent s hs', hold s hs', h.path_eq s hlt]
      cases hp : f.parent? s with
      | none => rfl
      | some p => rw [Option.elim_some, Option.elim_some, hway p (h.parent_lt_size hp)]
  · by_cases hs' : s = f.scopes.size
    · rw [hs', hparentNew] at hp
      exact hs' ▸ haround p hp
    · exact h.parent_lt s p (hparent s hs' ▸ hp)

/-- `newRoot` links the forest as before, and no scope gets a parent. -/
theorem IsLinked.newRoot (h : f.IsLinked) (bound : Table α) :
    (f.newRoot bound).2.IsLinked ∧ ∀ s, (f.newRoot bound).2.parent? s = f.parent? s := by
  obtain ⟨hlinked, hnew, hold⟩ := h.of_new (Array.size_push _)
    (fun t ht => path_newRoot_of_ne ht bound) none (fun p hp => (by cases hp))
    (path_newRoot_self f bound)
  refine ⟨hlinked, fun s => ?_⟩
  by_cases hs : s = f.scopes.size
  · rw [hs, hnew, parent?_size]
  · exact hold s hs

/-- A scope that `extend` makes inside another one is linked to it, and the others stay linked. -/
theorem IsLinked.extend (h : f.IsLinked) {s : ScopeId} (hs : s < f.scopes.size) (bound : Table α) :
    (f.extend s bound).2.IsLinked ∧ (f.extend s bound).2.parent? f.scopes.size = some s ∧
      ∀ t, t ≠ f.scopes.size → (f.extend s bound).2.parent? t = f.parent? t :=
  h.of_new (Array.size_push _) (fun t ht => path_extend_of_ne f s t bound ht) (some s)
    (fun _ hp => Option.some.inj hp ▸ hs) (path_extend_self f s bound)

theorem parent?_write (f : Forest α) (s t : ScopeId) (name : String) (a : α) :
    (f.write s name a).parent? t = f.parent? t :=
  parent?_congr (path_write f s · name a) t

theorem IsLinked.write (h : f.IsLinked) (s : ScopeId) (name : String) (a : α) :
    (f.write s name a).IsLinked :=
  h.of_path_eq (size_write f s name a) (path_write f s · name a)

/-- An operation keeps the forest `IsLinked`, and no scope gets a parent but the one that is made
inside another. -/
theorem IsLinked.after (h : f.IsLinked) (op : Operation α)
    (hop : ∀ s ∈ op.scope?, s < f.scopes.size) :
    (f.after op).IsLinked ∧ ∀ s p, (f.after op).parent? s = some p ↔
      (∃ bindings, op = .extend p bindings ∧ s = f.scopes.size) ∨ f.parent? s = some p := by
  have hsame (f' : Forest α) (hne : ∀ s bindings, op ≠ .extend s bindings) (hlinked : f'.IsLinked)
      (hparent : ∀ s, f'.parent? s = f.parent? s) :
      f'.IsLinked ∧ ∀ s p, f'.parent? s = some p ↔
        (∃ bindings, op = .extend p bindings ∧ s = f.scopes.size) ∨ f.parent? s = some p := by
    refine ⟨hlinked, fun s p => ?_⟩
    rw [hparent, or_iff_right]
    rintro ⟨bindings, heq, -⟩
    exact hne p bindings heq
  refine after_cases (motive := fun f' => f'.IsLinked ∧ ∀ s p, f'.parent? s = some p ↔
    (∃ bindings, op = .extend p bindings ∧ s = f.scopes.size) ∨ f.parent? s = some p)
    f op ?newRoot ?extend ?set ?update ?declare ?fails
  case newRoot =>
    rintro bindings rfl
    obtain ⟨hlinked, hparent⟩ := h.newRoot bindings
    exact hsame _ (fun _ _ heq => (by cases heq)) hlinked hparent
  case extend =>
    rintro q bindings rfl
    obtain ⟨hlinked, hnew, hold⟩ := h.extend (hop q rfl) bindings
    refine ⟨hlinked, fun s p => ?_⟩
    by_cases hs : s = f.scopes.size
    · rw [hs, hnew, parent?_size, Option.some.injEq]
      constructor
      · rintro rfl
        exact .inl ⟨bindings, rfl, rfl⟩
      · rintro (⟨_, heq, -⟩ | hp)
        · cases heq; rfl
        · cases hp
    · rw [hold s hs]
      exact (or_iff_right fun ⟨_, _, heq⟩ => hs heq).symm
  case set =>
    rintro s name a rfl -
    exact hsame _ (fun _ _ heq => (by cases heq)) (h.write s name a) (parent?_write f s · name a)
  case update =>
    rintro s t name a rfl -
    exact hsame _ (fun _ _ heq => (by cases heq)) (h.write t name a) (parent?_write f t · name a)
  case declare =>
    rintro s name constructors f' rfl hdeclare
    have hscopes := scopes_of_declare hdeclare
    have hpath := path_congr hscopes
    exact hsame _ (fun _ _ heq => (by cases heq))
      (h.of_path_eq (congrArg Array.size hscopes) hpath) (parent?_congr hpath)
  case fails =>
    intro e he
    refine hsame _ ?_ h fun _ => rfl
    rintro s bindings rfl
    cases he

/-- A name means in a scope what it is bound to there, or else what it means in the `parent?`. -/
theorem IsLinked.get?_eq (h : f.IsLinked) {s : ScopeId} (hs : s < f.scopes.size) (name : String) :
    f.get? s name = ((f.bindings s).get? name).or ((f.parent? s).bind (f.get? · name)) := by
  rw [get?, h.path_eq s hs, List.findSome?_cons]
  cases (f.bindings s).get? name with
  | some a => rfl
  | none =>
    cases f.parent? s with
    | none => rfl
    | some p => rfl

/-- The `owner?` of a name is the scope itself, or else the one from the parent. -/
theorem IsLinked.owner?_eq (h : f.IsLinked) {s : ScopeId} (hs : s < f.scopes.size) (name : String) :
    f.owner? s name =
      if (f.bindings s).contains name = true then some s
      else (f.parent? s).bind (f.owner? · name) := by
  rw [owner?, h.path_eq s hs, List.find?_cons]
  cases (f.bindings s).contains name with
  | true => rfl
  | false =>
    cases f.parent? s with
    | none => rfl
    | some p => rfl

/-- Induction along the tree: what holds of a scope if it holds of its `parent?` holds of all. -/
theorem IsLinked.induction (h : f.IsLinked) {motive : ScopeId → Prop}
    (step : ∀ s < f.scopes.size, (∀ p, f.parent? s = some p → motive p) → motive s) :
    ∀ s < f.scopes.size, motive s := by
  intro s
  induction s using Nat.strongRecOn with
  | _ s ih =>
    intro hs
    exact step s hs fun p hp => ih p (h.parent_lt s p hp) (h.parent_lt_size hp)

end Tree

end Forest

/-! ### Histories -/

/-- What has been asked of a forest so far, the last operation in front. -/
abbrev History (α : Type) :=
  List (Forest.Operation α)

namespace History

open Forest (Operation)

/-- The forest that a history leads to, starting with nothing. -/
def forest : History α → Forest α
  | [] => {}
  | op :: h => (forest h).after op

/-- All operations were asked for in scopes that there were. -/
def IsPossible : History α → Prop
  | [] => True
  | op :: h => IsPossible h ∧ ∀ s ∈ op.scope?, s < (forest h).scopes.size

/-- The scope `s` was made inside the scope `p`. -/
inductive Parent : History α → ScopeId → ScopeId → Prop
  | made {h : History α} {p : ScopeId} {bindings : Table α} :
    Parent (.extend p bindings :: h) (forest h).scopes.size p
  | earlier {h : History α} {op : Operation α} {s p : ScopeId} (hparent : Parent h s p) :
    Parent (op :: h) s p

/-- Both scopes stand at or below one scope. -/
def SameTree (h : History α) (s t : ScopeId) : Prop :=
  ∃ r, Relation.ReflTransGen h.Parent s r ∧ Relation.ReflTransGen h.Parent t r

theorem parent_cons {h : History α} {op : Operation α} {s p : ScopeId} :
    Parent (op :: h) s p ↔
      (∃ bindings, op = .extend p bindings ∧ s = h.forest.scopes.size) ∨ h.Parent s p := by
  constructor
  · intro hp
    cases hp with
    | made => exact .inl ⟨_, rfl, rfl⟩
    | earlier hp => exact .inr hp
  · rintro (⟨bindings, rfl, rfl⟩ | hp)
    · exact .made
    · exact .earlier hp

/-- The forest of a history `IsLinked`, and it knows the parents of its scopes. -/
theorem isLinked_and_parent_iff {h : History α} (hpossible : h.IsPossible) :
    h.forest.IsLinked ∧ ∀ s p, h.Parent s p ↔ h.forest.parent? s = some p := by
  induction h with
  | nil =>
    have hnone (s : ScopeId) : (forest ([] : History α)).parent? s = none := rfl
    refine ⟨⟨fun s hs => (by cases hs), fun s p hp => (by cases hp)⟩, fun s p => ?_⟩
    rw [hnone]
    exact iff_of_false (fun hp => (by cases hp)) (fun hp => (by cases hp))
  | cons op h ih =>
    obtain ⟨hbefore, hop⟩ := hpossible
    obtain ⟨hlinked, hparent⟩ := ih hbefore
    obtain ⟨hlinked', hparent'⟩ := hlinked.after op hop
    refine ⟨hlinked', fun s p => ?_⟩
    rw [parent_cons, hparent]
    exact (hparent' s p).symm

theorem isLinked {h : History α} (hpossible : h.IsPossible) : h.forest.IsLinked :=
  (isLinked_and_parent_iff hpossible).1

/-- The forest of a history knows the parents of its scopes: `Parent` is read from the operations,
`parent?` from the forest. -/
theorem parent_iff {h : History α} (hpossible : h.IsPossible) {s p : ScopeId} :
    h.Parent s p ↔ h.forest.parent? s = some p :=
  (isLinked_and_parent_iff hpossible).2 s p

theorem parent_eq {h : History α} (hpossible : h.IsPossible) :
    h.Parent = fun s p => h.forest.parent? s = some p :=
  funext fun _ => funext fun _ => propext (parent_iff hpossible)

end History

end Casewise

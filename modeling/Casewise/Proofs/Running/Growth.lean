import Mathlib.Data.Nat.Notation
import Mathlib.Logic.Relation
import Casewise.Proofs.Outcome
import Casewise.Running.Evaluate

/-!
# What evaluating leaves as it is

Evaluating an expression makes new scopes and adds to the record, and this is all it does to a
machine, whether it comes to a result or not. Scopes that were there keep their names and values, no
data type is declared, and nothing is printed. This holds of every expression and every machine, and
so of everything that happens on the way to a result.

All of this follows from the parts that evaluating is made of. They are gone through once, form of
expression by form of expression, and whatever is true of each part is true of evaluating.

## Main definitions

* `Machine.Grows`: machines that differ by new scopes and the record only.
* `Machine.Adds`: one step of evaluating.
* `Run.Takes`: running by steps of one kind.
* `Run.Elementary`: running that is made of the parts that evaluating is made of.
* `Machine.MeetsWhileEvaluating`: the machines that evaluations lead to, one after the other.

## Main statements

* `elementary_evaluate`, `takes_evaluate`: the parts that evaluating is made of, and the steps that
  it takes.
* `onlyAdds_evaluate`: evaluating only adds scopes.
* `Machine.MeetsWhileEvaluating.grows`: nothing that was there changes while expressions are
  evaluated.
-/

namespace Casewise

/-! ### Growing machines -/

/-- The later machine has more scopes and a longer record at most. -/
structure Machine.Grows (m m' : Machine) : Prop where
  /-- The scopes that were there are as they were. -/
  getElem?_eq : ∀ s < m.scopes.scopes.size, m'.scopes.scopes[s]? = m.scopes.scopes[s]?
  /-- The declared data types are the same. -/
  registries : m'.scopes.registries = m.scopes.registries
  /-- The printed lines are the same. -/
  output : m'.output = m.output

namespace Machine.Grows

variable {m m' m'' : Machine}

/-- A machine `Grows` by nothing. -/
theorem of_scopes_eq (hscopes : m'.scopes = m.scopes) (houtput : m'.output = m.output) :
    m.Grows m' where
  getElem?_eq s _ := by rw [hscopes]
  registries := by rw [hscopes]
  output := houtput

theorem lt_size (h : m.Grows m') {s : ScopeId} (hs : s < m.scopes.scopes.size) :
    s < m'.scopes.scopes.size := by
  have hscope := h.getElem?_eq s hs
  rw [Array.getElem?_eq_getElem hs] at hscope
  obtain ⟨hs', -⟩ := Array.getElem?_eq_some_iff.mp hscope
  exact hs'

theorem trans (h : m.Grows m') (h' : m'.Grows m'') : m.Grows m'' where
  getElem?_eq s hs := (h'.getElem?_eq s (h.lt_size hs)).trans (h.getElem?_eq s hs)
  registries := h'.registries.trans h.registries
  output := h'.output.trans h.output

theorem bindings_eq (h : m.Grows m') {s : ScopeId} (hs : s < m.scopes.scopes.size) :
    m'.scopes.bindings s = m.scopes.bindings s := by
  rw [Forest.bindings, Forest.bindings, h.getElem?_eq s hs]

theorem registry_eq (h : m.Grows m') {s : ScopeId} (hs : s < m.scopes.scopes.size) :
    m'.scopes.registry s = m.scopes.registry s := by
  rw [Forest.registry, Forest.registry, h.getElem?_eq s hs, h.registries]

theorem path_eq (h : m.Grows m') {s : ScopeId} (hs : s < m.scopes.scopes.size) :
    m'.scopes.path s = m.scopes.path s := by
  rw [Forest.path, Forest.path, h.getElem?_eq s hs]

end Machine.Grows

/-! ### Running by steps -/

/-- However it ends, running takes steps of the kind `step` only. -/
def Run.Takes {α : Type} (step : Machine → Machine → Prop) (x : Run α) : Prop :=
  ∀ m : Machine, Relation.ReflTransGen step m (outcome x m).2

namespace Run.Takes

variable {α β : Type} {step step' : Machine → Machine → Prop}

theorem pure (a : α) : (Pure.pure a : Run α).Takes step :=
  fun _ => .refl

theorem stop (stop : Stop) : (throw stop : Run α).Takes step :=
  fun _ => .refl

theorem fail (cause : Cause) (span : Option Span) : (Run.fail cause span : Run α).Takes step :=
  Takes.stop _

theorem withScopes (f : Forest Value → α) : (Run.withScopes f).Takes step :=
  fun _ => .refl

theorem ofExcept (r : Except LangError α) : (Run.ofExcept r).Takes step :=
  fun _ => .refl

/-- An update of the scopes takes the step that it makes of them, or none if it fails. -/
theorem update {f : Forest Value → Except LangError (Forest Value)}
    (h : ∀ (m : Machine) scopes, f m.scopes = .ok scopes → step m { m with scopes }) :
    (Run.update f).Takes step := by
  intro m
  rw [Run.update, outcome_bind_of_ok (outcome_get m)]
  cases hf : f m.scopes with
  | error e => exact .refl
  | ok scopes => exact .single (h m scopes hf)

/-- A declaration takes the step that replaces the scopes by what it leaves. -/
theorem declare {s : ScopeId} {name : String} {constructors : List (String × List Ty)}
    (h : ∀ (m : Machine) r scopes,
      outcome (Forest.declare s name constructors) m.scopes = (r, scopes) →
        step m { m with scopes }) :
    (Run.declare s name constructors).Takes step :=
  fun m => .single (h m _ _ (Prod.ext rfl rfl))

theorem bind {x : Run α} {f : α → Run β} (hx : x.Takes step) (hf : ∀ a, (f a).Takes step) :
    (x >>= f).Takes step :=
  rel_outcome_bind (Relation.ReflTransGen step) .trans hx hf

theorem located {x : Run α} (h : x.Takes step) (span : Option Span) :
    (Run.located span x).Takes step := by
  intro m
  change Relation.ReflTransGen step m (outcome (ExceptT.adapt (Stop.placedAt span) x) m).2
  rw [outcome_adapt]
  exact h m

theorem forM {f : α → Run PUnit} (h : ∀ a, (f a).Takes step) (as : List α) :
    (as.forM f).Takes step :=
  forM_closed pure bind h as

theorem mono {x : Run α} (h : x.Takes step) (hstep : ∀ m m', step m m' → step' m m') :
    x.Takes step' :=
  fun m => Relation.ReflTransGen.mono hstep _ _ (h m)

/-- What every step of `Takes` preserves holds after running if it has held before. -/
theorem preserves {x : Run α} (h : x.Takes step) (P : Machine → Prop)
    (hstep : ∀ m m', step m m' → P m → P m') {m : Machine} (hm : P m) : P (outcome x m).2 := by
  have hall : ∀ m', Relation.ReflTransGen step m m' → P m' := by
    intro m' hsteps
    induction hsteps with
    | refl => exact hm
    | tail _ hlast ih => exact hstep _ _ hlast ih
  exact hall _ (h m)

end Run.Takes

/-! ### Running that only adds scopes -/

/-- What evaluating does to a machine in one step. -/
inductive Machine.Adds (m : Machine) : Machine → Prop
  /-- A new scope is made, for the body of a function or for a branch. -/
  | extend (s : ScopeId) (bound : Table Value) : m.Adds (outcome (Run.extend s bound) m).2
  | log (event : Event) : m.Adds (m.log event)

/-- A machine with another scope `Grows`, since the scope stands behind the others. -/
theorem Machine.Grows.extend (m : Machine) (s : ScopeId) (bound : Table Value) :
    m.Grows (outcome (Run.extend s bound) m).2 where
  getElem?_eq t ht := by
    change (m.scopes.scopes.push _)[t]? = m.scopes.scopes[t]?
    rw [Array.getElem?_push, if_neg (Nat.ne_of_lt ht)]
  registries := rfl
  output := rfl

/-- `Machine.Adds`, which holds of each step of evaluating, implies `Machine.Grows`. -/
theorem Machine.Adds.grows {m m' : Machine} (h : m.Adds m') : m.Grows m' := by
  cases h with
  | extend s bound => exact .extend m s bound
  | log event => exact .of_scopes_eq rfl rfl

/-- However it ends, running adds scopes and entries of the record at most. -/
def Run.OnlyAdds {α : Type} (x : Run α) : Prop :=
  ∀ m : Machine, m.Grows (outcome x m).2

namespace Run.OnlyAdds

variable {α : Type}

theorem of_takes {x : Run α} (h : x.Takes Machine.Adds) : x.OnlyAdds := by
  intro m
  have hgrows : m.Grows m := .of_scopes_eq rfl rfl
  exact h.preserves m.Grows (fun _ _ hstep hm => hm.trans hstep.grows) hgrows

theorem fail (cause : Cause) (span : Option Span) : (Run.fail cause span : Run α).OnlyAdds :=
  of_takes (.fail cause span)

theorem log (event : Event) : (Run.log event).OnlyAdds :=
  fun _ => .of_scopes_eq rfl rfl

theorem withScopes (f : Forest Value → α) : (Run.withScopes f).OnlyAdds :=
  of_takes (.withScopes f)

theorem ofExcept (r : Except LangError α) : (Run.ofExcept r).OnlyAdds :=
  of_takes (.ofExcept r)

end Run.OnlyAdds

/-! ### Evaluating -/

/-- Running that is made of the parts that evaluating is made of: it looks at the scopes, makes new
ones, adds to the record and stops, and does all of this in turn. -/
inductive Run.Elementary : {α : Type} → Run α → Prop
  | pure {α : Type} (a : α) : Elementary (Pure.pure a : Run α)
  | stop {α : Type} (stop : Stop) : Elementary (throw stop : Run α)
  | withScopes {α : Type} (f : Forest Value → α) : Elementary (Run.withScopes f)
  | ofExcept {α : Type} (r : Except LangError α) : Elementary (Run.ofExcept r)
  /-- A new scope, for the body of a function or for a branch. -/
  | extend (s : ScopeId) (bound : Table Value) : Elementary (Run.extend s bound)
  | log (event : Event) : Elementary (Run.log event)
  | bind {α β : Type} {x : Run α} {f : α → Run β} (hx : Elementary x)
    (hf : ∀ a, Elementary (f a)) : Elementary (x >>= f)
  | located {α : Type} {x : Run α} (h : Elementary x) (span : Option Span) :
    Elementary (Run.located span x)

namespace Run.Elementary

variable {α β : Type}

theorem fail (cause : Cause) (span : Option Span) : (Run.fail cause span : Run α).Elementary :=
  Elementary.stop _

theorem mapM {f : α → Run β} (h : ∀ a, (f a).Elementary) (as : List α) :
    (as.mapM f).Elementary :=
  mapM_closed pure bind fun a _ => h a

/-- An `Elementary` run `Takes` the steps of evaluating. -/
theorem takes {x : Run α} (h : x.Elementary) : x.Takes Machine.Adds := by
  induction h with
  | pure a => exact .pure a
  | stop stop => exact .stop stop
  | withScopes f => exact .withScopes f
  | ofExcept r => exact .ofExcept r
  | extend s bound => exact fun _ => .single (.extend s bound)
  | log event => exact fun _ => .single (.log event)
  | bind _ _ ihx ihf => exact .bind ihx ihf
  | located _ span ih => exact ih.located span

end Run.Elementary

namespace Evaluator

variable {recur : Evaluator}

theorem elementary_truth (what : String) (span : Option Span) (v : Value) :
    (truth what span v).Elementary := by
  cases v with
  | boolean b => exact .pure b
  | _ => exact .fail _ _

theorem elementary_binary (op : BinaryOp) (left right : Value) (span : Option Span) :
    (binary op left right span).Elementary := by
  unfold binary
  split
  · split
    · exact .pure _
    · exact .fail _ _
  · refine .bind (elementary_truth _ _ _) fun a => .bind (elementary_truth _ _ _) fun b => ?_
    split
    · exact .pure _
    · exact .pure _
    · exact .pure _
    · exact .stop _

/-- `call` is `Elementary` if evaluating function bodies is. -/
theorem elementary_call (h : ∀ s e, (recur s e).Elementary) (f : Value) (args : List Value)
    (head : Expr) (span : Option Span) : (call recur f args head span).Elementary := by
  unfold call
  split
  · split
    · exact .bind (.extend _ _) fun inner => h inner _
    · exact .fail _ _
  · exact .ofExcept _
  · exact .bind (.ofExcept _) fun _ => .pure _
  · exact .fail _ _

theorem elementary_construct (s : ScopeId) (name : String) (fields : List Value)
    (span : Option Span) : (construct s name fields span).Elementary := by
  refine .bind (.withScopes _) fun R => ?_
  split
  · exact .fail _ _
  · split
    · exact .fail _ _
    · exact .pure _

/-- `select` is `Elementary` if evaluating branches is. -/
theorem elementary_select (h : ∀ s e, (recur s e).Elementary) (s : ScopeId) (subject : Value)
    (span : Option Span) (ps : List Pattern) (branches : List Expr) :
    (select recur s subject span ps branches).Elementary := by
  induction ps generalizing branches with
  | nil => exact .fail _ _
  | cons p ps ih =>
    cases branches with
    | nil => exact .fail _ _
    | cons branch branches =>
      refine .bind (.withScopes _) fun R => .bind (.ofExcept _) fun bindings => ?_
      refine .bind (.log _) fun _ => ?_
      cases bindings with
      | none => exact ih branches
      | some bound => exact .bind (.extend s bound) fun inner => h inner branch

/-- `step`, the rule for each form of expression, is `Elementary` if evaluating the others is. -/
theorem elementary_step (h : ∀ s e, (recur s e).Elementary) (s : ScopeId) (e : Expr) :
    (step recur s e).Elementary := by
  cases e with
  | number value span => exact .pure _
  | boolean value span => exact .pure _
  | var name span =>
    refine .bind (.withScopes _) fun found => ?_
    cases found with
    | some value => exact .pure value
    | none =>
      dsimp only
      split
      · exact .pure _
      · exact .fail _ _
  | not operand span =>
    exact .bind (h s operand) fun v => .bind (elementary_truth _ _ v) fun b => .pure _
  | binary op left right span =>
    exact .bind (h s left) fun a => .bind (h s right) fun b => elementary_binary op a b span
  | cond condition thenBranch elseBranch span =>
    refine .bind (h s condition) fun v => .bind (elementary_truth _ _ v) fun b => ?_
    cases b with
    | true => exact h s thenBranch
    | false => exact h s elseBranch
  | lambda param paramTy body span => exact .pure _
  | app head args span =>
    refine .bind (h s head) fun f => .bind (.mapM (h s) args) fun values => ?_
    exact elementary_call h f values head span
  | pair first second span =>
    exact .bind (h s first) fun a => .bind (h s second) fun b => .pure _
  | fst operand span =>
    refine .bind (h s operand) fun v => ?_
    cases v with
    | pair a b => exact .pure a
    | _ => exact .fail _ _
  | snd operand span =>
    refine .bind (h s operand) fun v => ?_
    cases v with
    | pair a b => exact .pure b
    | _ => exact .fail _ _
  | construct name args span =>
    exact .bind (.mapM (h s) args) fun fields => elementary_construct s name fields span
  | cases scrutinee patterns branches span =>
    refine .bind (h s scrutinee) fun subject => ?_
    split
    · exact .fail _ _
    · exact elementary_select h s subject span patterns branches

end Evaluator

/-- `evaluate` is made of such parts, whatever the expression and the scope are. -/
theorem elementary_evaluate (depth : ℕ) (s : ScopeId) (e : Expr) :
    (evaluate depth s e).Elementary := by
  induction depth generalizing s e with
  | zero => exact .stop .tooDeep
  | succ depth ih =>
    refine .bind (.log _) fun _ => ?_
    exact (Evaluator.elementary_step ih s e).located e.span

/-- Each step of `evaluate` is one of `Machine.Adds`: it makes a scope or records an event. -/
theorem takes_evaluate (depth : ℕ) (s : ScopeId) (e : Expr) :
    (evaluate depth s e).Takes Machine.Adds :=
  (elementary_evaluate depth s e).takes

/-- `evaluate` only adds scopes, whatever the expression, the scope and the machine are. -/
theorem onlyAdds_evaluate (depth : ℕ) (s : ScopeId) (e : Expr) : (evaluate depth s e).OnlyAdds :=
  .of_takes (takes_evaluate depth s e)

/-- The machines that may be met while expressions are evaluated, beginning with `m`. Each comes
from the one before by a new scope, an entry of the record, or evaluating an expression to its
end. -/
inductive Machine.MeetsWhileEvaluating (m : Machine) : Machine → Prop
  | refl : m.MeetsWhileEvaluating m
  /-- The machine with another scope, for the body of a function or for a branch. -/
  | extend {m' : Machine} (h : m.MeetsWhileEvaluating m') (s : ScopeId) (bound : Table Value) :
    m.MeetsWhileEvaluating (outcome (Run.extend s bound) m').2
  /-- The machine with another entry in its record. -/
  | log {m' : Machine} (h : m.MeetsWhileEvaluating m') (event : Event) :
    m.MeetsWhileEvaluating (m'.log event)
  /-- The machine after evaluating an expression, whether there is a value or not. -/
  | evaluate {m' : Machine} (h : m.MeetsWhileEvaluating m') (depth : ℕ) (s : ScopeId) (e : Expr) :
    m.MeetsWhileEvaluating (outcome (Casewise.evaluate depth s e) m').2

/-- Nothing that was there changes while expressions are evaluated: `MeetsWhileEvaluating` implies
`Grows`. -/
theorem Machine.MeetsWhileEvaluating.grows {m m' : Machine} (h : m.MeetsWhileEvaluating m') :
    m.Grows m' := by
  induction h with
  | refl => exact .of_scopes_eq rfl rfl
  | extend _ s bound ih => exact ih.trans (.extend _ s bound)
  | log _ event ih => exact ih.trans (.of_scopes_eq rfl rfl)
  | evaluate _ depth s e ih => exact ih.trans (onlyAdds_evaluate depth s e _)

end Casewise

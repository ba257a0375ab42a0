import Casewise.Proofs.Outcome
import Casewise.Proofs.Pattern.Fit
import Casewise.Proofs.Table

/-!
# Matching inside a kind of things

A kind of things is closed if the components of a pair of the kind are of the kind, and the fields
of what a declared constructor has built as well, one for each field it is declared with. Matching a
thing of such a kind binds things of the kind only, and it fails in three ways only: a constructor
is not declared, a name is bound already, or a pattern has not as many parts as its constructor is
declared with. A further test, whether there are as many fields as parts, is always passed.

## Main definitions

* `Table.All`: everything that the names of a table mean is of a kind.
* `Subject.Closed`: closed kinds.
* `Cause.OfMatching`: the causes for which matching fails.

## Main statements

* `Pattern.fit_closed`: matching stays in a closed kind.
* `Pattern.bindings?_closed`: the same of what a pattern finds.
-/

namespace Casewise

variable {σ : Type}

/-- Everything that a name of the table means is of the kind `P`. -/
def Table.All (P : σ → Prop) (t : Table σ) : Prop :=
  ∀ name a, t.get? name = some a → P a

namespace Table.All

variable {P P' : σ → Prop} {t : Table σ}

theorem empty : (∅ : Table σ).All P := by
  intro name a h
  rw [Table.get?_empty] at h
  cases h

theorem insert (h : t.All P) {a : σ} (ha : P a) (name : String) : (t.insert name a).All P := by
  intro other b hb
  rw [Table.get?_insert] at hb
  split at hb
  · cases hb
    exact ha
  · exact h other b hb

theorem imp (h : t.All P) (hP : ∀ a, P a → P' a) : t.All P' :=
  fun name a ha => hP a (h name a ha)

end Table.All

/-- The parts of what is of the kind are of the kind, and there are as many fields as declared. -/
structure Subject.Closed [Subject σ] (R : Registry) (P : σ → Prop) : Prop where
  /-- The components of a pair. -/
  components : ∀ {s a b}, P s → components? s = some (a, b) → P a ∧ P b
  /-- The fields of what a constructor has built. -/
  fields : ∀ {s name info fields}, P s → R.constructor? name = some info →
    fields? s info = some fields → fields.length = info.arity ∧ ∀ x ∈ fields, P x

/-- The causes for which matching fails. -/
inductive Cause.OfMatching (R : Registry) : Cause → Prop
  | unboundName (name : String) : OfMatching R (.unboundName name)
  | redefinition (name : String) : OfMatching R (.redefinition name)
  /-- A pattern has not as many parts as its constructor is declared with. -/
  | arityMismatch {name : String} {info : ConstructorInfo} {got : Int}
    (hinfo : R.constructor? name = some info) (hgot : (info.arity : Int) ≠ got) :
    OfMatching R (.arityMismatch ("pattern '" ++ name ++ "'") info.arity got)

namespace Pattern

variable {R : Registry} {P : σ → Prop}

/-- Matching from the table stays in the kind: what it binds is of the kind, and it fails for the
causes of matching only. -/
def StaysIn (R : Registry) (P : σ → Prop) (x : Fitting σ Bool) : Prop :=
  ∀ t : Table σ, t.All P →
    (outcome x t).2.All P ∧ FailsOnly (fun e => e.cause.OfMatching R) (outcome x t).1

theorem StaysIn.pure (b : Bool) : StaysIn R P (pure b) :=
  fun _ ht => ⟨ht, .ok b⟩

theorem StaysIn.throw {e : LangError} (h : e.cause.OfMatching R) : StaysIn R P (throw e) :=
  fun _ ht => ⟨ht, .throw h⟩

theorem StaysIn.andThen {x y : Fitting σ Bool} (hx : StaysIn R P x) (hy : StaysIn R P y) :
    StaysIn R P (do if ← x then y else Pure.pure false) := by
  intro t ht
  have hfirst := hx t ht
  rw [outcome_andThen]
  rcases hout : outcome x t with ⟨e | b, t'⟩
  · rwa [hout] at hfirst
  · rw [hout] at hfirst
    cases b with
    | true => exact hy t' hfirst.1
    | false => exact ⟨hfirst.1, .ok false⟩

theorem StaysIn.bindName (name : String) {s : σ} (hs : P s) :
    StaysIn R P (do Fitting.bind name s; Pure.pure true) := by
  intro t ht
  rw [outcome_bindName]
  split
  · exact ⟨ht, .throw (.redefinition name)⟩
  · exact ⟨ht.insert hs name, .ok true⟩

variable [Subject σ]

mutual

/-- Matching a thing of a `Subject.Closed` kind stays in the kind. -/
theorem fit_closed (hP : Subject.Closed R P) :
    ∀ (p : Pattern) {s : σ}, P s → StaysIn R P (p.fit R s)
  | wildcard _, _, _ => .pure _
  | number .., _, _ => .pure _
  | boolean .., _, _ => .pure _
  | string .., _, _ => .pure _
  | binding name _, _, hs => .bindName name hs
  | pair first second _, s, hs => by
    rw [fit]
    cases hparts : Subject.components? s with
    | none => exact .pure _
    | some parts =>
      obtain ⟨a, b⟩ := parts
      obtain ⟨ha, hb⟩ := hP.components hs hparts
      exact .andThen (fit_closed hP first ha) (fit_closed hP second hb)
  | construct name args span, s, hs => by
    rw [fit]
    cases hinfo : R.constructor? name with
    | none => exact .throw (.unboundName name)
    | some info =>
      dsimp only
      split
      · next hcount =>
        refine .throw (.arityMismatch hinfo ?_)
        exact fun h => hcount (Int.ofNat_inj.mp h).symm
      · next hcount =>
        cases hfields : Subject.fields? s info with
        | none => exact .pure _
        | some fields =>
          obtain ⟨hlength, hfields⟩ := hP.fields hs hinfo hfields
          -- there are as many fields as declared, and so are the parts of the pattern
          have hsame : ¬ fields.length ≠ args.length := by
            rw [not_not] at hcount ⊢
            rw [hlength, hcount]
          dsimp only
          rw [if_neg hsame]
          exact fitAll_closed hP args hfields

theorem fitAll_closed (hP : Subject.Closed R P) :
    ∀ (ps : List Pattern) {ss : List σ}, (∀ s ∈ ss, P s) → StaysIn R P (fitAll R ps ss)
  | [], _, _ => .pure _
  | _ :: _, [], _ => .pure _
  | p :: ps, s :: ss, hss => by
    obtain ⟨hs, hss⟩ := List.forall_mem_cons.mp hss
    exact .andThen (fit_closed hP p hs) (fitAll_closed hP ps hss)

end

/-- What a pattern binds in a thing of a `Subject.Closed` kind is of the kind, and it fails for the
causes of matching only. -/
theorem bindings?_closed (hP : Subject.Closed R P) (p : Pattern) {s : σ} (hs : P s) :
    (∀ bound, p.bindings? R s = .ok (some bound) → bound.All P) ∧
      FailsOnly (fun e => e.cause.OfMatching R) (p.bindings? R s) := by
  obtain ⟨hbound, hfails⟩ := fit_closed hP p hs ∅ .empty
  constructor
  · intro bound h
    rw [bindings?_eq_some.mp h] at hbound
    exact hbound
  · intro e h
    rw [bindings?_eq] at h
    cases hfit : (outcome (p.fit R s) ∅).1 with
    | ok fits =>
      rw [hfit] at h
      cases h
    | error e' =>
      rw [hfit] at h
      cases h
      exact hfails e' hfit

end Pattern

end Casewise

import Mathlib.Data.List.Forall2
import Casewise.Proofs.Outcome

/-!
# Computations side by side

Two computations that look at things which differ in some respect often do the same, up to that
respect: they come to results that are related, or fail with errors that are related, and leave
states that are related. This is carried through a computation part by part, so that for a function
of the language it is enough to compare its parts.

## Main definitions

* `Alongside`: two results that are related.
* `Mirrors`: two stateful computations that come to related outcomes from related states.

## Main statements

* `Alongside.bind`, `Mirrors.bind`: sequences of related parts are related.
* `Mirrors.forM`, `Mirrors.mapM`: going through related lists.
-/

namespace Casewise

variable {ε ε' η η' σ τ α α' β β' : Type}

theorem forall₂_eq_map_iff {f : α → β} {as : List α} {bs : List β} :
    List.Forall₂ (fun a b => b = f a) as bs ↔ bs = as.map f := by
  induction as generalizing bs with
  | nil => cases bs <;> simp
  | cons a as ih => cases bs <;> simp [ih]

theorem forall₂_imp_of_mem {rel rel' : α → β → Prop} {as : List α} {bs : List β}
    (hrel : List.Forall₂ rel as bs) (h : ∀ a ∈ as, ∀ b, rel a b → rel' a b) :
    List.Forall₂ rel' as bs := by
  induction hrel with
  | nil => exact .nil
  | cons hab _ ih =>
    obtain ⟨ha, has⟩ := List.forall_mem_cons.mp h
    exact .cons (ha _ hab) (ih has)

/-- `mapM` has results if each member of the list has one. -/
theorem mapM_eq_ok {f : α → Except ε β} {as : List α} {bs : List β} :
    as.mapM f = .ok bs ↔ List.Forall₂ (fun a b => f a = .ok b) as bs := by
  induction as generalizing bs with
  | nil => cases bs <;> simp [pure, Except.pure]
  | cons a as ih => cases bs <;> simp [bind_eq_ok, pure, Except.pure, ih]

/-- What holds of everything related to a member of the left list holds of the right list. -/
theorem forall_mem_right {rel : α → β → Prop} {motive : β → Prop} {as : List α} {bs : List β}
    (h : List.Forall₂ rel as bs) (hrel : ∀ a ∈ as, ∀ b, rel a b → motive b) :
    ∀ b ∈ bs, motive b := by
  induction h with
  | nil => simp
  | cons hab _ ih =>
    rw [List.forall_mem_cons] at hrel ⊢
    exact ⟨hrel.1 _ hab, ih hrel.2⟩

/-! ### Results -/

/-- Both results are there and related by `rel`, or both are errors that are related by `err`. -/
inductive Alongside (err : ε → ε' → Prop) (rel : α → β → Prop) : Except ε α → Except ε' β → Prop
  | ok {a : α} {b : β} (h : rel a b) : Alongside err rel (.ok a) (.ok b)
  | error {e : ε} {e' : ε'} (h : err e e') : Alongside err rel (.error e) (.error e')

namespace Alongside

variable {err err₁ : ε → ε' → Prop} {err' : η → η' → Prop} {rel rel₁ : α → β → Prop}
  {rel' : α' → β' → Prop} {x : Except ε α} {y : Except ε' β}

theorem refl {err : ε → ε → Prop} (herr : ∀ e, err e e) (x : Except ε α) :
    Alongside err Eq x x := by
  cases x with
  | ok a => exact .ok rfl
  | error e => exact .error (herr e)

theorem imp (h : Alongside err rel x y) (herr : ∀ e e', err e e' → err₁ e e')
    (hrel : ∀ a b, rel a b → rel₁ a b) : Alongside err₁ rel₁ x y := by
  cases h with
  | ok h => exact .ok (hrel _ _ h)
  | error h => exact .error (herr _ _ h)

/-- Sequences are `Alongside` each other if their parts are. -/
theorem bind {f : α → Except ε α'} {g : β → Except ε' β'} (h : Alongside err rel x y)
    (hfg : ∀ a b, rel a b → Alongside err rel' (f a) (g b)) :
    Alongside err rel' (x >>= f) (y >>= g) := by
  cases h with
  | ok h => exact hfg _ _ h
  | error h => exact .error h

theorem map {f : α → α'} {g : β → β'} (h : Alongside err rel x y)
    (hfg : ∀ a b, rel a b → rel' (f a) (g b)) : Alongside err rel' (x.map f) (y.map g) := by
  cases h with
  | ok h => exact .ok (hfg _ _ h)
  | error h => exact .error h

theorem mapError {f : ε → η} {g : ε' → η'} (h : Alongside err rel x y)
    (hfg : ∀ e e', err e e' → err' (f e) (g e')) :
    Alongside err' rel (x.mapError f) (y.mapError g) := by
  cases h with
  | ok h => exact .ok h
  | error h => exact .error (hfg _ _ h)

/-- Checks with `forM` of related things are related. -/
theorem forM {R : α → β → Prop} {f : α → Except ε Unit} {g : β → Except ε' Unit} {as : List α}
    {bs : List β} (h : List.Forall₂ R as bs)
    (hfg : ∀ a b, R a b → Alongside err (fun _ _ => True) (f a) (g b)) :
    Alongside err (fun _ _ => True) (as.forM f) (bs.forM g) := by
  induction h with
  | nil => exact .ok trivial
  | cons hab _ ih => exact (hfg _ _ hab).bind fun _ _ _ => ih

/-- Results `Alongside` each other that are equal up to the translation `f` of errors. -/
theorem eq_mapError {f : ε → ε'} {x : Except ε α} {y : Except ε' α}
    (h : Alongside (fun e e' => e' = f e) Eq x y) : y = x.mapError f := by
  cases h with
  | ok h => rw [h]; rfl
  | error h => rw [h]; rfl

theorem eq {x y : Except ε α} (h : Alongside Eq Eq x y) : y = x := by
  cases h with
  | ok h => rw [h]
  | error h => rw [h]

end Alongside

/-! ### Stateful computations -/

/-- From related states both computations come to related results and leave related states. -/
def Mirrors (err : ε → ε' → Prop) (S : σ → τ → Prop) (rel : α → β → Prop)
    (x : ExceptT ε (StateM σ) α) (y : ExceptT ε' (StateM τ) β) : Prop :=
  ∀ s t, S s t → Alongside err rel (outcome x s).1 (outcome y t).1 ∧
    S (outcome x s).2 (outcome y t).2

namespace Mirrors

variable {err err₁ : ε → ε' → Prop} {err' : η → η' → Prop} {S : σ → τ → Prop}
  {rel rel₁ : α → β → Prop} {rel' : α' → β' → Prop} {x : ExceptT ε (StateM σ) α}
  {y : ExceptT ε' (StateM τ) β}

theorem imp (h : Mirrors err S rel x y) (herr : ∀ e e', err e e' → err₁ e e')
    (hrel : ∀ a b, rel a b → rel₁ a b) : Mirrors err₁ S rel₁ x y :=
  fun s t hs => ⟨(h s t hs).1.imp herr hrel, (h s t hs).2⟩

theorem pure {a : α} {b : β} (h : rel a b) :
    Mirrors err S rel (Pure.pure a : ExceptT ε (StateM σ) α)
      (Pure.pure b : ExceptT ε' (StateM τ) β) :=
  fun _ _ hs => ⟨.ok h, hs⟩

theorem throw {e : ε} {e' : ε'} (h : err e e') :
    Mirrors err S rel (MonadExcept.throw e : ExceptT ε (StateM σ) α)
      (MonadExcept.throw e' : ExceptT ε' (StateM τ) β) :=
  fun _ _ hs => ⟨.error h, hs⟩

theorem mk_pure {r : Except ε α} {r' : Except ε' β} (h : Alongside err rel r r') :
    Mirrors err S rel (ExceptT.mk (Pure.pure r) : ExceptT ε (StateM σ) α)
      (ExceptT.mk (Pure.pure r') : ExceptT ε' (StateM τ) β) :=
  fun _ _ hs => ⟨h, hs⟩

theorem get : Mirrors err S S (getThe σ : ExceptT ε (StateM σ) σ)
    (getThe τ : ExceptT ε' (StateM τ) τ) :=
  fun _ _ hs => ⟨.ok hs, hs⟩

theorem set {s : σ} {t : τ} (h : S s t) :
    Mirrors err S (fun _ _ => True) (MonadStateOf.set s : ExceptT ε (StateM σ) PUnit)
      (MonadStateOf.set t : ExceptT ε' (StateM τ) PUnit) :=
  fun _ _ _ => ⟨.ok trivial, h⟩

theorem modify {f : σ → σ} {g : τ → τ} (h : ∀ s t, S s t → S (f s) (g t)) :
    Mirrors err S (fun _ _ => True) (modify f : ExceptT ε (StateM σ) PUnit)
      (modify g : ExceptT ε' (StateM τ) PUnit) :=
  fun s t hs => ⟨.ok trivial, h s t hs⟩

/-- `ExceptT.onPart` keeps `Mirrors`, if the parts determine the states. -/
theorem onPart {σ' τ' : Type} {S' : σ' → τ' → Prop} {x : ExceptT ε (StateM σ') α}
    {y : ExceptT ε' (StateM τ') β} (h : Mirrors err S' rel x y) {get : σ → σ'} {put : σ → σ' → σ}
    {get' : τ → τ'} {put' : τ → τ' → τ} (hget : ∀ s t, S s t → S' (get s) (get' t))
    (hput : ∀ s t s' t', S s t → S' s' t' → S (put s s') (put' t t')) :
    Mirrors err S rel (onPart get put x) (onPart get' put' y) := by
  intro s t hs
  obtain ⟨hr, hs'⟩ := h (get s) (get' t) (hget s t hs)
  exact ⟨hr, hput s t _ _ hs hs'⟩

/-- Sequences mirror each other if their parts do: `Mirrors` is closed under `>>=`. -/
theorem bind {f : α → ExceptT ε (StateM σ) α'} {g : β → ExceptT ε' (StateM τ) β'}
    (h : Mirrors err S rel x y) (hfg : ∀ a b, rel a b → Mirrors err S rel' (f a) (g b)) :
    Mirrors err S rel' (x >>= f) (y >>= g) := by
  intro s t hs
  obtain ⟨hr, hs'⟩ := h s t hs
  rw [outcome_bind, outcome_bind]
  rcases hx : outcome x s with ⟨r, s'⟩
  rcases hy : outcome y t with ⟨r', t'⟩
  rw [hx, hy] at hr hs'
  cases hr with
  | ok hab => exact hfg _ _ hab s' t' hs'
  | error he => exact ⟨.error he, hs'⟩

theorem adapt {f : ε → η} {g : ε' → η'} (h : Mirrors err S rel x y)
    (hfg : ∀ e e', err e e' → err' (f e) (g e')) :
    Mirrors err' S rel (ExceptT.adapt f x) (ExceptT.adapt g y) := by
  intro s t hs
  rw [outcome_adapt, outcome_adapt]
  exact ⟨(h s t hs).1.mapError hfg, (h s t hs).2⟩

/-- `Mirrors` along `forM` of related lists. -/
theorem forM {R : α → β → Prop} {f : α → ExceptT ε (StateM σ) Unit}
    {g : β → ExceptT ε' (StateM τ) Unit} {as : List α} {bs : List β} (h : List.Forall₂ R as bs)
    (hfg : ∀ a b, R a b → Mirrors err S (fun _ _ => True) (f a) (g b)) :
    Mirrors err S (fun _ _ => True) (as.forM f) (bs.forM g) := by
  induction h with
  | nil => exact pure trivial
  | cons hab _ ih => exact (hfg _ _ hab).bind fun _ _ _ => ih

theorem foldlM {γ : Type} {f : α → γ → ExceptT ε (StateM σ) α} {g : β → γ → ExceptT ε' (StateM τ) β}
    (hfg : ∀ a b c, rel a b → Mirrors err S rel (f a c) (g b c)) (cs : List γ) {a : α} {b : β}
    (hab : rel a b) : Mirrors err S rel (cs.foldlM f a) (cs.foldlM g b) := by
  induction cs generalizing a b with
  | nil => exact pure hab
  | cons c cs ih =>
    rw [List.foldlM_cons, List.foldlM_cons]
    exact (hfg a b c hab).bind fun _ _ => ih

/-- `Mirrors` along `mapM` of related lists, which gives related lists of results. -/
theorem mapM {R : α → β → Prop} {f : α → ExceptT ε (StateM σ) α'}
    {g : β → ExceptT ε' (StateM τ) β'} {as : List α} {bs : List β} (h : List.Forall₂ R as bs)
    (hfg : ∀ a b, R a b → Mirrors err S rel' (f a) (g b)) :
    Mirrors err S (List.Forall₂ rel') (as.mapM f) (bs.mapM g) := by
  induction h with
  | nil => exact pure .nil
  | cons hab _ ih =>
    rw [List.mapM_cons, List.mapM_cons]
    refine (hfg _ _ hab).bind fun a' b' hab' => ?_
    exact ih.bind fun as' bs' has' => pure (.cons hab' has')

end Mirrors

end Casewise

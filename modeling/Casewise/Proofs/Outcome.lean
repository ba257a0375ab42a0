import Casewise.Running.Machine

/-!
# Outcomes of stateful computations

Reading, checking, matching and running all are computations that carry a state along and may stop
early, and what the state holds by then stays. `outcome` is the one view of such a computation that
statements about it use: its result together with the state it leaves.

## Main statements

* `outcome_bind_of_ok`, `outcome_bind_of_error`: a sequence goes on after a result and stops after
  an error.
* `outcome_bind_eq_ok`: what a sequence that succeeds has done.
-/

namespace Casewise

variable {ε σ α β : Type}

/-- The result of a computation that starts in the state `s`, and the state it leaves. -/
def outcome (x : ExceptT ε (StateM σ) α) (s : σ) : Except ε α × σ :=
  x.run.run s

@[simp]
theorem outcome_pure (a : α) (s : σ) :
    outcome (pure a : ExceptT ε (StateM σ) α) s = (.ok a, s) :=
  rfl

@[simp]
theorem outcome_throw (e : ε) (s : σ) :
    outcome (throw e : ExceptT ε (StateM σ) α) s = (.error e, s) :=
  rfl

@[simp]
theorem outcome_get (s : σ) : outcome (getThe σ : ExceptT ε (StateM σ) σ) s = (.ok s, s) :=
  rfl

@[simp]
theorem outcome_set (s s' : σ) :
    outcome (set s' : ExceptT ε (StateM σ) PUnit) s = (.ok ⟨⟩, s') :=
  rfl

@[simp]
theorem outcome_modify (f : σ → σ) (s : σ) :
    outcome (modify f : ExceptT ε (StateM σ) PUnit) s = (.ok ⟨⟩, f s) :=
  rfl

@[simp]
theorem outcome_adapt {ε' : Type} (f : ε → ε') (x : ExceptT ε (StateM σ) α) (s : σ) :
    outcome (ExceptT.adapt f x) s = ((outcome x s).1.mapError f, (outcome x s).2) :=
  rfl

/-- `onPart` ends as the computation does on the part, and what that makes of the part is put
back. -/
theorem outcome_onPart_eq {τ : Type} {get : σ → τ} {put : σ → τ → σ} {x : ExceptT ε (StateM τ) α}
    {s s' : σ} {r : Except ε α} :
    outcome (onPart get put x) s = (r, s') ↔
      ∃ t, outcome x (get s) = (r, t) ∧ s' = put s t := by
  change ((outcome x (get s)).1, put s (outcome x (get s)).2) = (r, s') ↔ _
  rcases outcome x (get s) with ⟨r', t⟩
  constructor
  · intro h
    cases h
    exact ⟨t, rfl, rfl⟩
  · rintro ⟨_, h, rfl⟩
    cases h
    rfl

theorem outcome_bind (x : ExceptT ε (StateM σ) α) (f : α → ExceptT ε (StateM σ) β) (s : σ) :
    outcome (x >>= f) s =
      match outcome x s with
      | (.ok a, s') => outcome (f a) s'
      | (.error e, s') => (.error e, s') := by
  simp only [outcome, ExceptT.run, bind, ExceptT.bind, ExceptT.mk, StateT.bind, StateT.run]
  cases x s with
  | mk r s' => cases r <;> rfl

/-- After a result, `x >>= f` is its second part. -/
theorem outcome_bind_of_ok {x : ExceptT ε (StateM σ) α} {a : α} {s s' : σ}
    (h : outcome x s = (.ok a, s')) (f : α → ExceptT ε (StateM σ) β) :
    outcome (x >>= f) s = outcome (f a) s' := by
  rw [outcome_bind, h]

/-- After an error, `x >>= f` stops. -/
theorem outcome_bind_of_error {x : ExceptT ε (StateM σ) α} {e : ε} {s s' : σ}
    (h : outcome x s = (.error e, s')) (f : α → ExceptT ε (StateM σ) β) :
    outcome (x >>= f) s = (.error e, s') := by
  rw [outcome_bind, h]

/-- `x >>= f` has a result if and only if `f` has it after one of `x`. -/
theorem outcome_bind_eq_ok {x : ExceptT ε (StateM σ) α} {f : α → ExceptT ε (StateM σ) β} {b : β}
    {s s'' : σ} :
    outcome (x >>= f) s = (.ok b, s'') ↔
      ∃ a s', outcome x s = (.ok a, s') ∧ outcome (f a) s' = (.ok b, s'') := by
  rw [outcome_bind]
  rcases outcome x s with ⟨_ | a, s'⟩
  · constructor
    · intro h
      cases h
    · rintro ⟨a, s', h, -⟩
      cases h
  · constructor
    · intro h
      exact ⟨a, s', rfl, h⟩
    · rintro ⟨a', s'', h, h'⟩
      cases h
      exact h'

/-- However it ends, `x >>= f` leaves a related state if both of its parts do. -/
theorem rel_outcome_bind (rel : σ → σ → Prop)
    (trans : ∀ {s s' s''}, rel s s' → rel s' s'' → rel s s'')
    {x : ExceptT ε (StateM σ) α} {f : α → ExceptT ε (StateM σ) β} (hx : ∀ s, rel s (outcome x s).2)
    (hf : ∀ a s, rel s (outcome (f a) s).2) (s : σ) : rel s (outcome (x >>= f) s).2 := by
  have hs := hx s
  rw [outcome_bind]
  rcases hout : outcome x s with ⟨e | a, s'⟩
  · rwa [hout] at hs
  · rw [hout] at hs
    exact trans hs (hf a s')

theorem outcome_forM_append_of_ok {f : α → ExceptT ε (StateM σ) Unit} {as bs : List α} {s s' : σ}
    {u : Unit} (h : outcome (as.forM f) s = (.ok u, s')) :
    outcome ((as ++ bs).forM f) s = outcome (bs.forM f) s' := by
  induction as generalizing s with
  | nil =>
    cases h
    rfl
  | cons a as ih =>
    rw [List.forM, outcome_bind_eq_ok] at h
    obtain ⟨u', s₁, ha, has⟩ := h
    rw [List.cons_append, List.forM, outcome_bind_of_ok ha]
    exact ih has

section Closed

variable {m : Type → Type} [Monad m] {P : {γ : Type} → m γ → Prop}

/-- What holds of `pure` and of sequences holds of `mapM`. -/
theorem mapM_closed [LawfulMonad m] (hpure : ∀ {γ : Type} (c : γ), P (pure c))
    (hbind : ∀ {γ δ : Type} {x : m γ} {f : γ → m δ}, P x → (∀ c, P (f c)) → P (x >>= f))
    {f : α → m β} {as : List α} (h : ∀ a ∈ as, P (f a)) : P (as.mapM f) := by
  induction as with
  | nil => exact hpure []
  | cons a as ih =>
    obtain ⟨ha, has⟩ := List.forall_mem_cons.mp h
    rw [List.mapM_cons]
    exact hbind ha fun b => hbind (ih has) fun bs => hpure (b :: bs)

/-- What holds of `pure` and of sequences holds of `forM`. -/
theorem forM_closed (hpure : ∀ {γ : Type} (c : γ), P (pure c))
    (hbind : ∀ {γ δ : Type} {x : m γ} {f : γ → m δ}, P x → (∀ c, P (f c)) → P (x >>= f))
    {f : α → m PUnit} (h : ∀ a, P (f a)) (as : List α) : P (as.forM f) := by
  induction as with
  | nil => exact hpure _
  | cons a as ih => exact hbind (h a) fun _ => ih

end Closed

/-- `x >>= f` has a result if `x` has one and `f` has one after it. -/
theorem bind_eq_ok {x : Except ε α} {f : α → Except ε β} {b : β} :
    x >>= f = .ok b ↔ ∃ a, x = .ok a ∧ f a = .ok b := by
  cases x with
  | error e => simp [bind, Except.bind]
  | ok a => simp [bind, Except.bind]

theorem exists_ok_of_map_toOption {x : Except ε α} {f : α → β} {b : β}
    (h : x.toOption.map f = some b) : ∃ a, x = .ok a ∧ f a = b := by
  cases x with
  | error e => cases h
  | ok a => exact ⟨a, rfl, Option.some.inj h⟩

theorem pure_eq_ok {a b : α} : (pure a : Except ε α) = .ok b ↔ b = a :=
  ⟨fun h => by cases h; rfl, fun h => by rw [h]; rfl⟩

theorem mapError_eq_ok {ε' : Type} {x : Except ε α} {f : ε → ε'} {a : α} :
    x.mapError f = .ok a ↔ x = .ok a := by
  cases x with
  | error e =>
    constructor
    · intro h
      cases h
    · intro h
      cases h
  | ok b =>
    constructor
    · intro h
      cases h
      rfl
    · intro h
      cases h
      rfl

/-! ### Errors -/

/-- If the computation fails, its error is one of `E`. -/
def FailsOnly (E : ε → Prop) (x : Except ε α) : Prop :=
  ∀ e, x = .error e → E e

namespace FailsOnly

variable {E : ε → Prop}

theorem ok (a : α) : FailsOnly E (.ok a : Except ε α) := by
  intro e h
  cases h

theorem throw {e : ε} (h : E e) : FailsOnly E (throw e : Except ε α) := by
  intro e' h'
  cases h'
  exact h

theorem bind {x : Except ε α} {f : α → Except ε β} (hx : FailsOnly E x)
    (hf : ∀ a, x = .ok a → FailsOnly E (f a)) : FailsOnly E (x >>= f) := by
  intro e h
  cases x with
  | error e' =>
    cases h
    exact hx e rfl
  | ok a => exact hf a rfl e h

theorem mapError {ε' : Type} {E' : ε' → Prop} {x : Except ε α} {f : ε → ε'} (hx : FailsOnly E x)
    (hf : ∀ e, E e → E' (f e)) : FailsOnly E' (x.mapError f) := by
  intro e h
  cases x with
  | error e' =>
    cases h
    exact hf e' (hx e' rfl)
  | ok a => cases h

theorem mapM {f : α → Except ε β} {as : List α} (h : ∀ a ∈ as, FailsOnly E (f a)) :
    FailsOnly E (as.mapM f) := by
  induction as with
  | nil => exact ok []
  | cons a as ih =>
    obtain ⟨ha, has⟩ := List.forall_mem_cons.mp h
    rw [List.mapM_cons]
    refine bind ha fun b _ => ?_
    exact bind (ih has) fun bs _ => ok (b :: bs)

theorem forM {f : α → Except ε Unit} {as : List α} (h : ∀ a ∈ as, FailsOnly E (f a)) :
    FailsOnly E (as.forM f) := by
  induction as with
  | nil => exact ok _
  | cons a as ih =>
    obtain ⟨ha, has⟩ := List.forall_mem_cons.mp h
    rw [List.forM]
    exact bind ha fun _ _ => ih has

end FailsOnly

/-- From whichever state it starts, if the computation fails, its error is one of `E`. -/
def StopsOnly (E : ε → Prop) (x : ExceptT ε (StateM σ) α) : Prop :=
  ∀ s, FailsOnly E (outcome x s).1

namespace StopsOnly

variable {E : ε → Prop}

theorem pure (a : α) : StopsOnly E (Pure.pure a : ExceptT ε (StateM σ) α) :=
  fun _ => .ok a

/-- A sequence that starts from the state `s` fails in its first part from there, or in its second
part from anywhere. -/
theorem failsOnly_outcome_bind {x : ExceptT ε (StateM σ) α} {f : α → ExceptT ε (StateM σ) β} {s : σ}
    (hx : FailsOnly E (outcome x s).1) (hf : ∀ a, StopsOnly E (f a)) :
    FailsOnly E (outcome (x >>= f) s).1 := by
  rw [outcome_bind]
  rcases hout : outcome x s with ⟨e | a, s'⟩
  · rw [hout] at hx
    intro e' h
    cases h
    exact hx e rfl
  · exact hf a s'

theorem bind {x : ExceptT ε (StateM σ) α} {f : α → ExceptT ε (StateM σ) β} (hx : StopsOnly E x)
    (hf : ∀ a, StopsOnly E (f a)) : StopsOnly E (x >>= f) :=
  fun s => failsOnly_outcome_bind (hx s) hf

theorem adapt {ε' : Type} {E' : ε' → Prop} {x : ExceptT ε (StateM σ) α} {f : ε → ε'}
    (hx : StopsOnly E x) (hf : ∀ e, E e → E' (f e)) : StopsOnly E' (ExceptT.adapt f x) := by
  intro s
  rw [outcome_adapt]
  exact (hx s).mapError hf

theorem forM {f : α → ExceptT ε (StateM σ) Unit} (h : ∀ a, StopsOnly E (f a)) (as : List α) :
    StopsOnly E (as.forM f) :=
  forM_closed pure bind h as

end StopsOnly

end Casewise

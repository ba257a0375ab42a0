import Mathlib.Data.List.Forall2
import Mathlib.Order.Basic
import Casewise.Proofs.Outcome

/-!
# What running leads to

Running is told how deep evaluations may nest. A family of runs, one for each depth, *leads to* a
result if from some depth on all of them have the same outcome, and the outcome is fine: the machine
they leave is described by a world that can be reached from the world before, and there is a result
as it should be, or running has stopped for a reason that does no harm. The family may also be the
same run at every depth; then this says what that run does.

What a world is, which machines it describes, which worlds can be reached and which reasons do no
harm is the business of a `Frame`. Worlds come one after the other, and what is known of a value or
a scope stays true in all later worlds, but what can be reached while a single expression is
evaluated may be less than all that comes later in a program.

## Main definitions

* `Frame`: worlds, the machines they describe, and harmless stops.
* `Frame.Leads`: what a family of runs leads to.
* `Frame.free`: the frame in which all later worlds can be reached.

## Main statements

* `Frame.Leads.bind`: what a sequence leads to.
* `Frame.Leads.mapM`: what running for each member of a list leads to.
-/

namespace Casewise

/-- Running stops because no pattern fits. -/
def Stop.NoMatch (stop : Stop) : Prop :=
  ∃ text span, stop = .error ⟨.nonExhaustiveMatch text, span⟩

theorem Stop.NoMatch.placedAt {stop : Stop} (h : stop.NoMatch) (span : Option Span) :
    (stop.placedAt span).NoMatch := by
  obtain ⟨text, span', rfl⟩ := h
  exact ⟨text, _, rfl⟩

/-- Worlds that describe machines, and stops that do no harm. A world may describe several machines,
since it does not see what is printed and recorded. -/
structure Frame (W : Type) [Preorder W] where
  /-- The machine is as the world says. -/
  Holds : W → Machine → Prop
  /-- Running may lead from one world to the other. -/
  Reaches : W → W → Prop
  /-- Running may stop for this reason. -/
  Harmless : Stop → Prop
  /-- Running may leave the world as it is. -/
  reaches_refl : ∀ w, Reaches w w
  /-- Running may go on from where it has led to. -/
  reaches_trans : ∀ {w w' w'' : W}, Reaches w w' → Reaches w' w'' → Reaches w w''
  /-- Running leads to later worlds only. -/
  le_of_reaches : ∀ {w w' : W}, Reaches w w' → w ≤ w'
  /-- A world sees nothing but the scopes of a machine. -/
  holds_of_scopes_eq : ∀ {w : W} {m m' : Machine}, Holds w m → m'.scopes = m.scopes → Holds w m'
  /-- Whether a stop does harm does not depend on its place. -/
  harmless_placedAt : ∀ {stop : Stop} {span : Option Span}, Harmless stop →
    Harmless (stop.placedAt span)

namespace Frame

variable {W : Type} [Preorder W] {F : Frame W} {α β : Type} {w : W}

/-- The result is as it should be in the world, or running has stopped without harm. -/
def Fine (F : Frame W) (Q : W → α → Prop) (w : W) : Except Stop α → Prop
  | .ok a => Q w a
  | .error stop => F.Harmless stop

/-- From some depth on, all runs that start from a machine of the world have the same outcome, and
it is fine in a world that can be reached. -/
def Leads (F : Frame W) (w : W) (x : ℕ → Run α) (Q : W → α → Prop) : Prop :=
  ∀ m, F.Holds w m → ∃ r m' w', (∃ n, ∀ d ≥ n, outcome (x d) m = (r, m')) ∧ F.Reaches w w' ∧
    F.Holds w' m' ∧ F.Fine Q w' r

/-- The frame in which all later worlds can be reached. -/
def free (F : Frame W) : Frame W :=
  { F with
    Reaches := (· ≤ ·)
    reaches_refl := le_refl
    reaches_trans := le_trans
    le_of_reaches := id }

namespace Leads

variable {Q Q' : W → α → Prop} {P : W → β → Prop}

/-- A single step with a known result. -/
theorem of_ok {x : Run α}
    (h : ∀ m, F.Holds w m →
      ∃ a m' w', outcome x m = (.ok a, m') ∧ F.Reaches w w' ∧ F.Holds w' m' ∧ Q w' a) :
    F.Leads w (fun _ => x) Q := by
  intro m hm
  obtain ⟨a, m', w', hx, hw, hm', ha⟩ := h m hm
  exact ⟨.ok a, m', w', ⟨0, fun _ _ => hx⟩, hw, hm', ha⟩

theorem pure {a : α} (h : Q w a) : F.Leads w (fun _ => Pure.pure a) Q :=
  of_ok fun m hm => ⟨a, m, w, rfl, F.reaches_refl w, hm, h⟩

theorem stop {stop : Stop} (h : F.Harmless stop) : F.Leads w (fun _ => (throw stop : Run α)) Q :=
  fun m hm => ⟨.error stop, m, w, ⟨0, fun _ _ => rfl⟩, F.reaches_refl w, hm, h⟩

theorem imp {x : ℕ → Run α} (h : F.Leads w x Q)
    (hQ : ∀ w', F.Reaches w w' → ∀ a, Q w' a → Q' w' a) :
    F.Leads w x Q' := by
  intro m hm
  obtain ⟨r, m', w', hx, hw, hm', hr⟩ := h m hm
  refine ⟨r, m', w', hx, hw, hm', ?_⟩
  cases r with
  | ok a => exact hQ w' hw a hr
  | error stop => exact hr

/-- `Leads` is closed under `>>=`: a sequence leads to what its second part leads to after the
results of its first part. -/
theorem bind {x : ℕ → Run β} {f : ℕ → β → Run α} (hx : F.Leads w x P)
    (hf : ∀ w', F.Reaches w w' → ∀ b, P w' b → F.Leads w' (fun d => f d b) Q) :
    F.Leads w (fun d => x d >>= f d) Q := by
  intro m hm
  obtain ⟨r, m', w', ⟨n, hn⟩, hw, hm', hr⟩ := hx m hm
  cases r with
  | error stop =>
    exact ⟨.error stop, m', w', ⟨n, fun d hd => outcome_bind_of_error (hn d hd) _⟩, hw, hm', hr⟩
  | ok b =>
    obtain ⟨r, m'', w'', ⟨n', hn'⟩, hw', hm'', hr⟩ := hf w' hw b hr m' hm'
    refine ⟨r, m'', w'', ⟨max n n', fun d hd => ?_⟩, F.reaches_trans hw hw', hm'', hr⟩
    have hd₁ : d ≥ n := by omega
    have hd₂ : d ≥ n' := by omega
    rw [outcome_bind_of_ok (hn d hd₁)]
    exact hn' d hd₂

theorem located {x : ℕ → Run α} (h : F.Leads w x Q) (span : Option Span) :
    F.Leads w (fun d => Run.located span (x d)) Q := by
  intro m hm
  obtain ⟨r, m', w', ⟨n, hn⟩, hw, hm', hr⟩ := h m hm
  refine ⟨r.mapError (Stop.placedAt span), m', w', ⟨n, fun d hd => ?_⟩, hw, hm', ?_⟩
  · change outcome (ExceptT.adapt (Stop.placedAt span) (x d)) m = _
    rw [outcome_adapt, hn d hd]
  · cases r with
    | ok a => exact hr
    | error stop => exact F.harmless_placedAt hr

theorem log (event : Event) : F.Leads w (fun _ => Run.log event) fun _ _ => True :=
  of_ok fun m hm => ⟨⟨⟩, m.log event, w, rfl, F.reaches_refl w,
    F.holds_of_scopes_eq hm rfl, trivial⟩

theorem withScopes {f : Forest Value → α} (h : ∀ m, F.Holds w m → Q w (f m.scopes)) :
    F.Leads w (fun _ => Run.withScopes f) Q :=
  of_ok fun m hm => ⟨f m.scopes, m, w, rfl, F.reaches_refl w, hm, h m hm⟩

theorem ofExcept {r : Except LangError α} {a : α} (hr : r = .ok a) (h : Q w a) :
    F.Leads w (fun _ => Run.ofExcept r) Q :=
  of_ok fun m hm => ⟨a, m, w, by rw [hr]; rfl, F.reaches_refl w, hm, h⟩

/-- A result that is as it should be, or an error that is `Harmless`. -/
theorem ofExcept_fine {r : Except LangError α} (hok : ∀ a, r = .ok a → Q w a)
    (hfails : FailsOnly (fun e => F.Harmless (.error e)) r) :
    F.Leads w (fun _ => Run.ofExcept r) Q := by
  intro m hm
  refine ⟨r.mapError .error, m, w, ⟨0, fun _ _ => rfl⟩, F.reaches_refl w, hm, ?_⟩
  cases r with
  | ok a => exact hok a rfl
  | error e => exact hfails e rfl

/-- What `Leads` somewhere at the next depth leads there. -/
theorem of_succ {x : ℕ → Run α} (h : F.Leads w (fun d => x (d + 1)) Q) : F.Leads w x Q := by
  intro m hm
  obtain ⟨r, m', w', ⟨n, hn⟩, hw, hm', hr⟩ := h m hm
  refine ⟨r, m', w', ⟨n + 1, fun d hd => ?_⟩, hw, hm', hr⟩
  obtain ⟨d, rfl⟩ : ∃ d', d = d' + 1 := ⟨d - 1, by omega⟩
  exact hn d (by omega)

/-- `mapM` leads to one result for each member of a list, in a world that comes after all of
them. -/
theorem mapM {γ : Type} {P : W → β → γ → Prop} {f : ℕ → α → Run β} {as : List α} {cs : List γ}
    (hmono : ∀ {w w' : W} {b : β} {c : γ}, w ≤ w' → P w b c → P w' b c)
    (h : List.Forall₂ (fun a c => ∀ w', F.Reaches w w' →
      F.Leads w' (fun d => f d a) fun w' b => P w' b c) as cs) :
    F.Leads w (fun d => as.mapM (f d)) fun w' bs => List.Forall₂ (P w') bs cs := by
  induction as generalizing cs w with
  | nil =>
    cases h
    exact pure .nil
  | cons a as ih =>
    obtain ⟨c, cs, ha, has, rfl⟩ := List.forall₂_cons_left_iff.mp h
    simp only [List.mapM_cons]
    refine bind (ha w (F.reaches_refl w)) fun w' hw b hb => ?_
    refine bind (ih ?_) fun w'' hw' bs hbs => pure (.cons (hmono (F.le_of_reaches hw') hb) hbs)
    exact has.imp fun a c hac w'' hw'' => hac w'' (F.reaches_trans hw hw'')

/-- A single run that `Leads` to something has a `Fine` outcome. -/
theorem run {x : Run α} (h : F.Leads w (fun _ => x) Q) {m : Machine} (hm : F.Holds w m) :
    ∃ w', F.Reaches w w' ∧ F.Holds w' (outcome x m).2 ∧ F.Fine Q w' (outcome x m).1 := by
  obtain ⟨r, m', w', ⟨n, hn⟩, hw, hm', hr⟩ := h m hm
  rw [hn n (Nat.le_refl n)]
  exact ⟨w', hw, hm', hr⟩

/-- `F.free`, where all later worlds can be reached, leads to whatever `F` leads to. -/
theorem free {x : ℕ → Run α} (h : F.Leads w x Q) : F.free.Leads w x Q := by
  intro m hm
  obtain ⟨r, m', w', hx, hw, hm', hr⟩ := h m hm
  refine ⟨r, m', w', hx, F.le_of_reaches hw, hm', ?_⟩
  cases r with
  | ok a => exact hr
  | error stop => exact hr

end Leads

end Frame

end Casewise

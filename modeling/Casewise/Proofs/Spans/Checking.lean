import Casewise.Proofs.Typing.Likeness

/-!
# Checking a program in another place

Contexts hold types and no spans, so where a program stands shows only in the place of the error
that it fails with.

## Main statements

* `Check.program_mapSpans`: checking a program in another place.
-/

namespace Casewise

theorem Context.likeness_eq : Context.Likeness Eq (Eq : Context → Context → Prop) where
  get?_rel {Γ Γ'} h name := by
    subst h
    cases Γ.get? name with
    | none => exact .none
    | some ty => exact .some rfl
  hasLocal_eq h _ := by rw [h]
  data?_eq h _ := by rw [h]
  constructor?_eq h _ := by rw [h]
  extend {Γ Γ'} h t u htu := by
    have hentries : t.entries = u.entries := by
      refine List.forall₂_eq_eq_eq ▸ List.Forall₂.imp (fun a b hab => ?_) htu
      exact Prod.ext hab.1 hab.2
    rw [h, Table.ext hentries]
  insert h _ _ _ hab := by rw [h, hab]
  declare name constructors Γ Γ' h := by
    subst h
    exact ⟨(Alongside.refl (fun _ => rfl) _).imp (fun _ _ h => h) fun _ _ _ => trivial, rfl⟩

/-- Where a program stands shows only in the place of the error, if it does not check:
`Check.program` of `p.mapSpans f` is that of `p`, with `f` applied to the error. -/
theorem Check.program_mapSpans (p : Program) (f : Span → Span) (Γ : Context) :
    outcome (Check.program (p.mapSpans f)) Γ =
      ((outcome (Check.program p) Γ).1.mapError (·.mapSpan f),
        (outcome (Check.program p) Γ).2) := by
  have hmirrors : Mirrors (LangError.Moved f) Eq (fun _ _ => True) (Check.program p)
      (Check.program (p.mapSpans f)) :=
    program_mirrors Ty.likeness_eq Context.likeness_eq (fun h h' => by rw [h, h']) p
  obtain ⟨hresult, hcontext⟩ := hmirrors Γ Γ rfl
  exact Prod.ext (hresult.imp (fun _ _ h => h) fun _ _ _ => rfl).eq_mapError hcontext.symm

end Casewise

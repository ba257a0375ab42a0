import Casewise.Proofs.Ty.Likeness

/-!
# Agreement as a congruence

Agreement is an equivalence of types, since it is equality after erasure, and it carries over from
the components of functions and pairs to the functions and pairs. It is the least such relation
that lets what a constructor builds stand for its data type. Agreement at the top is a coarser
equivalence.

## Main definitions

* `Ty.IsCongruence`: equivalences of types that respect how types are built.

## Main statements

* `Ty.IsCongruence.of_agrees`: agreement is the least congruence that lets a constructor's type
  stand for its data type.
* `Ty.agreement_is_equality_of_erasures`: agreement and agreement at the top as equivalences.
-/

namespace Casewise.Ty

/-- The relation is an equivalence, and functions and pairs with related components are related. -/
structure IsCongruence (R : Ty → Ty → Prop) : Prop where
  /-- It is an equivalence. -/
  equivalence : Equivalence R
  /-- It carries over to functions with as many inputs. -/
  arrow : ∀ {inputs inputs' output output'}, List.Forall₂ R inputs inputs' → R output output' →
    R (.arrow inputs output) (.arrow inputs' output')
  /-- It carries over to pairs. -/
  pair : ∀ {a a' b b'}, R a a' → R b b' → R (.pair a b) (.pair a' b')

theorem isCongruence_agrees : IsCongruence (fun a b : Ty => a.agrees b = true) where
  equivalence := ⟨agrees_refl, agrees_symm, agrees_trans⟩
  arrow h h' := likeness_agrees.arrow h h'
  pair h h' := likeness_agrees.pair h h'

theorem equivalence_sameTag : Equivalence (fun a b : Ty => a.sameTag b = true) where
  refl _ := sameTag_iff.mpr rfl
  symm h := sameTag_iff.mpr (sameTag_iff.mp h).symm
  trans h h' := sameTag_iff.mpr ((sameTag_iff.mp h).trans (sameTag_iff.mp h'))

mutual

/-- A congruence that lets a constructor's type stand for its data type relates a type to its
`erase`. -/
theorem IsCongruence.rel_erase {R : Ty → Ty → Prop} (hR : IsCongruence R)
    (howner : ∀ name args owner, R (construct name args owner) (data owner)) :
    ∀ a : Ty, R a a.erase
  | .prim _ | .data _ => hR.equivalence.refl _
  | .construct name args owner => howner name args owner
  | .arrow inputs output => hR.arrow (hR.rel_eraseAll howner inputs) (hR.rel_erase howner output)
  | .pair first second => hR.pair (hR.rel_erase howner first) (hR.rel_erase howner second)

theorem IsCongruence.rel_eraseAll {R : Ty → Ty → Prop} (hR : IsCongruence R)
    (howner : ∀ name args owner, R (construct name args owner) (data owner)) :
    ∀ as : List Ty, List.Forall₂ R as (eraseAll as)
  | [] => .nil
  | a :: as => .cons (hR.rel_erase howner a) (hR.rel_eraseAll howner as)

end

/-- `agrees` is the least congruence that lets a constructor's type stand for its data type. -/
theorem IsCongruence.of_agrees {R : Ty → Ty → Prop} (hR : IsCongruence R)
    (howner : ∀ name args owner, R (construct name args owner) (data owner)) {a b : Ty}
    (h : a.agrees b = true) : R a b := by
  have hb : R b a.erase := agrees_iff.mp h ▸ hR.rel_erase howner b
  exact hR.equivalence.trans (hR.rel_erase howner a) (hR.equivalence.symm hb)

/-- Two types `agrees` if and only if they are equal after `erase`. So agreement is an equivalence,
and it carries over to functions and pairs (`IsCongruence`). To have the same tag (`sameTag`) is an
equivalence too. Types that agree have the same tag, and each of two types may be replaced by one
that agrees with it without changing whether they have the same tag. -/
theorem agreement_is_equality_of_erasures :
    (∀ a b : Ty, a.agrees b = true ↔ a.erase = b.erase) ∧
      IsCongruence (fun a b : Ty => a.agrees b = true) ∧
      Equivalence (fun a b : Ty => a.sameTag b = true) ∧
      (∀ a b : Ty, a.agrees b = true → a.sameTag b = true) ∧
      ∀ a a' b b' : Ty, a.agrees a' = true → b.agrees b' = true → a'.sameTag b' = a.sameTag b :=
  ⟨fun _ _ => agrees_iff, isCongruence_agrees, equivalence_sameTag, fun _ _ => sameTag_of_agrees,
    fun _ _ _ _ => sameTag_congr⟩

/-- A function that takes what `Cons` builds agrees with one that takes a list, so that they have
the same tag, and the tags of other types compare with both alike. -/
theorem agreement_is_equality_of_erasures_cons :
    (arrow [construct "Cons" [nat, data "List"] "List"] nat).agrees
      (arrow [data "List"] nat) = true ∧
      (arrow [construct "Cons" [nat, data "List"] "List"] nat).sameTag (arrow [data "List"] nat) =
        true ∧
      (arrow [data "List"] nat).sameTag (arrow [] bool) =
        (arrow [construct "Cons" [nat, data "List"] "List"] nat).sameTag (arrow [] bool) := by
  obtain ⟨hiff, hcongruence, -, htag, hreplace⟩ := agreement_is_equality_of_erasures
  have hcons : (construct "Cons" [nat, data "List"] "List").agrees (data "List") = true :=
    (hiff _ _).mpr rfl
  have harrow := hcongruence.arrow (.cons hcons .nil) (hcongruence.equivalence.refl nat)
  exact ⟨harrow, htag _ _ harrow, hreplace _ _ _ _ harrow (hcongruence.equivalence.refl _)⟩

end Casewise.Ty

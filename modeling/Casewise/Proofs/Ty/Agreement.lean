import Mathlib.Data.List.Forall2
import Casewise.Ty

/-!
# Agreement of types

Two types agree exactly if they are equal once every constructor's type is replaced by its data
type. `Ty.erase` is that replacement, so agreement is an equivalence that respects how types are
built. Agreement at the top is equality of what stands there, the `Ty.tag`, which erasure leaves as
it is, so types that agree have the same tag.

## Main definitions

* `Ty.erase`: a type without the types of constructors.
* `Ty.tag`: what stands at the top of a type.

## Main statements

* `Ty.agrees_iff`: agreement is equality after erasure.
* `Ty.sameTag_iff`: agreement at the top is equality of the tags.
* `Ty.sameTag_of_agrees`: agreement implies agreement at the top.
-/

namespace Casewise.Ty

mutual

/-- The type with every constructor's type in it replaced by its data type. -/
def erase : Ty → Ty
  | prim name => prim name
  | arrow inputs output => arrow (eraseAll inputs) (erase output)
  | pair first second => pair (erase first) (erase second)
  | data name => data name
  | construct _ _ owner => data owner

/-- The types with every constructor's type in them replaced by its data type. -/
def eraseAll : List Ty → List Ty
  | [] => []
  | ty :: tys => erase ty :: eraseAll tys

end

mutual

/-- Two types `agrees` if and only if they are equal after `erase`. -/
theorem agrees_iff : ∀ {a b : Ty}, a.agrees b = true ↔ a.erase = b.erase
  | prim _, b => by cases b <;> simp [agrees, erase]
  | arrow inputs output, b => by
    cases b <;> simp [agrees, erase, @agreeAll_iff inputs, @agrees_iff output]
  | pair first second, b => by
    cases b <;> simp [agrees, erase, @agrees_iff first, @agrees_iff second]
  | data _, b => by cases b <;> simp [agrees, owner?, erase, eq_comm]
  | construct _ _ _, b => by cases b <;> simp [agrees, owner?, erase, eq_comm]

theorem agreeAll_iff : ∀ {as bs : List Ty}, agreeAll as bs = true ↔ eraseAll as = eraseAll bs
  | [], bs => by cases bs <;> simp [agreeAll, eraseAll]
  | a :: as, bs => by cases bs <;> simp [agreeAll, eraseAll, @agrees_iff a, @agreeAll_iff as]

end

@[simp]
theorem agrees_refl (a : Ty) : a.agrees a = true :=
  agrees_iff.mpr rfl

theorem agrees_symm {a b : Ty} (h : a.agrees b = true) : b.agrees a = true :=
  agrees_iff.mpr (agrees_iff.mp h).symm

theorem agrees_trans {a b c : Ty} (h : a.agrees b = true) (h' : b.agrees c = true) :
    a.agrees c = true :=
  agrees_iff.mpr ((agrees_iff.mp h).trans (agrees_iff.mp h'))

theorem agreeAll_refl (as : List Ty) : agreeAll as as = true :=
  agreeAll_iff.mpr rfl

theorem agreeAll_trans {as bs cs : List Ty} (h : agreeAll as bs = true)
    (h' : agreeAll bs cs = true) :
    agreeAll as cs = true :=
  agreeAll_iff.mpr ((agreeAll_iff.mp h).trans (agreeAll_iff.mp h'))

/-- `agreeAll` holds of lists that are equally long and whose members agree one by one. -/
theorem agreeAll_iff_forall₂ {as bs : List Ty} :
    agreeAll as bs = true ↔ List.Forall₂ (fun a b => a.agrees b = true) as bs := by
  induction as generalizing bs with
  | nil => cases bs <;> simp [agreeAll]
  | cons a as ih => cases bs <;> simp [agreeAll, ih]

theorem owner?_eq_of_agrees {a b : Ty} (h : a.agrees b = true) : a.owner? = b.owner? := by
  cases a <;> cases b <;> simp_all [agrees, owner?]

/-- What stands at the top of a type. -/
inductive Tag where
  | prim (name : String)
  | arrow
  | pair
  | data

/-- The tag of a type. A constructor's type has the tag of its data type. -/
def tag : Ty → Tag
  | prim name => .prim name
  | arrow .. => .arrow
  | pair .. => .pair
  | data _ => .data
  | construct .. => .data

/-- `sameTag` compares the `tag`s of two types. -/
theorem sameTag_iff {a b : Ty} : a.sameTag b = true ↔ a.tag = b.tag := by
  cases a <;> cases b <;> simp [sameTag, owner?, tag]

theorem tag_erase (a : Ty) : a.erase.tag = a.tag := by
  cases a <;> rfl

theorem tag_eq_of_agrees {a b : Ty} (h : a.agrees b = true) : a.tag = b.tag := by
  rw [← tag_erase a, ← tag_erase b, agrees_iff.mp h]

/-- Types that agree have the same `tag`. -/
theorem sameTag_of_agrees {a b : Ty} (h : a.agrees b = true) : a.sameTag b = true :=
  sameTag_iff.mpr (tag_eq_of_agrees h)

/-- Only a `pair` agrees with a pair. -/
theorem eq_pair_of_agrees {a b c : Ty} (h : (pair a b).agrees c = true) :
    ∃ a' b', c = pair a' b' ∧ a.agrees a' = true ∧ b.agrees b' = true := by
  cases c with
  | pair a' b' => exact ⟨a', b', rfl, by simpa [agrees] using h⟩
  | _ => simp [agrees] at h

/-- Only an `arrow` agrees with a function. -/
theorem eq_arrow_of_agrees {inputs : List Ty} {output c : Ty}
    (h : (arrow inputs output).agrees c = true) :
    ∃ inputs' output', c = arrow inputs' output' ∧ agreeAll inputs inputs' = true ∧
      output.agrees output' = true := by
  cases c with
  | arrow inputs' output' => exact ⟨inputs', output', rfl, by simpa [agrees] using h⟩
  | _ => simp [agrees] at h

theorem eq_prim_of_agrees {name : String} {c : Ty} (h : (prim name).agrees c = true) :
    c = prim name := by
  cases c <;> simp_all [agrees]

end Casewise.Ty

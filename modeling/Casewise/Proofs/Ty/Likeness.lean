import Casewise.Proofs.Ty.Agreement

/-!
# Types that the rules cannot tell apart

The rules of the language ask about types only whether they agree, which data type they belong to,
what they are called and what their components are. A relation of types that answers all of this
alike is a *likeness*. Equality is one, and so is agreement: a constructor's type may stand for its
data type everywhere.

## Main definitions

* `Ty.Likeness`: a relation of types that the rules cannot tell apart.

## Main statements

* `Ty.likeness_agrees`: types that agree cannot be told apart.
* `Ty.sameTag_congr`: neither can they by their tags.
-/

namespace Casewise.Ty

/-- The relation is one of types that the rules of the language cannot tell apart. -/
structure Likeness (T : Ty → Ty → Prop) : Prop where
  /-- A type is like itself. -/
  refl : ∀ a, T a a
  /-- Like types have one name. -/
  text_eq : ∀ {a b}, T a b → b.text = a.text
  /-- Like types belong to the same data type, if they belong to one. -/
  owner?_eq : ∀ {a b}, T a b → b.owner? = a.owner?
  /-- Like types agree with like types. -/
  agrees_eq : ∀ {a a' b b'}, T a a' → T b b' → a'.agrees b' = a.agrees b
  /-- Functions are alike if their inputs and outputs are. -/
  arrow : ∀ {inputs inputs' output output'}, List.Forall₂ T inputs inputs' → T output output' →
    T (.arrow inputs output) (.arrow inputs' output')
  /-- Pairs are alike if their components are. -/
  pair : ∀ {a a' b b'}, T a a' → T b b' → T (.pair a b) (.pair a' b')
  /-- What a constructor builds from like fields is alike. -/
  construct : ∀ {name args args' owner}, List.Forall₂ T args args' →
    T (.construct name args owner) (.construct name args' owner)
  /-- Both are functions with like inputs and outputs, or none is a function. -/
  arrow_cases : ∀ {a b}, T a b →
    (∃ inputs inputs' output output', a = .arrow inputs output ∧ b = .arrow inputs' output' ∧
      List.Forall₂ T inputs inputs' ∧ T output output') ∨
    (∀ inputs output, a ≠ .arrow inputs output) ∧ ∀ inputs output, b ≠ .arrow inputs output
  /-- Both are pairs with like components, or none is a pair. -/
  pair_cases : ∀ {a b}, T a b →
    (∃ x x' y y', a = .pair x y ∧ b = .pair x' y' ∧ T x x' ∧ T y y') ∨
    (∀ x y, a ≠ .pair x y) ∧ ∀ x y, b ≠ .pair x y

theorem likeness_eq : Likeness (Eq : Ty → Ty → Prop) where
  refl _ := rfl
  text_eq h := by rw [h]
  owner?_eq h := by rw [h]
  agrees_eq h h' := by rw [h, h']
  arrow h h' := by
    rw [List.forall₂_eq_eq_eq] at h
    rw [h, h']
  pair h h' := by rw [h, h']
  construct h := by
    rw [List.forall₂_eq_eq_eq] at h
    rw [h]
  arrow_cases := by
    rintro a _ rfl
    cases a with
    | arrow inputs output => exact .inl ⟨_, _, _, _, rfl, rfl, List.forall₂_refl _, rfl⟩
    | _ => exact .inr ⟨nofun, nofun⟩
  pair_cases := by
    rintro a _ rfl
    cases a with
    | pair x y => exact .inl ⟨_, _, _, _, rfl, rfl, rfl, rfl⟩
    | _ => exact .inr ⟨nofun, nofun⟩

mutual

theorem text_erase : ∀ a : Ty, a.erase.text = a.text
  | prim _ | data _ | construct .. => rfl
  | arrow inputs output => by rw [erase, text, text, texts_eraseAll inputs, text_erase output]
  | pair first second => by rw [erase, text, text, text_erase first, text_erase second]

theorem texts_eraseAll : ∀ as : List Ty, texts (eraseAll as) = texts as
  | [] => rfl
  | a :: as => by rw [eraseAll, texts, texts, text_erase a, texts_eraseAll as]

end

theorem text_eq_of_agrees {a b : Ty} (h : a.agrees b = true) : a.text = b.text := by
  rw [← text_erase a, ← text_erase b, agrees_iff.mp h]

theorem agrees_congr {a a' b b' : Ty} (h : a.agrees a' = true) (h' : b.agrees b' = true) :
    a'.agrees b' = a.agrees b := by
  rw [Bool.eq_iff_iff, agrees_iff, agrees_iff, agrees_iff.mp h, agrees_iff.mp h']

/-- `sameTag` stays when one of two types is replaced by a type that agrees with it. -/
theorem sameTag_congr {a a' b b' : Ty} (h : a.agrees a' = true) (h' : b.agrees b' = true) :
    a'.sameTag b' = a.sameTag b := by
  rw [Bool.eq_iff_iff, sameTag_iff, sameTag_iff, tag_eq_of_agrees h, tag_eq_of_agrees h']

/-- Types that agree are alike: `agrees` is a `Likeness`. -/
theorem likeness_agrees : Likeness (fun a b : Ty => a.agrees b = true) where
  refl a := a.agrees_refl
  text_eq h := (text_eq_of_agrees h).symm
  owner?_eq h := (owner?_eq_of_agrees h).symm
  agrees_eq h h' := agrees_congr h h'
  arrow h h' := by rw [agrees, agreeAll_iff_forall₂.mpr h, h', Bool.and_self]
  pair h h' := by rw [agrees, h, h', Bool.and_self]
  construct _ := by simp [agrees, owner?]
  arrow_cases {a b} h := by
    cases a with
    | arrow inputs output =>
      obtain ⟨inputs', output', rfl, hinputs, houtput⟩ := eq_arrow_of_agrees h
      exact .inl ⟨_, _, _, _, rfl, rfl, agreeAll_iff_forall₂.mp hinputs, houtput⟩
    | _ =>
      refine .inr ⟨nofun, ?_⟩
      rintro inputs output rfl
      obtain ⟨_, _, ⟨⟩, -⟩ := eq_arrow_of_agrees (agrees_symm h)
  pair_cases {a b} h := by
    cases a with
    | pair x y =>
      obtain ⟨x', y', rfl, hx, hy⟩ := eq_pair_of_agrees h
      exact .inl ⟨_, _, _, _, rfl, rfl, hx, hy⟩
    | _ =>
      refine .inr ⟨nofun, ?_⟩
      rintro x y rfl
      obtain ⟨_, _, ⟨⟩, -⟩ := eq_pair_of_agrees (agrees_symm h)

end Casewise.Ty

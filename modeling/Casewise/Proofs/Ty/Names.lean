import Casewise.Proofs.Ty.Likeness
import Casewise.Proofs.Writing.Sexps

/-!
# What the names of types tell

Messages name types as programs write them. If the data types have names of their own, such a name
reads as a form again, and the form tells the type as far as agreement does: `->` and `pair` lead
the forms of functions and pairs, the last part of a function's form is its output, and an atom is
the name of one type only.

## Main statements

* `Ty.WellNamed.agrees_of_form_eq`: the form of a name tells the type.
* `Ty.WellNamed.text_eq_iff`: two types have the same name if and only if they agree.
-/

namespace Casewise

namespace Ty

theorem builtin?_eq_none_iff {name : String} :
    builtin? name = none ↔ name ∉ ["Nat", "Bool", "Str"] := by
  simp only [builtin?]
  grind

/-- A data type is `WellNamed` if its name reads as one atom and no built-in type has it. -/
theorem wellNamed_data_iff {name : String} :
    (data name).WellNamed ↔
      (∃ span, readOne "" name = .ok (.atom name span)) ∧ name ∉ ["Nat", "Bool", "Str"] := by
  rw [← isAtom_iff_readOne, ← builtin?_eq_none_iff]
  constructor
  · intro h
    cases h with
    | data hatom hbuiltin => exact ⟨hatom, hbuiltin⟩
  · rintro ⟨hatom, hbuiltin⟩
    exact .data hatom hbuiltin

namespace WellNamed

/-- A form that is an atom is that of the built-in type with this name, or if there is none, that of
a data type and of the types of its constructors. -/
theorem atom_cases {ty : Ty} (h : ty.WellNamed) {name : String} (hform : .atom name = ty.form) :
    (builtin? name = some (.prim name) ∧ ty = .prim name) ∨
      (builtin? name = none ∧ ty.owner? = some name) := by
  cases h with
  | prim hbuiltin =>
    cases hform
    exact .inl ⟨hbuiltin, rfl⟩
  | data _ hbuiltin =>
    cases hform
    exact .inr ⟨hbuiltin, rfl⟩
  | construct _ hbuiltin =>
    cases hform
    exact .inr ⟨hbuiltin, rfl⟩
  | _ => cases hform

/-- The form of a function is that of functions only, and tells the forms of the inputs and of the
output. -/
theorem eq_arrow {ty : Ty} (h : ty.WellNamed) {inputs : List Ty} {output : Ty}
    (hform : (Ty.arrow inputs output).form = ty.form) :
    ∃ inputs' output', ty = .arrow inputs' output' ∧ (∀ input ∈ inputs', input.WellNamed) ∧
      output'.WellNamed ∧ inputs.map form = inputs'.map form ∧ output.form = output'.form := by
  cases h with
  | arrow hinputs houtput =>
    rw [form, form, forms_eq_map, forms_eq_map, Form.list.injEq, List.cons.injEq] at hform
    -- the output is the last part of the form, whatever the number of inputs
    obtain ⟨hinputsForm, houtputForm⟩ := List.append_inj' hform.2 rfl
    exact ⟨_, _, rfl, hinputs, houtput, hinputsForm, (List.cons.inj houtputForm).1⟩
  | pair => simp [form] at hform
  | _ => cases hform

/-- The form of a pair is that of pairs only, and tells the forms of the components. -/
theorem eq_pair {ty : Ty} (h : ty.WellNamed) {first second : Ty}
    (hform : (Ty.pair first second).form = ty.form) :
    ∃ first' second', ty = .pair first' second' ∧ first'.WellNamed ∧ second'.WellNamed ∧
      first.form = first'.form ∧ second.form = second'.form := by
  cases h with
  | pair hfirst hsecond =>
    simp only [form, Form.list.injEq, List.cons.injEq, true_and, and_true] at hform
    exact ⟨_, _, rfl, hfirst, hsecond, hform⟩
  | arrow => simp [form] at hform
  | _ => cases hform

/-- `WellNamed` types with the same form agree. -/
theorem agrees_of_form_eq {a b : Ty} (ha : a.WellNamed) (hb : b.WellNamed) (h : a.form = b.form) :
    a.agrees b = true := by
  induction ha generalizing b with
  | prim hbuiltin =>
    rcases hb.atom_cases h with ⟨-, rfl⟩ | ⟨hnone, -⟩
    · exact agrees_refl _
    · rw [hbuiltin] at hnone
      cases hnone
  | data _ hbuiltin | construct _ hbuiltin =>
    rcases hb.atom_cases h with ⟨hprim, -⟩ | ⟨-, howner⟩
    · rw [hbuiltin] at hprim
      cases hprim
    · simp [agrees, howner]
  | pair _ _ ihFirst ihSecond =>
    obtain ⟨first, second, rfl, hfirst, hsecond, hfirstForm, hsecondForm⟩ := hb.eq_pair h
    exact likeness_agrees.pair (ihFirst hfirst hfirstForm) (ihSecond hsecond hsecondForm)
  | arrow _ _ ihInputs ihOutput =>
    obtain ⟨inputs', output', rfl, hinputs, houtput, hforms, houtputForm⟩ := hb.eq_arrow h
    refine likeness_agrees.arrow ?_ (ihOutput houtput houtputForm)
    -- the inputs have the same forms one by one, so they agree one by one
    rw [← List.forall₂_eq_eq_eq, List.forall₂_map_left_iff, List.forall₂_map_right_iff,
      List.forall₂_iff_zip] at hforms
    refine List.forall₂_iff_zip.mpr ⟨hforms.1, fun {input input'} hmem => ?_⟩
    obtain ⟨hinput, hinput'⟩ := List.of_mem_zip hmem
    exact ihInputs input hinput (hinputs input' hinput') (hforms.2 hmem)

/-- Two `WellNamed` types have the same name if and only if they agree. -/
theorem text_eq_iff {a b : Ty} (ha : a.WellNamed) (hb : b.WellNamed) :
    a.text = b.text ↔ a.agrees b = true := by
  constructor
  · intro h
    have hwrites := hb.writes
    rw [← h] at hwrites
    exact ha.agrees_of_form_eq hb (ha.writes.form_unique hwrites)
  · exact text_eq_of_agrees

/-- The name of a `WellNamed` type reads as one form. -/
theorem isSome_readOne {ty : Ty} (h : ty.WellNamed) :
    (readOne "" ty.text).toOption.isSome = true := by
  obtain ⟨e, hread, -⟩ := h.writes.readOne ""
  rw [hread]
  rfl

end WellNamed

/-- A data type with the name of a built-in type does not agree with it. -/
example : (data "Nat").text = nat.text ∧ (data "Nat").agrees nat = false := by
  decide

end Ty

end Casewise

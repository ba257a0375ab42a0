import Mathlib.Algebra.Group.Nat.Defs
import Casewise.Declared
import Casewise.Proofs.Text.Decimal

/-!
# Numbers with too many digits

Reading converts a number only if it has no more digits than `Declared.maxDigits` allows. The digits
of the text are counted, whatever script they belong to and whether they are zeros in front, so a
number that was converted can be written back and converted again (`exceeded?_toString`).

## Main statements

* `Declared.converted_eq_ok`, `Declared.converted_eq_error`: which atoms are converted.
* `Declared.exceeded?_toString`: a number that was converted may be written back.
-/

namespace Casewise

namespace Text

theorem lt_of_digit? {c : Char} {n : ℕ} (h : digit? c = some n) : n < 10 := by
  obtain ⟨first, hfirst, rfl⟩ := Option.map_eq_some_iff.mp h
  have hrange := List.find?_some hfirst
  rw [Bool.and_eq_true, decide_eq_true_eq, decide_eq_true_eq] at hrange
  omega

/-- Digits that `readDigits` reads write a number below the power of ten with that many zeros. -/
theorem lt_of_readDigits {high n : ℕ} {cs : List Char} (h : readDigits high cs = some n) :
    n < (high + 1) * 10 ^ cs.length := by
  induction cs generalizing high with
  | nil =>
    cases h
    simp
  | cons c cs ih =>
    obtain ⟨d, hd, hrest⟩ := Option.bind_eq_some_iff.mp h
    have hdigit := lt_of_digit? hd
    calc n < (high * 10 + d + 1) * 10 ^ cs.length := ih hrest
      _ ≤ (high + 1) * 10 * 10 ^ cs.length := Nat.mul_le_mul_right _ (by omega)
      _ = (high + 1) * 10 ^ (c :: cs).length := by
        rw [List.length_cons, Nat.pow_succ', Nat.mul_assoc]

theorem digitCount_toString (n : ℕ) : digitCount (toString n) = (Nat.toDigits 10 n).length := by
  rw [digitCount, dropFinalNewline, if_neg (isAtom_toString n).getLast?_ne, toList_toString]

/-- A number is written with more than `k` digits exactly from `10 ^ k` on. -/
theorem lt_digitCount_toString_iff {k n : ℕ} (hk : 0 < k) :
    k < digitCount (toString n) ↔ 10 ^ k ≤ n := by
  rw [digitCount_toString, ← Nat.not_le, Nat.length_toDigits_le_iff (by decide) hk, Nat.not_lt]

/-- By `digitCount`, no number has a shorter spelling than the one it is written with. -/
theorem digitCount_toString_le {text : String} {n : ℕ} (h : decimal? text = some n) :
    digitCount (toString n) ≤ digitCount text := by
  rw [digitCount_toString, digitCount]
  rw [decimal?] at h
  cases hcs : dropFinalNewline text.toList with
  | nil =>
    rw [hcs] at h
    cases h
  | cons c cs =>
    rw [hcs] at h
    have hlt := lt_of_readDigits h
    rw [Nat.zero_add, Nat.one_mul] at hlt
    exact (Nat.length_toDigits_le_iff (by decide) (Nat.succ_pos _)).mpr hlt

end Text

namespace Declared

variable {d : Declared} {text : String} {α : Type} {x y : α}

theorem exceeded?_eq_some_iff {limit : ℕ} :
    d.exceeded? text = some limit ↔
      d.maxDigits = some limit ∧ (Text.decimal? text).isSome ∧ limit < Text.digitCount text := by
  rw [exceeded?, Option.filter_eq_some_iff, Bool.and_eq_true, decide_eq_true_eq]

/-- A text that is not `exceeded?` is no number or keeps to `maxDigits`, where there is a limit. -/
theorem exceeded?_eq_none_iff :
    d.exceeded? text = none ↔ ∀ limit ∈ d.maxDigits, (Text.decimal? text).isSome →
      Text.digitCount text ≤ limit := by
  rw [exceeded?, Option.filter_eq_none_iff]
  simp only [Bool.and_eq_true, decide_eq_true_eq, not_and, Nat.not_lt, Option.mem_def]

/-- A text that is no number is not `exceeded?`. -/
theorem exceeded?_of_decimal?_eq_none (h : Text.decimal? text = none) :
    d.exceeded? text = none :=
  exceeded?_eq_none_iff.mpr fun _ _ hsome => by
    rw [h] at hsome
    cases hsome

theorem exceeded?_truth (value : Bool) :
    d.exceeded? (if value then "true" else "false") = none :=
  exceeded?_of_decimal?_eq_none (by cases value <;> rfl)

/-- A number whose text is not `exceeded?` may be written back. -/
theorem exceeded?_toString {n : ℕ} (hn : Text.decimal? text = some n)
    (h : d.exceeded? text = none) : d.exceeded? (toString n) = none :=
  exceeded?_eq_none_iff.mpr fun limit hlimit _ =>
    Nat.le_trans (Text.digitCount_toString_le hn)
      (exceeded?_eq_none_iff.mp h limit hlimit (by rw [hn]; rfl))

/-- An atom that is not `exceeded?` is converted. -/
theorem converted_eq_ok : d.converted text x = .ok y ↔ d.exceeded? text = none ∧ x = y := by
  rw [converted]
  cases d.exceeded? text with
  | none => simp
  | some limit => exact iff_of_false (fun h => by cases h) (fun h => by cases h.1)

/-- The one error of `converted` is `Failure.overlong`, and it is that of an atom that is
`exceeded?`. -/
theorem converted_eq_error {f : Failure} :
    d.converted text x = .error f ↔
      ∃ limit, d.exceeded? text = some limit ∧ f = .overlong limit (Text.digitCount text) := by
  rw [converted]
  cases d.exceeded? text with
  | none => exact iff_of_false (fun h => by cases h) (fun ⟨_, h, _⟩ => by cases h)
  | some limit =>
    constructor
    · intro h
      cases h
      exact ⟨limit, rfl, rfl⟩
    · rintro ⟨_, h, rfl⟩
      cases h
      rfl

end Declared

end Casewise

import Casewise.Proofs.Sexp.Spelling
import Casewise.Text.Decimal
import Casewise.Text.Literal

/-!
# Decimal texts as atoms

A number is written with ASCII digits, reads back as itself, and can stand as an atom. Among atoms
the ones that read as a number are exactly those that consist of decimal digits, since no atom ends
in a line feed.

## Main statements

* `Text.decimal?_toString`: writing a number and reading it gives the number.
* `decimal?_isSome_iff`: the atoms that are numbers.
-/

namespace Casewise

namespace Text

/-- `readDigits` reads a number if and only if all characters are digits. -/
theorem readDigits_isSome_iff {high : Nat} {cs : List Char} :
    (readDigits high cs).isSome ↔ ∀ c ∈ cs, isDigit c = true := by
  induction cs generalizing high with
  | nil => simp [readDigits]
  | cons c cs ih =>
    rw [readDigits, List.forall_mem_cons, isDigit]
    cases digit? c with
    | none => simp
    | some d => simpa using ih

/-- On ASCII digits, `readDigits` is `Nat.ofDigitChars` of the core library. -/
theorem readDigits_of_isDigit {high : Nat} {cs : List Char} (h : ∀ c ∈ cs, c.isDigit = true) :
    readDigits high cs = some (Nat.ofDigitChars 10 cs high) := by
  induction cs generalizing high with
  | nil => simp [readDigits]
  | cons c cs ih =>
    obtain ⟨hc, hcs⟩ := List.forall_mem_cons.mp h
    rw [readDigits, digit?_of_isDigit hc, Option.bind_some, ih hcs, Nat.ofDigitChars_cons]
    simp [Nat.mul_comm]

theorem toList_toString (n : Nat) : (toString n).toList = Nat.toDigits 10 n :=
  Nat.toList_repr

theorem isDigit_of_mem_toString {n : Nat} : ∀ c ∈ (toString n).toList, c.isDigit = true := by
  intro c hc
  rw [toList_toString] at hc
  exact Nat.isDigit_of_mem_toDigits (by decide) (by decide) hc

/-- `decimal?` reads what `toString` writes. -/
theorem decimal?_toString (n : Nat) : decimal? (toString n) = some n := by
  have hlist := toList_toString n
  have hdigits : ∀ c ∈ Nat.toDigits 10 n, c.isDigit = true := hlist ▸ isDigit_of_mem_toString
  have hlast : (Nat.toDigits 10 n).getLast? ≠ some '\n' := by
    intro h
    have := hdigits _ (List.mem_of_getLast? h)
    simp at this
  have hne : Nat.toDigits 10 n ≠ [] := Nat.toDigits_ne_nil
  rw [decimal?, hlist, dropFinalNewline, if_neg hlast]
  cases hcs : Nat.toDigits 10 n with
  | nil => exact absurd hcs hne
  | cons c cs =>
    change readDigits 0 (c :: cs) = _
    rw [← hcs, readDigits_of_isDigit hdigits, Nat.ofDigitChars_ten_toDigits]

/-- No digit is one of the characters that `endsAtom`. -/
theorem endsAtom_of_isDigit {c : Char} (h : c.isDigit = true) : Scan.endsAtom c = false := by
  have hc : 0x30 ≤ c.toNat ∧ c.toNat ≤ 0x39 := by
    rw [Char.isDigit, Bool.and_eq_true, decide_eq_true_eq, decide_eq_true_eq] at h
    exact h
  have hblank : isBlank c = false := by
    simp [isBlank, inRanges, blankRanges]
    omega
  have hne {d : Char} (hd : d.toNat < 0x30 ∨ 0x39 < d.toNat) : c ≠ d := by
    rintro rfl
    omega
  simp [Scan.endsAtom, hblank, hne (show ('(').toNat < 0x30 ∨ _ from .inl (by decide)),
    hne (show (')').toNat < 0x30 ∨ _ from .inl (by decide)),
    hne (show _ ∨ 0x39 < (';').toNat from .inr (by decide))]

end Text

/-- `toString` of a number is an atom. -/
theorem isAtom_toString (n : Nat) : IsAtom (toString n) := by
  refine .inl ⟨Text.toList_toString n ▸ Nat.toDigits_ne_nil, fun h => ?_, fun c hc => ?_⟩
  · have := Text.isDigit_of_mem_toString _ (List.mem_of_head? h)
    simp at this
  · exact Text.endsAtom_of_isDigit (Text.isDigit_of_mem_toString c hc)

/-- The characters of a string that `closesAtEnd` end in a quote. -/
theorem getLast?_of_closesAtEnd {escaped : Bool} {cs : List Char}
    (h : closesAtEnd escaped cs = true) : cs.getLast? = some '"' := by
  induction cs generalizing escaped with
  | nil => cases escaped <;> cases h
  | cons c cs ih =>
    have hcons (hne : cs ≠ []) : (c :: cs).getLast? = cs.getLast? := by
      cases cs with
      | nil => exact absurd rfl hne
      | cons d ds => rw [List.getLast?_cons_cons]
    have hne {escaped : Bool} (h : closesAtEnd escaped cs = true) : cs ≠ [] := by
      rintro rfl
      cases escaped <;> cases h
    cases escaped with
    | true => exact (hcons (hne h)).trans (ih h)
    | false =>
      rw [closesAtEnd] at h
      split at h
      · exact (hcons (hne h)).trans (ih h)
      · split at h
        · next hquote =>
          rw [List.isEmpty_iff] at h
          rw [h, hquote]
          rfl
        · exact (hcons (hne h)).trans (ih h)

theorem IsAtom.getLast?_ne {text : String} (h : IsAtom text) :
    text.toList.getLast? ≠ some '\n' := by
  rcases h with ⟨-, -, hends⟩ | ⟨body, hbody, hcloses⟩
  · intro hlast
    have := hends _ (List.mem_of_getLast? hlast)
    revert this
    decide
  · have hlast := getLast?_of_closesAtEnd hcloses
    cases body with
    | nil => cases hlast
    | cons c cs => rw [hbody, List.getLast?_cons_cons, hlast]; decide

theorem IsAtom.toList_ne_nil {text : String} (h : IsAtom text) : text.toList ≠ [] := by
  rcases h with ⟨hne, -, -⟩ | ⟨body, hbody, -⟩
  · exact hne
  · rw [hbody]
    exact List.cons_ne_nil _ _

/-- An atom is a number if and only if it consists of decimal digits: these are `isDigit`. -/
theorem decimal?_isSome_iff {text : String} (h : IsAtom text) :
    (Text.decimal? text).isSome ↔ ∀ c ∈ text.toList, Text.isDigit c = true := by
  rw [Text.decimal?, Text.dropFinalNewline, if_neg h.getLast?_ne]
  cases hcs : text.toList with
  | nil => exact absurd hcs h.toList_ne_nil
  | cons c cs => exact Text.readDigits_isSome_iff

end Casewise

import Casewise.Proofs.Reading.Readable

/-!
# What stands between quotes

The text of a string is what stands between the quotes of an atom. So no quote in it is free, and
its last character is not a backslash that takes the closing quote along. Putting such texts one
after the other gives such a text, and so do the digits of a number: whatever strings a program
computes can be written between quotes and read again.

## Main definitions

* `Text.IsStringBody`: texts that stand between quotes.

## Main statements

* `Text.IsStringBody.append`: texts that stand between quotes may be put together.
* `Text.isStringBody_unquoted`: what a quoted name stands for is such a text.
* `Text.IsStringBody.scan`: such a text between quotes is a single atom.
-/

namespace Casewise

/-- After the text, a quote closes a string that was opened before it. -/
def Text.IsStringBody (text : String) : Prop :=
  closesAtEnd false (text.toList ++ ['"']) = true

/-- Characters after which a quote closes a string (`closesAtEnd`) leave it open for more
characters, with no backslash that takes the next one along. -/
theorem closesAtEnd_of_quote {escaped : Bool} {cs : List Char}
    (h : closesAtEnd escaped (cs ++ ['"']) = true) (rest : List Char) :
    closesAtEnd escaped (cs ++ rest) = closesAtEnd false rest := by
  induction cs generalizing escaped with
  | nil =>
    cases escaped with
    | true => cases h
    | false => rfl
  | cons c cs ih =>
    cases escaped with
    | true =>
      rw [List.cons_append, closesAtEnd] at h ⊢
      exact ih h
    | false =>
      rw [List.cons_append, closesAtEnd] at h ⊢
      split
      · next hback =>
        rw [if_pos hback] at h
        exact ih h
      · next hback =>
        rw [if_neg hback] at h
        split
        · next hquote =>
          -- a free quote among the characters would have closed the string before its end
          rw [if_pos hquote, List.isEmpty_iff] at h
          simp at h
        · next hquote =>
          rw [if_neg hquote] at h
          exact ih h

/-- Characters of which none is a quote or a backslash leave a string open. -/
theorem closesAtEnd_of_plain {cs : List Char} (h : ∀ c ∈ cs, c ≠ '"' ∧ c ≠ '\\') :
    closesAtEnd false (cs ++ ['"']) = true := by
  induction cs with
  | nil => rfl
  | cons c cs ih =>
    obtain ⟨⟨hquote, hback⟩, hcs⟩ := List.forall_mem_cons.mp h
    rw [List.cons_append, closesAtEnd, if_neg hback, if_neg hquote]
    exact ih hcs

namespace Text

/-- A text is an `IsStringBody` if it is an atom between quotes. -/
theorem isStringBody_iff {text : String} : IsStringBody text ↔ IsAtom ("\"" ++ text ++ "\"") := by
  have hlist : ("\"" ++ text ++ "\"").toList = '"' :: (text.toList ++ ['"']) := by simp
  constructor
  · intro h
    exact .inr ⟨text.toList ++ ['"'], hlist, h⟩
  · rintro (h | ⟨body, hbody, hcloses⟩)
    · have hhead := h.head?_ne
      rw [hlist] at hhead
      exact absurd rfl hhead
    · rw [hlist] at hbody
      rw [IsStringBody, (List.cons.inj hbody).2]
      exact hcloses

/-- Texts that stand between quotes may be put together. -/
theorem IsStringBody.append {s t : String} (hs : IsStringBody s) (ht : IsStringBody t) :
    IsStringBody (s ++ t) := by
  rw [IsStringBody, String.toList_append, List.append_assoc, closesAtEnd_of_quote hs]
  exact ht

/-- The digits of a number are an `IsStringBody`. -/
theorem isStringBody_toString (n : Nat) : IsStringBody (toString n) := by
  have hlist : (toString n).toList = Nat.toDigits 10 n := Nat.toList_repr
  refine closesAtEnd_of_plain fun c hc => ?_
  rw [hlist] at hc
  have hdigit : c.isDigit = true := Nat.isDigit_of_mem_toDigits (by decide) (by decide) hc
  constructor
  · rintro rfl
    revert hdigit
    decide
  · rintro rfl
    revert hdigit
    decide

/-- An atom that `isQuoted` ends with another quote. -/
theorem isStringLiteral_of_isQuoted {name : String} (h : IsAtom name)
    (hquoted : isQuoted name = true) : isStringLiteral name = true := by
  rw [isQuoted, decide_eq_true_eq] at hquoted
  rcases h with h | ⟨body, hname, hbody⟩
  · exact absurd hquoted h.head?_ne
  · rw [isStringLiteral, hname]
    simpa using getLast?_of_closesAtEnd hbody

/-- What a quoted name stands for is an `IsStringBody`. -/
theorem isStringBody_unquoted {name : String} (h : IsAtom name) (hquoted : isQuoted name = true) :
    IsStringBody (unquoted name) := by
  rw [isStringBody_iff, quoted_unquoted (isStringLiteral_of_isQuoted h hquoted)]
  exact h

theorem isQuoted_quoted (text : String) : isQuoted ("\"" ++ text ++ "\"") = true := by
  simp [isQuoted]

theorem ne_of_isQuoted {name text : String} (h : isQuoted name = true)
    (htext : isQuoted text = false) : name ≠ text := by
  rintro rfl
  rw [h] at htext
  cases htext

/-- A name that `isQuoted` is no number. -/
theorem decimal?_of_isQuoted {name : String} (h : isQuoted name = true) :
    decimal? name = none := by
  rw [isQuoted, decide_eq_true_eq] at h
  obtain ⟨rest, hname⟩ := List.head?_eq_some_iff.mp h
  -- a line feed at the end is not the quote in front
  have hfront : ∃ rest', dropFinalNewline ('"' :: rest) = '"' :: rest' := by
    rw [dropFinalNewline]
    split
    · next hlast =>
      cases rest with
      | nil => cases hlast
      | cons c rest => exact ⟨_, rfl⟩
    · exact ⟨rest, rfl⟩
  obtain ⟨rest', hrest⟩ := hfront
  rw [decimal?, hname, hrest]
  rfl

/-- A text that `isStringLiteral` starts with a quote. -/
theorem isQuoted_of_isStringLiteral {name : String} (h : isStringLiteral name = true) :
    isQuoted name = true := by
  rw [isStringLiteral.eq_def] at h
  split at h
  · next rest hname => rw [isQuoted, hname, List.head?_cons, decide_eq_true rfl]
  · cases h

/-- Between quotes, an `IsStringBody` is scanned as a single atom. -/
theorem IsStringBody.scan {text : String} (h : IsStringBody text) (file : String) :
    ∃ stream, Casewise.scan file ("\"" ++ text ++ "\"") = .ok stream ∧
      stream.tokens.map Token.lexeme = [.atom ("\"" ++ text ++ "\"")] := by
  have hspelt : Spelt ("\"" ++ text ++ "\"") [.atom ("\"" ++ text ++ "\"")] :=
    .atom (isStringBody_iff.mp h)
  exact hspelt.spells.scan file

end Text

end Casewise

/-!
# Decimal digits of every script

A number is written with the decimal digits of any script: each script that has decimal digits has
ten of them in a row, so a table of the zeros settles both which characters are digits and what
they are worth. Superscripts, circled digits and fractions are not decimal digits.

`decimal?` reads a whole text as a number. A single line feed after the last digit is tolerated and
not part of the number; any other character makes the text something else. What `decimal?` reads is
what the text writes, however long it is; `digitCount` is the length that the limit of
`Declared.converted` is about, so a number beyond the limit is known and not converted.

## Main statements

* `digit?_of_isDigit`, `isDigit_of_isDigit`: on the digits of the core library, the two notions of
  digit and of its worth agree.
-/

namespace Casewise.Text

/-- The code points of the zeros of all scripts with decimal digits, in increasing order. The nine
code points after each are its further digits. -/
def digitZeros : List Nat :=
  [0x30, 0x660, 0x6F0, 0x7C0, 0x966, 0x9E6, 0xA66, 0xAE6, 0xB66, 0xBE6, 0xC66, 0xCE6, 0xD66,
   0xDE6, 0xE50, 0xED0, 0xF20, 0x1040, 0x1090, 0x17E0, 0x1810, 0x1946, 0x19D0, 0x1A80, 0x1A90,
   0x1B50, 0x1BB0, 0x1C40, 0x1C50, 0xA620, 0xA8D0, 0xA900, 0xA9D0, 0xA9F0, 0xAA50, 0xABF0,
   0xFF10, 0x104A0, 0x10D30, 0x11066, 0x110F0, 0x11136, 0x111D0, 0x112F0, 0x11450, 0x114D0,
   0x11650, 0x116C0, 0x11730, 0x118E0, 0x11950, 0x11C50, 0x11D50, 0x11DA0, 0x16A60, 0x16AC0,
   0x16B50, 0x1D7CE, 0x1D7D8, 0x1D7E2, 0x1D7EC, 0x1D7F6, 0x1E140, 0x1E2F0, 0x1E950, 0x1FBF0]

/-- What the decimal digit `c` is worth, if it is one. -/
def digit? (c : Char) : Option Nat :=
  (digitZeros.find? fun z => z ≤ c.toNat && c.toNat ≤ z + 9).map (c.toNat - ·)

/-- Whether `c` is a decimal digit. -/
def isDigit (c : Char) : Bool :=
  (digit? c).isSome

theorem digit?_of_isDigit {c : Char} (h : c.isDigit = true) : digit? c = some (c.toNat - 0x30) := by
  have hc : 0x30 ≤ c.toNat ∧ c.toNat ≤ 0x30 + 9 := by
    rw [Char.isDigit, Bool.and_eq_true, decide_eq_true_eq, decide_eq_true_eq] at h
    exact h
  simp [digit?, digitZeros, hc]

/-- Every character that is `Char.isDigit` is a decimal digit. -/
theorem isDigit_of_isDigit {c : Char} (h : c.isDigit = true) : isDigit c = true := by
  simp [isDigit, digit?_of_isDigit h]

/-- The number whose decimal digits are `digits`, most significant first, after `high` has been
read already. -/
def readDigits (high : Nat) : List Char → Option Nat
  | [] => some high
  | c :: rest => (digit? c).bind fun d => readDigits (high * 10 + d) rest

/-- The characters before a final line feed, or all of them if there is none. -/
def dropFinalNewline (cs : List Char) : List Char :=
  if cs.getLast? = some '\n' then cs.dropLast else cs

/-- The number that `text` writes: one decimal digit or more, and at most one line feed after. -/
def decimal? (text : String) : Option Nat :=
  match dropFinalNewline text.toList with
  | [] => none
  | c :: rest => readDigits 0 (c :: rest)

/-- How many digits `text` has if it writes a number. Zeros in front count, and the line feed after
the last digit does not. -/
def digitCount (text : String) : Nat :=
  (dropFinalNewline text.toList).length

end Casewise.Text

import Mathlib.Algebra.Group.Nat.Defs
import Casewise.Text.Quoted

/-!
# Reading quoted texts back

A quoted text tells which text it quotes: what stands between the quotes falls into escapes, and
each of them stands for one character, however the text goes on. There is no control character in a
quoted text, so it stands on one line.

## Main definitions

* `Text.unescape`: the first character that escapes stand for.

## Main statements

* `Text.unescape_escapeChar`: an escape stands for the character it was made from.
* `Text.quoted_inj`: different texts are quoted differently.
* `Text.le_of_mem_quoted`: the characters of quoted texts.
-/

namespace Casewise.Text

/-! ### Hexadecimal digits -/

/-- The value of a hexadecimal digit. -/
def hexValue (c : Char) : Nat :=
  "0123456789abcdef".toList.idxOf c

/-- The number that hexadecimal digits write. -/
def ofHex (digits : List Char) : Nat :=
  digits.foldl (fun n c => n * 16 + hexValue c) 0

theorem hexValue_digitChar : ∀ d < 16, hexValue d.digitChar = d := by
  decide

theorem length_hexDigits (width n : Nat) : (hexDigits width n).length = width := by
  induction width generalizing n with
  | zero => rfl
  | succ width ih => rw [hexDigits, List.length_append, ih, List.length_singleton]

/-- `hexDigits` of a number write what of it fits into them. -/
theorem ofHex_hexDigits (width n : Nat) : ofHex (hexDigits width n) = n % 16 ^ width := by
  induction width generalizing n with
  | zero => rw [Nat.pow_zero, Nat.mod_one]; rfl
  | succ width ih =>
    have hdigit := hexValue_digitChar (n % 16) (Nat.mod_lt n (by decide))
    have hstep : ofHex (hexDigits (width + 1) n) =
        ofHex (hexDigits width (n / 16)) * 16 + n % 16 := by
      rw [ofHex, hexDigits, List.foldl_append, List.foldl_cons, List.foldl_nil, hdigit, ofHex]
    rw [hstep, ih, Nat.pow_succ, Nat.mul_comm (16 ^ width) 16, Nat.mod_mul, Nat.mul_comm,
      Nat.add_comm]

theorem le_of_mem_hexDigits {width n : Nat} {c : Char} (h : c ∈ hexDigits width n) :
    0x20 ≤ c.toNat := by
  induction width generalizing n with
  | zero => cases h
  | succ width ih =>
    rw [hexDigits, List.mem_append, List.mem_singleton] at h
    rcases h with h | rfl
    · exact ih h
    · have hdigits : ∀ d < 16, 0x20 ≤ d.digitChar.toNat := by decide
      exact hdigits (n % 16) (Nat.mod_lt n (by decide))

/-! ### Escapes -/

/-- The character whose code point the first `width` characters write, and the characters behind
them. -/
def unescapeCodePoint (width : Nat) (cs : List Char) : Char × List Char :=
  (Char.ofNat (ofHex (cs.take width)), cs.drop width)

/-- The character that the escape at the beginning of the characters stands for, and the characters
behind the escape. -/
def unescape : (cs : List Char) → Option (Char × List Char)
  | [] => none
  | ['\\'] => none
  | '\\' :: 'n' :: rest => some ('\n', rest)
  | '\\' :: 'r' :: rest => some ('\r', rest)
  | '\\' :: 't' :: rest => some ('\t', rest)
  | '\\' :: 'x' :: rest => some (unescapeCodePoint 2 rest)
  | '\\' :: 'u' :: rest => some (unescapeCodePoint 4 rest)
  | '\\' :: 'U' :: rest => some (unescapeCodePoint 8 rest)
  | '\\' :: c :: rest => some (c, rest)
  | c :: rest => some (c, rest)

/-- `hexDigits` write a code point, if there are as many as it needs. -/
theorem unescapeCodePoint_hexDigits {width : Nat} {c : Char} (h : c.toNat < 16 ^ width)
    (rest : List Char) : unescapeCodePoint width (hexDigits width c.toNat ++ rest) = (c, rest) := by
  have hlength := length_hexDigits width c.toNat
  rw [unescapeCodePoint, List.take_left' hlength, List.drop_left' hlength, ofHex_hexDigits,
    Nat.mod_eq_of_lt h, Char.ofNat_toNat]

/-- `codePointEscape` stands for the character. -/
theorem unescape_codePointEscape (c : Char) (rest : List Char) :
    unescape (codePointEscape c ++ rest) = some (c, rest) := by
  rw [codePointEscape]
  split
  · next hbyte =>
    exact congrArg some (unescapeCodePoint_hexDigits (Nat.lt_of_le_of_lt hbyte (by decide)) rest)
  · split
    · next hshort =>
      exact congrArg some (unescapeCodePoint_hexDigits (Nat.lt_of_le_of_lt hshort (by decide)) rest)
    · have hlong : c.toNat < 16 ^ 8 := c.val.toNat_lt
      exact congrArg some (unescapeCodePoint_hexDigits hlong rest)

/-- What `escapeChar` writes for a character between quotes is read as the character, whatever
follows. -/
theorem unescape_escapeChar {quote : Char} (hquote : quote = '\'' ∨ quote = '"') (c : Char)
    (rest : List Char) : unescape (escapeChar quote c ++ rest) = some (c, rest) := by
  rw [escapeChar]
  split
  · next hself =>
    rw [Bool.or_eq_true, decide_eq_true_eq, decide_eq_true_eq] at hself
    rcases hself with rfl | rfl
    · rcases hquote with rfl | rfl <;> rfl
    · rfl
  · next hself =>
    rw [Bool.or_eq_true, decide_eq_true_eq, decide_eq_true_eq, not_or] at hself
    split
    · next hc => rw [hc]; rfl
    · split
      · next hc => rw [hc]; rfl
      · split
        · next hc => rw [hc]; rfl
        · split
          · rw [List.singleton_append, unescape.eq_def]
            split <;> simp_all
          · exact unescape_codePointEscape c rest

theorem escapeChar_ne_nil {quote : Char} (hquote : quote = '\'' ∨ quote = '"') (c : Char) :
    escapeChar quote c ≠ [] := by
  intro h
  have hread := unescape_escapeChar hquote c []
  rw [h] at hread
  cases hread

/-- What stands between quotes tells the characters it stands for: `escapeChar` is injective on
texts. -/
theorem flatMap_escapeChar_inj {quote : Char} (hquote : quote = '\'' ∨ quote = '"') :
    ∀ {cs ds : List Char}, cs.flatMap (escapeChar quote) = ds.flatMap (escapeChar quote) → cs = ds
  | [], [], _ => rfl
  | [], d :: ds, h => by
    rw [List.flatMap_nil, List.flatMap_cons] at h
    exact absurd (List.append_eq_nil_iff.mp h.symm).1 (escapeChar_ne_nil hquote d)
  | c :: cs, [], h => by
    rw [List.flatMap_nil, List.flatMap_cons] at h
    exact absurd (List.append_eq_nil_iff.mp h).1 (escapeChar_ne_nil hquote c)
  | c :: cs, d :: ds, h => by
    have hread := congrArg unescape h
    rw [List.flatMap_cons, List.flatMap_cons, unescape_escapeChar hquote,
      unescape_escapeChar hquote, Option.some.injEq, Prod.mk.injEq] at hread
    rw [hread.1, flatMap_escapeChar_inj hquote hread.2]

/-- A character that `isPrintable` is no control character. -/
theorem le_of_isPrintable {c : Char} (h : isPrintable c = true) : 0x20 ≤ c.toNat := by
  rw [isPrintable, Bool.not_eq_true', inRanges, List.any_eq_false] at h
  have hcontrol := h (0x00, 0x1F) List.mem_cons_self
  simp only [Bool.and_eq_true, decide_eq_true_eq, not_and, Nat.not_le] at hcontrol
  exact hcontrol (Nat.zero_le _)

/-- `codePointEscape` writes no control characters. -/
theorem le_of_mem_codePointEscape {c d : Char} (h : d ∈ codePointEscape c) : 0x20 ≤ d.toNat := by
  have hmark {mark : Char} (hmark : 0x20 ≤ mark.toNat) {width n : Nat}
      (h : d ∈ '\\' :: mark :: hexDigits width n) : 0x20 ≤ d.toNat := by
    rw [List.mem_cons, List.mem_cons] at h
    rcases h with rfl | rfl | h
    · decide
    · exact hmark
    · exact le_of_mem_hexDigits h
  rw [codePointEscape] at h
  split at h
  · exact hmark (by decide) h
  · split at h
    · exact hmark (by decide) h
    · exact hmark (by decide) h

/-- `escapeChar` writes no control characters. -/
theorem le_of_mem_escapeChar {quote c d : Char} (hquote : 0x20 ≤ quote.toNat)
    (h : d ∈ escapeChar quote c) : 0x20 ≤ d.toNat := by
  have hpair {mark : Char} (hmark : 0x20 ≤ mark.toNat) (h : d ∈ ['\\', mark]) : 0x20 ≤ d.toNat := by
    rw [List.mem_cons, List.mem_singleton] at h
    rcases h with rfl | rfl
    · decide
    · exact hmark
  rw [escapeChar] at h
  split at h
  · next hself =>
    rw [Bool.or_eq_true, decide_eq_true_eq, decide_eq_true_eq] at hself
    rcases hself with rfl | rfl
    · exact hpair hquote h
    · exact hpair (by decide) h
  · split at h
    · exact hpair (by decide) h
    · split at h
      · exact hpair (by decide) h
      · split at h
        · exact hpair (by decide) h
        · split at h
          · next hprintable =>
            rw [List.mem_singleton.mp h]
            exact le_of_isPrintable hprintable
          · exact le_of_mem_codePointEscape h

/-! ### Quotes -/

/-- `quoteFor` chooses single or double quotes. -/
theorem quoteFor_cases (text : List Char) : quoteFor text = '\'' ∨ quoteFor text = '"' := by
  rw [quoteFor]
  split
  · exact .inr rfl
  · exact .inl rfl

theorem toList_quoted (text : String) :
    (quoted text).toList = quoteFor text.toList ::
      text.toList.flatMap (escapeChar (quoteFor text.toList)) ++ [quoteFor text.toList] :=
  String.toList_ofList

/-- Different texts are `quoted` differently. -/
theorem quoted_inj {text text' : String} : quoted text = quoted text' ↔ text = text' := by
  refine ⟨fun h => ?_, fun h => by rw [h]⟩
  have hchars := congrArg String.toList h
  rw [toList_quoted, toList_quoted, List.cons_append, List.cons_append, List.cons.injEq] at hchars
  obtain ⟨hquote, hinside⟩ := hchars
  rw [← hquote, List.append_cancel_right_eq] at hinside
  exact String.toList_inj.mp (flatMap_escapeChar_inj (quoteFor_cases _) hinside)

/-- There is no control character in a `quoted` text. -/
theorem le_of_mem_quoted {text : String} {c : Char} (h : c ∈ (quoted text).toList) :
    0x20 ≤ c.toNat := by
  have hself : 0x20 ≤ (quoteFor text.toList).toNat := by
    rcases quoteFor_cases text.toList with heq | heq <;> rw [heq] <;> decide
  rw [toList_quoted, List.mem_append, List.mem_cons, List.mem_singleton, List.mem_flatMap] at h
  rcases h with (rfl | ⟨d, -, hd⟩) | rfl
  · exact hself
  · exact le_of_mem_escapeChar hself hd
  · exact hself

end Casewise.Text

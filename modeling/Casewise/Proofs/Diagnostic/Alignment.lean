import Casewise.Proofs.Diagnostic.Underline

/-!
# Aligned excerpts

The line on which a place starts is shown behind its number and a bar, the carets under it behind
blanks and a bar. The number is brought to four characters, and there are as many blanks as this
takes. So the bars stand one below the other, and the carets below the characters that they mark, as
long as a number has four digits. The number of a line further down has more, and each digit beyond
the fourth moves the line that is shown one column to the right, but not the carets below it.

## Main definitions

* `Diagnostic.barColumn`, `Diagnostic.charColumn`: where the bar and the characters of a line stand.
* `Diagnostic.IsAligned`: excerpts with the carets below the characters that they mark.

## Main statements

* `Diagnostic.isAligned_excerpt_iff`: the excerpts of the lines before the line 10000 are aligned,
  the others are not.
* `Diagnostic.excerpt_shifted`: where everything stands in an excerpt.
-/

namespace Casewise

/-! ### Widths -/

namespace Text

theorem length_alignRight (width : Nat) (text : String) :
    (alignRight width text).length = max width text.length := by
  rw [alignRight, repeated, String.length_append, String.length_ofList, List.length_replicate]
  omega

theorem length_toString_le_four_iff {n : Int} (hn : 0 ≤ n) :
    (toString n).length ≤ 4 ↔ n < 10000 := by
  obtain ⟨m, rfl⟩ := Int.eq_ofNat_of_zero_le hn
  have hdigits : (Nat.toDigits 10 m).length ≤ 4 ↔ m < 10 ^ 4 :=
    Nat.length_toDigits_le_iff (by decide) (by decide)
  change (toString m).length ≤ 4 ↔ _
  rw [← String.length_toList, toList_toString, hdigits]
  omega

end Text

namespace Diagnostic

/-! ### Columns -/

/-- The column in which the first bar of a line stands, counted from zero. -/
def barColumn (shown : String) : Nat :=
  shown.toList.idxOf '|'

/-- The column in which a line shows, behind its bar and a blank, what belongs into the column `col`
of the source, where columns are counted from one. -/
def charColumn (shown : String) (col : Int) : Int :=
  barColumn shown + 1 + col

/-- The two lines `shown` and `marks` of an excerpt of the line `line` are aligned: the bars stand
in the same column, and carets stand exactly in the columns that show the characters of the
place. -/
structure IsAligned (span : Span) (line shown marks : String) : Prop where
  /-- The bars stand in the same column. -/
  bars : barColumn shown = barColumn marks
  /-- There is a caret in the column of each character that the place marks, and nowhere else. -/
  carets : ∀ column : Nat, marks.toList[column]? = some '^' ↔
    ∃ i < caretCount span line, (column : Int) = charColumn shown (span.first.col + i)

theorem barColumn_append {before : String} (h : '|' ∉ before.toList) (behind : String) :
    barColumn (before ++ "| " ++ behind) = before.length := by
  rw [barColumn, String.append_assoc, String.toList_append, List.idxOf_append_of_notMem h,
    String.length_toList]
  simp

theorem getElem?_append_bar (before behind : String) (j : Nat) :
    (before ++ "| " ++ behind).toList[before.length + 2 + j]? = behind.toList[j]? := by
  have hfront : (before ++ "| ").toList.length = before.length + 2 := by
    rw [String.length_toList, String.length_append]
    rfl
  rw [String.toList_append, List.getElem?_append_right (by omega), hfront, Nat.add_sub_cancel_left]

/-- Behind other elements, `n` copies of an element stand in the next `n` places. -/
theorem getElem?_append_replicate {α : Type} {as : List α} {a : α} (h : a ∉ as) (n column : Nat) :
    (as ++ List.replicate n a)[column]? = some a ↔ ∃ i < n, column = as.length + i := by
  rw [List.getElem?_append]
  split
  · next hcolumn =>
    refine iff_of_false (fun hget => h (List.mem_of_getElem? hget)) ?_
    rintro ⟨i, -, rfl⟩
    omega
  · next hcolumn =>
    rw [List.getElem?_replicate]
    constructor
    · intro hget
      split at hget
      · next hlt => exact ⟨column - as.length, hlt, by omega⟩
      · cases hget
    · rintro ⟨i, hi, rfl⟩
      rw [if_pos (by omega)]

section Excerpt

variable {span : Span} {line : String}

/-- The bar behind `gutter number` stands behind the number, which takes four characters or more. -/
theorem barColumn_gutter {number : Int} (h : 0 ≤ number) (line : String) :
    barColumn (gutter number ++ "| " ++ line) = max 4 (toString number).length + 3 := by
  rw [barColumn_append (bar_notMem_gutter h), gutter, String.length_append, String.length_append,
    Text.length_alignRight, show "  ".length = 2 from rfl, show " ".length = 1 from rfl]
  omega

theorem barColumn_caretLine (span : Span) (line : String) :
    barColumn (caretLine span line) = 7 := by
  rw [caretLine, String.append_assoc, barColumn_append (by decide)]
  rfl

/-- Where the carets of `caretLine` stand: in the columns of the characters of the span. -/
theorem getElem?_caretLine (hcol : 1 ≤ span.first.col) (line : String) (column : Nat) :
    (caretLine span line).toList[column]? = some '^' ↔
      ∃ i < caretCount span line,
        (column : Int) = charColumn (caretLine span line) (span.first.col + i) := by
  have hfront : '^' ∉ ("       " ++ "| ").toList ++
      List.replicate (span.first.col - 1).toNat ' ' := by
    rw [List.mem_append, List.mem_replicate, not_or]
    exact ⟨by decide, fun h => absurd h.2 (by decide)⟩
  have hlength : ("       " ++ "| ").toList.length = 9 := rfl
  rw [caretLine, String.toList_append, String.toList_append, Text.repeated, Text.repeated,
    String.toList_ofList, String.toList_ofList, getElem?_append_replicate hfront,
    List.length_append, hlength, List.length_replicate]
  refine exists_congr fun i => and_congr_right fun _ => ?_
  rw [← Text.repeated, ← Text.repeated, ← caretLine, charColumn, barColumn_caretLine]
  omega

/-- The `barColumn` of the line that is shown is moved by the digits of its number beyond the
fourth. -/
theorem barColumn_shift (hline : 0 ≤ span.first.line) (line : String) :
    barColumn (gutter span.first.line ++ "| " ++ line) =
      barColumn (caretLine span line) + ((toString span.first.line).length - 4) := by
  rw [barColumn_gutter hline, barColumn_caretLine]
  omega

/-- The excerpt of a line is `IsAligned` if and only if its number has at most four digits. -/
theorem isAligned_excerpt_iff (hline : 0 ≤ span.first.line) (hcol : 1 ≤ span.first.col)
    (line : String) :
    IsAligned span line (gutter span.first.line ++ "| " ++ line) (caretLine span line) ↔
      span.first.line < 10000 := by
  -- both bars are in the same column if the number has no fifth digit, and this decides the rest
  have hdigits : (toString span.first.line).length ≤ 4 ↔ span.first.line < 10000 :=
    Text.length_toString_le_four_iff hline
  have hbars : barColumn (gutter span.first.line ++ "| " ++ line) =
      barColumn (caretLine span line) ↔
      span.first.line < 10000 := by
    rw [barColumn_shift hline, ← hdigits]
    omega
  constructor
  · intro h
    exact hbars.mp h.bars
  · intro h
    refine ⟨hbars.mpr h, fun column => ?_⟩
    rw [getElem?_caretLine hcol]
    refine exists_congr fun i => and_congr_right fun _ => ?_
    rw [charColumn, charColumn, hbars.mpr h]

/-- Where everything stands that `Diagnostic.render` shows of a place without color, in any text
that has the line on which the place starts. Behind the bar of the first line, `shown`, and a blank
stands the line of the text. Carets stand in the second line, `marks`, in the columns that belong to
the characters of the place, counted from its bar. The first line is moved against the second by the
digits of the line number beyond the fourth. So the two are `IsAligned`, with the bars one below the
other and each caret below the character that it marks, if and only if the line number is less than
10000. -/
theorem excerpt_shifted {source : String → Option String} {text : String} {d : Diagnostic}
    (hsource : source span.file = some text)
    (hline : line? (Text.lines text) span.first.line = some line) (hcol : 1 ≤ span.first.col)
    (hspan : span ∈ d.labels) :
    ∃ lines shown marks, d.render false source = Text.joined "\n" lines ∧
      ["  --> " ++ span.location, shown, marks] <:+: lines ∧
      excerpt false span line = [shown, marks] ∧
      (∀ j : Nat, shown.toList[barColumn shown + 2 + j]? = line.toList[j]?) ∧
      (∀ column : Nat, marks.toList[column]? = some '^' ↔
        ∃ i < caretCount span line, (column : Int) = charColumn marks (span.first.col + i)) ∧
      barColumn shown = barColumn marks + ((toString span.first.line).length - 4) ∧
      (IsAligned span line shown marks ↔ span.first.line < 10000) := by
  have hnumber : 0 ≤ span.first.line := by
    rw [line?] at hline
    split at hline
    · omega
    · cases hline
  obtain ⟨lines, hrender, hshown⟩ := exists_render_label false source hspan
  rw [hsource, Option.map_some, Option.getD_some, label_of_line? hline] at hshown
  refine ⟨lines, _, _, hrender, hshown, excerpt_eq span line, fun j => ?_,
    getElem?_caretLine hcol line, barColumn_shift hnumber line,
    isAligned_excerpt_iff hnumber hcol line⟩
  rw [barColumn_append (bar_notMem_gutter hnumber), getElem?_append_bar]

end Excerpt

private theorem line?_replicate (n : Nat) :
    line? (Text.lines (String.ofList (List.replicate n '\n' ++ ['x']))) (n + 1) = some "x" := by
  have hbreaks : ∀ c ∈ List.replicate n '\n' ++ ['x'], Text.isLineBreak c = true → c = '\n' := by
    intro c hc hbreak
    rcases List.mem_append.mp hc with hc | hc
    · exact (List.mem_replicate.mp hc).2
    · rw [List.mem_singleton.mp hc] at hbreak
      cases hbreak
  have hsplit := Text.getElem?_splitLines hbreaks (List.cons_ne_nil _ _)
  have hfront : (List.replicate n '\n').rtakeWhile (· ≠ '\n') = [] := by
    rw [List.rtakeWhile, List.reverse_replicate]
    cases n <;> rfl
  rw [List.count_replicate_self, Text.lineAround, hfront] at hsplit
  rw [line?, if_pos (by omega), Int.add_sub_cancel, Int.toNat_natCast, Text.lines,
    String.toList_ofList, List.getElem?_map, hsplit]
  rfl

/-- A text with one character, in its line 10000. -/
private def lateText : String :=
  String.ofList (List.replicate 9999 '\n' ++ ['x'])

/-- The place of this character. -/
private def lateSpan : Span :=
  ⟨"main", ⟨10000, 1⟩, ⟨10000, 1⟩⟩

private theorem line?_lateText : line? (Text.lines lateText) lateSpan.first.line = some "x" :=
  line?_replicate 9999

/-- In the excerpt of `lateSpan` the line is moved by one column, so that the caret stands below the
blank in front of the character. -/
theorem excerpt_shifted_lateText :
    ∃ shown marks, excerpt false lateSpan "x" = [shown, marks] ∧
      shown.toList[barColumn shown + 2]? = some 'x' ∧ barColumn shown = barColumn marks + 1 ∧
      ¬ IsAligned lateSpan "x" shown marks := by
  obtain ⟨lines, shown, marks, -, -, hexcerpt, hchars, -, hshift, haligned⟩ :=
    @excerpt_shifted lateSpan "x" (fun _ => some lateText) lateText
      { code := "E1", message := "m", labels := [lateSpan] } rfl line?_lateText (by decide)
      (List.mem_singleton_self _)
  refine ⟨shown, marks, hexcerpt, hchars 0, hshift, fun h => ?_⟩
  exact absurd (haligned.mp h) (by decide)

/-- So not every excerpt is aligned: the one of `lateSpan`, in line 10000, is not. -/
theorem not_isAligned_lateText :
    ¬ ∀ (source : String → Option String) (span : Span) (text line : String) (d : Diagnostic),
      source span.file = some text → line? (Text.lines text) span.first.line = some line →
      1 ≤ span.first.col → span ∈ d.labels →
      ∃ lines shown marks, d.render false source = Text.joined "\n" lines ∧
        ["  --> " ++ span.location, shown, marks] <:+: lines ∧
        excerpt false span line = [shown, marks] ∧ IsAligned span line shown marks := by
  intro hall
  obtain ⟨lines, shown, marks, -, -, hexcerpt, haligned⟩ :=
    hall (fun _ => some lateText) lateSpan lateText "x"
      { code := "E1", message := "m", labels := [lateSpan] } rfl line?_lateText (by decide)
      (List.mem_singleton_self _)
  rw [excerpt_eq, List.cons.injEq, List.cons.injEq] at hexcerpt
  obtain ⟨rfl, rfl, -⟩ := hexcerpt
  exact absurd ((isAligned_excerpt_iff (by decide) (by decide) "x").mp haligned) (by decide)

end Diagnostic

end Casewise

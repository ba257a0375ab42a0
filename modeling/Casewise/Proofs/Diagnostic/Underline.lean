import Casewise.Diagnostic.Render
import Casewise.Proofs.Sexp.Place
import Casewise.Proofs.Text.Decimal

/-!
# Underlined places

Reading counts lines by line feeds, and showing counts the lines that a displayed text falls into.
In a text where nothing but the line feed breaks a line, the two agree: the line that is shown for a
place is the line on which it starts, and the carets below it, counted from the bar, cover its
characters up to the end of the line.

## Main definitions

* `Text.lineAround`: the line of a text in which a place is.
* `Diagnostic.gutter`, `Diagnostic.caretLine`: what an excerpt consists of beside the shown line.
* `Diagnostic.Underlines`: how a place is shown.

## Main statements

* `Text.getElem?_splitLines`: the lines of a text.
* `Diagnostic.caretCount_of_covers`: the carets of a place.
* `render_underlines`: every token and every form is underlined at its place.
-/

namespace Casewise

/-! ### Lines -/

namespace Text

/-- The line of a text in which a place is, between the characters `before` and `behind` it: what
stands between the last line feed before it and the next one behind it. -/
def lineAround (before behind : List Char) : List Char :=
  before.rtakeWhile (· ≠ '\n') ++ behind.takeWhile (· ≠ '\n')

theorem splitLines_newline (cs : List Char) : splitLines ('\n' :: cs) = [] :: splitLines cs := by
  simp [splitLines, isLineBreak]

theorem splitLines_cons {c : Char} (hc : isLineBreak c = false) {cs line : List Char}
    {lines : List (List Char)} (h : splitLines cs = line :: lines) :
    splitLines (c :: cs) = (c :: line) :: lines := by
  have hreturn : c ≠ '\r' := by
    rintro rfl
    cases hc
  simp [splitLines, hc, hreturn, h]

theorem splitLines_singleton {c : Char} (hc : isLineBreak c = false) : splitLines [c] = [[c]] := by
  simp [splitLines, hc]

theorem takeWhile_of_notMem {cs : List Char} (h : '\n' ∉ cs) : cs.takeWhile (· ≠ '\n') = cs :=
  List.takeWhile_eq_self_iff.mpr fun c hc => by simpa using fun heq : c = '\n' => h (heq ▸ hc)

theorem takeWhile_append_of_mem {cs : List Char} (h : '\n' ∈ cs) (behind : List Char) :
    (cs ++ behind).takeWhile (· ≠ '\n') = cs.takeWhile (· ≠ '\n') := by
  obtain ⟨line, rest, rfl, hline⟩ := List.eq_append_cons_of_mem h
  have hself := takeWhile_of_notMem hline
  rw [List.takeWhile_eq_self_iff] at hself
  rw [List.append_assoc, List.takeWhile_append_of_pos hself, List.takeWhile_append_of_pos hself]
  rfl

theorem rtakeWhile_append_of_notMem {cs : List Char} (h : '\n' ∉ cs) (before : List Char) :
    (before ++ cs).rtakeWhile (· ≠ '\n') = before.rtakeWhile (· ≠ '\n') ++ cs := by
  have hreverse : '\n' ∉ cs.reverse := fun hmem => h (List.mem_reverse.mp hmem)
  have hself := takeWhile_of_notMem hreverse
  rw [List.takeWhile_eq_self_iff] at hself
  rw [List.rtakeWhile, List.rtakeWhile, List.reverse_append, List.takeWhile_append_of_pos hself,
    List.reverse_append, List.reverse_reverse]

theorem rtakeWhile_cons_of_mem {c : Char} {cs : List Char} (h : c = '\n' ∨ '\n' ∈ cs) :
    (c :: cs).rtakeWhile (· ≠ '\n') = cs.rtakeWhile (· ≠ '\n') := by
  by_cases hmem : '\n' ∈ cs
  · rw [List.rtakeWhile, List.rtakeWhile, List.reverse_cons,
      takeWhile_append_of_mem (List.mem_reverse.mpr hmem)]
  · obtain rfl := h.resolve_right hmem
    rw [← List.singleton_append, rtakeWhile_append_of_notMem hmem, ← List.nil_append cs,
      rtakeWhile_append_of_notMem hmem]
    rfl

/-- Where only line feeds break lines, the first of `splitLines` goes up to the first of them. -/
theorem head?_splitLines {cs : List Char} (hbreaks : ∀ c ∈ cs, isLineBreak c = true → c = '\n')
    (hne : cs ≠ []) : (splitLines cs).head? = some (cs.takeWhile (· ≠ '\n')) := by
  induction cs with
  | nil => exact absurd rfl hne
  | cons c cs ih =>
    obtain ⟨hbreak, hbreaks⟩ := List.forall_mem_cons.mp hbreaks
    by_cases hc : c = '\n'
    · rw [hc, splitLines_newline]
      rfl
    · have hplain : isLineBreak c = false := Bool.eq_false_iff.mpr fun h => hc (hbreak h)
      have hfirst : (c :: cs).takeWhile (· ≠ '\n') = c :: cs.takeWhile (· ≠ '\n') :=
        List.takeWhile_cons_of_pos (decide_eq_true hc)
      rw [hfirst]
      cases cs with
      | nil =>
        rw [splitLines_singleton hplain]
        rfl
      | cons d cs =>
        obtain ⟨lines, hlines⟩ := List.head?_eq_some_iff.mp (ih hbreaks (List.cons_ne_nil d cs))
        rw [splitLines_cons hplain hlines]
        rfl

/-- Where only line feeds break lines, the number of a line of `splitLines` is the number of line
feeds before it. -/
theorem getElem?_splitLines {before behind : List Char}
    (hbreaks : ∀ c ∈ before ++ behind, isLineBreak c = true → c = '\n') (hbehind : behind ≠ []) :
    (splitLines (before ++ behind))[before.count '\n']? = some (lineAround before behind) := by
  induction before with
  | nil =>
    have hfirst := head?_splitLines hbreaks hbehind
    rwa [List.head?_eq_getElem?] at hfirst
  | cons c before ih =>
    rw [List.cons_append, List.forall_mem_cons] at hbreaks
    have hrest := ih hbreaks.2
    rw [List.cons_append, lineAround]
    by_cases hc : c = '\n'
    · rw [hc, splitLines_newline, List.count_cons_self, List.getElem?_cons_succ, hrest,
        rtakeWhile_cons_of_mem (.inl rfl), lineAround]
    · have hplain : isLineBreak c = false := Bool.eq_false_iff.mpr fun h => hc (hbreaks.1 h)
      cases hlines : splitLines (before ++ behind) with
      | nil => rw [hlines] at hrest; cases hrest
      | cons line lines =>
        rw [hlines] at hrest
        rw [splitLines_cons hplain hlines, List.count_cons_of_ne hc]
        by_cases hmem : '\n' ∈ before
        · -- the line feeds leave the first line behind
          obtain ⟨k, hk⟩ := Nat.exists_eq_succ_of_ne_zero (List.count_pos_iff.mpr hmem).ne'
          rw [hk] at hrest ⊢
          rw [List.getElem?_cons_succ] at hrest ⊢
          rw [hrest, rtakeWhile_cons_of_mem (.inr hmem), lineAround]
        · have hfirst (cs : List Char) (hcs : '\n' ∉ cs) : cs.rtakeWhile (· ≠ '\n') = cs :=
            rtakeWhile_append_of_notMem hcs []
          have hmem' : '\n' ∉ c :: before := by simp [Ne.symm hc, hmem]
          rw [List.count_eq_zero_of_not_mem hmem, lineAround, hfirst before hmem] at hrest
          rw [List.count_eq_zero_of_not_mem hmem, hfirst (c :: before) hmem']
          rw [List.getElem?_cons_zero, Option.some.injEq] at hrest ⊢
          rw [hrest, List.cons_append]

end Text

namespace Diagnostic

/-! ### The lines of an excerpt -/

/-- What stands before the bar of the shown line, if `number` is its number. -/
def gutter (number : Int) : String :=
  "  " ++ Text.alignRight 4 (toString number) ++ " "

theorem bar_notMem_gutter {number : Int} (h : 0 ≤ number) : '|' ∉ (gutter number).toList := by
  obtain ⟨n, rfl⟩ := Int.eq_ofNat_of_zero_le h
  have hnumber : '|' ∉ (toString (n : Int)).toList := by
    intro hmem
    have hdigit := Text.isDigit_of_mem_toString '|' hmem
    revert hdigit
    decide
  simp only [gutter, Text.alignRight, Text.repeated, String.toList_append, String.toList_ofList,
    List.mem_append, List.mem_replicate, not_or]
  refine ⟨⟨by decide, ?_, hnumber⟩, by decide⟩
  rintro ⟨-, hbar⟩
  revert hbar
  decide

/-- The line under a shown line: carets, one for each character of the place, behind a bar and the
blanks that take them to the column where the place starts. -/
def caretLine (span : Span) (line : String) : String :=
  "       " ++ "| " ++ Text.repeated ' ' (span.first.col - 1).toNat ++
    Text.repeated '^' (caretCount span line)

/-- An excerpt without color consists of the line on which a place starts and its `caretLine`. -/
theorem excerpt_eq (span : Span) (line : String) :
    excerpt false span line = [gutter span.first.line ++ "| " ++ line, caretLine span line] := by
  rw [excerpt, gutter, caretLine]
  simp only [Text.Paint.apply, Bool.false_eq_true, if_false, String.append_assoc]
  rfl

/-- A place that starts on a line of its file is shown with its `Span.location` and the excerpt. -/
theorem label_of_line? {lines : List String} {span : Span} {line : String}
    (h : line? lines span.first.line = some line) :
    label false lines span = ["  --> " ++ span.location,
      gutter span.first.line ++ "| " ++ line, caretLine span line] := by
  rw [label, h]
  dsimp only
  rw [excerpt_eq]
  rfl

/-! ### Underlined characters -/

/-- Where the characters `cs` stand behind `before` and in front of `after` in the text of the file,
a diagnostic that points at the span shows, without color, three lines one below the other: the
location; behind a bar the line on which the characters begin; and behind a bar carets, which stand
below those of the characters that are on this line. -/
def Underlines (file : String) (before cs after : List Char) (span : Span) : Prop :=
  ∀ source : String → Option String, source file = some (String.ofList (before ++ (cs ++ after))) →
    ∀ d : Diagnostic, span ∈ d.labels →
      ∃ (above below : List String) (gutter gutter' : String),
        '|' ∉ gutter.toList ∧ '|' ∉ gutter'.toList ∧
        d.render false source = Text.joined "\n" (above ++
          ["  --> " ++ span.location,
            gutter ++ "| " ++ String.ofList (Text.lineAround before (cs ++ after)),
            gutter' ++ "| " ++ Text.repeated ' ' (before.rtakeWhile (· ≠ '\n')).length ++
              Text.repeated '^' (cs.takeWhile (· ≠ '\n')).length] ++ below)

section Carets

variable {file : String} {before cs after : List Char} {span : Span}

/-- There are as many carets as characters of the place on its first line: `caretCount` is right. -/
theorem caretCount_of_covers (h : span.Covers file before cs) (after : List Char) :
    caretCount span (String.ofList (Text.lineAround before (cs ++ after))) =
      (cs.takeWhile (· ≠ '\n')).length := by
  obtain ⟨c, rest, hcs, hc⟩ := h.head_ne
  obtain ⟨chars, d, hcs', hd, hline, hcol⟩ := h.last_eq
  have hpos : 0 < (cs.takeWhile (· ≠ '\n')).length := by simp [hcs, hc]
  rw [caretCount, h.first_eq, hline]
  by_cases hmem : '\n' ∈ cs
  · -- the place goes on below its first line
    have hchars : '\n' ∈ chars := by
      rw [hcs', List.mem_append, List.mem_singleton] at hmem
      exact hmem.resolve_right (Ne.symm hd)
    have hlines : 0 < chars.count '\n' := List.count_pos_iff.mpr hchars
    have hne : (Position.behind (before ++ chars)).line ≠ (Position.behind before).line := by
      rw [Position.behind, Position.behind, List.count_append]
      dsimp only
      omega
    rw [if_neg hne, String.length_ofList, Text.lineAround, Text.takeWhile_append_of_mem hmem,
      List.length_append, Position.behind]
    dsimp only
    omega
  · have hchars : '\n' ∉ chars := fun h => hmem (hcs' ▸ List.mem_append_left _ h)
    have hlast : (Position.behind (before ++ chars)).line = (Position.behind before).line := by
      rw [Position.behind, Position.behind, List.count_append, List.count_eq_zero_of_not_mem hchars]
      rfl
    have hwidth : (Position.behind (before ++ chars)).col =
        (Position.behind before).col + chars.length := by
      rw [Position.behind, Position.behind, Text.rtakeWhile_append_of_notMem hchars,
        List.length_append]
      dsimp only
      omega
    rw [if_pos hlast, hcol hmem, hwidth, Text.takeWhile_of_notMem hmem, hcs', List.length_append,
      List.length_singleton]
    omega

/-- A span that `Covers` its characters is shown with the line on which they begin. -/
theorem line?_of_covers (h : span.Covers file before cs)
    (hbreaks : ∀ c ∈ before ++ (cs ++ after), Text.isLineBreak c = true → c = '\n') :
    line? (Text.lines (String.ofList (before ++ (cs ++ after)))) span.first.line =
      some (String.ofList (Text.lineAround before (cs ++ after))) := by
  obtain ⟨c, rest, hcs, -⟩ := h.head_ne
  have hbehind : cs ++ after ≠ [] := by simp [hcs]
  have hnumber : ((Position.behind before).line - 1).toNat = before.count '\n' := by
    rw [Position.behind]
    dsimp only
    omega
  have hpos : 0 < (Position.behind before).line := by
    rw [Position.behind]
    dsimp only
    omega
  rw [line?, h.first_eq, if_pos hpos, hnumber, Text.lines, String.toList_ofList, List.getElem?_map,
    Text.getElem?_splitLines hbreaks hbehind]
  rfl

/-- `Diagnostic.render` shows every place that the diagnostic points at. -/
theorem exists_render_label (color : Bool) (source : String → Option String) {d : Diagnostic}
    (hspan : span ∈ d.labels) :
    ∃ lines, d.render color source = Text.joined "\n" lines ∧
      label color (((source span.file).map Text.lines).getD []) span <:+: lines := by
  refine ⟨_, rfl, ?_⟩
  have hlabels : label color (((source span.file).map Text.lines).getD []) span <:+:
      d.labels.flatMap fun s => label color (((source s.file).map Text.lines).getD []) s :=
    List.infix_of_mem_flatten (List.mem_map_of_mem hspan)
  exact (hlabels.trans (List.suffix_cons _ _).isInfix).trans (List.prefix_append _ _).isInfix

/-- A span that `Covers` its characters is underlined at its place. -/
theorem underlines_of_covers (h : span.Covers file before cs)
    (hbreaks : ∀ c ∈ before ++ (cs ++ after), Text.isLineBreak c = true → c = '\n') :
    Underlines file before cs after span := by
  intro source hsource d hspan
  have hlines : ((source span.file).map Text.lines).getD [] =
      Text.lines (String.ofList (before ++ (cs ++ after))) := by
    rw [h.file_eq, hsource]
    rfl
  have hindent : (span.first.col - 1).toNat = (before.rtakeWhile (· ≠ '\n')).length := by
    rw [h.first_eq, Position.behind]
    dsimp only
    omega
  have hlabel := label_of_line? (line?_of_covers h hbreaks)
  rw [← hlines, caretLine, hindent, caretCount_of_covers h] at hlabel
  have hpos : 0 ≤ span.first.line := by
    rw [h.first_eq, Position.behind]
    dsimp only
    omega
  obtain ⟨lines, hrender, above, below, rfl⟩ := exists_render_label false source hspan
  rw [hlabel] at hrender
  exact ⟨above, below, _, "       ", bar_notMem_gutter hpos, by decide, hrender⟩

/-- A string of two lines is underlined up to the end of the first one. -/
example :
    render false (fun _ => some "(f \"a\nb\" c)")
        { code := "E1", message := "m", labels := [⟨"main", ⟨1, 4⟩, ⟨2, 4⟩⟩] } =
      "error[E1]: m\n  --> main:1:4\n     1 | (f \"a\n       |    ^^" := by decide

end Carets

end Diagnostic

/-! ### All texts -/

/-- Diagnostics underline the right text. In a text where only line feeds break lines, every token
and every form has its place, and a diagnostic that points at its span `Underlines` it: it shows the
location, the line on which it begins, and carets under its characters on this line. So it is for
every token, which stands behind the tokens before it and a gap; for all forms that are known after
some tokens, even if lists are still open there; and for all forms that the text is read as. -/
theorem render_underlines {file source : String}
    (hbreaks : ∀ c ∈ source.toList, Text.isLineBreak c = true → c = '\n') :
    (∀ stream, scan file source = .ok stream → ∀ earlier t later,
      stream.tokens = earlier ++ t :: later →
        ∃ done gap after, source.toList = done ++ (gap ++ (t.lexeme.text.toList ++ after)) ∧
          LaidOut file (gap ++ (t.lexeme.text.toList ++ after)) [] done earlier ∧
          IsGap (t.lexeme.text.toList ++ after) gap ∧ t.lexeme.IsWhole after ∧
          Diagnostic.Underlines file (done ++ gap) t.lexeme.text.toList after t.span) ∧
    (∀ stream, scan file source = .ok stream → ∀ earlier later n,
      stream.tokens = earlier ++ later → earlier.foldlM Nest.step {} = .ok n →
        ∃ done after, source.toList = done ++ after ∧ LaidOut file after [] done earlier ∧
          n.StandsIn file (fun before cs after e =>
            Diagnostic.Underlines file before cs after e.span) done after) ∧
    (∀ es, read file source = .ok es →
      Row (fun before cs after e => Diagnostic.Underlines file before cs after e.span) []
        source.toList [] es) ∧
    ∀ e, readOne file source = .ok e →
      Row (fun before cs after e => Diagnostic.Underlines file before cs after e.span) []
        source.toList [] [e] := by
  have hunderlines (before cs after : List Char) (e : Sexp)
      (hsource : before ++ (cs ++ after) = source.toList) (h : e.span.Covers file before cs) :
      Diagnostic.Underlines file before cs after e.span :=
    Diagnostic.underlines_of_covers h (hsource ▸ hbreaks)
  have hread (es : List Sexp) (hes : read file source = .ok es) :
      Row (fun before cs after e => Diagnostic.Underlines file before cs after e.span) []
        source.toList [] es :=
    (row_of_read hes).imp (List.append_nil _) hunderlines
  refine ⟨fun stream hstream earlier t later htokens => ?_,
    fun stream hstream earlier later n htokens hn => ?_, hread,
    fun e he => hread [e] (readOne_eq_ok_iff.mp he)⟩
  · have hlaid := laidOut_of_scan hstream
    rw [htokens] at hlaid
    obtain ⟨done, gap, after, hsource, hearlier, hgap, ht, hcovers⟩ := hlaid.covers
    rw [List.append_nil] at hearlier hgap ht
    rw [List.nil_append] at hcovers
    refine ⟨done, gap, after, hsource, hearlier, hgap, ht, ?_⟩
    refine Diagnostic.underlines_of_covers hcovers ?_
    rwa [List.append_assoc, ← hsource]
  · obtain ⟨done, after, hsource, hearlier, hstands⟩ := standsIn_of_foldlM hstream htokens hn
    exact ⟨done, after, hsource, hearlier, hstands.imp hsource.symm hunderlines⟩

/-- A list on two lines with a string that goes over both. -/
private def twoLines : String :=
  "(f \"a\nb\" c)"

/-- All forms in `twoLines` are underlined. -/
theorem render_underlines_twoLines :
    (∀ c ∈ twoLines.toList, Text.isLineBreak c = true → c = '\n') ∧
      ∃ e, readOne "main" twoLines = .ok e ∧
        Row (fun before cs after e => Diagnostic.Underlines "main" before cs after e.span) []
          twoLines.toList [] [e] := by
  have hbreaks : ∀ c ∈ twoLines.toList, Text.isLineBreak c = true → c = '\n' := by
    have hall : (twoLines.toList.all fun c => !Text.isLineBreak c || c = '\n') = true := by decide
    intro c hc hbreak
    simpa [hbreak] using List.all_eq_true.mp hall c hc
  obtain ⟨-, -, -, hreadOne⟩ := @render_underlines "main" twoLines hbreaks
  exact ⟨hbreaks, _, rfl, hreadOne _ rfl⟩

end Casewise

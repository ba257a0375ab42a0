import Casewise.Proofs.Sexp.Extent

/-!
# Where forms stand

A text falls into forms as it falls into tokens: it is a row of forms with gaps before, between and
behind them, and a list is such a row between parentheses. `Row` says this of the characters between
what stands before and what stands behind, and it carries a predicate that is true of every form at
its place, whether this stands in the row itself or deep inside one of its lists.

What is known after the first tokens of a text, lists that are still open included, is laid out in
the characters of these tokens, and the span of every form covers its characters.

## Main definitions

* `Span.Covers`: a span belongs to the characters at a place of a text.
* `Row`: forms in a text.
* `Nest.StandsIn`: what is known after some tokens, in a text.

## Main statements

* `LaidOut.split`: the first tokens of a text and the others.
* `LaidOut.covers`: where tokens stand, and that their spans cover them.
* `Nest.StandsIn.step`, `Nest.StandsIn.foldlM`: forms are read at their places.
* `row_of_read`: a text is a row of the forms it reads as.
-/

namespace Casewise

/-! ### Characters of a span -/

/-- The span belongs to the characters `cs`, which stand behind the characters `before` of the file.
It begins with the first of them and ends on the line of the last, and on a single line with the
last itself. Neither the first nor the last is a line feed. -/
structure Span.Covers (s : Span) (file : String) (before cs : List Char) : Prop where
  /-- The file. -/
  file_eq : s.file = file
  /-- The span begins with the first character. -/
  first_eq : s.first = .behind before
  /-- The first character is no line feed. -/
  head_ne : ∃ c rest, cs = c :: rest ∧ c ≠ '\n'
  /-- The span ends on the line of the last character. -/
  last_eq : ∃ chars c, cs = chars ++ [c] ∧ c ≠ '\n' ∧
    s.last.line = (Position.behind (before ++ chars)).line ∧
    ('\n' ∉ cs → s.last.col = (Position.behind (before ++ chars)).col)

theorem Lexeme.IsWhole.exists_head {rest : List Char} {l : Lexeme} (h : l.IsWhole rest) :
    ∃ c cs, l.text.toList = c :: cs ∧ c ≠ '\n' := by
  cases h with
  | opening => exact ⟨'(', [], rfl, by decide⟩
  | closing => exact ⟨')', [], rfl, by decide⟩
  | @plain text h =>
    obtain ⟨c, cs, htext⟩ := List.exists_cons_of_ne_nil h.ne_nil
    refine ⟨c, cs, htext, fun hc => ?_⟩
    have hends := h.endsAtom_eq_false c (htext ▸ List.mem_cons_self)
    rw [hc] at hends
    cases hends
  | string htext => exact ⟨'"', _, htext, by decide⟩

/-- The span of a whole token `Covers` its characters. -/
theorem Lexeme.IsWhole.covers {rest : List Char} {l : Lexeme} (h : l.IsWhole rest) (file : String)
    (before : List Char) :
    (Span.upTo file (.behind before) (.behind (before ++ l.text.toList))).Covers file before
      l.text.toList := by
  obtain ⟨chars, c, htext, hends, -⟩ := h.endsAt file before
  obtain ⟨chars', c', htext', hc⟩ := h.exists_last
  obtain ⟨rfl, heq⟩ := List.append_inj' (htext.symm.trans htext') rfl
  obtain rfl := (List.cons.inj heq).1
  refine ⟨rfl, rfl, h.exists_head, chars, c, htext, hc, ?_, fun hline => ?_⟩
  · rw [hends.last_eq]
  · rw [hends.last_eq_of_notMem hline]

/-- The span from the opening to the closing parenthesis `Covers` a list. -/
theorem Span.Covers.through {opening closing : Span} {file : String} {before inside : List Char}
    (hopening : opening.Covers file before ['('])
    (hclosing : closing.Covers file (before ++ '(' :: inside) [')']) :
    (opening.through closing).Covers file before ('(' :: inside ++ [')']) := by
  obtain ⟨chars, c, hcs, hc, hline, hcol⟩ := hclosing.last_eq
  obtain ⟨rfl, heq⟩ := List.append_inj' (show [] ++ [')'] = chars ++ [c] from hcs) rfl
  rw [List.append_nil] at hline hcol
  exact ⟨hopening.file_eq, hopening.first_eq, ⟨'(', _, rfl, by decide⟩, '(' :: inside, ')', rfl,
    by decide, hline, fun _ => hcol (by decide)⟩

/-! ### Tokens at their places -/

theorem IsGap.append {rest gap gap' : List Char} (h : IsGap (gap' ++ rest) gap)
    (h' : IsGap rest gap') : IsGap rest (gap ++ gap') := by
  induction h with
  | nil => exact h'
  | blank hc _ ih => exact .blank hc ih
  | @comment body cs hbody hend _ ih =>
    rw [List.append_assoc]
    refine .comment hbody ?_ ih
    rwa [List.append_assoc]

section Tokens

variable {file : String} {rest before cs : List Char}

/-- The characters of the first tokens of a `LaidOut` text and those of the others. -/
theorem LaidOut.split {ts us : List Token} (h : LaidOut file rest before cs (ts ++ us)) :
    ∃ cs₁ cs₂, cs = cs₁ ++ cs₂ ∧ LaidOut file (cs₂ ++ rest) before cs₁ ts ∧
      LaidOut file rest (before ++ cs₁) cs₂ us := by
  induction ts generalizing before cs with
  | nil => exact ⟨[], cs, rfl, .last .nil, by rwa [List.append_nil]⟩
  | cons t ts ih =>
    cases h with
    | @token _ gap cs _ _ hgap ht hspan h =>
      obtain ⟨cs₁, cs₂, rfl, hts, hus⟩ := ih h
      rw [List.append_assoc] at hgap ht
      refine ⟨gap ++ (t.lexeme.text.toList ++ cs₁), cs₂, by simp only [List.append_assoc],
        .token hgap ht hspan hts, ?_⟩
      simpa only [List.append_assoc] using hus

/-- A token of a `LaidOut` text stands behind those before it and a gap, and its span covers it. -/
theorem LaidOut.covers {earlier later : List Token} {t : Token}
    (h : LaidOut file rest before cs (earlier ++ t :: later)) :
    ∃ done gap more, cs = done ++ (gap ++ (t.lexeme.text.toList ++ more)) ∧
      LaidOut file (gap ++ (t.lexeme.text.toList ++ (more ++ rest))) before done earlier ∧
      IsGap (t.lexeme.text.toList ++ (more ++ rest)) gap ∧ t.lexeme.IsWhole (more ++ rest) ∧
      t.span.Covers file (before ++ (done ++ gap)) t.lexeme.text.toList := by
  obtain ⟨done, cs₂, rfl, hearlier, hlater⟩ := h.split
  cases hlater with
  | @token _ gap more _ _ hgap ht hspan h =>
    have hcovers := ht.covers file (before ++ done ++ gap)
    rw [← hspan, List.append_assoc] at hcovers
    refine ⟨done, gap, more, rfl, ?_, hgap, ht, hcovers⟩
    simpa only [List.append_assoc] using hearlier

end Tokens

/-! ### Rows of forms -/

/-- Between the characters `before` and `after` of a text, the characters are the forms in order,
with gaps before, between and behind them, and `P` is true of every form, also of those inside of
lists, with the characters before it, its own ones and those behind it. -/
inductive Row (P : List Char → List Char → List Char → Sexp → Prop) :
    (before cs after : List Char) → List Sexp → Prop
  | last {before gap after : List Char} (hgap : IsGap after gap) : Row P before gap after []
  | atom {before gap cs after : List Char} {text : String} {span : Span} {es : List Sexp}
    (hgap : IsGap (text.toList ++ (cs ++ after)) gap)
    (htext : (Lexeme.atom text).IsWhole (cs ++ after))
    (hP : P (before ++ gap) text.toList (cs ++ after) (.atom text span))
    (h : Row P (before ++ gap ++ text.toList) cs after es) :
    Row P before (gap ++ (text.toList ++ cs)) after (.atom text span :: es)
  | list {before gap inside cs after : List Char} {items : List Sexp} {span : Span} {es : List Sexp}
    (hgap : IsGap ('(' :: inside ++ [')'] ++ (cs ++ after)) gap)
    (hinside : Row P (before ++ gap ++ ['(']) inside (')' :: (cs ++ after)) items)
    (hP : P (before ++ gap) ('(' :: inside ++ [')']) (cs ++ after) (.list items span))
    (h : Row P (before ++ gap ++ ('(' :: inside ++ [')'])) cs after es) :
    Row P before (gap ++ ('(' :: inside ++ [')'] ++ cs)) after (.list items span :: es)

namespace Row

variable {P Q : List Char → List Char → List Char → Sexp → Prop}
variable {before cs cs' after : List Char} {es es' : List Sexp}

/-- A weaker predicate, where `text` is the whole of the text. -/
theorem imp {text : List Char} (h : Row P before cs after es)
    (htext : before ++ (cs ++ after) = text)
    (hPQ : ∀ before cs after e, before ++ (cs ++ after) = text → P before cs after e →
      Q before cs after e) : Row Q before cs after es := by
  induction h with
  | last hgap => exact .last hgap
  | @atom before gap cs after text' span es hgap htext' hP _ ih =>
    simp only [List.append_assoc] at htext ih
    refine .atom hgap htext' (hPQ _ _ _ _ ?_ hP) ?_
    · simpa only [List.append_assoc] using htext
    · simpa only [List.append_assoc] using ih htext
  | @list before gap inside cs after items span es hgap _ hP _ ihInside ih =>
    simp only [List.append_assoc, List.cons_append, List.nil_append] at htext ihInside ih
    refine .list hgap ?_ (hPQ _ _ _ _ ?_ hP) ?_
    · simpa only [List.append_assoc, List.cons_append, List.nil_append] using ihInside htext
    · simpa only [List.append_assoc, List.cons_append, List.nil_append] using htext
    · simpa only [List.append_assoc, List.cons_append, List.nil_append] using ih htext

/-- A gap in front of a `Row` belongs to the first gap. -/
theorem gap_append {gap : List Char} (hgap : IsGap (cs ++ after) gap)
    (h : Row P (before ++ gap) cs after es) : Row P before (gap ++ cs) after es := by
  cases h with
  | last hgap' => exact .last (hgap.append hgap')
  | atom hgap' htext hP h =>
    rw [List.append_assoc before] at hP h
    rw [List.append_assoc, List.append_assoc] at hgap
    rw [← List.append_assoc]
    exact .atom (hgap.append hgap') htext hP h
  | list hgap' hinside hP h =>
    rw [List.append_assoc before] at hinside hP h
    rw [List.append_assoc, List.append_assoc] at hgap
    rw [← List.append_assoc]
    exact .list (hgap.append hgap') hinside hP h

/-- Two rows, one behind the other, are a `Row`. -/
theorem append (h : Row P before cs (cs' ++ after) es) (h' : Row P (before ++ cs) cs' after es') :
    Row P before (cs ++ cs') after (es ++ es') := by
  generalize hrest : cs' ++ after = rest at h
  induction h with
  | last hgap =>
    rw [← hrest] at hgap
    exact h'.gap_append hgap
  | @atom before gap cs after' text span es hgap htext hP _ ih =>
    subst hrest
    rw [← List.append_assoc cs cs' after] at hgap htext hP
    rw [← List.append_assoc before, ← List.append_assoc (before ++ gap)] at h'
    rw [List.append_assoc gap, List.append_assoc text.toList]
    exact .atom hgap htext hP (ih h' rfl)
  | @list before gap inside cs after' items span es hgap hinside hP _ _ ih =>
    subst hrest
    rw [← List.append_assoc cs cs' after] at hgap hinside hP
    rw [← List.append_assoc before, ← List.append_assoc (before ++ gap)] at h'
    rw [List.append_assoc gap, List.append_assoc ('(' :: inside ++ [')'])]
    exact .list hgap hinside hP (ih h' rfl)

/-- An atom alone is a `Row`. -/
theorem singleton_atom {text : String} {span : Span} (htext : (Lexeme.atom text).IsWhole after)
    (hP : P before text.toList after (.atom text span)) :
    Row P before text.toList after [.atom text span] := by
  have hrow : Row P before ([] ++ (text.toList ++ [])) after [.atom text span] :=
    .atom .nil htext (by rwa [List.append_nil]) (.last .nil)
  rwa [List.nil_append, List.append_nil] at hrow

/-- A list alone is a `Row`. -/
theorem singleton_list {inside : List Char} {items : List Sexp} {span : Span}
    (hinside : Row P (before ++ ['(']) inside (')' :: after) items)
    (hP : P before ('(' :: inside ++ [')']) after (.list items span)) :
    Row P before ('(' :: inside ++ [')']) after [.list items span] := by
  have hrow : Row P before ([] ++ ('(' :: inside ++ [')'] ++ [])) after [.list items span] :=
    .list .nil (by rwa [List.append_nil]) (by rwa [List.append_nil]) (.last .nil)
  rwa [List.nil_append, List.append_nil] at hrow

end Row

/-! ### Reading forms at their places -/

namespace Nest

/-- What is known after the characters `before` of a text, in front of the characters `after`: they
are the finished forms, and behind these for every open list its parenthesis and its items. `P` is
true of every form at its place, and the parentheses of open lists are covered. -/
inductive StandsIn (file : String) (P : List Char → List Char → List Char → Sexp → Prop) :
    (before after : List Char) → Nest → Prop
  /-- Outside of every list there are finished forms only. -/
  | outside {before after : List Char} {forms : List Sexp}
    (hforms : Row P [] before after forms.reverse) : StandsIn file P before after ⟨[], forms⟩
  /-- An open list is an opening parenthesis and the items that are finished. -/
  | inside {around chars after : List Char} {frame : Frame} {outer : List Frame}
    {forms : List Sexp} (haround : StandsIn file P around ('(' :: chars ++ after) ⟨outer, forms⟩)
    (hopening : frame.opening.Covers file around ['('])
    (hitems : Row P (around ++ ['(']) chars after frame.items.reverse) :
    StandsIn file P (around ++ '(' :: chars) after ⟨frame :: outer, forms⟩

namespace StandsIn

variable {file : String} {P Q : List Char → List Char → List Char → Sexp → Prop} {n n' : Nest}
variable {before cs after : List Char}

/-- A weaker predicate, where `text` is the whole of the text. -/
theorem imp {text : List Char} (h : n.StandsIn file P before after) (htext : before ++ after = text)
    (hPQ : ∀ before cs after e, before ++ (cs ++ after) = text → P before cs after e →
      Q before cs after e) : n.StandsIn file Q before after := by
  induction h with
  | outside hforms => exact .outside (hforms.imp htext hPQ)
  | @inside around chars after frame outer forms _ hopening hitems ih =>
    simp only [List.append_assoc, List.cons_append] at htext
    have hinside : around ++ ['('] ++ (chars ++ after) = text := by
      simpa only [List.append_assoc, List.cons_append, List.nil_append] using htext
    exact .inside (ih htext) hopening (hitems.imp hinside hPQ)

/-- What stands next is added to the innermost open list, or outside of every list, by
`StandsIn`. -/
theorem append (h : n.StandsIn file P before (cs ++ after)) {es : List Sexp}
    (hes : Row P before cs after es) : (es.foldl add n).StandsIn file P (before ++ cs) after := by
  cases h with
  | outside hforms =>
    rw [foldl_add_nil]
    refine .outside ?_
    rw [List.reverse_append, List.reverse_reverse]
    exact hforms.append hes
  | @inside around chars _ frame outer forms haround hopening hitems =>
    have hbefore : around ++ '(' :: chars = around ++ ['('] ++ chars := by simp
    rw [hbefore] at hes
    rw [← List.append_assoc, List.cons_append] at haround
    have hitems' := hitems.append hes
    rw [foldl_add_frame, List.append_assoc, List.cons_append]
    refine .inside haround hopening ?_
    rwa [List.reverse_append, List.reverse_reverse]

/-- One `Nest.step` reads a token at its place. -/
theorem step {t : Token} {gap : List Char} (hgap : IsGap (t.lexeme.text.toList ++ after) gap)
    (ht : t.lexeme.IsWhole after)
    (hcovers : t.span.Covers file (before ++ gap) t.lexeme.text.toList)
    (h : n.StandsIn file (fun before cs _ e => e.span.Covers file before cs) before
      (gap ++ (t.lexeme.text.toList ++ after)))
    (hn : n.step t = .ok n') :
    n'.StandsIn file (fun before cs _ e => e.span.Covers file before cs)
      (before ++ gap ++ t.lexeme.text.toList) after := by
  have hbehind := h.append (.last hgap)
  rw [List.foldl_nil] at hbehind
  cases hlexeme : t.lexeme with
  | atom text =>
    rw [step_of_atom hlexeme] at hn
    rw [hlexeme] at ht hcovers hbehind
    cases hn
    exact hbehind.append (.singleton_atom ht hcovers)
  | opening =>
    rw [step_of_opening hlexeme] at hn
    rw [hlexeme] at hcovers hbehind
    cases hn
    exact .inside hbehind hcovers (.last .nil)
  | closing =>
    rw [hlexeme] at hcovers hbehind
    generalize before ++ gap = behind at hcovers hbehind ⊢
    cases hbehind with
    | outside => simp [Nest.step, hlexeme] at hn
    | @inside around chars _ frame outer forms haround hopening hitems =>
      rw [step_of_closing hlexeme] at hn
      cases hn
      have hlist := Row.singleton_list hitems (hopening.through hcovers)
      have hclosed : '(' :: chars ++ (Lexeme.closing.text.toList ++ after) =
          '(' :: chars ++ [')'] ++ after := by
        rw [List.append_assoc]
        rfl
      rw [hclosed] at haround
      have hadded := haround.append hlist
      rw [List.append_assoc]
      exact hadded

/-- The tokens of a `LaidOut` text are read at their places. -/
theorem foldlM {ts : List Token} (hts : LaidOut file after before cs ts)
    (h : n.StandsIn file (fun before cs _ e => e.span.Covers file before cs) before (cs ++ after))
    (hn : ts.foldlM Nest.step n = .ok n') :
    n'.StandsIn file (fun before cs _ e => e.span.Covers file before cs) (before ++ cs) after := by
  induction hts generalizing n with
  | last hgap =>
    cases hn
    exact h.append (.last hgap)
  | @token before gap cs t ts hgap ht hspan _ ih =>
    rw [List.foldlM_cons, bind_eq_ok] at hn
    obtain ⟨m, hm, hn⟩ := hn
    have hcovers := ht.covers file (before ++ gap)
    rw [← hspan] at hcovers
    rw [List.append_assoc, List.append_assoc] at h
    have hread := ih (step hgap ht hcovers h hm) hn
    simpa only [List.append_assoc] using hread

end StandsIn

end Nest

section Texts

variable {file source : String}

/-- What is known after the first tokens of a text `StandsIn` its first characters. -/
theorem standsIn_of_foldlM {stream : TokenStream} (hstream : scan file source = .ok stream)
    {earlier later : List Token} (htokens : stream.tokens = earlier ++ later) {n : Nest}
    (hn : earlier.foldlM Nest.step {} = .ok n) :
    ∃ before after, source.toList = before ++ after ∧ LaidOut file after [] before earlier ∧
      n.StandsIn file (fun before cs _ e => e.span.Covers file before cs) before after := by
  have hlaid := laidOut_of_scan hstream
  rw [htokens] at hlaid
  obtain ⟨before, after, hsource, hearlier, -⟩ := hlaid.split
  rw [List.append_nil] at hearlier
  have hstart : Nest.StandsIn file (fun before cs _ e => e.span.Covers file before cs) []
      (before ++ after) {} := .outside (.last .nil)
  exact ⟨before, after, hsource, hearlier, hstart.foldlM hearlier hn⟩

/-- A text is a `Row` of the forms it reads as, and their spans cover them. -/
theorem row_of_read {es : List Sexp} (h : read file source = .ok es) :
    Row (fun before cs _ e => e.span.Covers file before cs) [] source.toList [] es := by
  rw [read, bind_eq_ok] at h
  obtain ⟨stream, hstream, h⟩ := h
  rw [bind_eq_ok] at h
  obtain ⟨n, hn, h⟩ := h
  have hstart : Nest.StandsIn file (fun before cs _ e => e.span.Covers file before cs) []
      (source.toList ++ []) {} := .outside (.last .nil)
  have hstands := hstart.foldlM (laidOut_of_scan hstream) hn
  obtain ⟨frames, forms⟩ := n
  obtain ⟨rfl, rfl⟩ := Nest.finish_eq_ok.mp h
  rw [List.nil_append] at hstands
  generalize source.toList = chars at hstands ⊢
  cases hstands with
  | outside hforms => exact hforms

end Texts

end Casewise

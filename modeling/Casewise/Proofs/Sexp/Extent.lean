import Mathlib.Order.Basic
import Casewise.Proofs.Sexp.Layout

/-!
# Where spans end

The span of a token begins where its first character stands, and it ends on the line of its last
character. Its last column is that of the last character too, as long as this one does not stand to
the left of the first: a span never ends in a column before the one it begins in, even if it ends on
a later line. Only a string has line feeds in it, so only the span of a string can end too far to
the right.

The span of a list begins with its opening parenthesis and ends with its closing one, so it encloses
the spans of its items. The exception is a string of several lines that ends on the line of the
closing parenthesis and begins further to the right than that stands.

## Main definitions

* The order of positions, by line and then by column.
* `Sexp.Within`: the forms that occur in a form.
* `Sexp.Overhangs`: an item whose span reaches beyond the list.

## Main statements

* `LaidOut.endsAt`: where the spans of tokens end.
* `Nest.Ordered.step`, `Nest.Ordered.foldlM`: the spans of forms lie in the order in which they are
  read.
* `spans_end`: where the spans of tokens end, and which items the span of a list encloses.
-/

namespace Casewise

/-! ### Positions in order -/

namespace Position

/-- Positions are ordered as they are read, by line and then by column. -/
instance : LE Position where
  le p q := p.line < q.line ∨ p.line = q.line ∧ p.col ≤ q.col

theorem le_iff {p q : Position} : p ≤ q ↔ p.line < q.line ∨ p.line = q.line ∧ p.col ≤ q.col :=
  Iff.rfl

instance : PartialOrder Position where
  le_refl p := .inr ⟨rfl, Int.le_refl p.col⟩
  le_trans p q r hpq hqr := by
    rw [le_iff] at hpq hqr ⊢
    omega
  le_antisymm p q hpq hqp := by
    rw [le_iff] at hpq hqp
    have hline : p.line = q.line := by omega
    have hcol : p.col = q.col := by omega
    cases p
    cases q
    rw [mk.injEq]
    exact ⟨hline, hcol⟩

theorem lt_iff {p q : Position} : p < q ↔ p.line < q.line ∨ p.line = q.line ∧ p.col < q.col := by
  rw [lt_iff_le_not_ge, le_iff, le_iff]
  omega

/-- `Position.next` lies behind the position. -/
theorem lt_next (p : Position) (c : Char) : p < p.next c := by
  rw [lt_iff, next]
  split
  · exact .inl (Int.lt_succ _)
  · exact .inr ⟨rfl, Int.lt_succ _⟩

theorem behind_le_append (cs cs' : List Char) : behind cs ≤ behind (cs ++ cs') := by
  induction cs' generalizing cs with
  | nil => rw [List.append_nil]
  | cons c cs' ih =>
    have hstep : behind cs < behind (cs ++ [c]) := next_behind cs c ▸ lt_next _ c
    have hrest := ih (cs ++ [c])
    rw [List.append_assoc, List.singleton_append] at hrest
    exact hstep.le.trans hrest

theorem col_le_of_notMem {cs cs' : List Char} (h : '\n' ∉ cs') :
    (behind cs).col ≤ (behind (cs ++ cs')).col := by
  induction cs' generalizing cs with
  | nil => exact Int.le_of_eq (by rw [List.append_nil])
  | cons c cs' ih =>
    have hc : c ≠ '\n' := fun heq => h (heq ▸ List.mem_cons_self)
    have hstep : (behind (cs ++ [c])).col = (behind cs).col + 1 := by
      rw [← next_behind, next, if_neg hc]
    have hrest := @ih (cs ++ [c]) fun hmem => h (List.mem_cons_of_mem _ hmem)
    rw [List.append_assoc, List.singleton_append] at hrest
    omega

end Position

/-! ### The ends of tokens -/

/-- The span belongs to the characters `text`, of which the last one stands at `p`. It ends there,
but never in a column before the one it begins in. -/
structure Span.EndsAt (s : Span) (text : List Char) (p : Position) : Prop where
  /-- The last character does not stand before the first. -/
  first_le : s.first ≤ p
  /-- The span ends on the line of the last character. -/
  last_eq : s.last = ⟨p.line, max p.col s.first.col⟩
  /-- On a single line, the last character does not stand to the left of the first. -/
  col_le : '\n' ∉ text → s.first.col ≤ p.col

namespace Span.EndsAt

variable {s : Span} {text : List Char} {p : Position}

/-- A span that `EndsAt` a character ends with it unless the character stands on a later line and to
the left of the first. -/
theorem last_eq_iff (h : s.EndsAt text p) :
    s.last = p ↔ ¬ ('\n' ∈ text ∧ p.col < s.first.col) := by
  have hmax : s.last = p ↔ s.first.col ≤ p.col := by
    rw [h.last_eq, Position.mk.injEq, and_iff_right rfl]
    omega
  rw [hmax, not_and, Int.not_lt]
  exact ⟨fun hcol _ => hcol, fun hcol => (em _).elim hcol h.col_le⟩

theorem last_eq_of_notMem (h : s.EndsAt text p) (htext : '\n' ∉ text) : s.last = p :=
  h.last_eq_iff.mpr fun hline => htext hline.1

end Span.EndsAt

/-- The last character of a whole token (`IsWhole`) is no line feed. -/
theorem Lexeme.IsWhole.exists_last {rest : List Char} {l : Lexeme} (h : l.IsWhole rest) :
    ∃ chars c, l.text.toList = chars ++ [c] ∧ c ≠ '\n' := by
  cases h with
  | opening => exact ⟨[], '(', rfl, by decide⟩
  | closing => exact ⟨[], ')', rfl, by decide⟩
  | @plain text h =>
    refine ⟨text.toList.dropLast, text.toList.getLast h.ne_nil,
      (List.dropLast_append_getLast h.ne_nil).symm, fun hlast => ?_⟩
    have hends := h.endsAtom_eq_false _ (List.getLast_mem h.ne_nil)
    rw [hlast] at hends
    cases hends
  | string htext => exact ⟨_, '"', htext, by decide⟩

/-- Where `Span.upTo` ends for a whole token. -/
theorem Lexeme.IsWhole.endsAt {rest : List Char} {l : Lexeme} (h : l.IsWhole rest) (file : String)
    (before : List Char) :
    ∃ chars c, l.text.toList = chars ++ [c] ∧
      (Span.upTo file (.behind before) (.behind (before ++ l.text.toList))).EndsAt l.text.toList
        (.behind (before ++ chars)) ∧
      Position.behind (before ++ chars) < .behind (before ++ l.text.toList) := by
  obtain ⟨chars, c, htext, hc⟩ := h.exists_last
  have hnext : Position.behind (before ++ l.text.toList) =
      (Position.behind (before ++ chars)).next c := by
    rw [htext, ← List.append_assoc, Position.next_behind]
  refine ⟨chars, c, htext, ⟨Position.behind_le_append before chars, ?_, fun hline => ?_⟩,
    hnext ▸ Position.lt_next _ c⟩
  · rw [hnext, Position.next, if_neg hc, Span.upTo, Int.add_sub_cancel]
  · exact Position.col_le_of_notMem fun hmem => hline (htext ▸ List.mem_append_left _ hmem)

/-! ### The spans of forms -/

/-- The form `e` is the second form, or occurs in it at some depth. -/
inductive Sexp.Within (e : Sexp) : Sexp → Prop
  | refl : Within e e
  /-- A form that occurs in an item of a list. -/
  | item {items : List Sexp} {item : Sexp} {span : Span} (hmem : item ∈ items)
    (h : Within e item) : Within e (.list items span)

/-- The form is a string of several lines which ends on the line of the end of `s`, and which begins
further to the right than that. -/
def Sexp.Overhangs (e : Sexp) (s : Span) : Prop :=
  ∃ text span, e = .atom text span ∧ '\n' ∈ text.toList ∧ span.last.line = s.last.line ∧
    s.last.col < span.first.col

/-- The span encloses the one of the form, except that an overhanging form may reach beyond its
end. -/
structure Span.Encloses (s : Span) (e : Sexp) : Prop where
  /-- The form does not begin before the span. -/
  first_le : s.first ≤ e.span.first
  /-- The form does not end behind the span unless it overhangs. -/
  last_le_iff : e.span.last ≤ s.last ↔ ¬ e.Overhangs s

/-- Every list in the form encloses its items. -/
def Sexp.Enclosing (e : Sexp) : Prop :=
  ∀ items span, Within (.list items span) e → ∀ item ∈ items, span.Encloses item

/-- The characters of the form end before the position `q`. -/
inductive Sexp.EndsBefore (q : Position) : Sexp → Prop
  /-- The last character of an atom stands before. -/
  | atom {text : String} {span : Span} {p : Position} (h : span.EndsAt text.toList p) (hp : p < q) :
    EndsBefore q (.atom text span)
  /-- The closing parenthesis of a list stands before. -/
  | list {items : List Sexp} {span : Span} (h : span.last < q) : EndsBefore q (.list items span)

namespace Sexp

theorem EndsBefore.mono {q q' : Position} {e : Sexp} (h : e.EndsBefore q) (hq : q ≤ q') :
    e.EndsBefore q' := by
  cases h with
  | atom h hp => exact .atom h (hp.trans_le hq)
  | list h => exact .list (h.trans_le hq)

/-- What `EndsBefore` the end of a span does not reach beyond it unless it `Overhangs`. -/
theorem EndsBefore.last_le_iff {e : Sexp} {s : Span} (h : e.EndsBefore s.last) :
    e.span.last ≤ s.last ↔ ¬ e.Overhangs s := by
  cases h with
  | list h =>
    refine iff_of_true h.le ?_
    rintro ⟨text, span, heq, -⟩
    cases heq
  | @atom text span p h hp =>
    have hcol := h.col_le
    rw [Sexp.span, h.last_eq, Position.le_iff]
    rw [Position.lt_iff] at hp
    constructor
    · rintro hle ⟨text', span', heq, -, hline, hright⟩
      cases heq
      rw [h.last_eq] at hline
      dsimp only at hle hline
      omega
    · intro hover
      by_contra hle
      dsimp only at hle
      -- the span reaches beyond the end only with the column it begins in
      refine hover ⟨text, _, rfl, ?_, ?_, ?_⟩
      · by_contra hline
        have := hcol hline
        omega
      · rw [h.last_eq]
        dsimp only
        omega
      · omega

theorem enclosing_atom (text : String) (span : Span) : (atom text span).Enclosing := by
  intro items span' h
  cases h

/-- A list is `Enclosing` if it encloses its items itself and in its items. -/
theorem enclosing_list {items : List Sexp} {span : Span}
    (h : ∀ item ∈ items, span.Encloses item ∧ item.Enclosing) : (list items span).Enclosing := by
  intro items' span' hwithin item hitem
  cases hwithin with
  | refl => exact (h item hitem).1
  | item hmem hwithin => exact (h _ hmem).2 _ _ hwithin item hitem

end Sexp

/-! ### Reading in order -/

namespace Nest

/-- All that has been read stands before the position `q`, and the lists enclose their items, as far
as they are finished. -/
structure Ordered (n : Nest) (q : Position) : Prop where
  /-- The finished forms. -/
  forms : ∀ e ∈ n.forms, e.Enclosing
  /-- The items of an open list stand behind its parenthesis. -/
  items : ∀ frame ∈ n.frames, ∀ e ∈ frame.items,
    e.Enclosing ∧ frame.opening.first ≤ e.span.first ∧ e.EndsBefore q
  /-- The open lists begin before. -/
  openings : ∀ frame ∈ n.frames, frame.opening.first ≤ q
  /-- An open list begins behind those around it. -/
  nested : n.frames.Pairwise fun inner outer => outer.opening.first ≤ inner.opening.first

namespace Ordered

variable {n n' : Nest} {q q' : Position}

theorem mono (h : n.Ordered q) (hq : q ≤ q') : n.Ordered q' where
  forms := h.forms
  items frame hframe e he := by
    obtain ⟨henclosing, hfirst, hends⟩ := h.items frame hframe e he
    exact ⟨henclosing, hfirst, hends.mono hq⟩
  openings frame hframe := (h.openings frame hframe).trans hq
  nested := h.nested

/-- `Nest.add` puts a form behind the parenthesis of the innermost open list. -/
theorem add (h : n.Ordered q) {e : Sexp} (he : e.Enclosing) (hends : e.EndsBefore q)
    (hfirst : ∀ frame ∈ n.frames, frame.opening.first ≤ e.span.first) : (n.add e).Ordered q := by
  obtain ⟨frames, forms⟩ := n
  cases frames with
  | nil => exact ⟨List.forall_mem_cons.mpr ⟨he, h.forms⟩, h.items, h.openings, h.nested⟩
  | cons frame outer =>
    obtain ⟨hframe, houter⟩ := List.forall_mem_cons.mp h.items
    have hitems := List.forall_mem_cons.mpr ⟨⟨he, hfirst frame List.mem_cons_self, hends⟩, hframe⟩
    obtain ⟨hopening, hopenings⟩ := List.forall_mem_cons.mp h.openings
    exact ⟨h.forms, List.forall_mem_cons.mpr ⟨hitems, houter⟩,
      List.forall_mem_cons.mpr ⟨hopening, hopenings⟩,
      List.pairwise_cons.mpr (List.pairwise_cons.mp h.nested)⟩

/-- One `Nest.step` keeps what has been read in order: the token is read behind it. -/
theorem step {t : Token} {p : Position} (h : n.Ordered q) (hq : q ≤ t.span.first)
    (ht : t.span.EndsAt t.lexeme.text.toList p) (hp : p < q') (hn : n.step t = .ok n') :
    n'.Ordered q' := by
  have hlater : q ≤ q' := hq.trans (ht.first_le.trans hp.le)
  have hopenings (frame : Frame) (hframe : frame ∈ n.frames) : frame.opening.first ≤ t.span.first :=
    (h.openings frame hframe).trans hq
  cases hlexeme : t.lexeme with
  | atom text =>
    rw [step_of_atom hlexeme] at hn
    rw [hlexeme] at ht
    cases hn
    exact (h.mono hlater).add (Sexp.enclosing_atom text _) (.atom ht hp) hopenings
  | opening =>
    rw [step_of_opening hlexeme] at hn
    cases hn
    exact ⟨h.forms, List.forall_mem_cons.mpr ⟨nofun, (h.mono hlater).items⟩,
      List.forall_mem_cons.mpr ⟨ht.first_le.trans hp.le, (h.mono hlater).openings⟩,
      List.pairwise_cons.mpr ⟨hopenings, h.nested⟩⟩
  | closing =>
    obtain ⟨frames, forms⟩ := n
    cases frames with
    | nil => simp [Nest.step, hlexeme] at hn
    | cons frame outer =>
      rw [step_of_closing hlexeme] at hn
      rw [hlexeme] at ht
      cases hn
      -- the span of the list ends with the parenthesis, behind its items
      have hlast : t.span.last = p := ht.last_eq_of_notMem (by decide)
      have hends : q ≤ (frame.opening.through t.span).last := hlast ▸ hq.trans ht.first_le
      obtain ⟨hframe, houter⟩ := List.forall_mem_cons.mp h.items
      obtain ⟨hopening, houterOpenings⟩ := List.forall_mem_cons.mp h.openings
      obtain ⟨hinner, hnested⟩ := List.pairwise_cons.mp h.nested
      have hrest : Ordered ⟨outer, forms⟩ q := ⟨h.forms, houter, houterOpenings, hnested⟩
      refine (hrest.mono hlater).add (Sexp.enclosing_list fun item hitem => ?_)
        (.list (hlast ▸ hp)) hinner
      obtain ⟨henclosing, hfirst, hbefore⟩ := hframe item (List.mem_reverse.mp hitem)
      exact ⟨⟨hfirst, (hbefore.mono hends).last_le_iff⟩, henclosing⟩

/-- The tokens of a text that is `LaidOut` are read in the order in which they stand there. -/
theorem foldlM {file : String} {rest before cs : List Char} {ts : List Token}
    (hts : LaidOut file rest before cs ts) (h : n.Ordered (.behind before))
    (hn : ts.foldlM Nest.step n = .ok n') : ∃ q, n'.Ordered q := by
  induction hts generalizing n with
  | last => cases hn; exact ⟨_, h⟩
  | @token before gap cs t ts _ ht hspan _ ih =>
    rw [List.foldlM_cons, bind_eq_ok] at hn
    obtain ⟨m, hm, hn⟩ := hn
    obtain ⟨chars, c, -, hends, hp⟩ := ht.endsAt file (before ++ gap)
    rw [← hspan] at hends
    have hfirst : Position.behind before ≤ t.span.first :=
      hspan ▸ Position.behind_le_append before gap
    exact ih (h.step hfirst hends hp hm) hn

end Ordered

end Nest

/-! ### All texts -/

/-- Where the tokens of a text that is `LaidOut` end. -/
theorem LaidOut.endsAt {file : String} {rest before cs : List Char} {ts : List Token}
    (h : LaidOut file rest before cs ts) :
    ∀ t ∈ ts, ∃ earlier chars c later, before ++ cs ++ rest = earlier ++ (chars ++ c :: later) ∧
      t.lexeme.text.toList = chars ++ [c] ∧ t.span.first = .behind earlier ∧
      t.span.EndsAt t.lexeme.text.toList (.behind (earlier ++ chars)) := by
  induction h with
  | last => exact nofun
  | @token before gap cs t ts _ ht hspan _ ih =>
    refine List.forall_mem_cons.mpr ⟨?_, fun t' ht' => ?_⟩
    · obtain ⟨chars, c, htext, hends, -⟩ := ht.endsAt file (before ++ gap)
      refine ⟨before ++ gap, chars, c, cs ++ rest, ?_, htext, by rw [hspan]; rfl, hspan ▸ hends⟩
      simp [htext]
    · obtain ⟨earlier, chars, c, later, htext, hends⟩ := ih t' ht'
      exact ⟨earlier, chars, c, later, by rw [← htext]; simp, hends⟩

/-- In the forms of a text, the lists are `Enclosing`. -/
theorem enclosing_of_read {file source : String} {es : List Sexp} (h : read file source = .ok es) :
    ∀ e ∈ es, e.Enclosing := by
  rw [read, bind_eq_ok] at h
  obtain ⟨stream, hstream, h⟩ := h
  rw [bind_eq_ok] at h
  obtain ⟨n, hn, h⟩ := h
  have hstart : Nest.Ordered {} (.behind []) := ⟨by simp, by simp, by simp, .nil⟩
  obtain ⟨q, hordered⟩ := hstart.foldlM (laidOut_of_scan hstream) hn
  obtain ⟨-, rfl⟩ := Nest.finish_eq_ok.mp h
  exact fun e he => hordered.forms e (List.mem_reverse.mp he)

/-- Where spans end. The span of a token begins with its first character and ends on the line of its
last one. It ends with this character exactly if the token has no line feed in it, or the character
does not stand to the left of the first one; otherwise it ends in the column of the first one. The
span of a list encloses the spans of its `items`, except for a string of several lines that ends on
the line of the closing parenthesis and begins further to the right than that stands. -/
theorem spans_end (file source : String) :
    (∀ stream, scan file source = .ok stream → ∀ t ∈ stream.tokens,
      ∃ before chars c after, source.toList = before ++ (chars ++ c :: after) ∧
        t.lexeme.text.toList = chars ++ [c] ∧ t.span.first = .behind before ∧
        t.span.last = ⟨(Position.behind (before ++ chars)).line,
          max (Position.behind (before ++ chars)).col (Position.behind before).col⟩ ∧
        (t.span.last = .behind (before ++ chars) ↔ ¬ ('\n' ∈ t.lexeme.text.toList ∧
          (Position.behind (before ++ chars)).col < (Position.behind before).col))) ∧
    ∀ es, read file source = .ok es → ∀ e ∈ es, ∀ items span, Sexp.Within (.list items span) e →
      ∀ item ∈ items, span.first ≤ item.span.first ∧
        (item.span.last ≤ span.last ↔ ¬ item.Overhangs span) := by
  refine ⟨fun stream hstream t ht => ?_, fun es hes e he items span hwithin item hitem => ?_⟩
  · obtain ⟨before, chars, c, after, hsource, htext, hfirst, hends⟩ :=
      (laidOut_of_scan hstream).endsAt t ht
    rw [List.nil_append, List.append_nil] at hsource
    refine ⟨before, chars, c, after, hsource, htext, hfirst, ?_⟩
    rw [← hfirst]
    exact ⟨hends.last_eq, hends.last_eq_iff⟩
  · obtain ⟨hfirst, hlast⟩ := enclosing_of_read hes e he items span hwithin item hitem
    exact ⟨hfirst, hlast⟩

/-- A list of a single string, which begins in the seventh column and ends in the second column of
the next line, right before the closing parenthesis. -/
private def hangingString : String :=
  "(     \"a\nb\")"

/-- So, by `hangingString`, the span of a token need not end with its last character, and the span
of a list need not enclose the spans of its items. -/
theorem not_spans_end_hangingString :
    (¬ ∀ stream, scan "main" hangingString = .ok stream → ∀ t ∈ stream.tokens,
      ∀ before chars c after, hangingString.toList = before ++ (chars ++ c :: after) →
        t.lexeme.text.toList = chars ++ [c] → t.span.first = .behind before →
        t.span.last = .behind (before ++ chars)) ∧
    ¬ ∀ es, read "main" hangingString = .ok es → ∀ e ∈ es, ∀ items span,
      Sexp.Within (.list items span) e → ∀ item ∈ items, item.span.last ≤ span.last := by
  constructor
  · intro hall
    have h := hall _ rfl ⟨.atom "\"a\nb\"", ⟨"main", ⟨1, 7⟩, ⟨2, 7⟩⟩⟩ (by decide)
      "(     ".toList "\"a\nb".toList '"' [')'] rfl rfl rfl
    revert h
    decide
  · intro hall
    have h := hall _ rfl (.list [.atom "\"a\nb\"" ⟨"main", ⟨1, 7⟩, ⟨2, 7⟩⟩]
      ⟨"main", ⟨1, 1⟩, ⟨2, 3⟩⟩)
      List.mem_cons_self _ _ .refl _ List.mem_cons_self
    rw [Position.le_iff] at h
    revert h
    decide

end Casewise

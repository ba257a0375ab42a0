import Casewise.Proofs.Sexp.Balance

/-!
# Where reading a text fails

A text is read into forms exactly if every string in it is closed and its tokens are balanced. A
text that is not is blamed on one place: on the string that is open at its end, on the first closing
parenthesis that closes nothing, or on the last opening parenthesis that stays open. Reading a
single form finds the same forms, and blames what follows the first one.

## Main definitions

* `CompileError.Blames`: an error is one diagnostic with one label.
* `IsOpenString`: a string that starts at a place of a text and reaches to the end of it.

## Main statements

* `scan_eq_error_iff`: a text falls into tokens unless a string is open at its end.
* `read_blames`: what a text is read into, and what it is blamed on otherwise.
-/

namespace Casewise

open Lexeme (openings closings ClosesOnlyOpened)

/-- The error is a single diagnostic, of the code `code` and with the single label `span`. -/
def CompileError.Blames (e : CompileError) (code : String) (span : Span) : Prop :=
  ∃ message, e.diagnostics = [{ code, message, labels := [span] }]

theorem Malformed.blames_report (m : Malformed) (span : Span) :
    (m.report span).Blames m.code span :=
  ⟨m.message, rfl⟩

/-! ### Strings that stay open -/

/-- After the characters `before`, a quote starts a string, and the characters `body` after that
quote do not close it. -/
structure IsOpenString (file : String) (before body : List Char) : Prop where
  /-- No token and no comment is open before the quote. -/
  between : (before.foldl (Scan.step file) {}).mode = .between
  /-- No beginning of the characters after the quote closes the string. -/
  unclosed : ∀ cs, cs <+: body → closesAtEnd false cs = false

/-- After its closing quote, a string is over. -/
theorem closesAtEnd_append {escaped : Bool} {cs : List Char} (h : closesAtEnd escaped cs = true)
    (rest : List Char) : closesAtEnd escaped (cs ++ rest) = rest.isEmpty := by
  induction cs generalizing escaped with
  | nil => cases escaped <;> cases h
  | cons c cs ih =>
    cases escaped with
    | true =>
      rw [closesAtEnd] at h
      rw [List.cons_append, closesAtEnd, ih h]
    | false =>
      rw [closesAtEnd] at h
      rw [List.cons_append, closesAtEnd]
      split
      · next hback =>
        rw [if_pos hback] at h
        exact ih h
      · next hback =>
        rw [if_neg hback] at h
        split
        · next hquote =>
          rw [if_pos hquote, List.isEmpty_iff] at h
          rw [h, List.nil_append]
        · next hquote =>
          rw [if_neg hquote] at h
          exact ih h

namespace Scan

/-- A string that is not closed stays open. -/
theorem foldl_unclosed {cs : List Char} {escaped : Bool}
    (hcs : ∀ cs', cs' <+: cs → closesAtEnd escaped cs' = false) (file : String)
    (first here : Position) (taken : List Char) (found : List Token) :
    ∃ taken' escaped', (cs.foldl (step file) ⟨.string first taken escaped, here, found⟩).mode =
      .string first taken' escaped' := by
  induction cs generalizing taken here escaped with
  | nil => exact ⟨taken, escaped, rfl⟩
  | cons c cs ih =>
    have hrest (cs' : List Char) (h : cs' <+: cs) : closesAtEnd escaped (c :: cs') = false :=
      hcs _ ((List.prefix_cons_inj c).mpr h)
    rw [List.foldl_cons]
    cases escaped with
    | true =>
      simp only [step]
      exact ih hrest _ _
    | false =>
      simp only [closesAtEnd] at hrest
      simp only [step, Bool.false_eq_true, if_false]
      by_cases hback : c = '\\'
      · simp only [hback, if_true] at hrest ⊢
        exact ih hrest _ _
      · by_cases hquote : c = '"'
        · have := hrest [] List.nil_prefix
          simp [hquote] at this
        · simp only [hback, hquote, if_false] at hrest ⊢
          exact ih hrest _ _

/-- While no token is open, only a quote starts a string. -/
theorem stepBetween_eq_string {file : String} {here first : Position}
    {found : List Token} {c : Char}
    {taken : List Char} {escaped : Bool}
    (h : (stepBetween file here found c).mode = .string first taken escaped) :
    c = '"' ∧ first = here ∧ taken = ['"'] := by
  rw [stepBetween] at h
  repeat' split at h
  all_goals cases h
  next hquote => exact ⟨hquote, rfl, by rw [hquote]⟩

/-- A string that is open after characters starts where no token was open. -/
theorem start_of_mode {file : String} {cs : List Char} :
    ∀ {first : Position} {taken : List Char} {escaped : Bool},
      (cs.foldl (step file) {}).mode = .string first taken escaped →
      ∃ before, cs = before ++ taken.reverse ∧ (before.foldl (step file) {}).mode = .between ∧
        first = Position.start.advance before := by
  induction cs using List.reverseRecOn with
  | nil =>
    intro first taken escaped h
    cases h
  | append_singleton cs c ih =>
    intro first taken escaped h
    rw [List.foldl_append, List.foldl_cons, List.foldl_nil] at h
    have hhere := here_foldl file {} cs
    generalize hs : cs.foldl (step file) {} = s at h hhere ih
    obtain ⟨mode, here, found⟩ := s
    cases mode with
    | between =>
      obtain ⟨rfl, rfl, rfl⟩ := stepBetween_eq_string h
      exact ⟨cs, rfl, by rw [hs], hhere⟩
    | comment =>
      simp only [step] at h
      split at h <;> cases h
    | atom first' taken' =>
      simp only [step] at h
      split at h
      · next hends =>
        obtain ⟨rfl, -⟩ := stepBetween_eq_string h
        exact absurd hends (by decide)
      · cases h
    | string first' taken' escaped' =>
      obtain ⟨before, rfl, hbefore, rfl⟩ := ih rfl
      simp only [step] at h
      -- as long as the string stays open, the character is one more of those taken
      repeat' split at h
      all_goals cases h
      all_goals exact ⟨before, by simp, hbefore, rfl⟩

/-- A string whose end is still to be decided has not been closed. -/
theorem unclosed_of_rest {body : List Char} {escaped : Bool}
    (hbody : ∀ rest, closesAtEnd false (body ++ rest) = closesAtEnd escaped rest) :
    ∀ cs, cs <+: body → closesAtEnd false cs = false := by
  rintro cs ⟨more, rfl⟩
  rw [Bool.eq_false_iff]
  intro hclosed
  -- a closed string would leave no room for a longer one, but two more characters close this one
  have hshort (rest : List Char) : (more ++ rest).isEmpty = closesAtEnd escaped rest := by
    rw [← hbody, List.append_assoc, closesAtEnd_append hclosed]
  cases escaped with
  | true => simpa [closesAtEnd] using hshort ['"', '"']
  | false => simpa [closesAtEnd] using hshort ['"']

end Scan

/-- `scan` fails exactly if a string is open at the end of the text, and the failure is about all of
the text from the quote of this string on. -/
theorem scan_eq_error_iff {file source : String} {e : CompileError} :
    scan file source = .error e ↔
      ∃ before body, source.toList = before ++ '"' :: body ∧ IsOpenString file before body ∧
        e = Malformed.unterminatedString.report
          (.upTo file (Position.start.advance before) (Position.start.advance source.toList)) := by
  have hhere := Scan.here_foldl file {} source.toList
  constructor
  · intro h
    rw [scan] at h
    generalize hs : source.toList.foldl (Scan.step file) {} = s at h hhere
    obtain ⟨mode, here, found⟩ := s
    cases mode with
    | between => cases h
    | comment => cases h
    | atom first taken => cases h
    | string first taken escaped =>
      have hmode : (source.toList.foldl (Scan.step file) {}).mode =
          .string first taken escaped := by
        rw [hs]
      obtain ⟨before, hsource, hbefore, rfl⟩ := Scan.start_of_mode hmode
      obtain ⟨body, htaken, hbody⟩ : Scan.Mode.IsReadable (.string _ taken escaped) := by
        rw [← hmode]
        exact (Scan.isReadable_start.foldl source.toList).mode
      rw [htaken] at hsource
      refine ⟨before, body, hsource, ⟨hbefore, Scan.unclosed_of_rest hbody⟩, ?_⟩
      cases h
      rw [← show here = Position.start.advance source.toList from hhere]
  · rintro ⟨before, body, hsource, ⟨hbefore, hbody⟩, rfl⟩
    have hfirst := Scan.here_foldl file {} before
    rw [scan]
    generalize hs : source.toList.foldl (Scan.step file) {} = s at hhere
    rw [hsource, List.foldl_append, List.foldl_cons] at hs
    generalize before.foldl (Scan.step file) {} = s₀ at hs hbefore hfirst
    obtain ⟨mode, here, found⟩ := s₀
    obtain rfl : mode = .between := hbefore
    obtain ⟨taken, escaped, hmode⟩ :=
      Scan.foldl_unclosed hbody file here (here.next '"') ['"'] found
    change body.foldl (Scan.step file) ⟨.string here ['"'] false, here.next '"', found⟩ = s at hs
    rw [hs] at hmode
    rw [Scan.finish, hmode]
    dsimp only
    rw [hhere, show here = Position.start.advance before from hfirst]

/-- The `stop` of the tokens of a text lies behind its last character. -/
theorem stop_of_scan {file source : String} {stream : TokenStream}
    (h : scan file source = .ok stream) :
    stream.stop =
      .upTo file (Position.start.advance source.toList) (Position.start.advance source.toList) := by
  have hhere := Scan.here_foldl file {} source.toList
  rw [scan] at h
  generalize source.toList.foldl (Scan.step file) {} = s at h hhere
  obtain ⟨mode, here, found⟩ := s
  obtain rfl : here = Position.start.advance source.toList := hhere
  cases mode with
  | between => cases h; rfl
  | comment => cases h; rfl
  | atom first taken => cases h; rfl
  | string first taken escaped => cases h

/-! ### A single form -/

namespace Nest

/-- `Nest.finish` finds the forms of a text if no list is open at its end. -/
theorem finish_eq_ok {n : Nest} {es : List Sexp} :
    n.finish = .ok es ↔ n.frames = [] ∧ es = n.forms.reverse := by
  obtain ⟨frames, forms⟩ := n
  cases frames with
  | nil => simp [finish, eq_comm]
  | cons frame outer => simp [finish]

theorem forms_suffix_add (n : Nest) (e : Sexp) : n.forms <:+ (n.add e).forms := by
  obtain ⟨frames, forms⟩ := n
  cases frames with
  | nil => exact List.suffix_cons e forms
  | cons frame outer => exact List.suffix_rfl

/-- `Nest.step` keeps the forms that are finished. -/
theorem forms_suffix_step {n n' : Nest} {t : Token} (h : n.step t = .ok n') :
    n.forms <:+ n'.forms := by
  cases hlexeme : t.lexeme with
  | atom text =>
    rw [step_of_atom hlexeme] at h
    cases h
    exact forms_suffix_add n _
  | opening =>
    rw [step_of_opening hlexeme] at h
    cases h
    exact List.suffix_rfl
  | closing =>
    obtain ⟨frames, forms⟩ := n
    cases frames with
    | nil => simp [step, hlexeme] at h
    | cons frame outer =>
      rw [step_of_closing hlexeme] at h
      cases h
      exact forms_suffix_add ⟨outer, forms⟩ _

theorem forms_suffix_foldlM {n n' : Nest} {ts : List Token} (h : ts.foldlM step n = .ok n') :
    n.forms <:+ n'.forms := by
  induction ts generalizing n with
  | nil =>
    cases h
    exact List.suffix_rfl
  | cons t ts ih =>
    rw [List.foldlM_cons, bind_eq_ok] at h
    obtain ⟨m, hm, h⟩ := h
    exact (forms_suffix_step hm).trans (ih h)

/-- Tokens that `step` reads as a form read as something else when more tokens follow. -/
theorem foldlM_append_ne_single {before after : List Token} {t : Token} {e : Sexp}
    (h : before.foldlM step {} = .ok ⟨[], [e]⟩) (e' : Sexp) :
    (before ++ t :: after).foldlM step {} ≠ .ok ⟨[], [e']⟩ := by
  intro h'
  have hlexemes := (reads_of_foldlM h).lexemes_eq
  have hlexemes' := (reads_of_foldlM h').lexemes_eq
  -- the first form stays, so that both are the same, and no token is left for what follows
  have hsame : [e] <:+ [e'] := by
    rw [List.foldlM_append, h] at h'
    exact forms_suffix_foldlM h'
  obtain rfl : e = e' := List.singleton_inj.mp (hsame.eq_of_length rfl)
  rw [List.map_append, hlexemes] at hlexemes'
  simp at hlexemes'

/-- `Nest.add` of a form to open lists finishes at most one form. -/
theorem add_eq_single (frames : List Frame) (e : Sexp) :
    (add ⟨frames, []⟩ e).forms = [] ∨ ∃ e', add ⟨frames, []⟩ e = ⟨[], [e']⟩ := by
  cases frames with
  | nil => exact .inr ⟨e, rfl⟩
  | cons frame outer => exact .inl rfl

/-- While no form is finished, `Nest.step` finishes at most one. -/
theorem step_eq_single {frames : List Frame} {t : Token} {n : Nest}
    (h : step ⟨frames, []⟩ t = .ok n) : n.forms = [] ∨ ∃ e, n = ⟨[], [e]⟩ := by
  cases hlexeme : t.lexeme with
  | atom text =>
    rw [step_of_atom hlexeme] at h
    cases h
    exact add_eq_single frames _
  | opening =>
    rw [step_of_opening hlexeme] at h
    cases h
    exact .inl rfl
  | closing =>
    cases frames with
    | nil => simp [step, hlexeme] at h
    | cons frame outer =>
      rw [step_of_closing hlexeme] at h
      cases h
      exact add_eq_single outer _

theorem stepOne_eq_step (frames : List Frame) (t : Token) :
    stepOne ⟨frames, []⟩ t = step ⟨frames, []⟩ t := by
  cases frames <;> rfl

/-- `stepOne` stops at the token after a single form, or does what `step` does, and then there is at
most one. -/
theorem foldlM_stepOne_cases (ts : List Token) :
    (∃ before t after e, ts = before ++ t :: after ∧ before.foldlM step {} = .ok ⟨[], [e]⟩ ∧
      ts.foldlM stepOne {} = .error ((Malformed.trailingInput t.lexeme.text).report t.span)) ∨
    (ts.foldlM stepOne {} = ts.foldlM step {} ∧
      ∀ n, ts.foldlM step {} = .ok n → n.forms = [] ∨ ∃ e, n = ⟨[], [e]⟩) := by
  induction ts using List.reverseRecOn with
  | nil =>
    refine .inr ⟨rfl, fun n hn => ?_⟩
    cases hn
    exact .inl rfl
  | append_singleton ts t ih =>
    rcases ih with ⟨before, t', after, e, rfl, hbefore, herror⟩ | ⟨hsame, hsingle⟩
    · refine .inl ⟨before, t', after ++ [t], e, by simp, hbefore, ?_⟩
      rw [List.foldlM_append, herror]
      rfl
    rw [List.foldlM_append, List.foldlM_append, hsame]
    cases hfold : ts.foldlM step {} with
    | error e => exact .inr ⟨rfl, fun _ h => by cases h⟩
    | ok n =>
      rcases hsingle n hfold with hnone | ⟨e, rfl⟩
      · obtain ⟨frames, forms⟩ := n
        obtain rfl : forms = [] := hnone
        refine .inr ⟨?_, fun n' hn' => ?_⟩
        · change [t].foldlM stepOne ⟨frames, []⟩ = [t].foldlM step ⟨frames, []⟩
          rw [List.foldlM_cons, List.foldlM_cons, stepOne_eq_step]
          rfl
        · change [t].foldlM step ⟨frames, []⟩ = .ok n' at hn'
          rw [List.foldlM_cons, bind_eq_ok] at hn'
          obtain ⟨m, hm, hn'⟩ := hn'
          cases hn'
          exact step_eq_single hm
      · exact .inl ⟨ts, t, [], e, rfl, hfold, rfl⟩

end Nest

/-- `readOne` finds a form exactly if this is all that `read` finds. -/
theorem readOne_eq_ok_iff {file source : String} {e : Sexp} :
    readOne file source = .ok e ↔ read file source = .ok [e] := by
  rw [readOne, read]
  cases scan file source with
  | error => exact ⟨fun h => (by cases h), fun h => (by cases h)⟩
  | ok stream =>
    change (stream.tokens.foldlM Nest.stepOne {} >>= fun n => n.finish >>= _) = _ ↔
      (stream.tokens.foldlM Nest.step {} >>= Nest.finish) = _
    rcases Nest.foldlM_stepOne_cases stream.tokens with
      ⟨before, t, after, e', htokens, hbefore, herror⟩ | ⟨hsame, hsingle⟩
    · rw [herror]
      refine ⟨fun h => (by cases h), fun h => ?_⟩
      obtain ⟨⟨frames, forms⟩, hfold, hfinish⟩ := bind_eq_ok.mp h
      obtain ⟨rfl, hforms⟩ := Nest.finish_eq_ok.mp hfinish
      obtain rfl : forms = [e] := by simpa using (congrArg List.reverse hforms).symm
      rw [htokens] at hfold
      exact absurd hfold (Nest.foldlM_append_ne_single hbefore e)
    · rw [hsame]
      cases hfold : stream.tokens.foldlM Nest.step {} with
      | error => exact ⟨fun h => (by cases h), fun h => (by cases h)⟩
      | ok n =>
        obtain ⟨frames, forms⟩ := n
        change (Nest.finish ⟨frames, forms⟩ >>= _) = _ ↔ Nest.finish ⟨frames, forms⟩ = _
        rcases hsingle _ hfold with hnone | ⟨e', hsome⟩
        · obtain rfl : forms = [] := hnone
          cases frames with
          | nil => exact ⟨fun h => (by cases h), fun h => (by cases h)⟩
          | cons => exact ⟨fun h => (by cases h), fun h => (by cases h)⟩
        · cases hsome
          exact ⟨fun h => (by cases h; rfl), fun h => (by cases h; rfl)⟩

/-- A text without tokens holds no form for `readOne`, and is blamed on its end. -/
theorem readOne_of_no_tokens {file source : String} {stream : TokenStream}
    (hscan : scan file source = .ok stream) (htokens : stream.tokens = []) :
    readOne file source = .error (Malformed.unexpectedEnd.report stream.stop) := by
  rw [readOne, hscan]
  change (stream.tokens.foldlM Nest.stepOne {} >>= _) = _
  rw [htokens]
  rfl

/-- A token after the tokens of a form is blamed by `readOne` for not being part of it. -/
theorem readOne_of_trailing {file source : String} {stream : TokenStream}
    (hscan : scan file source = .ok stream) {first rest : List Token} {t : Token} {f : Form}
    (htokens : stream.tokens = first ++ t :: rest) (hfirst : first.map Token.lexeme = f.lexemes) :
    readOne file source = .error ((Malformed.trailingInput t.lexeme.text).report t.span) := by
  obtain ⟨e, he, -⟩ := Nest.foldlM_step_lexemes f {} first hfirst
  have hone : first.foldlM Nest.stepOne {} = .ok ⟨[], [e]⟩ := by
    rcases Nest.foldlM_stepOne_cases first with
      ⟨before, t', after, e', rfl, hbefore, -⟩ | ⟨hsame, -⟩
    · exact absurd he (Nest.foldlM_append_ne_single hbefore e)
    · rw [hsame, he]
      rfl
  rw [readOne, hscan]
  change (stream.tokens.foldlM Nest.stepOne {} >>= _) = _
  rw [htokens, List.foldlM_append, hone]
  rfl

/-! ### All texts -/

/-- Closing more than is opened is blamed by `read` on the first token that does so. -/
theorem read_of_surplus {file source : String} {stream : TokenStream}
    (hscan : scan file source = .ok stream)
    (hsurplus : ¬ ClosesOnlyOpened (stream.tokens.map Token.lexeme)) :
    ∃ before t after, stream.tokens = before ++ t :: after ∧ IsFirstSurplus before t ∧
      read file source = .error (Malformed.unexpectedClosing.report t.span) := by
  rcases Nest.foldlM_step_cases stream.tokens with
    ⟨n, hn, hreads⟩ | ⟨before, t, after, htokens, ht, hbefore, herror⟩
  · exact absurd hreads.count.1 hsurplus
  · refine ⟨before, t, after, htokens, isFirstSurplus_of_balanced hbefore ht, ?_⟩
    rw [read, hscan]
    change (stream.tokens.foldlM Nest.step {} >>= Nest.finish) = _
    rw [herror]
    rfl

/-- Tokens that close only what is opened are read, up to the question whether a list is open, which
`finish` answers. -/
theorem read_of_closesOnlyOpened {file source : String} {stream : TokenStream}
    (hscan : scan file source = .ok stream)
    (hopened : ClosesOnlyOpened (stream.tokens.map Token.lexeme)) :
    ∃ n : Nest, n.Reads stream.tokens ∧ read file source = n.finish := by
  rcases Nest.foldlM_step_cases stream.tokens with
    ⟨n, hn, hreads⟩ | ⟨before, t, after, htokens, ht, hbefore, -⟩
  · refine ⟨n, hreads, ?_⟩
    rw [read, hscan]
    change (stream.tokens.foldlM Nest.step {} >>= Nest.finish) = _
    rw [hn]
    rfl
  · have hsurplus := (isFirstSurplus_of_balanced hbefore ht).surplus
    have hinitial : before ++ [t] <+: stream.tokens := by simp [htokens]
    have := hopened _ (hinitial.map Token.lexeme)
    omega

/-- Opening more than is closed is blamed by `read` on the last parenthesis that stays open. -/
theorem read_of_unclosed {file source : String} {stream : TokenStream}
    (hscan : scan file source = .ok stream)
    (hopened : ClosesOnlyOpened (stream.tokens.map Token.lexeme))
    (hmore : closings (stream.tokens.map Token.lexeme) <
      openings (stream.tokens.map Token.lexeme)) :
    ∃ before t after, stream.tokens = before ++ t :: after ∧ IsLastOpen t after ∧
      read file source = .error (Malformed.unclosedOpening.report t.span) := by
  obtain ⟨⟨frames, forms⟩, hreads, hread⟩ := read_of_closesOnlyOpened hscan hopened
  have hcount := hreads.count.2
  cases frames with
  | nil =>
    simp only [List.length_nil] at hcount
    omega
  | cons frame outer =>
    obtain ⟨before, t, after, htokens, hlast, hspan⟩ := hreads.lastOpen
    exact ⟨before, t, after, htokens, hlast, by rw [hread, hspan]; rfl⟩

/-- Tokens that `ClosesOnlyOpened` and that leave nothing open are read as forms that consist of
them. -/
theorem read_of_balanced {file source : String} {stream : TokenStream}
    (hscan : scan file source = .ok stream)
    (hopened : ClosesOnlyOpened (stream.tokens.map Token.lexeme))
    (hclosed : ¬ closings (stream.tokens.map Token.lexeme) <
      openings (stream.tokens.map Token.lexeme)) :
    ∃ es, read file source = .ok es ∧
      Form.lexemesAll (es.map Sexp.form) = stream.tokens.map Token.lexeme := by
  obtain ⟨⟨frames, forms⟩, hreads, hread⟩ := read_of_closesOnlyOpened hscan hopened
  have hcount := hreads.count.2
  cases frames with
  | nil => exact ⟨forms.reverse, hread, hreads.lexemes_eq.symm⟩
  | cons frame outer =>
    simp only [List.length_cons] at hcount
    omega

/-- What `read` and `readOne` make of a text and what they blame. A string that is open at the end
is blamed first (`E100`). Otherwise the text falls into tokens, and the first closing parenthesis
that closes nothing is blamed (`E101`), or else the last opening parenthesis that stays open
(`E102`), or else the tokens are read as forms that consist of exactly these tokens. A single form
is read if it is all there is; otherwise the end of a text without tokens is blamed, or the token
after the first form. -/
theorem read_blames (file source : String) :
    (∀ before body, source.toList = before ++ '"' :: body → IsOpenString file before body →
      ∃ e, read file source = .error e ∧ e.Blames "E100"
        (.upTo file (Position.start.advance before) (Position.start.advance source.toList))) ∧
    ((∀ before body, source.toList = before ++ '"' :: body → ¬ IsOpenString file before body) →
      ∃ stream, scan file source = .ok stream ∧
        (¬ ClosesOnlyOpened (stream.tokens.map Token.lexeme) →
          ∃ before t after, stream.tokens = before ++ t :: after ∧ IsFirstSurplus before t ∧
            ∃ e, read file source = .error e ∧ e.Blames "E101" t.span) ∧
        (ClosesOnlyOpened (stream.tokens.map Token.lexeme) →
          closings (stream.tokens.map Token.lexeme) < openings (stream.tokens.map Token.lexeme) →
          ∃ before t after, stream.tokens = before ++ t :: after ∧ IsLastOpen t after ∧
            ∃ e, read file source = .error e ∧ e.Blames "E102" t.span) ∧
        (ClosesOnlyOpened (stream.tokens.map Token.lexeme) →
          ¬ closings (stream.tokens.map Token.lexeme) < openings (stream.tokens.map Token.lexeme) →
          ∃ es, read file source = .ok es ∧
            Form.lexemesAll (es.map Sexp.form) = stream.tokens.map Token.lexeme) ∧
        (stream.tokens = [] →
          ∃ e, readOne file source = .error e ∧ e.Blames "E102"
            (.upTo file (Position.start.advance source.toList)
              (Position.start.advance source.toList))) ∧
        (∀ first t rest f, stream.tokens = first ++ t :: rest →
          first.map Token.lexeme = Form.lexemes f →
          ∃ e, readOne file source = .error e ∧ e.Blames "E103" t.span)) ∧
    (∀ e, readOne file source = .ok e ↔ read file source = .ok [e]) := by
  refine ⟨fun before body hsource hopen => ?_, fun hclosed => ?_, fun e => readOne_eq_ok_iff⟩
  · have hscan := scan_eq_error_iff.mpr ⟨before, body, hsource, hopen, rfl⟩
    refine ⟨_, ?_, Malformed.unterminatedString.blames_report _⟩
    rw [read, hscan]
    rfl
  cases hscan : scan file source with
  | error e =>
    obtain ⟨before, body, hsource, hopen, -⟩ := scan_eq_error_iff.mp hscan
    exact absurd hopen (hclosed before body hsource)
  | ok stream =>
    refine ⟨stream, rfl, fun hsurplus => ?_, fun hopened hmore => ?_, read_of_balanced hscan,
      fun htokens => ?_, fun first t rest f htokens hfirst => ?_⟩
    · obtain ⟨before, t, after, htokens, ht, hread⟩ := read_of_surplus hscan hsurplus
      exact ⟨before, t, after, htokens, ht, _, hread, Malformed.unexpectedClosing.blames_report _⟩
    · obtain ⟨before, t, after, htokens, ht, hread⟩ := read_of_unclosed hscan hopened hmore
      exact ⟨before, t, after, htokens, ht, _, hread, Malformed.unclosedOpening.blames_report _⟩
    · refine ⟨_, readOne_of_no_tokens hscan htokens, ?_⟩
      rw [stop_of_scan hscan]
      exact Malformed.unexpectedEnd.blames_report _
    · exact ⟨_, readOne_of_trailing hscan htokens hfirst,
        (Malformed.trailingInput t.lexeme.text).blames_report _⟩

end Casewise

import Mathlib.Data.List.Induction
import Casewise.Proofs.Sexp.Form

/-!
# Balanced tokens

Tokens are balanced if no beginning of them closes more parentheses than it opens, and all of them
together close as many as they open. The tokens of forms are balanced, and what is known about a
text after its first tokens can be told from these tokens alone: `Nest.Reads` splits them at the
opening parentheses of the open lists, and what stands between these is balanced.

## Main statements

* `Form.balanced_lexemesAll`: the tokens of forms are balanced.
* `Nest.foldlM_step_cases`: tokens are read into what is known about them, or stop at the first
  closing parenthesis that closes nothing.
* `Nest.Reads.lexemes_eq`, `Nest.Reads.lastOpen`: what the tokens are when no list is open, and
  where the innermost list that is open starts.
-/

namespace Casewise

/-! ### Counting parentheses -/

namespace Lexeme

/-- How many opening parentheses there are. -/
def openings (ls : List Lexeme) : Nat :=
  ls.count .opening

/-- How many closing parentheses there are. -/
def closings (ls : List Lexeme) : Nat :=
  ls.count .closing

@[simp]
theorem openings_nil : openings [] = 0 :=
  rfl

@[simp]
theorem closings_nil : closings [] = 0 :=
  rfl

@[simp]
theorem openings_cons (l : Lexeme) (ls : List Lexeme) :
    openings (l :: ls) = openings ls + if l = opening then 1 else 0 := by
  simp [openings, List.count_cons]

@[simp]
theorem closings_cons (l : Lexeme) (ls : List Lexeme) :
    closings (l :: ls) = closings ls + if l = closing then 1 else 0 := by
  simp [closings, List.count_cons]

@[simp]
theorem openings_append (ls ls' : List Lexeme) :
    openings (ls ++ ls') = openings ls + openings ls' :=
  List.count_append

@[simp]
theorem closings_append (ls ls' : List Lexeme) :
    closings (ls ++ ls') = closings ls + closings ls' :=
  List.count_append

/-- No beginning of the tokens closes more parentheses than it opens. -/
def ClosesOnlyOpened (ls : List Lexeme) : Prop :=
  ∀ ls', ls' <+: ls → closings ls' ≤ openings ls'

/-- The tokens close exactly the parentheses they open. -/
structure Balanced (ls : List Lexeme) : Prop where
  /-- Nothing is closed before it is opened. -/
  closesOnlyOpened : ClosesOnlyOpened ls
  /-- Everything that is opened is closed. -/
  closings_eq : closings ls = openings ls

theorem closesOnlyOpened_nil : ClosesOnlyOpened [] := by
  intro ls' hinitial
  rw [List.prefix_nil.mp hinitial]
  exact Nat.le_refl _

theorem ClosesOnlyOpened.append {ls ls' : List Lexeme} (h : ClosesOnlyOpened ls)
    (h' : ∀ p, p <+: ls' → closings ls + closings p ≤ openings ls + openings p) :
    ClosesOnlyOpened (ls ++ ls') := by
  intro p hp
  rcases List.prefix_or_prefix_of_prefix hp (List.prefix_append ls ls') with hinside | hbeyond
  · exact h p hinside
  · obtain ⟨q, rfl⟩ := hbeyond
    have hq : q <+: ls' := (List.prefix_append_right_inj ls).mp hp
    simpa using h' q hq

theorem balanced_nil : Balanced [] :=
  ⟨closesOnlyOpened_nil, rfl⟩

/-- An atom is balanced. -/
theorem balanced_atom (text : String) : Balanced [.atom text] := by
  refine ⟨fun p hp => ?_, by simp⟩
  rcases List.prefix_cons_iff.mp hp with rfl | ⟨q, rfl, hq⟩
  · exact Nat.le_refl _
  · rw [List.prefix_nil.mp hq]
    simp

theorem Balanced.append {ls ls' : List Lexeme} (h : Balanced ls) (h' : Balanced ls') :
    Balanced (ls ++ ls') := by
  have hleft := h.closings_eq
  have hright := h'.closings_eq
  refine ⟨h.closesOnlyOpened.append fun p hp => ?_, by simp; omega⟩
  have hp := h'.closesOnlyOpened p hp
  omega

/-- Balanced tokens inside parentheses are balanced. -/
theorem Balanced.parenthesized {ls : List Lexeme} (h : Balanced ls) :
    Balanced (.opening :: (ls ++ [.closing])) := by
  have hinside := h.closings_eq
  refine ⟨fun p hp => ?_, by simp; omega⟩
  rcases List.prefix_cons_iff.mp hp with rfl | ⟨q, rfl, hq⟩
  · exact Nat.le_refl _
  rcases List.prefix_concat_iff.mp hq with rfl | hq
  · simp
    omega
  · have hq := h.closesOnlyOpened q hq
    simp
    omega

end Lexeme

open Lexeme (openings closings ClosesOnlyOpened Balanced)

namespace Form

theorem lexemesAll_append (fs fs' : List Form) :
    lexemesAll (fs ++ fs') = lexemesAll fs ++ lexemesAll fs' := by
  simp [lexemesAll_eq_flatten]

mutual

theorem balanced_lexemes : ∀ f : Form, Balanced f.lexemes
  | .atom text => Lexeme.balanced_atom text
  | .list items => (balanced_lexemesAll items).parenthesized

/-- The tokens of forms are `Balanced`. -/
theorem balanced_lexemesAll : ∀ fs : List Form, Balanced (lexemesAll fs)
  | [] => Lexeme.balanced_nil
  | f :: fs => (balanced_lexemes f).append (balanced_lexemesAll fs)

end

end Form

/-! ### Places among tokens -/

/-- The token `t`, after the tokens `before`, is the first to close more than was opened. -/
structure IsFirstSurplus (before : List Token) (t : Token) : Prop where
  /-- The token is a closing parenthesis. -/
  closing : t.lexeme = .closing
  /-- No beginning of the tokens before it does so. -/
  closesOnlyOpened : ClosesOnlyOpened (before.map Token.lexeme)
  /-- The tokens up to it do. -/
  surplus :
    openings ((before ++ [t]).map Token.lexeme) < closings ((before ++ [t]).map Token.lexeme)

/-- The token `t` opens what the tokens `after` it do not close. -/
structure StaysOpen (t : Token) (after : List Token) : Prop where
  /-- The token is an opening parenthesis. -/
  opening : t.lexeme = .opening
  /-- The tokens after it close only what they open themselves. -/
  closesOnlyOpened : ClosesOnlyOpened (after.map Token.lexeme)

/-- The token `t` opens what the tokens `after` it do not close, and is the last to do so. -/
structure IsLastOpen (t : Token) (after : List Token) : Prop extends StaysOpen t after where
  /-- Every later opening parenthesis is closed. -/
  last : ∀ between t' after', after = between ++ t' :: after' → ¬ StaysOpen t' after'

/-- A closing parenthesis after balanced tokens is the first to close more than was opened. -/
theorem isFirstSurplus_of_balanced {before : List Token} {t : Token}
    (hbefore : Balanced (before.map Token.lexeme)) (ht : t.lexeme = .closing) :
    IsFirstSurplus before t := by
  have hcount := hbefore.closings_eq
  refine ⟨ht, hbefore.closesOnlyOpened, ?_⟩
  simp [ht]
  omega

/-- An opening parenthesis before balanced tokens is the last that stays open. -/
theorem isLastOpen_of_balanced {t : Token} {after : List Token} (ht : t.lexeme = .opening)
    (hafter : Balanced (after.map Token.lexeme)) : IsLastOpen t after := by
  refine ⟨⟨ht, hafter.closesOnlyOpened⟩, ?_⟩
  rintro between t' after' rfl ⟨ht', hopen⟩
  -- what stands before it opens at least what it closes, so what stands after it closes more
  have hbetween := hafter.closesOnlyOpened (between.map Token.lexeme) (by simp)
  have hafter' := hopen (after'.map Token.lexeme) List.prefix_rfl
  have hcount := hafter.closings_eq
  simp [ht'] at hcount
  omega

/-! ### What is known after tokens -/

namespace Nest

/-- What is known after the tokens: they split at the opening parentheses of the open lists, and
between these stand the tokens of the forms that are finished there. -/
inductive Reads : Nest → List Token → Prop
  /-- Outside of every list there are finished forms only. -/
  | outside {forms : List Sexp} {ts : List Token}
    (hts : ts.map Token.lexeme = Form.lexemesAll (forms.reverse.map Sexp.form)) :
    Reads ⟨[], forms⟩ ts
  /-- An open list is an opening parenthesis and the items that are finished. -/
  | inside {outer : List Frame} {forms items : List Sexp} {before after : List Token} {t : Token}
    (hbefore : Reads ⟨outer, forms⟩ before) (ht : t.lexeme = .opening)
    (hafter : after.map Token.lexeme = Form.lexemesAll (items.reverse.map Sexp.form)) :
    Reads ⟨⟨t.span, items⟩ :: outer, forms⟩ (before ++ t :: after)

/-- A finished form adds its tokens. -/
theorem Reads.add {n : Nest} {ts us : List Token} {e : Sexp} (h : n.Reads ts)
    (hus : us.map Token.lexeme = e.form.lexemes) : (n.add e).Reads (ts ++ us) := by
  have htokens (es : List Sexp) : Form.lexemesAll ((e :: es).reverse.map Sexp.form) =
      Form.lexemesAll (es.reverse.map Sexp.form) ++ e.form.lexemes := by
    simp [Form.lexemesAll_append, Form.lexemesAll]
  cases h with
  | outside hts =>
    refine .outside ?_
    rw [List.map_append, hts, hus, htokens]
  | inside hbefore ht hafter =>
    rw [List.append_assoc, List.cons_append]
    refine .inside hbefore ht ?_
    rw [List.map_append, hafter, hus, htokens]

/-- One more token is read into what is known. -/
theorem Reads.step {n n' : Nest} {ts : List Token} {t : Token} (h : n.Reads ts)
    (hn : n.step t = .ok n') : n'.Reads (ts ++ [t]) := by
  cases hlexeme : t.lexeme with
  | atom text =>
    rw [step_of_atom hlexeme] at hn
    cases hn
    exact h.add (by rw [List.map_singleton, hlexeme, Sexp.form, Form.lexemes])
  | opening =>
    rw [step_of_opening hlexeme] at hn
    cases hn
    exact .inside h hlexeme rfl
  | closing =>
    cases h with
    | outside hts => simp [Nest.step, hlexeme] at hn
    | @inside outer forms items before after t₀ hbefore ht₀ hafter =>
      rw [step_of_closing hlexeme] at hn
      cases hn
      rw [List.append_assoc, List.cons_append]
      refine hbefore.add ?_
      rw [List.map_cons, List.map_append, List.map_singleton, ht₀, hafter, hlexeme, Sexp.form,
        Sexp.forms_eq_map, Form.lexemes]

/-- Only a closing parenthesis outside of every list stops reading. -/
theorem step_eq_error {n : Nest} {t : Token} {e : CompileError} (h : n.step t = .error e) :
    t.lexeme = .closing ∧ n.frames = [] ∧ e = Malformed.unexpectedClosing.report t.span := by
  obtain ⟨frames, forms⟩ := n
  cases hlexeme : t.lexeme with
  | atom text => simp [step_of_atom hlexeme] at h
  | opening => simp [step_of_opening hlexeme] at h
  | closing =>
    cases frames with
    | nil =>
      rw [step, hlexeme] at h
      cases h
      exact ⟨rfl, rfl, rfl⟩
    | cons frame outer => simp [step_of_closing hlexeme] at h

/-- Tokens are read into what `Nest.Reads` says of them, or reading stops at a closing parenthesis
after finished forms. -/
theorem foldlM_step_cases (ts : List Token) :
    (∃ n, ts.foldlM step {} = .ok n ∧ n.Reads ts) ∨
      ∃ before t after, ts = before ++ t :: after ∧ t.lexeme = .closing ∧
        Balanced (before.map Token.lexeme) ∧
        ts.foldlM step {} = .error (Malformed.unexpectedClosing.report t.span) := by
  induction ts using List.reverseRecOn with
  | nil => exact .inl ⟨{}, rfl, .outside rfl⟩
  | append_singleton ts t ih =>
    rw [List.foldlM_append]
    rcases ih with ⟨n, hn, hreads⟩ | ⟨before, t', after, rfl, ht', hbefore, herror⟩
    · rw [hn]
      change (∃ n', [t].foldlM step n = .ok n' ∧ _) ∨ ∃ before t' after, _ ∧ _ ∧ _ ∧
        [t].foldlM step n = _
      rw [List.foldlM_cons]
      cases hstep : n.step t with
      | ok n' => exact .inl ⟨n', rfl, hreads.step hstep⟩
      | error e =>
        obtain ⟨ht, hframes, rfl⟩ := step_eq_error hstep
        obtain ⟨frames, forms⟩ := n
        cases hreads with
        | inside => cases hframes
        | outside hts =>
          refine .inr ⟨ts, t, [], rfl, ht, ?_, rfl⟩
          rw [hts]
          exact Form.balanced_lexemesAll _
    · rw [herror]
      exact .inr ⟨before, t', after ++ [t], by simp, ht', hbefore, rfl⟩

/-- What tokens are read into is what is known after them. -/
theorem reads_of_foldlM {n : Nest} {ts : List Token} (h : ts.foldlM step {} = .ok n) :
    n.Reads ts := by
  rcases foldlM_step_cases ts with ⟨n', hn', hreads⟩ | ⟨before, t, after, -, -, -, herror⟩
  · rw [h] at hn'
    cases hn'
    exact hreads
  · rw [h] at herror
    cases herror

/-- What is known after tokens closes only what is opened, and an open list is one parenthesis more
that is opened than closed. -/
theorem Reads.count {n : Nest} {ts : List Token} (h : n.Reads ts) :
    ClosesOnlyOpened (ts.map Token.lexeme) ∧
      openings (ts.map Token.lexeme) = closings (ts.map Token.lexeme) + n.frames.length := by
  induction h with
  | @outside forms ts hts =>
    rw [hts]
    have hbalanced := Form.balanced_lexemesAll (forms.reverse.map Sexp.form)
    exact ⟨hbalanced.closesOnlyOpened, hbalanced.closings_eq.symm⟩
  | @inside outer forms items before after t _ ht hafter ih =>
    obtain ⟨hopened, hcount⟩ := ih
    have hbalanced := Form.balanced_lexemesAll (items.reverse.map Sexp.form)
    rw [← hafter] at hbalanced
    have hafterCount := hbalanced.closings_eq
    rw [List.map_append, List.map_cons, ht]
    refine ⟨hopened.append fun p hp => ?_, by simp at hcount ⊢; omega⟩
    rcases List.prefix_cons_iff.mp hp with rfl | ⟨q, rfl, hq⟩
    · simp at hcount ⊢
      omega
    · have hq := hbalanced.closesOnlyOpened q hq
      simp at hcount ⊢
      omega

/-- When no list is open, the tokens are those of the finished forms, `Form.lexemesAll`. -/
theorem Reads.lexemes_eq {forms : List Sexp} {ts : List Token} (h : Reads ⟨[], forms⟩ ts) :
    ts.map Token.lexeme = Form.lexemesAll (forms.reverse.map Sexp.form) := by
  cases h with
  | outside hts => exact hts

/-- The innermost open list starts at the last opening parenthesis that stays open, by
`IsLastOpen`. -/
theorem Reads.lastOpen {frame : Frame} {outer : List Frame} {forms : List Sexp} {ts : List Token}
    (h : Reads ⟨frame :: outer, forms⟩ ts) :
    ∃ before t after, ts = before ++ t :: after ∧ IsLastOpen t after ∧ t.span = frame.opening := by
  cases h with
  | @inside _ _ items before after t hbefore ht hafter =>
    refine ⟨before, t, after, rfl, isLastOpen_of_balanced ht ?_, rfl⟩
    rw [hafter]
    exact Form.balanced_lexemesAll _

end Nest

end Casewise

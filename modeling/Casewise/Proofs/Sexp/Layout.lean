import Mathlib.Data.List.DropRight
import Casewise.Proofs.Sexp.Blame

/-!
# How a text falls into tokens

A text is a row of tokens with gaps before, between and behind them. A gap holds nothing but blanks
and comments, so nothing that stands in the text gets lost. `LaidOut` says this of a text together
with the place of every token.

A text can be laid out in one way only, because reading finds the tokens it is laid out in; and
every text can be laid out, up to its end or up to a quote that opens a string which is never
closed.

## Main definitions

* `Position.behind`: the position behind the first characters of a text.
* `IsGap`, `Lexeme.IsWhole`: what may stand between tokens, and what a token may be.
* `LaidOut`: how a text falls into gaps and tokens.
* `OpensString`: a string that is never closed.

## Main statements

* `layable`: every text is laid out, up to its end or an open string.
* `LaidOut.finish_foldl`: reading a text finds the tokens it is laid out in.
* `scan_lays_out`: when reading finds tokens, which ones, and when it fails.
-/

namespace Casewise

/-! ### Places in a text -/

/-- The position behind the first characters `cs` of a text: one line more than there are line feeds
among them, and one column more than there are characters behind the last line feed. -/
def Position.behind (cs : List Char) : Position :=
  ⟨1 + cs.count '\n', 1 + (cs.rtakeWhile (· ≠ '\n')).length⟩

namespace Position

theorem next_behind (cs : List Char) (c : Char) : (behind cs).next c = behind (cs ++ [c]) := by
  rw [next, behind, behind, List.rtakeWhile_concat, List.count_append, List.count_singleton]
  by_cases hc : c = '\n'
  · simp [hc, Int.add_assoc]
  · simp [hc, Int.add_assoc]

theorem advance_behind (before cs : List Char) :
    (behind before).advance cs = behind (before ++ cs) := by
  induction cs generalizing before with
  | nil => rw [List.append_nil]; rfl
  | cons c cs ih =>
    have hnext : (behind before).advance (c :: cs) = ((behind before).next c).advance cs := rfl
    rw [hnext, next_behind, ih, List.append_assoc, List.singleton_append]

end Position

/-! ### Gaps and tokens -/

/-- Before the characters `rest`, the characters are blanks and comments. A comment reaches from a
semicolon to the next line feed, which does not belong to it, or to the end of the text. -/
inductive IsGap (rest : List Char) : List Char → Prop
  | nil : IsGap rest []
  | blank {c : Char} {cs : List Char} (hc : Text.isBlank c = true) (h : IsGap rest cs) :
    IsGap rest (c :: cs)
  | comment {body cs : List Char} (hbody : '\n' ∉ body)
    (hend : ∀ c ∈ (cs ++ rest).head?, c = '\n') (h : IsGap rest cs) :
    IsGap rest (';' :: body ++ cs)

/-- Every quote and every backslash among the characters belongs to a backslash and the one
character behind it. -/
inductive IsPaired : List Char → Prop
  | nil : IsPaired []
  | plain {c : Char} {cs : List Char} (hquote : c ≠ '"') (hback : c ≠ '\\') (h : IsPaired cs) :
    IsPaired (c :: cs)
  /-- A backslash in front, with the character behind it. -/
  | pair (c : Char) {cs : List Char} (h : IsPaired cs) : IsPaired ('\\' :: c :: cs)

/-- Before the characters `rest`, the lexeme is a token of its own: a parenthesis, an atom that goes
on as long as it can, or a string that is closed at its end and not before. -/
inductive Lexeme.IsWhole (rest : List Char) : Lexeme → Prop
  | opening : IsWhole rest .opening
  | closing : IsWhole rest .closing
  | plain {text : String} (h : IsPlainAtom text.toList) (hrest : EndsAtom rest) :
    IsWhole rest (.atom text)
  | string {text : String} {inside : List Char} (htext : text.toList = '"' :: inside ++ ['"'])
    (hinside : IsPaired inside) : IsWhole rest (.atom text)

/-- Between the characters `before` and `rest` of the text, the characters are the tokens in order,
with gaps before, between and behind them. -/
inductive LaidOut (file : String) (rest : List Char) :
    (before cs : List Char) → List Token → Prop
  | last {before gap : List Char} (hgap : IsGap rest gap) : LaidOut file rest before gap []
  | token {before gap cs : List Char} {t : Token} {ts : List Token}
    (hgap : IsGap (t.lexeme.text.toList ++ (cs ++ rest)) gap)
    (ht : t.lexeme.IsWhole (cs ++ rest))
    (hspan : t.span = .upTo file (Position.behind (before ++ gap))
      (Position.behind (before ++ gap ++ t.lexeme.text.toList)))
    (h : LaidOut file rest (before ++ gap ++ t.lexeme.text.toList) cs ts) :
    LaidOut file rest before (gap ++ (t.lexeme.text.toList ++ cs)) (t :: ts)

/-- None of the quotes among the characters `body` closes a string that was opened right before
them. -/
def IsUnclosed (body : List Char) : Prop :=
  ∀ inside after, body = inside ++ '"' :: after → ¬ IsPaired inside

/-- Behind the characters `before`, which fall into gaps and tokens, a quote opens a string that is
never closed; `body` is what follows the quote. -/
structure OpensString (file : String) (before body : List Char) : Prop where
  /-- What stands before the string falls into gaps and tokens. -/
  laidOut : ∃ ts, LaidOut file ('"' :: body) [] before ts
  /-- The string is never closed. -/
  isUnclosed : IsUnclosed body

/-! ### Strings -/

/-- A quote at the end closes a string if the quotes and backslashes before it are paired, by
`IsPaired`. -/
theorem IsPaired.closesAtEnd {inside : List Char} (h : IsPaired inside) :
    closesAtEnd false (inside ++ ['"']) = true := by
  induction h with
  | nil => rfl
  | plain hquote hback _ ih =>
    rw [List.cons_append, Casewise.closesAtEnd, if_neg hback, if_neg hquote]
    exact ih
  | pair c _ ih => exact ih

/-- Where a string is closed, the quotes and backslashes before the last quote are paired. -/
theorem exists_isPaired_of_closesAtEnd :
    ∀ {cs : List Char}, closesAtEnd false cs = true →
      ∃ inside, cs = inside ++ ['"'] ∧ IsPaired inside
  | [], h => by cases h
  | c :: cs, h => by
    rw [closesAtEnd] at h
    by_cases hback : c = '\\'
    · rw [if_pos hback] at h
      -- the backslash takes the next character along, and the string goes on behind that
      cases cs with
      | nil => cases h
      | cons d cs =>
        obtain ⟨inside, rfl, hinside⟩ := exists_isPaired_of_closesAtEnd h
        exact ⟨'\\' :: d :: inside, by rw [hback]; rfl, .pair d hinside⟩
    · rw [if_neg hback] at h
      by_cases hquote : c = '"'
      · rw [if_pos hquote, List.isEmpty_iff] at h
        exact ⟨[], by rw [hquote, h]; rfl, .nil⟩
      · rw [if_neg hquote] at h
        obtain ⟨inside, rfl, hinside⟩ := exists_isPaired_of_closesAtEnd h
        exact ⟨c :: inside, rfl, .plain hquote hback hinside⟩

/-! ### Every text is laid out -/

/-- Behind the characters `before` of a text, the characters fall into gaps and tokens, up to the
end of the text or up to a quote that opens a string which is never closed. -/
def Layable (file : String) (before cs : List Char) : Prop :=
  ∃ laid rest ts, cs = laid ++ rest ∧ LaidOut file rest before laid ts ∧
    (rest = [] ∨ ∃ body, rest = '"' :: body ∧ IsUnclosed body)

section Existence

variable {file : String} {rest before cs : List Char} {ts : List Token}

/-- A blank in front belongs to the first gap. -/
theorem LaidOut.blank {c : Char} (hc : Text.isBlank c = true)
    (h : LaidOut file rest (before ++ [c]) cs ts) : LaidOut file rest before (c :: cs) ts := by
  cases h with
  | last hgap => exact .last (.blank hc hgap)
  | @token _ gap cs t ts hgap ht hspan h =>
    have hbefore : before ++ c :: gap = before ++ [c] ++ gap := by simp
    rw [← hbefore] at hspan h
    exact .token (.blank hc hgap) ht hspan h

/-- A comment in front belongs to the first gap. -/
theorem LaidOut.comment {body : List Char} (hbody : '\n' ∉ body)
    (hend : ∀ c ∈ (cs ++ rest).head?, c = '\n')
    (h : LaidOut file rest (before ++ ';' :: body) cs ts) :
    LaidOut file rest before (';' :: body ++ cs) ts := by
  cases h with
  | last hgap => exact .last (.comment hbody hend hgap)
  | @token _ gap cs t ts hgap ht hspan h =>
    have hbefore : before ++ (';' :: body ++ gap) = before ++ ';' :: body ++ gap := by simp
    rw [← hbefore] at hspan h
    rw [← List.append_assoc]
    rw [List.append_assoc, List.append_assoc] at hend
    exact .token (.comment hbody hend hgap) ht hspan h

/-- A token in front of a `LaidOut` text, with no gap before it. -/
theorem LaidOut.lexeme {l : Lexeme} (hl : l.IsWhole (cs ++ rest))
    (h : LaidOut file rest (before ++ l.text.toList) cs ts) :
    ∃ ts, LaidOut file rest before (l.text.toList ++ cs) ts := by
  let t : Token := ⟨l, .upTo file (.behind before) (.behind (before ++ l.text.toList))⟩
  have hgap : IsGap (t.lexeme.text.toList ++ (cs ++ rest)) [] := .nil
  refine ⟨t :: ts, .token hgap hl ?_ ?_⟩
  · rw [List.append_nil]
  · rwa [List.append_nil]

namespace Layable

theorem blank {c : Char} (hc : Text.isBlank c = true) (h : Layable file (before ++ [c]) cs) :
    Layable file before (c :: cs) := by
  obtain ⟨laid, rest, ts, rfl, hlaid, hrest⟩ := h
  exact ⟨c :: laid, rest, ts, rfl, hlaid.blank hc, hrest⟩

/-- A comment in front keeps a text `Layable`; it reaches as far as it can. -/
theorem comment (h : Layable file (before ++ ';' :: cs.takeWhile (· ≠ '\n'))
    (cs.dropWhile (· ≠ '\n'))) : Layable file before (';' :: cs) := by
  obtain ⟨laid, rest, ts, hcs, hlaid, hrest⟩ := h
  refine ⟨_, rest, ts, ?_, hlaid.comment (fun hmem => ?_) (fun c hc => ?_), hrest⟩
  · rw [List.append_assoc, ← hcs, List.cons_append, List.takeWhile_append_dropWhile]
  · simpa using List.mem_takeWhile_imp hmem
  · have hstop := List.head?_dropWhile_not (fun d => decide (d ≠ '\n')) cs
    rw [hcs, Option.mem_def.mp hc] at hstop
    simpa using hstop

/-- A token in front keeps a text `Layable`. -/
theorem lexeme {l : Lexeme} (hl : l.IsWhole cs) (h : Layable file (before ++ l.text.toList) cs) :
    Layable file before (l.text.toList ++ cs) := by
  obtain ⟨laid, rest, ts, rfl, hlaid, hrest⟩ := h
  obtain ⟨ts', hts'⟩ := hlaid.lexeme hl
  exact ⟨_, rest, ts', (List.append_assoc _ _ _).symm, hts', hrest⟩

end Layable

/-- A character that ends no atom starts one, which goes on as long as it can. -/
theorem Lexeme.isWhole_takeWhile {c : Char} (hc : Scan.endsAtom c = false) (hquote : c ≠ '"')
    (cs : List Char) :
    (atom (String.ofList (c :: cs.takeWhile fun d => !Scan.endsAtom d))).IsWhole
      (cs.dropWhile fun d => !Scan.endsAtom d) := by
  refine .plain ?_ fun d hd => ?_
  · rw [String.toList_ofList]
    refine ⟨List.cons_ne_nil _ _, fun h => hquote (Option.some.inj h), ?_⟩
    refine List.forall_mem_cons.mpr ⟨hc, fun d hd => ?_⟩
    simpa using List.mem_takeWhile_imp hd
  · have hstop := List.head?_dropWhile_not (fun d => !Scan.endsAtom d) cs
    rw [Option.mem_def.mp hd] at hstop
    simpa using hstop

/-- Every text is `Layable`: it falls into gaps and tokens, up to its end or up to a quote that
opens a string which is never closed. -/
theorem layable (file : String) (before cs : List Char) : Layable file before cs := by
  induction hlength : cs.length using Nat.strong_induction_on generalizing before cs with
  | _ n ih =>
  subst hlength
  cases cs with
  | nil => exact ⟨[], [], [], rfl, .last .nil, .inl rfl⟩
  | cons c cs =>
    -- what stands behind the first character, or even further behind, is shorter
    have hlater {cs' : List Char} (h : cs' <:+ cs) (before : List Char) :
        Layable file before cs' := ih cs'.length (Nat.lt_succ_of_le h.length_le) before cs' rfl
    by_cases hblank : Text.isBlank c = true
    · exact .blank hblank (hlater List.suffix_rfl _)
    by_cases hsemicolon : c = ';'
    · rw [hsemicolon]
      exact .comment (hlater (List.dropWhile_suffix _) _)
    by_cases hopen : c = '('
    · rw [hopen]
      exact .lexeme .opening (hlater List.suffix_rfl _)
    by_cases hclose : c = ')'
    · rw [hclose]
      exact .lexeme .closing (hlater List.suffix_rfl _)
    by_cases hquote : c = '"'
    · by_cases hclosed : IsUnclosed cs
      · exact ⟨[], c :: cs, [], rfl, .last .nil, .inr ⟨cs, by rw [hquote], hclosed⟩⟩
      · rw [IsUnclosed] at hclosed
        push Not at hclosed
        obtain ⟨inside, after, rfl, hinside⟩ := hclosed
        have htext : c :: (inside ++ '"' :: after) =
            (Lexeme.atom (String.ofList ('"' :: inside ++ ['"']))).text.toList ++ after := by
          simp [Lexeme.text, hquote]
        rw [htext]
        exact .lexeme (.string String.toList_ofList hinside) (hlater ⟨inside ++ ['"'], by simp⟩ _)
    · have hc : Scan.endsAtom c = false := by
        simp [Scan.endsAtom, hblank, hsemicolon, hopen, hclose]
      have htext : c :: cs =
          (Lexeme.atom (String.ofList (c :: cs.takeWhile fun d => !Scan.endsAtom d))).text.toList ++
            cs.dropWhile fun d => !Scan.endsAtom d := by
        rw [Lexeme.text, String.toList_ofList, List.cons_append, List.takeWhile_append_dropWhile]
      rw [htext]
      exact .lexeme (Lexeme.isWhole_takeWhile hc hquote cs) (hlater (List.dropWhile_suffix _) _)

end Existence

/-! ### Reading a text that is laid out -/

namespace Scan

variable {file : String} {here : Position} {found : List Token}

/-- `Scan.step` through the characters of a comment stays in it. -/
theorem foldl_comment {body : List Char} (hbody : '\n' ∉ body) :
    body.foldl (step file) ⟨.comment, here, found⟩ = ⟨.comment, here.advance body, found⟩ := by
  induction body generalizing here with
  | nil => rfl
  | cons c body ih =>
    have hc : c ≠ '\n' := fun h => hbody (h ▸ List.mem_cons_self)
    have hstep : step file ⟨.comment, here, found⟩ c = ⟨.comment, here.next c, found⟩ := by
      simp only [step, if_neg hc]
    rw [List.foldl_cons, hstep, ih fun h => hbody (List.mem_cons_of_mem _ h)]
    rfl

/-- Where a comment ends, it may as well have ended before. -/
theorem finish_foldl_comment {cs : List Char} (hcs : ∀ c ∈ cs.head?, c = '\n') :
    finish file (cs.foldl (step file) ⟨.comment, here, found⟩) =
      finish file (cs.foldl (step file) ⟨.between, here, found⟩) := by
  cases cs with
  | nil => rfl
  | cons c cs =>
    obtain rfl : c = '\n' := hcs c rfl
    rfl

/-- `Scan.step` through a gap finds nothing. -/
theorem finish_foldl_gap {gap rest : List Char} (h : IsGap rest gap) :
    finish file ((gap ++ rest).foldl (step file) ⟨.between, here, found⟩) =
      finish file (rest.foldl (step file) ⟨.between, here.advance gap, found⟩) := by
  induction h generalizing here with
  | nil => rfl
  | @blank c cs hc _ ih =>
    have hstep : step file ⟨.between, here, found⟩ c = ⟨.between, here.next c, found⟩ := by
      simp only [step, stepBetween, hc, if_true]
    rw [List.cons_append, List.foldl_cons, hstep, ih]
    rfl
  | @comment body cs hbody hend _ ih =>
    have hstep : step file ⟨.between, here, found⟩ ';' = ⟨.comment, here.next ';', found⟩ := rfl
    have hadvance : here.advance (';' :: body ++ cs) = ((here.next ';').advance body).advance cs :=
      List.foldl_append
    rw [List.append_assoc, List.cons_append, List.foldl_cons, hstep, List.foldl_append,
      foldl_comment hbody, finish_foldl_comment hend, ih, hadvance]

/-- `Scan.step` through a token finds it where it is read. -/
theorem finish_foldl_lexeme {l : Lexeme} {rest : List Char} (h : l.IsWhole rest) :
    finish file ((l.text.toList ++ rest).foldl (step file) ⟨.between, here, found⟩) =
      finish file (rest.foldl (step file) ⟨.between, here.advance l.text.toList,
        ⟨l, .upTo file here (here.advance l.text.toList)⟩ :: found⟩) := by
  cases h with
  | opening => rfl
  | closing => rfl
  | plain htext hrest =>
    rw [Lexeme.text, List.foldl_append, ← foldl_settled hrest, settled_foldl_plain htext,
      String.ofList_toList]
  | @string text inside htext hinside =>
    have hstring : IsStringAtom text.toList := ⟨_, htext, hinside.closesAtEnd⟩
    rw [Lexeme.text, List.foldl_append, foldl_stringAtom hstring, String.ofList_toList]

end Scan

/-- Reading a text with `Scan.step` finds the tokens it is `LaidOut` in. -/
theorem LaidOut.finish_foldl {file : String} {rest before cs : List Char} {ts : List Token}
    (h : LaidOut file rest before cs ts) (found : List Token) :
    Scan.finish file ((cs ++ rest).foldl (Scan.step file) ⟨.between, .behind before, found⟩) =
      Scan.finish file (rest.foldl (Scan.step file)
        ⟨.between, .behind (before ++ cs), ts.reverse ++ found⟩) := by
  induction h generalizing found with
  | last hgap =>
    rw [Scan.finish_foldl_gap hgap, Position.advance_behind]
    rfl
  | @token before gap cs t ts hgap ht hspan _ ih =>
    have ht' : t = ⟨t.lexeme, .upTo file (.behind (before ++ gap))
        (.behind (before ++ gap ++ t.lexeme.text.toList))⟩ := by rw [← hspan]
    rw [List.append_assoc, List.append_assoc, Scan.finish_foldl_gap hgap,
      Scan.finish_foldl_lexeme ht, Position.advance_behind, Position.advance_behind, ← ht', ih]
    simp only [List.append_assoc, List.reverse_cons, List.singleton_append]

/-- A text that is `LaidOut` to its end is read as its tokens. -/
theorem LaidOut.scan {file source : String} {ts : List Token}
    (h : LaidOut file [] [] source.toList ts) :
    Casewise.scan file source =
      .ok ⟨ts, .upTo file (.behind source.toList) (.behind source.toList)⟩ := by
  have hread := h.finish_foldl []
  rw [List.append_nil, List.append_nil, List.nil_append] at hread
  refine Eq.trans hread ?_
  rw [List.foldl_nil, Scan.finish, List.reverse_reverse]

/-- A string that is never closed, by `OpensString`, is what `scan` fails at. -/
theorem OpensString.scan {file source : String} {before body : List Char}
    (h : OpensString file before body) (hsource : source.toList = before ++ '"' :: body) :
    Casewise.scan file source = .error (Malformed.unterminatedString.report
      (.upTo file (.behind before) (.behind source.toList))) := by
  obtain ⟨⟨ts, hlaid⟩, hunclosed⟩ := h
  have hopen (cs : List Char) (hcs : cs <+: body) : closesAtEnd false cs = false := by
    rw [Bool.eq_false_iff]
    intro hcloses
    obtain ⟨inside, rfl, hinside⟩ := exists_isPaired_of_closesAtEnd hcloses
    obtain ⟨after, rfl⟩ := hcs
    exact hunclosed inside after (by simp) hinside
  have hread := hlaid.finish_foldl []
  rw [List.append_nil, List.nil_append, ← hsource] at hread
  refine Eq.trans hread ?_
  -- the rest of the text is read inside the string
  have hhere := Scan.here_foldl file ⟨.between, .behind before, ts.reverse⟩ ('"' :: body)
  rw [Position.advance_behind, ← hsource] at hhere
  obtain ⟨taken, escaped, hmode⟩ := Scan.foldl_unclosed hopen file (.behind before)
    ((Position.behind before).next '"') ['"'] ts.reverse
  rw [List.foldl_cons] at hhere ⊢
  have hquote : Scan.step file ⟨.between, .behind before, ts.reverse⟩ '"' =
      ⟨.string (.behind before) ['"'] false, (Position.behind before).next '"', ts.reverse⟩ := rfl
  rw [hquote] at hhere ⊢
  rw [Scan.finish, hmode, hhere]

/-- A text is `LaidOut` to its end, or a quote in it opens a string that is never closed. -/
theorem laidOut_or_opensString (file source : String) :
    (∃ ts, LaidOut file [] [] source.toList ts) ∨
      ∃ before body, source.toList = before ++ '"' :: body ∧ OpensString file before body := by
  obtain ⟨laid, rest, ts, hsource, hlaid, rfl | ⟨body, rfl, hunclosed⟩⟩ :=
    layable file [] source.toList
  · rw [List.append_nil] at hsource
    exact .inl ⟨ts, hsource ▸ hlaid⟩
  · exact .inr ⟨laid, body, hsource, ⟨ts, hlaid⟩, hunclosed⟩

/-- A text that `scan` reads is `LaidOut` in the tokens it is read as. -/
theorem laidOut_of_scan {file source : String} {stream : TokenStream}
    (h : scan file source = .ok stream) : LaidOut file [] [] source.toList stream.tokens := by
  rcases laidOut_or_opensString file source with ⟨ts, hlaid⟩ | ⟨before, body, hsource, hopens⟩
  · rw [hlaid.scan] at h
    cases h
    exact hlaid
  · rw [hopens.scan hsource] at h
    cases h

/-- A text that `scan` does not read opens a string which is never closed. -/
theorem exists_opensString_of_scan {file source : String} {e : CompileError}
    (h : scan file source = .error e) :
    ∃ before body, source.toList = before ++ '"' :: body ∧ OpensString file before body := by
  rcases laidOut_or_opensString file source with ⟨ts, hlaid⟩ | hopens
  · rw [hlaid.scan] at h
    cases h
  · exact hopens

/-- How a text is read. The tokens that `scan` finds are those that the text is `LaidOut` in: the
text consists of them and of the gaps between them, and each stands where its span begins. Reading
fails exactly if a quote opens a string which is never closed (`OpensString`), and it fails at this
quote. -/
theorem scan_lays_out (file source : String) :
    (∀ ts, (∃ stream, scan file source = .ok stream ∧ stream.tokens = ts) ↔
      LaidOut file [] [] source.toList ts) ∧
    (∀ before body, source.toList = before ++ '"' :: body → OpensString file before body →
      ∃ e, scan file source = .error e ∧
        e.Blames "E100" (.upTo file (.behind before) (.behind source.toList))) ∧
    ∀ e, scan file source = .error e →
      ∃ before body, source.toList = before ++ '"' :: body ∧ OpensString file before body ∧
        e.Blames "E100" (.upTo file (.behind before) (.behind source.toList)) := by
  have hblames (span : Span) := Malformed.unterminatedString.blames_report span
  refine ⟨fun ts => ⟨?_, fun hlaid => ⟨_, hlaid.scan, rfl⟩⟩, fun before body hsource hopens =>
    ⟨_, hopens.scan hsource, hblames _⟩, fun e he => ?_⟩
  · rintro ⟨stream, hstream, rfl⟩
    exact laidOut_of_scan hstream
  · obtain ⟨before, body, hsource, hopens⟩ := exists_opensString_of_scan he
    rw [hopens.scan hsource] at he
    cases he
    exact ⟨before, body, hsource, hopens, hblames _⟩

end Casewise

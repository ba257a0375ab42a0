import Mathlib.Data.List.Basic
import Casewise.Sexp.Token

/-!
# How tokens are spelled

An atom is a run of characters that can stand inside an atom and does not start with a double quote,
or a string: a double quote, characters of which no quote is free, and a closing quote. `Spells`
relates a text without comments to the tokens it spells; it says where blanks may and must stand.

Reading such a text gives the spelled tokens, and whatever text is read, its atoms are atoms in this
sense.

## Main statements

* `Spells.scan`: reading a text that spells tokens gives these tokens.
* `isReadable_of_scan`: every atom read from a text is an atom.
-/

namespace Casewise

/-! ### Atoms -/

/-- Whether a quote closes a string right at the end of the characters and not before. `escaped`
tells whether a backslash takes the next character along. -/
def closesAtEnd : (escaped : Bool) → List Char → Bool
  | _, [] => false
  | true, _ :: cs => closesAtEnd false cs
  | false, c :: cs =>
    if c = '\\' then closesAtEnd true cs
    else if c = '"' then cs.isEmpty
    else closesAtEnd false cs

/-- The characters of an atom that is no string. -/
structure IsPlainAtom (cs : List Char) : Prop where
  /-- There are some. -/
  ne_nil : cs ≠ []
  /-- They do not start a string. -/
  head?_ne : cs.head? ≠ some '"'
  /-- None of them ends an atom. -/
  endsAtom_eq_false : ∀ c ∈ cs, Scan.endsAtom c = false

/-- The characters of a string with its quotes. -/
def IsStringAtom (cs : List Char) : Prop :=
  ∃ body, cs = '"' :: body ∧ closesAtEnd false body = true

/-- Whether the text can be read as one atom. -/
def IsAtom (text : String) : Prop :=
  IsPlainAtom text.toList ∨ IsStringAtom text.toList

/-- Whether the lexeme is a parenthesis or a text that can be read as one atom. -/
def Lexeme.IsReadable : Lexeme → Prop
  | opening | closing => True
  | atom text => IsAtom text

/-! ### Texts that spell tokens -/

/-- Whether an atom may stand right before the text. -/
def EndsAtom (cs : List Char) : Prop :=
  ∀ c ∈ cs.head?, Scan.endsAtom c = true

/-- The text spells the tokens: apart from blanks it consists of them, in order, and an atom that is
no string does not run into what follows. -/
inductive Spells : List Char → List Lexeme → Prop
  | nil : Spells [] []
  | blank {c : Char} {cs : List Char} {ls : List Lexeme} (hc : Text.isBlank c = true)
    (h : Spells cs ls) : Spells (c :: cs) ls
  | opening {cs : List Char} {ls : List Lexeme} (h : Spells cs ls) :
    Spells ('(' :: cs) (.opening :: ls)
  | closing {cs : List Char} {ls : List Lexeme} (h : Spells cs ls) :
    Spells (')' :: cs) (.closing :: ls)
  /-- An atom that is no string ends before what follows. -/
  | plain {a cs : List Char} {ls : List Lexeme} (ha : IsPlainAtom a) (hcs : EndsAtom cs)
    (h : Spells cs ls) : Spells (a ++ cs) (.atom (String.ofList a) :: ls)
  /-- A string ends with its closing quote. -/
  | string {a cs : List Char} {ls : List Lexeme} (ha : IsStringAtom a) (h : Spells cs ls) :
    Spells (a ++ cs) (.atom (String.ofList a) :: ls)

/-! ### Where reading stands -/

namespace Scan

theorem here_step (file : String) (s : Scan) (c : Char) :
    (s.step file c).here = s.here.next c := by
  have hbetween (here : Position) (found : List Token) :
      (stepBetween file here found c).here = here.next c := by
    simp only [stepBetween]
    repeat' split
    all_goals rfl
  obtain ⟨mode, here, found⟩ := s
  cases mode with
  | between => exact hbetween here found
  | comment => rfl
  | atom =>
    simp only [step]
    split
    · exact hbetween here _
    · rfl
  | string =>
    simp only [step]
    repeat' split
    all_goals rfl

theorem here_foldl (file : String) (s : Scan) (cs : List Char) :
    (cs.foldl (step file) s).here = s.here.advance cs := by
  induction cs generalizing s with
  | nil => rfl
  | cons c cs ih =>
    rw [List.foldl_cons, ih, here_step]
    rfl

end Scan

/-! ### Reading a text that spells tokens -/

namespace Scan

/-- The state after an open atom is finished, so that no token is open. -/
def settled (file : String) (s : Scan) : Scan :=
  match s.mode with
  | .atom first taken => ⟨.between, s.here, atomToken file first s.here taken :: s.found⟩
  | _ => s

/-- What ends an atom does to an open atom what it does when the atom is finished, by `settled`. -/
theorem step_settled {file : String} {s : Scan} {c : Char} (hc : endsAtom c = true) :
    step file (s.settled file) c = step file s c := by
  obtain ⟨mode, here, found⟩ := s
  cases mode with
  | atom first taken => simp only [settled, step, hc, if_true]
  | _ => rfl

theorem finish_settled {file : String} {s : Scan} :
    finish file (s.settled file) = finish file s := by
  obtain ⟨mode, here, found⟩ := s
  cases mode <;> rfl

/-- Where an atom may end, an open atom may as well be finished before reading on. -/
theorem foldl_settled {file : String} {s : Scan} {cs : List Char} (hcs : EndsAtom cs) :
    finish file (cs.foldl (step file) (s.settled file)) =
      finish file (cs.foldl (step file) s) := by
  cases cs with
  | nil => exact finish_settled
  | cons c cs => rw [List.foldl_cons, List.foldl_cons, step_settled (hcs c rfl)]

/-- `Scan.step` through the characters of an atom after its first stays in the atom. -/
theorem foldl_atom {file : String} {first here : Position} {taken : List Char}
    {found : List Token} {cs : List Char} (hcs : ∀ c ∈ cs, endsAtom c = false) :
    cs.foldl (step file) ⟨.atom first taken, here, found⟩ =
      ⟨.atom first (cs.reverse ++ taken), here.advance cs, found⟩ := by
  induction cs generalizing taken here with
  | nil => rfl
  | cons c cs ih =>
    rw [List.foldl_cons]
    have hstep : step file ⟨.atom first taken, here, found⟩ c =
        ⟨.atom first (c :: taken), here.next c, found⟩ := by
      simp only [step, hcs c List.mem_cons_self, Bool.false_eq_true, if_false]
    rw [hstep, ih fun c hc => hcs c (List.mem_cons_of_mem _ hc)]
    simp [Position.advance]

/-- The characters of a string after its first quote, up to the quote that closes it. -/
theorem foldl_string {file : String} {first here : Position} {taken : List Char}
    {found : List Token} {cs : List Char} {escaped : Bool}
    (hcs : closesAtEnd escaped cs = true) :
    cs.foldl (step file) ⟨.string first taken escaped, here, found⟩ =
      ⟨.between, here.advance cs,
        atomToken file first (here.advance cs) (cs.reverse ++ taken) :: found⟩ := by
  induction cs generalizing taken here escaped with
  | nil => cases escaped <;> cases hcs
  | cons c cs ih =>
    rw [List.foldl_cons]
    cases escaped with
    | true => simp [step, ih hcs, Position.advance]
    | false =>
      rw [closesAtEnd] at hcs
      by_cases hback : c = '\\'
      · rw [if_pos hback] at hcs
        simp [step, hback, ih hcs, Position.advance]
      · rw [if_neg hback] at hcs
        by_cases hquote : c = '"'
        · rw [if_pos hquote, List.isEmpty_iff] at hcs
          simp [step, hquote, hcs, Position.advance]
        · rw [if_neg hquote] at hcs
          simp [step, hback, hquote, ih hcs, Position.advance]

/-- A first character that ends no atom and is no quote opens an atom. -/
theorem step_between_of_plain {file : String} {here : Position} {found : List Token} {c : Char}
    (hc : endsAtom c = false) (hquote : c ≠ '"') :
    step file ⟨.between, here, found⟩ c = ⟨.atom here [c], here.next c, found⟩ := by
  simp only [endsAtom, Bool.or_eq_false_iff, decide_eq_false_iff_not] at hc
  obtain ⟨⟨⟨hblank, hopen⟩, hclose⟩, hsemicolon⟩ := hc
  simp [step, stepBetween, hblank, hopen, hclose, hsemicolon, hquote]

/-- An atom that is no string leaves its token, once it is `settled`. -/
theorem settled_foldl_plain {file : String} {here : Position} {found : List Token} {a : List Char}
    (ha : IsPlainAtom a) :
    (a.foldl (step file) ⟨.between, here, found⟩).settled file =
      ⟨.between, here.advance a,
        ⟨.atom (String.ofList a), .upTo file here (here.advance a)⟩ :: found⟩ := by
  obtain ⟨hne, hhead, hends⟩ := ha
  cases a with
  | nil => exact absurd rfl hne
  | cons c cs =>
    have hquote : c ≠ '"' := fun h => hhead (by rw [h]; rfl)
    rw [List.foldl_cons, step_between_of_plain (hends c List.mem_cons_self) hquote,
      foldl_atom fun c hc => hends c (List.mem_cons_of_mem _ hc)]
    simp [settled, atomToken, Position.advance]

/-- A string leaves its token. -/
theorem foldl_stringAtom {file : String} {here : Position} {found : List Token} {a : List Char}
    (ha : IsStringAtom a) :
    a.foldl (step file) ⟨.between, here, found⟩ =
      ⟨.between, here.advance a,
        ⟨.atom (String.ofList a), .upTo file here (here.advance a)⟩ :: found⟩ := by
  obtain ⟨body, rfl, hbody⟩ := ha
  have hstep : step file ⟨.between, here, found⟩ '"' =
      ⟨.string here ['"'] false, here.next '"', found⟩ :=
    rfl
  rw [List.foldl_cons, hstep, foldl_string hbody]
  simp [atomToken, Position.advance]

end Scan

/-- Reading on in a text that `Spells` tokens adds these tokens. -/
theorem Spells.finish {cs : List Char} {ls : List Lexeme} (h : Spells cs ls) (file : String)
    (here : Position) (found : List Token) :
    ∃ stream tokens, (cs.foldl (Scan.step file) ⟨.between, here, found⟩).finish file = .ok stream ∧
      stream.tokens = found.reverse ++ tokens ∧ tokens.map Token.lexeme = ls := by
  induction h generalizing here found with
  | nil => exact ⟨_, [], rfl, (List.append_nil _).symm, rfl⟩
  | blank hc _ ih =>
    rw [List.foldl_cons]
    simpa only [Scan.step, Scan.stepBetween, hc, if_true] using ih _ _
  | opening _ ih =>
    obtain ⟨stream, tokens, hfinish, htokens, hls⟩ := ih (here.next '(')
      (⟨.opening, .upTo file here (here.next '(')⟩ :: found)
    exact ⟨stream, _ :: tokens, hfinish, by simpa using htokens, by rw [List.map_cons, hls]⟩
  | closing _ ih =>
    obtain ⟨stream, tokens, hfinish, htokens, hls⟩ := ih (here.next ')')
      (⟨.closing, .upTo file here (here.next ')')⟩ :: found)
    exact ⟨stream, _ :: tokens, hfinish, by simpa using htokens, by rw [List.map_cons, hls]⟩
  | @plain a cs _ ha hcs _ ih =>
    obtain ⟨stream, tokens, hfinish, htokens, hls⟩ := ih (here.advance a)
      (⟨.atom (String.ofList a), .upTo file here (here.advance a)⟩ :: found)
    rw [← Scan.settled_foldl_plain ha, Scan.foldl_settled hcs] at hfinish
    exact ⟨stream, _ :: tokens, by rwa [List.foldl_append], by simpa using htokens,
      by rw [List.map_cons, hls]⟩
  | @string a cs _ ha _ ih =>
    obtain ⟨stream, tokens, hfinish, htokens, hls⟩ := ih (here.advance a)
      (⟨.atom (String.ofList a), .upTo file here (here.advance a)⟩ :: found)
    rw [← Scan.foldl_stringAtom ha] at hfinish
    exact ⟨stream, _ :: tokens, by rwa [List.foldl_append], by simpa using htokens,
      by rw [List.map_cons, hls]⟩

/-- `scan` of a text that `Spells` tokens gives these tokens. -/
theorem Spells.scan {text : String} {ls : List Lexeme} (h : Spells text.toList ls) (file : String) :
    ∃ stream, Casewise.scan file text = .ok stream ∧ stream.tokens.map Token.lexeme = ls := by
  obtain ⟨stream, tokens, hfinish, htokens, hls⟩ := h.finish file .start []
  exact ⟨stream, hfinish, by rw [htokens, List.reverse_nil, List.nil_append, hls]⟩

/-! ### The atoms of any text -/

namespace Scan

/-- What the open token will become: the characters of an open atom are those of an atom, and what
follows in an open string decides whether it closes at its end. -/
def Mode.IsReadable : Mode → Prop
  | .between | .comment => True
  | .atom _ taken => IsPlainAtom taken.reverse
  | .string _ taken escaped =>
    ∃ body, taken.reverse = '"' :: body ∧
      ∀ rest, closesAtEnd false (body ++ rest) = closesAtEnd escaped rest

/-- Every token found so far is readable, and the open one will be. -/
structure IsReadable (s : Scan) : Prop where
  /-- The finished tokens are readable. -/
  found : ∀ t ∈ s.found, t.lexeme.IsReadable
  /-- The open token will be readable. -/
  mode : s.mode.IsReadable

theorem isReadable_atomToken {file : String} {first here : Position} {taken : List Char}
    (h : IsPlainAtom taken.reverse ∨ IsStringAtom taken.reverse) :
    (atomToken file first here taken).lexeme.IsReadable := by
  change IsAtom (String.ofList taken.reverse)
  rwa [IsAtom, String.toList_ofList]

/-- `stepBetween`, one more character while no token is open, keeps everything readable. -/
theorem isReadable_stepBetween {file : String} {here : Position} {found : List Token} {c : Char}
    (hfound : ∀ t ∈ found, t.lexeme.IsReadable) : (stepBetween file here found c).IsReadable := by
  rw [stepBetween]
  split
  · exact ⟨hfound, trivial⟩
  · next hblank =>
    split
    · exact ⟨hfound, trivial⟩
    · next hsemicolon =>
      split
      · exact ⟨List.forall_mem_cons.mpr ⟨trivial, hfound⟩, trivial⟩
      · next hopen =>
        split
        · exact ⟨List.forall_mem_cons.mpr ⟨trivial, hfound⟩, trivial⟩
        · next hclose =>
          split
          · next hquote => exact ⟨hfound, [], by rw [hquote]; rfl, fun _ => rfl⟩
          · next hquote =>
            refine ⟨hfound, List.cons_ne_nil _ _, fun h => hquote (Option.some.inj h),
              fun d hd => ?_⟩
            rw [List.mem_singleton.mp hd]
            simp [endsAtom, hblank, hopen, hclose, hsemicolon]

/-- `Scan.step` keeps everything readable. -/
theorem IsReadable.step {file : String} {s : Scan} (h : s.IsReadable) (c : Char) :
    (s.step file c).IsReadable := by
  obtain ⟨mode, here, found⟩ := s
  obtain ⟨hfound, hmode⟩ := h
  cases mode with
  | between => exact isReadable_stepBetween hfound
  | comment =>
    refine ⟨hfound, ?_⟩
    simp only [Scan.step]
    split <;> trivial
  | atom first taken =>
    simp only [Scan.step]
    split
    · exact isReadable_stepBetween (List.forall_mem_cons.mpr
        ⟨isReadable_atomToken (.inl hmode), hfound⟩)
    · next hc =>
      obtain ⟨hne, hhead, hends⟩ := hmode
      refine ⟨hfound, ?_⟩
      change IsPlainAtom (c :: taken).reverse
      rw [List.reverse_cons]
      refine ⟨by simp, ?_, fun d hd => ?_⟩
      · rwa [List.head?_append_of_ne_nil _ hne]
      · rcases List.mem_append.mp hd with hd | hd
        · exact hends d hd
        · rw [List.mem_singleton.mp hd]
          exact Bool.eq_false_iff.mpr hc
  | string first taken escaped =>
    obtain ⟨body, htaken, hbody⟩ := hmode
    -- the characters taken so far, with the new one, and what they make of the rest of the string
    have hcons : (c :: taken).reverse = '"' :: (body ++ [c]) := by
      rw [List.reverse_cons, htaken, List.cons_append]
    have hrest (rest : List Char) :
        closesAtEnd false (body ++ [c] ++ rest) = closesAtEnd escaped (c :: rest) := by
      rw [List.append_assoc, hbody, List.singleton_append]
    simp only [Scan.step]
    split
    · next hescaped =>
      refine ⟨hfound, body ++ [c], hcons, fun rest => ?_⟩
      rw [hrest, hescaped, closesAtEnd]
    · next hescaped =>
      rw [Bool.not_eq_true] at hescaped
      split
      · next hback =>
        refine ⟨hfound, body ++ [c], hcons, fun rest => ?_⟩
        rw [hrest, hescaped, closesAtEnd, if_pos hback]
      · next hback =>
        split
        · next hquote =>
          have hclosed : closesAtEnd false (body ++ [c]) = true := by
            rw [← List.append_nil (body ++ [c]), hrest, hescaped, hquote]
            rfl
          exact ⟨List.forall_mem_cons.mpr
            ⟨isReadable_atomToken (.inr ⟨body ++ [c], hcons, hclosed⟩), hfound⟩, trivial⟩
        · next hquote =>
          refine ⟨hfound, body ++ [c], hcons, fun rest => ?_⟩
          rw [hrest, hescaped, closesAtEnd, if_neg hback, if_neg hquote]

theorem IsReadable.foldl {file : String} {s : Scan} (h : s.IsReadable) (cs : List Char) :
    (cs.foldl (Scan.step file) s).IsReadable := by
  induction cs generalizing s with
  | nil => exact h
  | cons c cs ih => exact ih (h.step c)

theorem isReadable_start : IsReadable {} :=
  ⟨by simp, trivial⟩

/-- The tokens of a text that ends here are readable. -/
theorem IsReadable.finish {file : String} {s : Scan} (h : s.IsReadable) {stream : TokenStream}
    (hs : s.finish file = .ok stream) : ∀ t ∈ stream.tokens, t.lexeme.IsReadable := by
  obtain ⟨mode, here, found⟩ := s
  obtain ⟨hfound, hmode⟩ := h
  cases mode with
  | between | comment =>
    cases hs
    intro t ht
    exact hfound t (List.mem_reverse.mp ht)
  | atom first taken =>
    cases hs
    intro t ht
    rcases List.mem_cons.mp (List.mem_reverse.mp ht) with rfl | ht
    · exact isReadable_atomToken (.inl hmode)
    · exact hfound t ht
  | string first taken escaped => cases hs

end Scan

/-- Every token that `scan` finds is a parenthesis or an atom. -/
theorem isReadable_of_scan {file text : String} {stream : TokenStream}
    (h : scan file text = .ok stream) : ∀ t ∈ stream.tokens, t.lexeme.IsReadable :=
  (Scan.isReadable_start.foldl text.toList).finish h

end Casewise

import Casewise.Proofs.Sexp.Spelling
import Casewise.Proofs.Spans.Reading

/-!
# Texts that are part of other texts

A text that is read to its end may be followed by a line break and a second text. The line break
ends a comment or an atom that is still open, so the second text is read as if it stood alone, only
further down: its lines count from the end of the first text.

## Main definitions

* `Span.moved`: the same place in another file, some lines further down.
* `Text.height`: how many lines further down a text starts that follows another one.

## Main statements

* `read_joined`: the forms of two texts in one.
* `Program.read_joined`: the statements of two texts in one.
-/

namespace Casewise

variable {file one two first second : String} {k : ℕ}

/-! ### Places further down -/

/-- The position `k` lines further down. -/
def Position.down (k : ℕ) (p : Position) : Position :=
  { p with line := p.line + k }

/-- The span in the file `file`, `k` lines further down. -/
def Span.moved (file : String) (k : ℕ) (s : Span) : Span :=
  ⟨file, s.first.down k, s.last.down k⟩

/-- How many lines further down a text starts that follows `text` and a line break. -/
def Text.height (text : String) : ℕ :=
  1 + text.toList.count '\n'

@[simp]
theorem Position.down_zero (p : Position) : p.down 0 = p := by
  rw [down, Int.natCast_zero, Int.add_zero]

/-- A character may be read by `next` before or after going `down`. -/
theorem Position.next_down (p : Position) (c : Char) : (p.down k).next c = (p.next c).down k := by
  rw [next, next]
  split
  · rw [down, down, Position.mk.injEq]
    exact ⟨Int.add_right_comm _ _ _, rfl⟩
  · rfl

theorem Position.line_advance (p : Position) (cs : List Char) :
    (p.advance cs).line = p.line + cs.count '\n' := by
  induction cs generalizing p with
  | nil => exact (Int.add_zero _).symm
  | cons c cs ih =>
    have hcs : (p.advance (c :: cs)).line = (p.next c).line + cs.count '\n' := ih (p.next c)
    rw [hcs, next, List.count_cons]
    by_cases hc : c = '\n'
    · rw [if_pos hc, if_pos (beq_iff_eq.mpr hc)]
      dsimp only
      omega
    · rw [if_neg hc, if_neg (mt beq_iff_eq.mp hc), Nat.add_zero]

theorem Position.next_advance_start (text : String) :
    (Position.start.advance text.toList).next '\n' = Position.start.down (Text.height text) := by
  rw [next, if_pos rfl, line_advance, down, Text.height, start, Position.mk.injEq]
  exact ⟨by omega, rfl⟩

/-! ### Tokens -/

/-- The token in another place. -/
def Token.moved (file : String) (k : ℕ) (t : Token) : Token :=
  { t with span := t.span.moved file k }

namespace Scan

/-- The open token in another place. -/
def Mode.down (k : ℕ) : Mode → Mode
  | between => between
  | comment => comment
  | atom first taken => atom (first.down k) taken
  | string first taken escaped => string (first.down k) taken escaped

/-- What is known about a text that follows other tokens in another place. -/
def after (file : String) (k : ℕ) (earlier : List Token) (s : Scan) : Scan :=
  ⟨s.mode.down k, s.here.down k, s.found.map (Token.moved file k) ++ earlier⟩

variable {earlier : List Token}

/-- `stepBetween` in another place. -/
theorem stepBetween_after (here : Position) (found : List Token) (c : Char) :
    stepBetween file (here.down k) (found.map (Token.moved file k) ++ earlier) c =
      (stepBetween one here found c).after file k earlier := by
  simp only [stepBetween, Position.next_down]
  split
  · rfl
  · split
    · rfl
    · split
      · rfl
      · split
        · rfl
        · split <;> rfl

/-- `Scan.step` in another place, by `Scan.after`. -/
theorem step_after (s : Scan) (c : Char) :
    step file (s.after file k earlier) c = (step one s c).after file k earlier := by
  obtain ⟨mode, here, found⟩ := s
  cases mode with
  | between => exact stepBetween_after here found c
  | comment =>
    simp only [step, after, Mode.down, Position.next_down]
    split <;> rfl
  | atom first taken =>
    simp only [step, after, Mode.down]
    split
    -- what ends an atom is read while no token is open, after the token of the atom
    · exact stepBetween_after here (atomToken one first here taken :: found) c
    · simp only [Position.next_down]
  | string first taken escaped =>
    simp only [step, after, Mode.down, Position.next_down]
    split
    · rfl
    · split
      · rfl
      · split <;> rfl

/-- `Scan.step` through characters in another place. -/
theorem foldl_after (one : String) (cs : List Char) (s : Scan) :
    cs.foldl (step file) (s.after file k earlier) =
      (cs.foldl (step one) s).after file k earlier := by
  induction cs generalizing s with
  | nil => rfl
  | cons c cs ih => rw [List.foldl_cons, List.foldl_cons, step_after, ih]

/-- `Scan.finish` of a text that ends in another place: its tokens are moved. -/
theorem finish_after {s : Scan} {stream : TokenStream} (h : s.finish one = .ok stream) :
    (s.after file k earlier).finish file =
      .ok ⟨earlier.reverse ++ stream.tokens.map (Token.moved file k),
        stream.stop.moved file k⟩ := by
  obtain ⟨mode, here, found⟩ := s
  cases mode with
  | between | comment =>
    cases h
    simp only [after, Mode.down, finish, List.reverse_append, List.map_reverse]
    rfl
  | atom first taken =>
    cases h
    simp only [after, Mode.down, finish, List.reverse_cons, List.reverse_append, List.map_append,
      List.map_reverse, List.append_assoc]
    rfl
  | string => cases h

/-- `Scan.step` at a line break after a text that is read to its end leaves no token open. -/
theorem step_newline {s : Scan} {stream : TokenStream} (h : s.finish file = .ok stream) :
    step file s '\n' = ⟨.between, s.here.next '\n', stream.tokens.reverse⟩ := by
  obtain ⟨mode, here, found⟩ := s
  cases mode with
  | between | comment | atom =>
    cases h
    simp only [List.reverse_reverse]
    rfl
  | string => cases h

end Scan

/-- `scan` of a text in a file of another name. -/
theorem scan_moved {stream : TokenStream} (h : scan one first = .ok stream) :
    scan file first =
      .ok ⟨stream.tokens.map (Token.moved file 0), stream.stop.moved file 0⟩ := by
  -- the beginning of a text is the beginning of any other
  have hstart : ({} : Scan) = Scan.after file 0 [] {} := by
    simp [Scan.after, Scan.Mode.down]
  rw [scan, hstart, Scan.foldl_after one]
  exact Scan.finish_after h

/-- `scan` of two texts in one, with a line feed between them. -/
theorem scan_joined {stream stream' : TokenStream} (h : scan one first = .ok stream)
    (h' : scan two second = .ok stream') :
    scan file (first ++ "\n" ++ second) =
      .ok ⟨stream.tokens.map (Token.moved file 0) ++
        stream'.tokens.map (Token.moved file (Text.height first)),
        stream'.stop.moved file (Text.height first)⟩ := by
  -- what is known after the first text and the line break
  let earlier := (stream.tokens.map (Token.moved file 0)).reverse
  have hfirst : Scan.step file (first.toList.foldl (Scan.step file) {}) '\n' =
      Scan.after file (Text.height first) earlier {} := by
    rw [Scan.step_newline (scan_moved h), Scan.here_foldl]
    exact congrArg (Scan.mk .between · earlier) (Position.next_advance_start first)
  have htext : (first ++ "\n" ++ second).toList = first.toList ++ '\n' :: second.toList := by
    simp
  rw [scan, htext, List.foldl_append, List.foldl_cons, hfirst, Scan.foldl_after two,
    Scan.finish_after h', List.reverse_reverse]

/-! ### Forms -/

namespace Nest

/-- The open list in another place. -/
def Frame.moved (file : String) (k : ℕ) (frame : Frame) : Frame :=
  ⟨frame.opening.moved file k, frame.items.map (Sexp.mapSpans (Span.moved file k))⟩

/-- What is known about tokens that follow other forms in another place. -/
def after (file : String) (k : ℕ) (earlier : List Sexp) (n : Nest) : Nest :=
  ⟨n.frames.map (Frame.moved file k),
    n.forms.map (Sexp.mapSpans (Span.moved file k)) ++ earlier⟩

variable (file k) (earlier : List Sexp)

theorem add_after (n : Nest) (e : Sexp) :
    (n.after file k earlier).add (e.mapSpans (Span.moved file k)) =
      (n.add e).after file k earlier := by
  obtain ⟨frames, forms⟩ := n
  cases frames <;> rfl

/-- `Nest.step` in another place, by `Nest.after`. -/
theorem step_after {n n' : Nest} {t : Token} (h : n.step t = .ok n') :
    (n.after file k earlier).step (t.moved file k) = .ok (n'.after file k earlier) := by
  obtain ⟨lexeme, span⟩ := t
  cases lexeme with
  | atom text =>
    cases h
    exact congrArg Except.ok (add_after file k earlier n (.atom text span))
  | opening =>
    cases h
    rfl
  | closing =>
    obtain ⟨frames, forms⟩ := n
    cases frames with
    | nil => cases h
    | cons frame outer =>
      cases h
      -- the items of the list were moved one by one
      have hitems : (frame.moved file k).items.reverse =
          Sexp.mapSpansAll (Span.moved file k) frame.items.reverse := by
        rw [Sexp.mapSpansAll_eq_map, List.map_reverse]
        rfl
      have hlist := add_after file k earlier ⟨outer, forms⟩
        (.list frame.items.reverse (frame.opening.through span))
      rw [Sexp.mapSpans, ← hitems] at hlist
      exact congrArg Except.ok hlist

/-- `Nest.step` through tokens in another place. -/
theorem foldlM_after {ts : List Token} {n n' : Nest} (h : ts.foldlM step n = .ok n') :
    (ts.map (Token.moved file k)).foldlM step (n.after file k earlier) =
      .ok (n'.after file k earlier) := by
  induction ts generalizing n with
  | nil =>
    cases h
    rfl
  | cons t ts ih =>
    rw [List.foldlM_cons] at h
    obtain ⟨n₁, hstep, hrest⟩ := bind_eq_ok.mp h
    rw [List.map_cons, List.foldlM_cons]
    exact bind_eq_ok.mpr ⟨_, step_after file k earlier hstep, ih hrest⟩

/-- `Nest.finish` in another place: the forms are moved. -/
theorem finish_after {n : Nest} {es : List Sexp} (h : n.finish = .ok es) :
    (n.after file k earlier).finish =
      .ok (earlier.reverse ++ es.map (Sexp.mapSpans (Span.moved file k))) := by
  obtain ⟨frames, forms⟩ := n
  cases frames with
  | nil =>
    cases h
    simp only [after, finish, List.map_nil, List.reverse_append, List.map_reverse]
  | cons => cases h

theorem eq_of_finish {n : Nest} {es : List Sexp} (h : n.finish = .ok es) :
    n = ⟨[], es.reverse⟩ := by
  obtain ⟨frames, forms⟩ := n
  cases frames with
  | nil =>
    cases h
    rw [List.reverse_reverse]
  | cons => cases h

end Nest

/-- `read` has the forms of the tokens of `scan`. -/
theorem read_eq_ok {es : List Sexp} :
    read file first = .ok es ↔ ∃ stream n, scan file first = .ok stream ∧
      stream.tokens.foldlM Nest.step {} = .ok n ∧ n.finish = .ok es := by
  rw [read, bind_eq_ok]
  exact exists_congr fun stream => by rw [bind_eq_ok, exists_and_left]

/-- `read` of two texts in one, with a line feed between them. -/
theorem read_joined {es es' : List Sexp} (h : read one first = .ok es)
    (h' : read two second = .ok es') :
    read file (first ++ "\n" ++ second) =
      .ok (es.map (Sexp.mapSpans (Span.moved file 0)) ++
        es'.map (Sexp.mapSpans (Span.moved file (Text.height first)))) := by
  obtain ⟨stream, n, hscan, hfold, hfinish⟩ := read_eq_ok.mp h
  obtain ⟨stream', n', hscan', hfold', hfinish'⟩ := read_eq_ok.mp h'
  -- no list is open between the texts, so the second starts afresh, after the forms of the first
  let earlier := (es.map (Sexp.mapSpans (Span.moved file 0))).reverse
  have hfirst : n.after file 0 [] = Nest.after file (Text.height first) earlier {} :=
    Nest.eq_of_finish (Nest.finish_after file 0 [] hfinish)
  refine read_eq_ok.mpr ⟨_, n'.after file (Text.height first) earlier,
    scan_joined hscan hscan', ?_, ?_⟩
  · rw [List.foldlM_append]
    refine bind_eq_ok.mpr ⟨_, Nest.foldlM_after file 0 [] hfold, ?_⟩
    rw [hfirst]
    exact Nest.foldlM_after file _ earlier hfold'
  · rw [Nest.finish_after file _ earlier hfinish', List.reverse_reverse]

/-! ### Programs -/

namespace Program

variable {d d₁ d₂ : Declared} {p q : Program}

/-- `Program.read` of two texts in one, with a line feed between them. -/
theorem read_joined (h : outcome (Program.read one first) d = (.ok p, d₁))
    (h' : outcome (Program.read two second) d₁ = (.ok q, d₂)) :
    outcome (Program.read file (first ++ "\n" ++ second)) d =
      (.ok (p.mapSpans (Span.moved file 0) ++
        q.mapSpans (Span.moved file (Text.height first))), d₂) := by
  obtain ⟨es, hes, hp⟩ := outcome_read_eq_ok.mp h
  obtain ⟨es', hes', hq⟩ := outcome_read_eq_ok.mp h'
  exact outcome_read_eq_ok.mpr ⟨_, Casewise.read_joined hes hes',
    mapM_append (mapM_mapSpans hp) (mapM_mapSpans hq)⟩

end Program

end Casewise

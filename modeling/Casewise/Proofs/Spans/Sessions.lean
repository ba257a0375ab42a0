import Casewise.Proofs.Running.Printing
import Casewise.Proofs.Running.Programs
import Casewise.Proofs.Spans.Checking
import Casewise.Proofs.Spans.Origins
import Casewise.Proofs.Spans.Text

/-!
# Sessions may be cut between statements

A session that is given two texts one after the other does what it does with both texts in one, if
the first text is read, accepted and run without an error. The verdict about the second text, the
printed lines, and the names with their types and values are the same. An error of the second text
stands as many lines further down as the first text and the line break after it have, unless it
stands in the body of a function of the first text, which is where it was.

## Main definitions

* `Session.give`: checking and running a program in a session.
* `Session.Alike`: sessions that are the same but for the spans of functions.

## Main statements

* `Session.cut_anywhere`: two texts given to a session one after the other, and in one.
-/

namespace Casewise

/-! ### Giving programs to sessions -/

/-- The value with the spans in the bodies of its functions forgotten. -/
def Value.unplaced (v : Value) : Value :=
  v.mapSpans fun _ => default

/-- What a session says to a program, and the session afterwards. -/
structure Session.Reply where
  /-- Whether the program checks. -/
  verdict : Except LangError Unit
  /-- How running the program ends. -/
  result : Except Stop Unit
  /-- The lines printed by the program. -/
  lines : List String
  /-- The session afterwards. -/
  session : Session

/-- Checks the program `p` and runs it, whether it checks or not. -/
def Session.give (depth : ℕ) (p : Program) (σ : Session) : Session.Reply :=
  let (verdict, σ) := σ.check (Check.program p)
  let (result, lines, σ) := σ.run (Execute.program depth · p)
  ⟨verdict, result, lines, σ⟩

/-- The sessions are the same but for the spans in the bodies of functions. -/
structure Session.Alike (σ τ : Session) : Prop where
  /-- The same has been declared. -/
  declared : τ.declared = σ.declared
  /-- The names have the same types, and the same data types are known. -/
  context : τ.context = σ.context
  /-- There are the same scopes, with the same names in the same order. -/
  scopes : τ.machine.scopes.map Value.unplaced = σ.machine.scopes.map Value.unplaced
  /-- The same lines have been printed. -/
  output : τ.machine.output = σ.machine.output
  /-- The records read the same. -/
  record : τ.machine.record.map (·.map Event.text) = σ.machine.record.map (·.map Event.text)
  /-- Statements are executed in the same scope. -/
  scope : τ.scope = σ.scope

theorem Session.Alike.types_eq {σ τ : Session} (h : σ.Alike τ) : τ.types = σ.types := by
  rw [types, types, h.context]

/-- Sessions that are `Alike` know the same names, with equal values, in the same order. -/
theorem Session.Alike.values_eq {σ τ : Session} (h : σ.Alike τ) :
    τ.values.map (Prod.map id Value.unplaced) = σ.values.map (Prod.map id Value.unplaced) := by
  have hbindings (f : Forest Value) (s : ScopeId) :
      (f.bindings s).entries.map (Prod.map id Value.unplaced) =
        ((f.map Value.unplaced).bindings s).entries := by
    rw [Forest.bindings_map]
    rfl
  rw [values, values, hbindings, hbindings, h.scopes, h.scope]

/-- The reply `whole` to the programs `p` and `q` in one text, where `q` starts `k` lines further
down in the file `file`, says what the replies `earlier` to `p` and `later` to `q` say. The machine
`m` is the one before them. -/
structure Session.Reply.Joins (depth : ℕ) (m : Machine) (p q : Program) (file : String) (k : ℕ)
    (earlier later whole : Session.Reply) : Prop where
  /-- The verdict about `q` is the same, and an error in it stands `k` lines further down. -/
  verdict : whole.verdict = later.verdict.mapError (·.mapSpan (Span.moved file k))
  /-- The lines of `p` are printed, and then those of `q`. -/
  lines : whole.lines = earlier.lines ++ later.lines
  /-- The sessions afterwards are alike. -/
  session : later.session.Alike whole.session
  /-- The same names are bound in the same order, and have equal types. -/
  types : whole.session.types = later.session.types
  /-- The same names are bound in the same order, and have equal values. -/
  values : whole.session.values.map (Prod.map id Value.unplaced) =
    later.session.values.map (Prod.map id Value.unplaced)
  /-- Wherever the programs stand, an error of `q` stands in a function of `p` or in `q`, and moves
  with the one it stands in. -/
  ends : Execute.Ends p q fun f g => (Execute.inTurn depth m p q f g).1
  /-- Given after `p`, the program `q` ends as it does where the programs stand by themselves. -/
  later_result : later.result = (Execute.inTurn depth m p q id id).1
  /-- In one text, the programs end as they do where `q` stands `k` lines further down. -/
  whole_result : whole.result =
    (Execute.inTurn depth m p q (Span.moved file 0) (Span.moved file k)).1

/-! ### Two texts in one -/

/-- `Session.read` reads with what the session has declared, and remembers what is declared now. -/
theorem Session.read_eq_ok {α : Type} {r : Reading α} {σ σ' : Session} {a : α} :
    σ.read r = (.ok a, σ') ↔ ∃ d, outcome r σ.declared = (.ok a, d) ∧
      σ' = { σ with declared := d } := by
  constructor
  · intro h
    obtain ⟨hresult, hsession⟩ := Prod.mk.inj h
    exact ⟨_, Prod.ext hresult rfl, hsession.symm⟩
  · rintro ⟨d, h, rfl⟩
    have hread : σ.read r =
        ((outcome r σ.declared).1, { σ with declared := (outcome r σ.declared).2 }) :=
      rfl
    rw [hread, h]

theorem Check.program_append_mapSpans {p : Program} {Γ : Context} (f g : Span → Span) (q : Program)
    (h : (outcome (Check.program p) Γ).1 = .ok ()) :
    outcome (Check.program (p.mapSpans f ++ q.mapSpans g)) Γ =
      ((outcome (Check.program q) (outcome (Check.program p) Γ).2).1.mapError (·.mapSpan g),
        (outcome (Check.program q) (outcome (Check.program p) Γ).2).2) := by
  have hfirst : outcome (Check.program (p.mapSpans f)) Γ =
      (.ok (), (outcome (Check.program p) Γ).2) := by
    rw [program_mapSpans, h]
    rfl
  exact (outcome_forM_append_of_ok hfirst).trans (program_mapSpans q g _)

theorem Execute.program_append_mapSpans {depth : ℕ} {m : Machine} (hm : m.Within []) {p : Program}
    (f g : Span → Span) (q : Program) (h : (outcome (program depth Machine.root p) m).1 = .ok ()) :
    outcome (program depth Machine.root (p.mapSpans f ++ q.mapSpans g)) m =
      inTurn depth m p q f g := by
  have hfirst : (outcome (program depth Machine.root (p.mapSpans f)) m).1 = .ok () := by
    rw [(program_mapSpans (hm f (by simp)) depth Machine.root p).1, h]
    rfl
  exact outcome_forM_append_of_ok (Prod.ext hfirst rfl)

/-- Where programs stand by themselves, `inTurn` runs the second on the machine that the first has
left. -/
theorem Execute.inTurn_id (depth : ℕ) (m : Machine) (p q : Program) :
    inTurn depth m p q id id =
      outcome (program depth Machine.root q) (outcome (program depth Machine.root p) m).2 := by
  have hself (p : Program) : p.mapSpans id = p := p.mapSpans_eq_self fun _ _ => rfl
  rw [inTurn, hself, hself]

/-- Two texts may be given to a session one after the other or in one. If the first is read,
accepted and run without an error, and the second is read after it, both in one are read, and the
session says and becomes the same, whether the second is accepted and runs without an error or not:
`give` of the joined program answers what the two of them answer, with the places of errors in the
second text moved by `Text.height first` lines. -/
theorem Session.cut_anywhere {builtins recording : Bool} {depth : ℕ} {one two first second : String}
    {p q : Program} {σ τ : Session}
    (hfirst : (start builtins recording).read (Program.read one first) = (.ok p, σ))
    (haccepted : (σ.give depth p).verdict = .ok ()) (hruns : (σ.give depth p).result = .ok ())
    (hsecond : (σ.give depth p).session.read (Program.read two second) = (.ok q, τ))
    (file : String) :
    ∃ pq υ, (start builtins recording).read (Program.read file (first ++ "\n" ++ second)) =
        (.ok pq, υ) ∧
      Reply.Joins depth (start builtins recording).machine p q file (Text.height first)
        (σ.give depth p) (τ.give depth q) (υ.give depth pq) := by
  obtain ⟨d, hp, rfl⟩ := read_eq_ok.mp hfirst
  obtain ⟨d₂, hq, hτ⟩ := read_eq_ok.mp hsecond
  let f := Span.moved file 0
  let g := Span.moved file (Text.height first)
  let υ : Session := { start builtins recording with declared := d₂ }
  refine ⟨p.mapSpans f ++ q.mapSpans g, υ, read_eq_ok.mpr ⟨_, Program.read_joined hp hq, rfl⟩, ?_⟩
  have hwithin := within_start builtins recording
  -- both programs in one go on where the first has left off, and so does the second by itself
  obtain ⟨hverdict, hcontext⟩ := Prod.ext_iff.mp (Check.program_append_mapSpans f g q haccepted)
  have hwhole := Execute.program_append_mapSpans hwithin f g q hruns
  have hlater := Execute.inTurn_id depth (start builtins recording).machine p q
  have halike : (τ.give depth q).session.Alike
      (υ.give depth (p.mapSpans f ++ q.mapSpans g)).session := by
    obtain ⟨hscopes, houtput, hrecord⟩ := Execute.inTurn_alike hwithin depth p q f g id id default
    rw [hlater, ← hwhole] at hscopes houtput hrecord
    subst hτ
    exact ⟨rfl, hcontext, hscopes, houtput, hrecord, rfl⟩
  -- what the first program has printed stays printed, and there was nothing before
  have hlines := List.prefix_iff_eq_append.mp
    (Execute.keepsOutput_program depth Machine.root q τ.machine)
  subst hτ
  exact
    { verdict := hverdict
      lines := (congrArg Array.toList halike.output).trans hlines.symm
      session := halike
      types := halike.types_eq
      values := halike.values_eq
      ends := Execute.ends_inTurn hwithin depth p q
      later_result := congrArg Prod.fst hlater.symm
      whole_result := congrArg Prod.fst hwhole }

/-- Whether the first text is read, accepted and run without an error, and the second is read after
it and is not. -/
private def stopsInSecond (depth : ℕ) (first second : String) : Bool :=
  match (Session.start true).read (Program.read "first" first) with
  | (.ok p, σ) =>
    (σ.give depth p).verdict.isOk && (σ.give depth p).result.isOk &&
      match (σ.give depth p).session.read (Program.read "second" second) with
      | (.ok q, τ) => !(τ.give depth q).result.isOk
      | _ => false
  | _ => false

private theorem of_stopsInSecond {depth : ℕ} {first second : String}
    (h : stopsInSecond depth first second = true) : ∃ p q σ τ,
      (Session.start true).read (Program.read "first" first) = (.ok p, σ) ∧
      (σ.give depth p).verdict = .ok () ∧ (σ.give depth p).result = .ok () ∧
      (σ.give depth p).session.read (Program.read "second" second) = (.ok q, τ) ∧
      (τ.give depth q).result ≠ .ok () := by
  rw [stopsInSecond] at h
  split at h
  · next p σ hfirst =>
    obtain ⟨haccepted, h⟩ := Bool.and_eq_true_iff.mp h
    obtain ⟨haccepted, hruns⟩ := Bool.and_eq_true_iff.mp haccepted
    split at h
    · next q τ hsecond =>
      refine ⟨p, q, σ, τ, hfirst, isOk_iff.mp haccepted, isOk_iff.mp hruns, hsecond, fun hok => ?_⟩
      rw [hok] at h
      cases h
    · cases h
  · cases h

/-- A function that is defined for zero only, and a comment up to the end of the text. -/
private def onlyZero : String :=
  "(define only (lambda n Nat (match n (0 1)))) ; nothing else"

/-- A call that succeeds, and one that does not. -/
private def twoCalls : String :=
  "(print (only 0))\n(print (only 5))"

/-- `onlyZero` defines a function in one text and `twoCalls` calls it in the next, where it finds no
pattern that fits. -/
theorem Session.cut_anywhere_onlyZero : ∃ p q σ τ,
    (start true).read (Program.read "first" onlyZero) = (.ok p, σ) ∧
    (σ.give 9 p).verdict = .ok () ∧ (σ.give 9 p).result = .ok () ∧
    (σ.give 9 p).session.read (Program.read "second" twoCalls) = (.ok q, τ) ∧
    (τ.give 9 q).result ≠ .ok () ∧
    ∃ pq υ, (start true).read (Program.read "both" (onlyZero ++ "\n" ++ twoCalls)) = (.ok pq, υ) ∧
      Reply.Joins 9 (start true).machine p q "both" (Text.height onlyZero)
        (σ.give 9 p) (τ.give 9 q) (υ.give 9 pq) := by
  have hstops : stopsInSecond 9 onlyZero twoCalls = true := by
    decide +kernel
  obtain ⟨p, q, σ, τ, hfirst, haccepted, hruns, hsecond, hstops⟩ := of_stopsInSecond hstops
  exact ⟨p, q, σ, τ, hfirst, haccepted, hruns, hsecond, hstops,
    cut_anywhere hfirst haccepted hruns hsecond "both"⟩

end Casewise

import Casewise.Proofs.Spans.Checking
import Casewise.Proofs.Spans.Running
import Casewise.Session

/-!
# Where the spans of errors come from

An error that stops a program stands at a node of the program, or in the body of a function that was
made before; an error in checking stands at a node of the program. Nothing in a program makes up
spans, and that it does not is seen by replacing them: if all spans but those of the program and of
earlier bodies are replaced, the program and its run stay as they are, and so does the span of the
error.

## Main definitions

* `Machine.Within`: the functions of a machine have their spans from a list.
* `Execute.Ends`: how running two programs in other places ends.

## Main statements

* `Execute.program_mapSpans`: the outcome of a program in another place.
* `Execute.within_program`: which spans the functions have that a program makes.
* `Check.span_mem_of_program`, `Execute.span_mem_of_program`: where a program stops.
* `Execute.ends_inTurn`: where a program stops that is run after another one.
-/

namespace Casewise

variable {B : List Span} {m m' : Machine}

/-! ### Programs in another place -/

theorem Stop.moved_self {f : Span → Span} {stop stop' : Stop} :
    stop.Moved f f stop' ↔ stop' = stop.mapSpan f :=
  or_self_iff

/-- Where a program stands shows only in the place of the error, if it stops, and in the spans of
the functions that it makes: the machines are `Moved`. -/
theorem Execute.program_mapSpans {f : Span → Span} (h : m.Moved f m') (depth : ℕ) (s : ScopeId)
    (p : Program) :
    (outcome (program depth s (p.mapSpans f)) m').1 =
      (outcome (program depth s p) m).1.mapError (·.mapSpan f) ∧
    (outcome (program depth s p) m).2.Moved f (outcome (program depth s (p.mapSpans f)) m').2 := by
  obtain ⟨hresult, hmachine⟩ := program_mirrors f f depth s p m m' h
  exact ⟨(hresult.imp (fun _ _ he => Stop.moved_self.mp he) fun _ _ _ => rfl).eq_mapError, hmachine⟩

/-- The machine of `Session.start` is the same in every place. -/
theorem Session.moved_start (f : Span → Span) (builtins recording : Bool) :
    (Session.start builtins recording).machine.Moved f
      (Session.start builtins recording).machine := by
  have hvalues (t : Table Value) (ht : t.map (Value.mapSpans f) = t) :
      (Forest.newRoot {} t).2 = (Forest.newRoot {} t).2.map (Value.mapSpans f) := by
    have hempty : Forest.map (Value.mapSpans f) {} = {} := by rw [Forest.map, Array.map_empty]
    have hroot := congrArg Prod.snd (Forest.newRoot_map (Value.mapSpans f) {} t)
    rw [ht, hempty] at hroot
    exact hroot
  refine ⟨hvalues _ ?_, rfl, rfl⟩
  cases builtins with
  | false => rfl
  | true =>
    rw [if_pos rfl, Builtin.values, Table.map_ofList, List.map_map]
    rfl

/-! ### Spans that are kept -/

/-- The spans of the list, and the other ones replaced. -/
private def keeping (B : List Span) (s : Span) : Span :=
  if s ∈ B then s else { s with file := s.file ++ "'" }

private theorem mem_of_keeping_eq {B : List Span} {s : Span} (h : keeping B s = s) : s ∈ B := by
  by_contra hs
  rw [keeping, if_neg hs] at h
  have hfile : s.file ++ "'" = s.file := congrArg Span.file h
  have hlength := congrArg String.length hfile
  have hquote : "'".length = 1 := rfl
  rw [String.length_append] at hlength
  omega

/-- `Check.program` fails at a node of the program. -/
theorem Check.span_mem_of_program {p : Program} {Γ Γ' : Context} {e : LangError}
    (he : outcome (program p) Γ = (.error e, Γ')) {t : Span} (ht : e.span = some t) :
    t ∈ p.spans := by
  refine mem_of_keeping_eq ?_
  -- nothing changes when other spans are replaced, so the span of the error is not replaced
  have hself : p.mapSpans (keeping p.spans) = p := p.mapSpans_eq_self fun t ht => if_pos ht
  have hmoved := congrArg Prod.fst (program_mapSpans p (keeping p.spans) Γ)
  rw [hself, he] at hmoved
  have hspan : e.span = e.span.map (keeping p.spans) :=
    congrArg LangError.span (Except.error.inj hmoved)
  rw [ht] at hspan
  exact (Option.some.inj hspan).symm

/-! ### The spans of functions -/

/-- The bodies of the functions of the machine have their spans from the list `B`: if other spans
are replaced, the machine stays as it is. -/
def Machine.Within (B : List Span) (m : Machine) : Prop :=
  ∀ f : Span → Span, (∀ s ∈ B, f s = s) → m.Moved f m

theorem Session.within_start (builtins recording : Bool) :
    (Session.start builtins recording).machine.Within [] :=
  fun f _ => moved_start f builtins recording

namespace Execute

/-- A program makes functions only of the bodies in it, `bodySpans`. -/
theorem within_program (h : m.Within B) (depth : ℕ) (s : ScopeId) (p : Program) :
    (outcome (program depth s p) m).2.Within (B ++ p.bodySpans) := by
  intro f hf
  obtain ⟨hB, hp⟩ := List.forall_mem_append.mp hf
  -- the bodies stay where they are, and so does everything else in the program
  have hself : p.map (Stmt.mapSpans f id) = p := by
    refine (List.map_congr_left fun st hst => ?_).trans (List.map_id p)
    refine Stmt.mapSpans_eq_self (fun t ht => hp t ?_) fun _ _ => rfl
    exact List.mem_flatMap.mpr ⟨st, hst, ht⟩
  have hmirrors := (program_mirrors f id depth s p m m (h f hB)).2
  rwa [hself] at hmirrors

/-- `Execute.program` stops at a node of the program or in the body of a function that was made
before. -/
theorem span_mem_of_program (h : m.Within B) {depth : ℕ} {s : ScopeId} {p : Program} {stop : Stop}
    (hstop : outcome (program depth s p) m = (.error stop, m')) {t : Span}
    (ht : stop.span? = some t) :
    t ∈ B ∨ t ∈ p.spans := by
  refine List.mem_append.mp (mem_of_keeping_eq ?_)
  -- nothing changes when other spans are replaced, so the span of the error is not replaced
  let f := keeping (B ++ p.spans)
  have hf : ∀ t ∈ B ++ p.spans, f t = t := fun t ht => if_pos ht
  obtain ⟨hB, hp⟩ := List.forall_mem_append.mp hf
  have hself : p.mapSpans f = p := p.mapSpans_eq_self hp
  obtain ⟨hresult, -⟩ := program_mapSpans (h f hB) depth s p
  rw [hself, hstop] at hresult
  obtain ⟨cause, rfl⟩ := Stop.span?_eq_some.mp ht
  have hspan : some t = some (f t) := congrArg Stop.span? (Except.error.inj hresult)
  exact (Option.some.inj hspan).symm

/-! ### Two programs one after the other -/

/-- How running a program ends after another one, if `f` moves the first of them and `g` the second:
the error, if there is one, stands in the body of a function of the program `p` or anywhere in the
program `q`, and moves with it. -/
inductive Ends (p q : Program) : ((f g : Span → Span) → Except Stop Unit) → Prop
  /-- There is no error, or one without a place. -/
  | unplaced {r : Except Stop Unit} (h : ∀ stop, r = .error stop → stop.span? = none) :
    Ends p q fun _ _ => r
  /-- The error stands in the body of a function of the first program. -/
  | first (cause : Cause) {s : Span} (h : s ∈ p.bodySpans) :
    Ends p q fun f _ => .error (.error ⟨cause, some (f s)⟩)
  /-- The error stands in the second program. -/
  | second (cause : Cause) {s : Span} (h : s ∈ q.spans) :
    Ends p q fun _ g => .error (.error ⟨cause, some (g s)⟩)

/-- Running the program `q` after the program `p`, where `f` moves `p` and `g` moves `q`. -/
def inTurn (depth : ℕ) (m : Machine) (p q : Program) (f g : Span → Span) :
    Except Stop Unit × Machine :=
  outcome (program depth Machine.root (q.mapSpans g))
    (outcome (program depth Machine.root (p.mapSpans f)) m).2

variable (hm : m.Within []) (depth : ℕ) (p q : Program)
include hm

/-- Two programs run `inTurn` that are both moved once more. -/
theorem inTurn_comp (h f g : Span → Span) :
    (inTurn depth m p q (h ∘ f) (h ∘ g)).1 =
      (inTurn depth m p q f g).1.mapError (·.mapSpan h) ∧
    (inTurn depth m p q f g).2.Moved h (inTurn depth m p q (h ∘ f) (h ∘ g)).2 := by
  have hfirst := (program_mapSpans (hm h (by simp)) depth Machine.root (p.mapSpans f)).2
  have hsecond := program_mapSpans hfirst depth Machine.root (q.mapSpans g)
  rwa [Program.mapSpans_mapSpans, Program.mapSpans_mapSpans] at hsecond

/-- The spans of two programs are told apart by whether they start on an even line. -/
private def marked (mark : Int) (s : Span) : Span :=
  { s with first := { s.first with line := 2 * s.first.line + mark } }

/-- What is marked is moved by `f` if it starts on an even line, and by `g` if it does not. -/
private def moving (f g : Span → Span) (s : Span) : Span :=
  let unmarked := { s with first := { s.first with line := s.first.line / 2 } }
  if s.first.line % 2 = 0 then f unmarked else g unmarked

omit hm in
private theorem moving_even (f g : Span → Span) : moving f g ∘ marked 0 = f := by
  funext s
  have hline : (2 * s.first.line + 0) / 2 = s.first.line := by omega
  have heven : (2 * s.first.line + 0) % 2 = 0 := by omega
  simp only [Function.comp_apply, moving, marked, hline, heven, if_true]

omit hm in
private theorem moving_odd (f g : Span → Span) : moving f g ∘ marked 1 = g := by
  funext s
  have hline : (2 * s.first.line + 1) / 2 = s.first.line := by omega
  have hodd : ¬(2 * s.first.line + 1) % 2 = 0 := by omega
  simp only [Function.comp_apply, moving, marked, hline, hodd, if_false]

private theorem inTurn_eq (f g : Span → Span) :
    (inTurn depth m p q f g).1 =
      (inTurn depth m p q (marked 0) (marked 1)).1.mapError (·.mapSpan (moving f g)) ∧
    (inTurn depth m p q (marked 0) (marked 1)).2.Moved (moving f g) (inTurn depth m p q f g).2 := by
  have hmarked := inTurn_comp hm depth p q (moving f g) (marked 0) (marked 1)
  rwa [moving_even, moving_odd] at hmarked

/-- The error that running a program after another one `inTurn` ends with moves with the program
that it stands in. -/
theorem ends_inTurn : Ends p q fun f g => (inTurn depth m p q f g).1 := by
  rw [funext₂ fun f g => (inTurn_eq hm depth p q f g).1]
  cases hmarked : inTurn depth m p q (marked 0) (marked 1) with
  | mk r m₂ =>
    cases r with
    | ok u => exact .unplaced fun _ h => nomatch h
    | error stop =>
      cases hspan : stop.span? with
      | none =>
        simp only [Except.mapError, Stop.mapSpan_eq_self hspan]
        exact .unplaced fun _ h => by cases h; exact hspan
      | some t =>
        obtain ⟨cause, rfl⟩ := Stop.span?_eq_some.mp hspan
        -- the place of the error bears the mark of the program that it stands in
        have hfirst := within_program hm depth Machine.root (p.mapSpans (marked 0))
        rcases span_mem_of_program hfirst hmarked hspan with ht | ht
        · rw [List.nil_append, Program.bodySpans_mapSpans] at ht
          obtain ⟨s, hs, rfl⟩ := List.mem_map.mp ht
          have hmoved (f g : Span → Span) : moving f g (marked 0 s) = f s :=
            congrFun (moving_even f g) s
          simp only [Except.mapError, Stop.mapSpan, LangError.mapSpan, Option.map_some, hmoved]
          exact .first cause hs
        · rw [Program.spans_mapSpans] at ht
          obtain ⟨s, hs, rfl⟩ := List.mem_map.mp ht
          have hmoved (f g : Span → Span) : moving f g (marked 1 s) = g s :=
            congrFun (moving_odd f g) s
          simp only [Except.mapError, Stop.mapSpan, LangError.mapSpan, Option.map_some, hmoved]
          exact .second cause hs

/-- Wherever two programs stand, running them `inTurn` leaves the same machine but for the spans of
functions. -/
theorem inTurn_alike (f g f' g' : Span → Span) (s : Span) :
    (inTurn depth m p q f g).2.scopes.map (Value.mapSpans fun _ => s) =
      (inTurn depth m p q f' g').2.scopes.map (Value.mapSpans fun _ => s) ∧
    (inTurn depth m p q f g).2.output = (inTurn depth m p q f' g').2.output ∧
    (inTurn depth m p q f g).2.record.map (·.map Event.text) =
      (inTurn depth m p q f' g').2.record.map (·.map Event.text) := by
  have h := (inTurn_eq hm depth p q f g).2
  have h' := (inTurn_eq hm depth p q f' g').2
  have hforgets (h : Span → Span) : Value.mapSpans (fun _ => s) ∘ Value.mapSpans h =
      Value.mapSpans fun _ => s :=
    funext fun v => v.mapSpans_mapSpans h fun _ => s
  refine ⟨?_, h.output.trans h'.output.symm, h.record.trans h'.record.symm⟩
  rw [h.scopes, h'.scopes, Forest.map_map, Forest.map_map, hforgets, hforgets]

end Execute

end Casewise

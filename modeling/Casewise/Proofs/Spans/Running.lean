import Casewise.Proofs.Spans.Values
import Casewise.Running.Execute

/-!
# Running a program in another place

A program runs the same wherever it stands. The spans of its nodes get into the values of functions,
whose bodies are run later on, and into errors; nothing else depends on them. When the spans inside
of bodies and outside of them are replaced by two different functions, an error is moved by one of
the two, since it may come from a body that was made earlier.

## Main definitions

* `Machine.Moved`: a machine and the machine whose functions stand elsewhere.
* `Stop.Moved`: a stop and the stop whose error is moved by one of two functions.

## Main statements

* `evaluate_mirrors`: evaluating an expression in another place.
* `Execute.stmt_mirrors`, `Execute.program_mirrors`: executing statements in another place.
* `Execute.program_mapSpans`: the outcome of a program in another place.
-/

namespace Casewise

variable {inner outer f : Span → Span} {α β : Type} {rel : α → β → Prop}

/-- The machine `m'` is `m` with the spans in the bodies of functions replaced. It has printed the
same lines, and its record reads the same. -/
structure Machine.Moved (inner : Span → Span) (m m' : Machine) : Prop where
  /-- The scopes hold the same values elsewhere. -/
  scopes : m'.scopes = m.scopes.map (Value.mapSpans inner)
  /-- The same lines are printed. -/
  output : m'.output = m.output
  /-- The record reads the same. -/
  record : m'.record.map (·.map Event.text) = m.record.map (·.map Event.text)

/-- The stop is moved by one of the two functions. -/
def Stop.Moved (inner outer : Span → Span) (stop stop' : Stop) : Prop :=
  stop' = stop.mapSpan inner ∨ stop' = stop.mapSpan outer

/-- Running goes in step with running in another place. -/
abbrev Run.Mirrors (inner outer : Span → Span) (rel : α → β → Prop) (x : Run α)
    (y : Run β) : Prop :=
  Casewise.Mirrors (Stop.Moved inner outer) (Machine.Moved inner) rel x y

/-- A stop may be `placedAt` a span before or after it is moved. -/
theorem Stop.Moved.placedAt {stop stop' : Stop} (h : stop.Moved inner outer stop')
    (span : Option Span) :
    (stop.placedAt span).Moved inner outer (stop'.placedAt (span.map outer)) := by
  cases stop with
  | error e =>
    obtain ⟨cause, place⟩ := e
    cases place with
    | none =>
      -- an error without a place is the same wherever it is moved
      have hstop : stop' = .error ⟨cause, none⟩ := by rcases h with rfl | rfl <;> rfl
      rw [hstop]
      exact .inr rfl
    | some s =>
      rcases h with rfl | rfl
      · exact .inl rfl
      · exact .inr rfl
  | _ => rcases h with rfl | rfl <;> exact .inl rfl

/-! ### The steps of running -/

namespace Run.Mirrors

theorem fail (cause : Cause) (span : Option Span) :
    Run.Mirrors inner outer rel (Run.fail cause span) (Run.fail cause (span.map outer)) :=
  .throw (.inr rfl)

theorem ofExcept {r : Except LangError α} {r' : Except LangError β}
    (h : Alongside (LangError.Moved outer) rel r r') :
    Run.Mirrors inner outer rel (Run.ofExcept r) (Run.ofExcept r') :=
  .mk_pure (h.mapError fun _ _ he => .inr (congrArg Stop.error he))

theorem located {x : Run α} {y : Run β} (h : Run.Mirrors inner outer rel x y) (span : Option Span) :
    Run.Mirrors inner outer rel (Run.located span x) (Run.located (span.map outer) y) :=
  Casewise.Mirrors.adapt h fun _ _ he => he.placedAt span

/-- `Run.log` of events that read the same goes in step. -/
theorem log {e e' : Event} (h : e'.text = e.text) :
    Run.Mirrors inner outer (fun _ _ => True) (Run.log e) (Run.log e') := by
  refine .modify fun m m' hm => ⟨hm.scopes, hm.output, ?_⟩
  have hrecord := hm.record
  simp only [Machine.log, Option.map_map]
  cases hr : m.record with
  | none =>
    rw [hr, Option.map_none, Option.map_eq_none_iff] at hrecord
    rw [hrecord]
    rfl
  | some events =>
    rw [hr, Option.map_some, Option.map_eq_some_iff] at hrecord
    obtain ⟨events', hr', hevents⟩ := hrecord
    rw [hr']
    simp only [Option.map_some, Function.comp_apply, Array.map_push, hevents, h]

theorem withScopes {F : Forest Value → α} {G : Forest Value → β}
    (h : ∀ scopes : Forest Value, rel (F scopes) (G (scopes.map (Value.mapSpans inner)))) :
    Run.Mirrors inner outer rel (Run.withScopes F) (Run.withScopes G) := by
  refine Casewise.Mirrors.get.bind fun m m' hm => .pure ?_
  rw [hm.scopes]
  exact h m.scopes

/-- `Run.update` goes in step if the updates of the scopes do. -/
theorem update {F G : Forest Value → Except LangError (Forest Value)}
    (h : ∀ scopes : Forest Value, Alongside (LangError.Moved outer)
      (fun f f' => f' = f.map (Value.mapSpans inner)) (F scopes)
      (G (scopes.map (Value.mapSpans inner)))) :
    Run.Mirrors inner outer (fun _ _ => True) (Run.update F) (Run.update G) := by
  refine Casewise.Mirrors.get.bind fun m m' hm => ?_
  refine (ofExcept (hm.scopes ▸ h m.scopes)).bind fun f f' hf => ?_
  exact .modify fun m m' hm => ⟨hf, hm.output, hm.record⟩

/-- `Run.declare` goes in step in other places. -/
theorem declare (s : ScopeId) (name : String) (constructors : List (String × List Ty)) :
    Run.Mirrors inner outer (fun _ _ => True) (Run.declare s name constructors)
      (Run.declare s name constructors) := by
  have hforest : Casewise.Mirrors (LangError.Moved outer)
      (fun (f : Forest Value) f' => f' = f.map (Value.mapSpans inner)) (fun _ _ => True)
      (Forest.declare s name constructors) (Forest.declare s name constructors) :=
    Forest.declare_mirrors _ s name constructors
  refine (hforest.onPart (fun _ _ hm => hm.scopes) ?_).adapt fun _ _ he =>
    .inr (congrArg Stop.error he)
  exact fun _ _ _ _ hm hf => ⟨hf, hm.output, hm.record⟩

/-- `Run.extend` goes in step in other places. -/
theorem extend (s : ScopeId) (t : Table Value) :
    Run.Mirrors inner outer Eq (Run.extend s t) (Run.extend s (t.map (Value.mapSpans inner))) := by
  intro m m' hm
  have houtcome (m : Machine) (t : Table Value) : outcome (Run.extend s t) m =
      (.ok (m.scopes.extend s t).1, { m with scopes := (m.scopes.extend s t).2 }) := rfl
  rw [houtcome, houtcome, hm.scopes, Forest.extend_map]
  exact ⟨.ok rfl, rfl, hm.output, hm.record⟩

end Run.Mirrors

/-! ### Expressions -/

/-- `checkCount` counts arguments in another place alike. -/
theorem checkCount_alongside (what : String) (expected : Int) {args args' : List Value}
    (h : List.Forall₂ (Value.Moved inner) args args') :
    Alongside (LangError.Moved f) (fun _ _ => True)
      (checkCount what expected args) (checkCount what expected args') := by
  rw [checkCount, checkCount, h.length_eq]
  split
  · exact .ok trivial
  · exact .error rfl

theorem constructed_moved (name : String) {fields fields' : List Value}
    (h : List.Forall₂ (Value.Moved f) fields fields') :
    (Value.constructed name fields).Moved f (.constructed name fields') := by
  rw [Value.Moved, Value.mapSpans, Value.mapSpansAll_eq_map]
  exact congrArg (Value.constructed name) (forall₂_eq_map_iff.mp h)

namespace Builtin

theorem number_alongside (b : Builtin) {v w : Value} (h : v.Moved inner w) :
    Alongside (LangError.Moved outer) Eq (b.number v) (b.number w) := by
  subst h
  cases v with
  | number value => exact .ok rfl
  | _ => exact .error rfl

theorem string_alongside (b : Builtin) {v w : Value} (h : v.Moved inner w) :
    Alongside (LangError.Moved outer) Eq (b.string v) (b.string w) := by
  subst h
  cases v with
  | string value => exact .ok rfl
  | _ => exact .error rfl

/-- A function of two arguments, by `onTwo`, has the same result elsewhere if its result holds no
functions. -/
theorem onTwo_alongside (b : Builtin) {arg : Value → Except LangError α}
    (harg : ∀ v w : Value, v.Moved inner w → Alongside (LangError.Moved outer) Eq (arg v) (arg w))
    {g : α → α → Value} (hg : ∀ x y, (g x y).Moved inner (g x y)) {args args' : List Value}
    (h : List.Forall₂ (Value.Moved inner) args args') :
    Alongside (LangError.Moved outer) (Value.Moved inner) (b.onTwo arg g args)
      (b.onTwo arg g args') := by
  cases h with
  | nil => exact .error rfl
  | cons hv hs =>
    refine (harg _ _ hv).bind fun x x' hx => ?_
    subst hx
    cases hs with
    | nil => exact .error rfl
    | cons hw _ =>
      refine (harg _ _ hw).bind fun y y' hy => ?_
      subst hy
      exact .ok (hg x y)

/-- A function of one argument, by `onOne`, has the same result elsewhere if its result holds no
functions. -/
theorem onOne_alongside (b : Builtin) {arg : Value → Except LangError α}
    (harg : ∀ v w : Value, v.Moved inner w → Alongside (LangError.Moved outer) Eq (arg v) (arg w))
    {g : α → Value} (hg : ∀ x, (g x).Moved inner (g x)) {args args' : List Value}
    (h : List.Forall₂ (Value.Moved inner) args args') :
    Alongside (LangError.Moved outer) (Value.Moved inner) (b.onOne arg g args)
      (b.onOne arg g args') := by
  cases h with
  | nil => exact .error rfl
  | cons hv _ =>
    refine (harg _ _ hv).bind fun x x' hx => ?_
    subst hx
    exact .ok (hg x)

/-- `Builtin.call` goes in step in another place. -/
theorem call_alongside (b : Builtin) {args args' : List Value}
    (h : List.Forall₂ (Value.Moved inner) args args') :
    Alongside (LangError.Moved outer) (Value.Moved inner) (b.call (some b.arity) args)
      (b.call (some b.arity) args') := by
  refine (checkCount_alongside _ _ h).bind fun _ _ _ => ?_
  have hnumber (v w : Value) (hv : v.Moved inner w) :
      Alongside (LangError.Moved outer) Eq (b.number v) (b.number w) := number_alongside b hv
  have hstring (v w : Value) (hv : v.Moved inner w) :
      Alongside (LangError.Moved outer) Eq (b.string v) (b.string w) := string_alongside b hv
  cases b with
  | strEq | concat =>
    refine onTwo_alongside _ hstring ?_ h
    exact fun _ _ => rfl
  | «show» =>
    refine onOne_alongside _ hnumber ?_ h
    exact fun _ => rfl
  | _ =>
    refine onTwo_alongside _ hnumber ?_ h
    exact fun _ _ => rfl

end Builtin

namespace Evaluator

/-- `truth` of a value goes in step in another place. -/
theorem truth_mirrors (what : String) (span : Option Span) {v w : Value} (h : v.Moved f w) :
    Run.Mirrors inner outer Eq (truth what span v) (truth what (span.map outer) w) := by
  subst h
  cases v with
  | boolean value => exact .pure rfl
  | _ => exact Run.Mirrors.fail _ span

/-- `binary` goes in step in another place. -/
theorem binary_mirrors (op : BinaryOp) {v v' w w' : Value} (hv : v.Moved f v') (hw : w.Moved f w')
    (span : Option Span) : Run.Mirrors inner outer (Value.Moved f) (binary op v w span)
      (binary op v' w' (span.map outer)) := by
  -- every other operator asks for two truth values first
  have htruths {r : Bool → Bool → Run Value}
      (hr : ∀ a b, Run.Mirrors inner outer (Value.Moved f) (r a b) (r a b)) :
      Run.Mirrors inner outer (Value.Moved f)
        (do
          let a ← truth ("'" ++ op.name ++ "'") span v
          let b ← truth ("'" ++ op.name ++ "'") span w
          r a b)
        (do
          let a ← truth ("'" ++ op.name ++ "'") (span.map outer) v'
          let b ← truth ("'" ++ op.name ++ "'") (span.map outer) w'
          r a b) := by
    refine (truth_mirrors _ span hv).bind fun a a' ha => ?_
    refine (truth_mirrors _ span hw).bind fun b b' hb => ?_
    subst ha hb
    exact hr a b
  cases op with
  | plus =>
    subst hv hw
    cases v with
    | number m =>
      cases w with
      | number n => exact .pure rfl
      | _ => exact Run.Mirrors.fail _ span
    | _ =>
      -- the error names the kinds of both operands
      change Run.Mirrors _ _ _ (Run.fail _ span) (Run.fail _ (span.map outer))
      rw [Value.kind_mapSpans, Value.kind_mapSpans]
      exact Run.Mirrors.fail _ span
  | eq | and | or => exact htruths fun a b => .pure rfl
  | other => exact htruths fun a b => .throw (.inl rfl)

/-- The values of the same expression in the same scope are found in step in another place. -/
def MirrorsIn (inner : Span → Span) (recur : Evaluator) : Prop :=
  ∀ (outer : Span → Span) (s : ScopeId) (e : Expr),
    Run.Mirrors inner outer (Value.Moved inner) (recur s e) (recur s (e.mapSpans inner outer))

variable {recur : Evaluator} {s : ScopeId}

theorem MirrorsIn.mapM (h : MirrorsIn inner recur) (es : List Expr) :
    Run.Mirrors inner outer (List.Forall₂ (Value.Moved inner)) (es.mapM (recur s))
      ((Expr.mapSpansAll inner outer es).mapM (recur s)) := by
  have hall : List.Forall₂ (fun e e' => e' = e.mapSpans inner outer) es
      (Expr.mapSpansAll inner outer es) :=
    forall₂_eq_map_iff.mpr (Expr.mapSpansAll_eq_map es)
  refine Casewise.Mirrors.mapM hall fun e e' he => ?_
  subst he
  exact h outer s e

/-- `call` of a function in another place goes in step. -/
theorem call_mirrors (h : MirrorsIn inner recur) {v w : Value} (hv : v.Moved inner w)
    {args args' : List Value} (hargs : List.Forall₂ (Value.Moved inner) args args') (head : Expr)
    (span : Option Span) :
    Run.Mirrors inner outer (Value.Moved inner) (call recur v args head span)
      (call recur w args' (head.mapSpans inner outer) (span.map outer)) := by
  subst hv
  cases v with
  | closure param body scope =>
    have hwrong : Run.Mirrors inner outer (Value.Moved inner)
        (Run.fail (.arityMismatch ("'" ++ head.text ++ "'") 1 args.length) span)
        (Run.fail (.arityMismatch ("'" ++ (head.mapSpans inner outer).text ++ "'") 1 args'.length)
          (span.map outer)) := by
      rw [Expr.text_mapSpans, hargs.length_eq]
      exact Run.Mirrors.fail _ span
    cases hargs with
    | nil => exact hwrong
    | @cons arg _ _ _ harg hrest =>
      cases hrest with
      | nil =>
        subst harg
        refine (Run.Mirrors.extend scope (.ofList [(param, arg)])).bind fun t t' ht => ?_
        subst ht
        -- the whole body stands inside of a function
        exact (h inner t body).imp (fun _ _ he => .inl (or_self_iff.mp he)) fun _ _ hv => hv
      | cons _ _ => exact hwrong
  | builtin b => exact .ofExcept (b.call_alongside hargs)
  | constructor name arity =>
    refine (Run.Mirrors.ofExcept (checkCount_alongside _ _ hargs)).bind fun _ _ _ => ?_
    exact .pure (constructed_moved name hargs)
  | _ =>
    change Run.Mirrors _ _ _ (Run.fail _ head.span) (Run.fail _ (head.mapSpans inner outer).span)
    rw [Value.display_mapSpans, Expr.span_mapSpans]
    exact Run.Mirrors.fail _ head.span

/-- `construct` goes in step in another place. -/
theorem construct_mirrors (name : String) {fields fields' : List Value}
    (hfields : List.Forall₂ (Value.Moved inner) fields fields') (span : Option Span) :
    Run.Mirrors inner outer (Value.Moved inner) (construct s name fields span)
      (construct s name fields' (span.map outer)) := by
  refine (Run.Mirrors.withScopes fun scopes => (scopes.registry_map _ s).symm).bind
    fun R R' hR => ?_
  subst hR
  cases R.constructor? name with
  | none => exact Run.Mirrors.fail _ span
  | some info =>
    simp only [hfields.length_eq]
    split
    · exact Run.Mirrors.fail _ span
    · exact .pure (constructed_moved name hfields)

/-- `select` goes in step in another place. -/
theorem select_mirrors (h : MirrorsIn inner recur) {subject subject' : Value}
    (hsubject : subject.Moved inner subject') (span : Option Span) (ps : List Pattern)
    (branches : List Expr) :
    Run.Mirrors inner outer (Value.Moved inner) (select recur s subject span ps branches)
      (select recur s subject' (span.map outer) (Pattern.mapSpansAll outer ps)
        (Expr.mapSpansAll inner outer branches)) := by
  have hnone : Run.Mirrors inner outer (Value.Moved inner)
      (Run.fail (.nonExhaustiveMatch ("no pattern matched '" ++ subject.display ++ "'")) span)
      (Run.fail (.nonExhaustiveMatch ("no pattern matched '" ++ subject'.display ++ "'"))
        (span.map outer)) := by
    rw [hsubject, Value.display_mapSpans]
    exact Run.Mirrors.fail _ span
  induction ps generalizing branches with
  | nil =>
    rw [Pattern.mapSpansAll]
    simpa only [select] using hnone
  | cons p ps ih =>
    cases branches with
    | nil =>
      rw [Pattern.mapSpansAll, Expr.mapSpansAll]
      simpa only [select] using hnone
    | cons branch branches =>
      rw [Pattern.mapSpansAll, Expr.mapSpansAll, select, select]
      refine (Run.Mirrors.withScopes fun scopes => (scopes.registry_map _ s).symm).bind
        fun R R' hR => ?_
      subst hR
      refine (Run.Mirrors.ofExcept (Pattern.bindings?_alongside (Subject.likeness_moved inner)
        (fun _ => rfl) p hsubject)).bind fun bound bound' hbound => ?_
      have hevent : (Event.matched subject' (p.mapSpans outer) bound'.isSome).text =
          (Event.matched subject p bound.isSome).text := by
        rw [Event.text, Event.text, hsubject, Value.display_mapSpans, Pattern.text_mapSpans]
        cases hbound <;> rfl
      refine (Run.Mirrors.log hevent).bind fun _ _ _ => ?_
      cases hbound with
      | none => exact ih branches
      | @some bound bound' hbound =>
        obtain rfl : bound' = bound.map (Value.mapSpans inner) := Table.eq_map_of_alike _ hbound
        refine (Run.Mirrors.extend s bound).bind fun t t' ht => ?_
        subst ht
        exact h outer t branch

/-- `step`, the rule for the form of an expression, goes in step in another place. -/
theorem step_mirrors (h : MirrorsIn inner recur) (e : Expr) :
    Run.Mirrors inner outer (Value.Moved inner) (step recur s e)
      (step recur s (e.mapSpans inner outer)) := by
  cases e with
  | number value span => exact .pure rfl
  | boolean value span => exact .pure rfl
  | var name span =>
    have hget : Run.Mirrors inner outer (fun v w => w = v.map (Value.mapSpans inner))
        (Run.withScopes (·.get? s name)) (Run.withScopes (·.get? s name)) :=
      .withScopes fun scopes => scopes.get?_map _ s name
    refine hget.bind fun v w hv => ?_
    subst hv
    cases v with
    | some v => exact .pure rfl
    | none =>
      simp only [Option.map_none]
      split
      · exact .pure rfl
      · exact Run.Mirrors.fail _ span
  | not operand span =>
    refine (h outer s operand).bind fun v w hv => ?_
    refine (truth_mirrors _ span hv).bind fun a b hab => ?_
    subst hab
    exact .pure rfl
  | binary op left right span =>
    refine (h outer s left).bind fun v v' hv => ?_
    refine (h outer s right).bind fun w w' hw => ?_
    exact binary_mirrors op hv hw span
  | cond condition thenBranch elseBranch span =>
    refine (h outer s condition).bind fun v w hv => ?_
    rw [Expr.span_mapSpans]
    refine (truth_mirrors _ condition.span hv).bind fun a b hab => ?_
    subst hab
    cases a with
    | true => exact h outer s thenBranch
    | false => exact h outer s elseBranch
  | lambda param paramTy body span => exact .pure rfl
  | app head args span =>
    refine (h outer s head).bind fun v w hv => ?_
    refine (h.mapM args).bind fun vs ws hvs => ?_
    exact call_mirrors h hv hvs head span
  | pair first second span =>
    refine (h outer s first).bind fun v v' hv => ?_
    refine (h outer s second).bind fun w w' hw => ?_
    subst hv hw
    exact .pure rfl
  | fst operand span =>
    refine (h outer s operand).bind fun v w hv => ?_
    subst hv
    cases v with
    | pair first second => exact .pure rfl
    | _ => exact Run.Mirrors.fail _ span
  | snd operand span =>
    refine (h outer s operand).bind fun v w hv => ?_
    subst hv
    cases v with
    | pair first second => exact .pure rfl
    | _ => exact Run.Mirrors.fail _ span
  | construct name args span =>
    refine (h.mapM args).bind fun vs ws hvs => ?_
    exact construct_mirrors name hvs span
  | cases scrutinee ps branches span =>
    refine (h outer s scrutinee).bind fun v w hv => ?_
    rw [Pattern.length_mapSpansAll, Expr.length_mapSpansAll]
    split
    · exact Run.Mirrors.fail _ span
    · exact select_mirrors h hv span ps branches

end Evaluator

/-- `evaluate` of an expression in another place goes in step. -/
theorem evaluate_mirrors (inner : Span → Span) (depth : ℕ) :
    Evaluator.MirrorsIn inner (evaluate depth) := by
  induction depth with
  | zero => exact fun outer s e => .throw (.inl rfl)
  | succ depth ih =>
    intro outer s e
    rw [evaluate, evaluate, Expr.span_mapSpans]
    refine (Run.Mirrors.log ?_).bind fun _ _ _ => ?_
    · rw [Event.text, Event.text, Expr.text_mapSpans]
    · exact (Evaluator.step_mirrors ih e).located e.span

/-! ### Statements -/

namespace Execute

/-- `undeclared`, whether a data type can be declared, does not depend on the place. -/
theorem undeclared_alongside (s : ScopeId) (name : String) (constructors : List ConstructorDecl)
    (span : Option Span) (scopes : Forest Value) :
    Alongside (LangError.Moved outer) (fun _ _ => True) (undeclared s name constructors span scopes)
      (undeclared s name (constructors.map (ConstructorDecl.mapSpan outer)) (span.map outer)
        (scopes.map (Value.mapSpans inner))) := by
  rw [undeclared, undeclared, Forest.registry_map]
  split
  · exact .error rfl
  · refine .forM (forall₂_eq_map_iff.mpr rfl) fun c d hd => ?_
    subst hd
    rw [Forest.hasLocal_map]
    change Alongside _ _ _ (if scopes.hasLocal s c.name = true then
      throw (LangError.mk (.redefinition c.name) (c.span.map outer)) else .ok ())
    split
    · exact .error rfl
    · exact .ok trivial

/-- `Execute.data` goes in step in another place. -/
theorem data_mirrors (s : ScopeId) (name : String) (constructors : List ConstructorDecl)
    (span : Option Span) : Run.Mirrors inner outer (fun _ _ => True) (data s name constructors span)
      (data s name (constructors.map (ConstructorDecl.mapSpan outer)) (span.map outer)) := by
  have hfields : (constructors.map (ConstructorDecl.mapSpan outer)).map
      (fun c => (c.name, c.fields)) =
      constructors.map fun c => (c.name, c.fields) :=
    List.map_map
  have hnames : (constructors.map (ConstructorDecl.mapSpan outer)).map ConstructorDecl.name =
      constructors.map ConstructorDecl.name :=
    List.map_map
  rw [data, data, hfields, hnames]
  refine (Run.Mirrors.withScopes fun scopes =>
    undeclared_alongside s name constructors span scopes).bind fun r r' hr => ?_
  refine (Run.Mirrors.ofExcept hr).bind fun _ _ _ => ?_
  refine (Run.Mirrors.declare s name _).bind fun _ _ _ => ?_
  have hset : Run.Mirrors inner outer (fun _ _ => True)
      (constructors.forM fun c =>
        Run.update (·.set s c.name (.constructor c.name c.fields.length)))
      ((constructors.map (ConstructorDecl.mapSpan outer)).forM fun c =>
        Run.update (·.set s c.name (.constructor c.name c.fields.length))) := by
    refine .forM (forall₂_eq_map_iff.mpr rfl) fun c d hd => ?_
    subst hd
    exact Run.Mirrors.update fun scopes =>
      scopes.set_alongside (Value.mapSpans inner) s c.name (.constructor c.name c.fields.length)
  exact hset.bind fun _ _ _ => Run.Mirrors.log rfl

/-- `Execute.stmt` of a statement in another place goes in step. -/
theorem stmt_mirrors (inner outer : Span → Span) (depth : ℕ) (s : ScopeId) (st : Stmt) :
    Run.Mirrors inner outer (fun _ _ => True) (stmt depth s st)
      (stmt depth s (st.mapSpans inner outer)) := by
  rw [stmt.eq_def, stmt.eq_def, Stmt.span_mapSpans]
  refine .located ?_ st.span
  cases st with
  | define name value span =>
    refine (Run.Mirrors.log rfl).bind fun _ _ _ => ?_
    refine (evaluate_mirrors inner depth outer s value).bind fun v w hv => ?_
    subst hv
    exact Run.Mirrors.update fun scopes => scopes.set_alongside _ s name v
  | assign target value span =>
    cases target with
    | var name nameSpan =>
      refine (evaluate_mirrors inner depth outer s value).bind fun v w hv => ?_
      subst hv
      refine (Run.Mirrors.log rfl).bind fun _ _ _ => ?_
      exact Run.Mirrors.update fun scopes => scopes.update_alongside _ s name v
    | _ =>
      -- what is no name stays so, and reads as before
      change Run.Mirrors _ _ _ (Run.fail (.invalidAssignTarget _) _)
        (Run.fail (.invalidAssignTarget ("cannot assign to non-variable '" ++
          (Expr.mapSpans inner outer _).text ++ "'")) (Expr.mapSpans inner outer _).span)
      rw [Expr.text_mapSpans, Expr.span_mapSpans]
      exact .fail _ _
  | print value span =>
    refine (evaluate_mirrors inner depth outer s value).bind fun v w hv => ?_
    subst hv
    rw [Value.display_mapSpans]
    refine (Run.Mirrors.log rfl).bind fun _ _ _ => ?_
    refine .modify fun m m' hm => ⟨hm.scopes, ?_, hm.record⟩
    rw [Machine.print, Machine.print, hm.output]
  | data name constructors span => exact data_mirrors s name constructors span

/-- `Execute.program` of a program in another place goes in step. -/
theorem program_mirrors (inner outer : Span → Span) (depth : ℕ) (s : ScopeId) (p : Program) :
    Run.Mirrors inner outer (fun _ _ => True) (program depth s p)
      (program depth s (p.map (Stmt.mapSpans inner outer))) := by
  refine .forM (forall₂_eq_map_iff.mpr rfl) fun st st' hst => ?_
  subst hst
  exact stmt_mirrors inner outer depth s st

end Execute

end Casewise

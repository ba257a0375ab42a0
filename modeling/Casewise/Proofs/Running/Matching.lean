import Casewise.Proofs.Alongside
import Casewise.Proofs.Pattern.Instances
import Casewise.Proofs.Running.Root
import Casewise.Session

/-!
# The first arm that fits

A match tries its arms in order, and each on a fresh table, so that nothing an arm has bound before
it failed is seen by the arms after it. What becomes of a match is therefore settled by the first
arm whose pattern the value is an instance of: its branch is evaluated in a new scope that holds the
names of the pattern, each bound to what has been put for it. The arms before it and behind it make
no difference, except to the record, which tells what was tried. And the record makes no difference
to evaluating, which adds to it and never looks at it.

## Main definitions

* `Machine.SameButRecord`, `Run.SameEnd`: machines, and ends of running, that differ in the record
  at most.
* `Expr.choose`: the match with given arms.

## Main statements

* `Run.Elementary.sameEnd`: evaluating does not look at the record.
* `Expr.cases_chooses_first`: what becomes of a match.
-/

namespace Casewise

/-! ### Apart from the record -/

/-- The machines have the same scopes and have printed the same lines. -/
structure Machine.SameButRecord (m m' : Machine) : Prop where
  /-- The scopes are the same. -/
  scopes : m'.scopes = m.scopes
  /-- The printed lines are the same. -/
  output : m'.output = m.output

/-- Running has come to the same result, and has left machines that differ in the record at most. -/
structure Run.SameEnd {α : Type} (r r' : Except Stop α × Machine) : Prop where
  /-- The result or the error is the same. -/
  result : r'.1 = r.1
  /-- So are the machines, apart from the record. -/
  machine : r.2.SameButRecord r'.2

namespace Machine.SameButRecord

variable {m m' m'' : Machine}

theorem refl (m : Machine) : m.SameButRecord m :=
  ⟨rfl, rfl⟩

theorem trans (h : m.SameButRecord m') (h' : m'.SameButRecord m'') : m.SameButRecord m'' :=
  ⟨h'.scopes.trans h.scopes, h'.output.trans h.output⟩

theorem log (m : Machine) (event : Event) : m.SameButRecord (m.log event) :=
  ⟨rfl, rfl⟩

end Machine.SameButRecord

namespace Run.SameEnd

variable {α : Type} {r r' r'' : Except Stop α × Machine}

theorem symm (h : SameEnd r r') : SameEnd r' r :=
  ⟨h.result.symm, h.machine.scopes.symm, h.machine.output.symm⟩

theorem trans (h : SameEnd r r') (h' : SameEnd r' r'') : SameEnd r r'' :=
  ⟨h'.result.trans h.result, h.machine.trans h'.machine⟩

end Run.SameEnd

/-- An `Elementary` run goes the same way from machines that differ in the record. -/
theorem Run.Elementary.mirrors {α : Type} {x : Run α} (h : x.Elementary) :
    Casewise.Mirrors Eq Machine.SameButRecord Eq x x := by
  induction h with
  | pure a => exact .pure rfl
  | stop stop => exact .throw rfl
  | withScopes f => exact Casewise.Mirrors.get.bind fun m m' hm => .pure (by rw [hm.scopes])
  | ofExcept r => exact .mk_pure (.refl (fun _ => rfl) (r.mapError Stop.error))
  | extend s bound =>
    intro m m' hm
    have houtcome (m : Machine) : outcome (Run.extend s bound) m =
        (.ok (m.scopes.extend s bound).1, { m with scopes := (m.scopes.extend s bound).2 }) := rfl
    rw [houtcome, houtcome, hm.scopes]
    exact ⟨.ok rfl, rfl, hm.output⟩
  | log event => exact fun m m' hm => ⟨.ok rfl, hm.scopes, hm.output⟩
  | bind _ _ ihx ihf => exact ihx.bind fun a b hab => hab ▸ ihf a
  | located _ span ih => exact .adapt ih fun e e' he => by rw [he]

/-- An `Elementary` run ends the same way from machines that differ in the record. -/
theorem Run.Elementary.sameEnd {α : Type} {x : Run α} (h : x.Elementary) {m m' : Machine}
    (hm : m.SameButRecord m') : SameEnd (outcome x m) (outcome x m') := by
  obtain ⟨hresult, hmachine⟩ := h.mirrors m m' hm
  exact ⟨hresult.eq, hmachine⟩

/-! ### Trying arms -/

namespace Evaluator

variable {s : ScopeId} {v : Value} {m : Machine} {p : Pattern} (recur : Evaluator)

theorem outcome_select_misfit (hp : p.bindings? (m.scopes.registry s) v = .ok none)
    (span : Option Span) (ps : List Pattern) (branch : Expr) (branches : List Expr) :
    outcome (select recur s v span (p :: ps) (branch :: branches)) m =
      outcome (select recur s v span ps branches) (m.log (.matched v p false)) := by
  have hregistry : outcome (Run.withScopes (·.registry s)) m = (.ok (m.scopes.registry s), m) := rfl
  have hfound : outcome (Run.ofExcept (p.bindings? (m.scopes.registry s) v)) m = (.ok none, m) := by
    rw [hp]
    rfl
  rw [select, outcome_bind_of_ok hregistry, outcome_bind_of_ok hfound]
  rfl

/-- `select` evaluates the branch of an arm that fits in a new scope with what the pattern has
found. -/
theorem outcome_select_fit {bound : Table Value}
    (hp : p.bindings? (m.scopes.registry s) v = .ok (some bound))
    (span : Option Span) (ps : List Pattern) (branch : Expr) (branches : List Expr) :
    outcome (select recur s v span (p :: ps) (branch :: branches)) m =
      outcome (do
        let inner ← Run.extend s bound
        recur inner branch) (m.log (.matched v p true)) := by
  have hregistry : outcome (Run.withScopes (·.registry s)) m = (.ok (m.scopes.registry s), m) := rfl
  have hfound : outcome (Run.ofExcept (p.bindings? (m.scopes.registry s) v)) m =
      (.ok (some bound), m) := by
    rw [hp]
    rfl
  rw [select, outcome_bind_of_ok hregistry, outcome_bind_of_ok hfound]
  rfl

/-- `select` passes over arms that do not fit. -/
theorem exists_outcome_select {before : List (Pattern × Expr)}
    (hbefore : ∀ arm ∈ before, arm.1.bindings? (m.scopes.registry s) v = .ok none)
    (span : Option Span) (arms : List (Pattern × Expr)) :
    ∃ m', m.SameButRecord m' ∧
      outcome (select recur s v span ((before ++ arms).map Prod.fst)
        ((before ++ arms).map Prod.snd)) m =
      outcome (select recur s v span (arms.map Prod.fst) (arms.map Prod.snd)) m' := by
  induction before generalizing m with
  | nil => exact ⟨m, .refl m, rfl⟩
  | cons arm before ih =>
    obtain ⟨p, branch⟩ := arm
    obtain ⟨hp, hbefore⟩ := List.forall_mem_cons.mp hbefore
    obtain ⟨m', hm', hselect⟩ := ih (m := m.log (.matched v p false)) hbefore
    refine ⟨m', (Machine.SameButRecord.log m _).trans hm', ?_⟩
    exact (outcome_select_misfit recur hp span _ branch _).trans hselect

end Evaluator

/-! ### Matches -/

/-- The match on the value of `scrutinee` with the given arms. -/
def Expr.choose (scrutinee : Expr) (arms : List (Pattern × Expr)) (span : Option Span) : Expr :=
  .cases scrutinee (arms.map Prod.fst) (arms.map Prod.snd) span

theorem Expr.choose_zip {patterns : List Pattern} {branches : List Expr}
    (h : patterns.length = branches.length) (scrutinee : Expr) (span : Option Span) :
    choose scrutinee (patterns.zip branches) span = .cases scrutinee patterns branches span := by
  rw [choose, List.map_fst_zip (Nat.le_of_eq h), List.map_snd_zip (Nat.le_of_eq h.symm)]

section Matches

variable {depth : ℕ} {s : ScopeId} {m m₁ : Machine} {scrutinee : Expr} {v : Value}
  (span : Option Span)

/-- `choose` goes on to its arms with the value of its scrutinee. -/
theorem exists_outcome_choose (hscrutinee : outcome (evaluate depth s scrutinee) m = (.ok v, m₁))
    (arms : List (Pattern × Expr)) : ∃ m', m₁.SameButRecord m' ∧
      outcome (evaluate (depth + 1) s (.choose scrutinee arms span)) m =
        outcome (Run.located span (Evaluator.select (evaluate depth) s v span (arms.map Prod.fst)
          (arms.map Prod.snd))) m' := by
  let event := Event.evaluating (.choose scrutinee arms span)
  obtain ⟨hresult, hmachine⟩ :=
    (elementary_evaluate depth s scrutinee).sameEnd (.log m event)
  rw [hscrutinee] at hresult hmachine
  refine ⟨_, hmachine, ?_⟩
  have hlog : outcome (Run.log event) m = (.ok ⟨⟩, m.log event) := rfl
  have hvalue : outcome (evaluate depth s scrutinee) (m.log event) =
      (.ok v, (outcome (evaluate depth s scrutinee) (m.log event)).2) := Prod.ext hresult rfl
  have hcount : ¬ (arms.map Prod.fst).length ≠ (arms.map Prod.snd).length := by simp
  rw [evaluate, outcome_bind_of_ok hlog, Run.located, Run.located, outcome_adapt, outcome_adapt,
    Expr.choose, Evaluator.step, outcome_bind_of_ok hvalue, if_neg hcount]
  rfl

/-- `choose` is its branch of the first arm that fits. -/
theorem sameEnd_choose_of_fits (hscrutinee : outcome (evaluate depth s scrutinee) m = (.ok v, m₁))
    {before : List (Pattern × Expr)}
    (hbefore : ∀ arm ∈ before, arm.1.bindings? (m₁.scopes.registry s) v = .ok none) {p : Pattern}
    {bound : Table Value} (hp : p.bindings? (m₁.scopes.registry s) v = .ok (some bound))
    (branch : Expr) (after : List (Pattern × Expr)) :
    Run.SameEnd
      (outcome (evaluate (depth + 1) s (.choose scrutinee (before ++ (p, branch) :: after) span)) m)
      (outcome (Run.located span do
        let inner ← Run.extend s bound
        evaluate depth inner branch) m₁) := by
  obtain ⟨m₂, hm₂, hchoose⟩ := exists_outcome_choose span hscrutinee
    (before ++ (p, branch) :: after)
  rw [← hm₂.scopes] at hbefore hp
  obtain ⟨m₃, hm₃, hselect⟩ := Evaluator.exists_outcome_select (evaluate depth) hbefore span
    ((p, branch) :: after)
  rw [← hm₃.scopes] at hp
  have hfit := Evaluator.outcome_select_fit (evaluate depth) hp span (after.map Prod.fst) branch
    (after.map Prod.snd)
  have hbranch : (do
      let inner ← Run.extend s bound
      evaluate depth inner branch : Run Value).Elementary :=
    .bind (.extend s bound) fun inner => elementary_evaluate depth inner branch
  have hsame : m₁.SameButRecord (m₃.log (.matched v p true)) :=
    (hm₂.trans hm₃).trans (.log m₃ _)
  rw [hchoose, Run.located, outcome_adapt, hselect, List.map_cons, List.map_cons, hfit]
  exact ((hbranch.located span).sameEnd hsame).symm

/-- `choose` is an error where no arm fits. -/
theorem sameEnd_choose_of_misfits
    (hscrutinee : outcome (evaluate depth s scrutinee) m = (.ok v, m₁))
    {arms : List (Pattern × Expr)}
    (harms : ∀ arm ∈ arms, arm.1.bindings? (m₁.scopes.registry s) v = .ok none) :
    Run.SameEnd (outcome (evaluate (depth + 1) s (.choose scrutinee arms span)) m)
      (.error (.error ⟨.nonExhaustiveMatch ("no pattern matched '" ++ v.display ++ "'"), span⟩),
        m₁) := by
  obtain ⟨m₂, hm₂, hchoose⟩ := exists_outcome_choose span hscrutinee arms
  rw [← hm₂.scopes] at harms
  obtain ⟨m₃, hm₃, hselect⟩ := Evaluator.exists_outcome_select (evaluate depth) harms span []
  rw [List.append_nil] at hselect
  rw [hchoose, Run.located, outcome_adapt, hselect]
  have hsame := hm₂.trans hm₃
  refine ⟨?_, hsame.scopes.symm, hsame.output.symm⟩
  cases span <;> rfl

/-- What `cases` becomes, if it has as many patterns as branches, no pattern has a name twice, and
patterns and value are built by declared constructors. Whether a pattern fits is whether the value
`IsInstance` of it. The match is then the branch of the first such pattern, evaluated in a new scope
inside the current one that holds the names of the pattern in order and nothing else; it stays so
when arms before this one are left out, and whatever arms come behind. If the value is no instance
of any of the patterns, the match is an error. -/
theorem Expr.cases_chooses_first {patterns : List Pattern} {branches : List Expr}
    (hs : s < m.scopes.scopes.size) (hlength : patterns.length = branches.length)
    (hpatterns : ∀ p ∈ patterns, p.Lawful (m.scopes.registry s) ∧ p.names.Nodup)
    (hscrutinee : outcome (evaluate depth s scrutinee) m = (.ok v, m₁))
    (hv : v.Registered (m.scopes.registry s)) :
    (∀ p ∈ patterns, ∃ found, p.bindings? (m.scopes.registry s) v = .ok found ∧
      (found.isSome = true ↔ p.IsInstance v)) ∧
    (∀ before p branch after, patterns.zip branches = before ++ (p, branch) :: after →
      (∀ arm ∈ before, ¬ arm.1.IsInstance v) → ∀ θ, p.Becomes θ v →
      ∃ bound : Table Value, bound.entries = p.names.map (fun name => (name, θ name)) ∧
        Run.SameEnd (outcome (evaluate (depth + 1) s (.cases scrutinee patterns branches span)) m)
          (outcome (Run.located span do
            let inner ← Run.extend s bound
            evaluate depth inner branch) m₁) ∧
        ∀ before' after' : List (Pattern × Expr), before'.Sublist before →
          Run.SameEnd
            (outcome (evaluate (depth + 1) s
              (.choose scrutinee (before' ++ (p, branch) :: after') span)) m)
            (outcome (evaluate (depth + 1) s (.cases scrutinee patterns branches span)) m)) ∧
    ((∀ p ∈ patterns, ¬ p.IsInstance v) →
      Run.SameEnd (outcome (evaluate (depth + 1) s (.cases scrutinee patterns branches span)) m)
        (.error (.error ⟨.nonExhaustiveMatch ("no pattern matched '" ++ v.display ++ "'"), span⟩),
          m₁)) := by
  -- finding the value of the scrutinee has declared nothing
  have hregistry : m₁.scopes.registry s = m.scopes.registry s :=
    (Execute.grows_of_evaluate hscrutinee).registry_eq hs
  have hmisfit : ∀ p ∈ patterns, ¬ p.IsInstance v →
      p.bindings? (m₁.scopes.registry s) v = .ok none := by
    intro p hp hinstance
    obtain ⟨hlawful, hnodup⟩ := hpatterns p hp
    rw [hregistry]
    exact p.bindings?_of_not_isInstance hlawful hnodup hv hinstance
  refine ⟨fun p hp => ?_, fun before p branch after hzip hbefore θ hθ => ?_, fun hnone => ?_⟩
  · by_cases hinstance : p.IsInstance v
    · obtain ⟨θ, hθ⟩ := hinstance
      obtain ⟨bound, hbound, -⟩ :=
        Pattern.bindings?_of_becomes (hpatterns p hp).1 (hpatterns p hp).2 hθ
      exact ⟨some bound, hbound, iff_of_true rfl ⟨θ, hθ⟩⟩
    · have hfound := hmisfit p hp hinstance
      rw [hregistry] at hfound
      exact ⟨none, hfound, iff_of_false Bool.false_ne_true hinstance⟩
  · have hmem : ∀ arm ∈ before ++ (p, branch) :: after, arm.1 ∈ patterns := fun arm harm =>
      (List.of_mem_zip (hzip ▸ harm)).1
    have hp : p ∈ patterns := hmem (p, branch) (by simp)
    obtain ⟨bound, hbound, hentries⟩ :=
      Pattern.bindings?_of_becomes (hpatterns p hp).1 (hpatterns p hp).2 hθ
    rw [← hregistry] at hbound
    have hchoose : ∀ before' after' : List (Pattern × Expr), before'.Sublist before →
        Run.SameEnd
          (outcome (evaluate (depth + 1) s
            (.choose scrutinee (before' ++ (p, branch) :: after') span)) m)
          (outcome (Run.located span do
            let inner ← Run.extend s bound
            evaluate depth inner branch) m₁) := by
      intro before' after' hsublist
      refine sameEnd_choose_of_fits span hscrutinee (fun arm harm => ?_) hbound branch after'
      have harm' := hsublist.subset harm
      exact hmisfit arm.1 (hmem arm (by simp [harm'])) (hbefore arm harm')
    have hwhole := hchoose before after (.refl before)
    rw [← hzip, choose_zip hlength] at hwhole
    exact ⟨bound, hentries, hwhole, fun before' after' hsublist =>
      (hchoose before' after' hsublist).trans hwhole.symm⟩
  · rw [← choose_zip hlength]
    refine sameEnd_choose_of_misfits span hscrutinee fun arm harm => ?_
    have hmem := (List.of_mem_zip harm).1
    exact hmisfit arm.1 hmem (hnone arm.1 hmem)

end Matches

/-! ### The head of a list -/

/-- The machine that knows lists of numbers. -/
private def knowingLists : Machine :=
  (outcome (Execute.stmt 0 Machine.root
    (.data "List" [⟨"Nil", [], none⟩, ⟨"Cons", [.nat, .data "List"], none⟩] none))
    (Session.start true).machine).2

/-- The list of a single number. -/
private def single : Expr :=
  .construct "Cons" [.number 7 none, .construct "Nil" [] none] none

/-- The arms for an empty list, for any other list, and for anything. -/
private def listPatterns : List Pattern :=
  [.construct "Nil" [] none, .construct "Cons" [.binding "h" none, .binding "t" none] none,
    .wildcard none]

/-- The head of a list, where there is one. -/
private def listBranches : List Expr :=
  [.number 0 none, .var "h" none, .number 1 none]

/-- Matching a `single` number in a list is its head. This does not depend on the arm for `Nil`, nor
on what comes behind the arm for `Cons`. -/
theorem Expr.cases_chooses_first_head : ∃ m₁ : Machine, ∃ bound : Table Value,
    bound.entries = [("h", .number 7), ("t", .constructed "Nil" [])] ∧
      Run.SameEnd
        (outcome (evaluate 3 Machine.root (.cases single listPatterns listBranches none))
          knowingLists)
        (outcome (Run.located none do
          let inner ← Run.extend Machine.root bound
          evaluate 2 inner (.var "h" none)) m₁) ∧
      ∀ before' after', before'.Sublist [(Pattern.construct "Nil" [] none, Expr.number 0 none)] →
        Run.SameEnd
          (outcome (evaluate 3 Machine.root (.choose single
            (before' ++ (.construct "Cons" [.binding "h" none, .binding "t" none] none,
              .var "h" none) :: after') none)) knowingLists)
          (outcome (evaluate 3 Machine.root (.cases single listPatterns listBranches none))
            knowingLists) := by
  have hcons : (knowingLists.scopes.registry Machine.root).constructor? "Cons" =
      some ⟨"Cons", "List", [.nat, .data "List"]⟩ := by decide +kernel
  have hnil : (knowingLists.scopes.registry Machine.root).constructor? "Nil" =
      some ⟨"Nil", "List", []⟩ := by decide +kernel
  have hpatterns : ∀ p ∈ listPatterns,
      p.Lawful (knowingLists.scopes.registry Machine.root) ∧ p.names.Nodup := by
    refine List.forall_mem_cons.mpr ⟨⟨.construct none hnil rfl nofun, by decide⟩,
      List.forall_mem_cons.mpr ⟨⟨.construct none hcons rfl ?_, by decide⟩,
        List.forall_mem_singleton.mpr ⟨.wildcard none, by decide⟩⟩⟩
    exact List.forall_mem_cons.mpr ⟨.binding "h" none,
      List.forall_mem_singleton.mpr (.binding "t" none)⟩
  have hv : Value.Registered (knowingLists.scopes.registry Machine.root)
      (.constructed "Cons" [.number 7, .constructed "Nil" []]) := by
    intro name fields hmem
    simp only [Value.parts, Value.partsAll, List.append_nil, List.cons_append, List.nil_append,
      List.mem_cons, List.not_mem_nil, or_false, Value.constructed.injEq, reduceCtorEq,
      false_or] at hmem
    rcases hmem with ⟨rfl, rfl⟩ | ⟨rfl, rfl⟩
    · exact ⟨_, hcons, rfl⟩
    · exact ⟨_, hnil, rfl⟩
  have hscrutinee : outcome (evaluate 2 Machine.root single) knowingLists =
      (.ok (.constructed "Cons" [.number 7, .constructed "Nil" []]),
        (outcome (evaluate 2 Machine.root single) knowingLists).2) := rfl
  have hempty : ¬ (Pattern.construct "Nil" [] none).IsInstance
      (.constructed "Cons" [.number 7, .constructed "Nil" []]) := by
    rintro ⟨θ, h⟩
    obtain ⟨fields, hname, -⟩ := Pattern.becomes_construct_iff.mp h
    exact absurd (Value.constructed.inj hname).1 (by decide)
  have hcount : listPatterns.length = listBranches.length := rfl
  obtain ⟨-, hfirst, -⟩ :=
    cases_chooses_first none (by decide) hcount hpatterns hscrutinee hv
  let θ : String → Value := fun name => if name = "h" then .number 7 else .constructed "Nil" []
  obtain ⟨bound, hbound, hend⟩ := hfirst [(.construct "Nil" [] none, .number 0 none)]
    (.construct "Cons" [.binding "h" none, .binding "t" none] none) (.var "h" none)
    [(.wildcard none, .number 1 none)] rfl (List.forall_mem_singleton.mpr hempty) θ
    (.construct "Cons" none (.cons (.binding "h" none) (.cons (.binding "t" none) .nil)))
  exact ⟨_, bound, hbound, hend⟩

end Casewise

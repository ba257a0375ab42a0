import Casewise.Proofs.Running.Growth
import Casewise.Proofs.Running.Programs
import Casewise.Session

/-!
# Programs that check run safely

The types of all scopes of a running program form a forest of their own: it has the shape of the
forest of scopes, and where a scope binds names to values, it binds them to types. A closure belongs
to a function type if its body has a type where the closure was made, as long as the names mean
there what they should; it does not matter what else they may be bound to by then. So closures may
see themselves through an assignment, and nothing is said about whether calls come to an end.

## Main definitions

* `FnHasTy`: functions of a type, over a forest of types.
* `safety`: the forests of types as worlds of a model.
* `Program.RunsSafely`: how a run of a program may end, and what its names hold.

## Main statements

* `sound_evaluate`: evaluating an expression that checks does no harm.
* `Program.runsSafely_of_accepted`: a program that checks runs safely, and its names hold values of
  their types.
-/

namespace Casewise

/-! ### Values over a forest of types -/

/-- The names mean in the scope what they should. -/
structure Forest.Means (f : Forest Ty) (s : ScopeId) (look : Names) : Prop where
  /-- The scope belongs to the forest. -/
  size : s < f.scopes.size
  /-- A name that means something is bound to its type. -/
  get?_eq_some : ∀ name ty, look name = some ty → f.get? s name = some ty
  /-- A quoted name that means nothing is not bound. -/
  get?_eq_none : ∀ name, Text.isQuoted name = true → look name = none → f.get? s name = none

theorem Forest.Means.mono {f f' : Forest Ty} (h : f ≤ f') {s : ScopeId} {look : Names}
    (hlook : f.Means s look) : f'.Means s look where
  size := Nat.lt_of_lt_of_le hlook.size h.size
  get?_eq_some name ty hname := h.get?_eq_some s hlook.size name ty
    (hlook.get?_eq_some name ty hname)
  get?_eq_none name hquoted hname :=
    h.get?_eq_none s hlook.size name hquoted (hlook.get?_eq_none name hquoted hname)

/-- The functions that take arguments of the types `inputs` to results of the type `output`. -/
inductive FnHasTy (f : Forest Ty) : Value → List Ty → Ty → Prop
  /-- A closure whose body has a type where it was made. -/
  | closure {param : String} {body : Expr} {s : ScopeId} {look : Names} {R : Registry} {a b : Ty}
    {inputs : List Ty} {output : Ty} (hR : R ≤ f.registry 0) (hlook : f.Means s look)
    (hbody : body.HasTy Ty.agrees R (look.extend (.ofList [(param, a)])) b)
    (hinputs : Ty.agreeAll [a] inputs = true) (houtput : b.agrees output = true) :
    FnHasTy f (.closure param body s) inputs output
  | builtin {b : Builtin} {inputs : List Ty} {output : Ty}
    (hinputs : Ty.agreeAll b.inputs inputs = true) (houtput : b.output.agrees output = true) :
    FnHasTy f (.builtin b) inputs output
  | constructor {name : String} {info : ConstructorInfo} {inputs : List Ty} {output : Ty}
    (hinfo : (f.registry 0).constructor? name = some info)
    (hinputs : Ty.agreeAll info.fields inputs = true)
    (houtput : (Ty.data info.data).agrees output = true) :
    FnHasTy f (.constructor name info.arity) inputs output

namespace FnHasTy

variable {f f' : Forest Ty} {v : Value} {inputs inputs' : List Ty} {output output' : Ty}

theorem mono (hf : f ≤ f') (h : FnHasTy f v inputs output) : FnHasTy f' v inputs output := by
  cases h with
  | closure hR hlook hbody hinputs houtput =>
    exact .closure (Registry.le_trans hR hf.registry) (hlook.mono hf) hbody hinputs houtput
  | builtin hinputs houtput => exact .builtin hinputs houtput
  | constructor hinfo hinputs houtput =>
    exact .constructor (hf.registry _ _ hinfo) hinputs houtput

/-- A function has all types that agree with its type, by `FnHasTy`. -/
theorem of_agrees (hinputs' : Ty.agreeAll inputs inputs' = true)
    (houtput' : output.agrees output' = true) (h : FnHasTy f v inputs output) :
    FnHasTy f v inputs' output' := by
  cases h with
  | closure hR hlook hbody hinputs houtput =>
    exact .closure hR hlook hbody (Ty.agreeAll_trans hinputs hinputs')
      (Ty.agrees_trans houtput houtput')
  | builtin hinputs houtput =>
    exact .builtin (Ty.agreeAll_trans hinputs hinputs') (Ty.agrees_trans houtput houtput')
  | constructor hinfo hinputs houtput =>
    exact .constructor hinfo (Ty.agreeAll_trans hinputs hinputs') (Ty.agrees_trans houtput houtput')

end FnHasTy

/-- The values of a type over a forest of types. -/
def Forest.Val (f : Forest Ty) (v : Value) (ty : Ty) : Prop :=
  v.HasTy (f.registry 0) (FnHasTy f) ty

theorem Forest.Val.mono {f f' : Forest Ty} (hf : f ≤ f') {v : Value} {ty : Ty} (h : f.Val v ty) :
    f'.Val v ty :=
  Value.HasTy.mono hf.registry (fun _ _ _ => FnHasTy.mono hf) h

/-- The scopes of the machine are as the forest of types says. -/
def Forest.Describes (f : Forest Ty) (m : Machine) : Prop :=
  f.Alike (fun ty v => f.Val v ty) m.scopes

/-- Running stops because no pattern fits, or has not come to its end yet. -/
def Stop.Unfinished (stop : Stop) : Prop :=
  stop.NoMatch ∨ stop = .tooDeep

/-! ### The model -/

/-- Trees of scopes with the types of their names. -/
abbrev TypeTree :=
  {f : Forest Ty // f.Rooted}

namespace TypeTree

variable {f : TypeTree} {m : Machine} {s : ScopeId} {look : Names}

/-- A name that means something is bound to a value of its type, which `get?` finds. -/
theorem exists_get? (hm : f.1.Describes m) (hlook : f.1.Means s look) {name : String} {ty : Ty}
    (hname : look name = some ty) : ∃ v, m.scopes.get? s name = some v ∧ f.1.Val v ty := by
  have hrel := Forest.Alike.get?_rel hm s name
  rw [hlook.get?_eq_some name ty hname] at hrel
  cases hv : m.scopes.get? s name with
  | none => rw [hv] at hrel; cases hrel
  | some v =>
    rw [hv] at hrel
    cases hrel with
    | some h => exact ⟨v, rfl, h⟩

theorem get?_eq_none (hm : f.1.Describes m) (hlook : f.1.Means s look) {name : String}
    (hquoted : Text.isQuoted name = true) (hname : look name = none) :
    m.scopes.get? s name = none := by
  have hrel := Forest.Alike.get?_rel hm s name
  rw [hlook.get?_eq_none name hquoted hname] at hrel
  cases hv : m.scopes.get? s name with
  | none => rfl
  | some v => rw [hv] at hrel; cases hrel

theorem registry_eq (hm : f.1.Describes m) (hlook : f.1.Means s look) :
    m.scopes.registry s = f.1.registry 0 := by
  rw [← Forest.Alike.registry_eq hm s, f.2.registry_eq hlook.size]

theorem describes_of_le {f' : Forest Ty} (hf : f.1 ≤ f') {scopes : Forest Value}
    (h : f'.Alike (fun ty v => f.1.Val v ty) scopes) : f'.Describes { m with scopes } :=
  h.imp fun _ _ hv => hv.mono hf

/-- A new scope may bind its names to values of their types: a later `TypeTree` describes it. -/
theorem exists_extend (hm : f.1.Describes m) (hlook : f.1.Means s look) {bound : Table Ty}
    {vals : Table Value} (hbound : bound.Alike (fun ty v => f.1.Val v ty) vals) :
    ∃ f' : TypeTree, f.1.SameRoot f'.1 ∧
      f'.1.Describes { m with scopes := (m.scopes.extend s vals).2 } ∧
      f'.1.Means (m.scopes.extend s vals).1 (look.extend bound) := by
  have hroot := f.2.sameRoot_extend s bound
  refine ⟨⟨(f.1.extend s bound).2, f.2.extend hlook.size bound⟩, hroot,
    describes_of_le hroot.le (Forest.Alike.extend hm s hbound), ?_⟩
  have hnumber : (m.scopes.extend s vals).1 = f.1.scopes.size := (Forest.Alike.size_eq hm).symm
  rw [hnumber]
  constructor
  · exact Nat.lt_of_lt_of_eq (Nat.lt_succ_self _) (Array.size_push _).symm
  · intro name ty hname
    rw [f.2.get?_extend_self]
    rw [Names.extend] at hname
    cases hget : bound.get? name with
    | some ty' => rwa [hget] at hname
    | none =>
      rw [hget, Option.none_or] at hname
      rw [Option.none_or, hlook.get?_eq_some name ty hname]
  · intro name hquoted hname
    rw [f.2.get?_extend_self]
    rw [Names.extend] at hname
    cases hget : bound.get? name with
    | some ty' => rw [hget] at hname; cases hname
    | none =>
      rw [hget, Option.none_or] at hname
      rw [Option.none_or, hlook.get?_eq_none name hquoted hname]

theorem means_root : f.1.Means 0 (f.1.bindings 0).get? where
  size := f.2.size_pos
  get?_eq_some name ty hname := by rw [f.2.get?_root, hname]
  get?_eq_none name _ hname := by rw [f.2.get?_root, hname]

/-- The root may bind a new name to a value of its type: a later `TypeTree` describes it. -/
theorem exists_define (hm : f.1.Describes m) {t : Table Ty} {R : Registry}
    (hroot : f.1.bindings 0 = t ∧ f.1.registry 0 = R) {name : String} {v : Value} {ty : Ty}
    (hv : f.1.Val v ty) (hname : t.get? name = none) (hquoted : Text.isQuoted name = false) :
    ∃ f' ≥ f, f'.1.Describes { m with scopes := m.scopes.write 0 name v } ∧
      f'.1.bindings 0 = t.insert name ty ∧ f'.1.registry 0 = R := by
  obtain ⟨rfl, rfl⟩ := hroot
  have hle : f.1 ≤ f.1.write 0 name ty := f.2.grows_write hname hquoted ty
  refine ⟨⟨f.1.write 0 name ty, f.2.write 0 name ty⟩, hle,
    describes_of_le hle (Forest.Alike.write hm hname hv), ?_, ?_⟩
  · rw [Forest.bindings_write _ _ _ _ _ f.2.size_pos, if_pos rfl]
  · exact Forest.registry_write _ _ _ _ _

/-- A name of the root may get another value of its type: a later `TypeTree` describes it. -/
theorem exists_assign (hm : f.1.Describes m) {t : Table Ty} {R : Registry}
    (hroot : f.1.bindings 0 = t ∧ f.1.registry 0 = R) {name : String} {v : Value} {ty : Ty}
    (hv : f.1.Val v ty) (hname : t.get? name = some ty) :
    ∃ f' ≥ f, f'.1.Describes { m with scopes := m.scopes.write 0 name v } ∧
      f'.1.bindings 0 = t ∧ f'.1.registry 0 = R := by
  obtain ⟨rfl, rfl⟩ := hroot
  exact ⟨f, le_refl f, Forest.Alike.overwrite hm hname hv, rfl, rfl⟩

/-- The root may get to know another data type: a later `TypeTree` describes it. -/
theorem exists_declare (hm : f.1.Describes m) {t : Table Ty} {R R' : Registry}
    (hroot : f.1.bindings 0 = t ∧ f.1.registry 0 = R) {name : String}
    {constructors : List (String × List Ty)}
    (hdeclare : outcome (Registry.declare name constructors) R = (.ok (), R')) :
    ∃ f' ≥ f, f'.1.Describes { m with scopes := m.scopes.withRegistry R' } ∧
      f'.1.bindings 0 = t ∧ f'.1.registry 0 = R' := by
  obtain ⟨rfl, rfl⟩ := hroot
  have hle : f.1 ≤ f.1.withRegistry R' := f.2.grows_withRegistry (Registry.le_of_declare hdeclare)
  exact ⟨⟨f.1.withRegistry R', f.2.withRegistry R'⟩, hle,
    describes_of_le hle (Forest.Alike.withRegistry hm R'), rfl, f.2.registry_withRegistry R'⟩

end TypeTree

/-- Trees of types as worlds: evaluation only adds scopes, and statements change the root. -/
def safety : ProgramModel TypeTree where
  Holds f m := f.1.Describes m
  Reaches f f' := f.1.SameRoot f'.1
  Harmless := Stop.Unfinished
  reaches_refl f := .refl f.1
  reaches_trans := .trans
  le_of_reaches h := h.le
  holds_of_scopes_eq h hscopes := by
    rw [Forest.Describes, hscopes]
    exact h
  harmless_placedAt := by
    rintro stop span (h | rfl)
    · exact .inl (h.placedAt span)
    · exact .inr rfl
  Val f v ty := f.1.Val v ty
  Env f s look := f.1.Means s look
  registry f := f.1.registry 0
  val_mono hf h := h.mono hf
  env_mono hf h := h.mono hf
  registry_mono hf := hf.registry
  val_agrees hty h :=
    Value.HasTy.of_agrees (fun _ _ _ _ _ hinputs houtput => .of_agrees hinputs houtput) hty h
  shape h := Value.HasTy.shape h
  val_of_shape hv h := .of_shape hv h
  registry_eq := TypeTree.registry_eq
  get?_eq_some hm hlook hname := TypeTree.exists_get? hm hlook hname
  get?_eq_none hm hlook hquoted hname := TypeTree.get?_eq_none hm hlook hquoted hname
  exists_extend hm hlook hbound := TypeTree.exists_extend hm hlook hbound
  harmless_noMatch := .inl
  Root f t R := f.1.bindings 0 = t ∧ f.1.registry 0 = R
  Allows _ := True
  root_of_reaches h hroot := ⟨h.bindings.trans hroot.1, h.registry.trans hroot.2⟩
  registry_of_root hroot := hroot.2
  env_of_root hroot := hroot.1 ▸ TypeTree.means_root
  rooted hm := Forest.Alike.rooted hm (Subtype.property _)
  names_of_root hm hroot := hroot.1 ▸ ((Forest.Alike.bindings hm 0).names_eq).symm
  val_constructor hinfo :=
    .function rfl (.constructor hinfo (Ty.agreeAll_refl _) (Ty.agrees_refl _))
  exists_define hm hroot hv hname hquoted := TypeTree.exists_define hm hroot hv hname hquoted
  exists_assign _ hm hroot hv hname := TypeTree.exists_assign hm hroot hv hname
  exists_declare _ hm hroot hdeclare := TypeTree.exists_declare hm hroot hdeclare

/-! ### Soundness -/

/-- A call is `Sound` for `safety` if evaluating function bodies is. -/
theorem calls_safety {recur : ℕ → Evaluator} (hsound : ∀ e, safety.Sound recur e) :
    safety.Calls recur := by
  intro f v inputs output args hv hargs head span
  cases hv with
  | function _ hfn =>
    cases hfn with
    | @closure param body s look R a b _ _ hR hlook hbody hinputs houtput =>
      have hargs := safety.vals_agree hinputs hargs
      obtain ⟨arg, rest, harg, hrest, rfl⟩ := List.forall₂_cons_right_iff.mp hargs
      obtain rfl := List.forall₂_nil_right_iff.mp hrest
      have hbound : (Table.ofList [(param, a)]).Alike (fun ty v => safety.Val f v ty)
          (.ofList [(param, arg)]) := .cons ⟨rfl, harg⟩ .nil
      refine (Model.leads_extend hlook hbound).bind fun f₁ hf₁ t ht => ?_
      have hR₁ := safety.le_registry hf₁ hR
      exact (hsound body hbody hR₁ ht).imp fun _ _ _ hv => safety.val_agrees houtput hv
    | builtin hinputs houtput =>
      have hargs := safety.vals_agree hinputs hargs
      exact (Model.leads_call_builtin hargs head span).imp fun _ _ _ hv =>
        safety.val_agrees houtput hv
    | constructor hinfo hinputs houtput =>
      have hargs := safety.vals_agree hinputs hargs
      exact (Model.leads_call_constructor hinfo hargs head span).imp fun _ _ _ hv =>
        safety.val_agrees houtput hv
  | constructed _ howner => cases howner

theorem closes_safety (recur : ℕ → Evaluator) : safety.Closes recur := by
  intro f s look R param a b body _ hbody hR hlook
  exact .function rfl (.closure hR hlook hbody (Ty.agreeAll_refl _) (Ty.agrees_refl _))

/-- An expression that checks is `safety.Sound`: evaluating it gives a value of its type or does no
harm, however deep evaluations may nest. -/
theorem sound_evaluate (depth : ℕ) (e : Expr) : safety.Sound (fun _ => evaluate depth) e := by
  induction depth generalizing e with
  | zero => exact fun _ _ _ _ _ _ _ _ => .stop (.inr rfl)
  | succ depth ih =>
    exact Model.sound_of_stepped
      (Model.sound_step (calls_safety ih) (closes_safety _) fun part _ => ih part)

/-! ### Programs -/

/-- The tree of types before the first statement. -/
def TypeTree.start (builtins : Bool) : TypeTree :=
  ⟨(Forest.newRoot {} (if builtins then Builtin.types else ∅)).2, .newRoot _⟩

/-- Before the first statement the machine is described by a `TypeTree`, and its root is as the
context says. -/
theorem TypeTree.holds_start (builtins recording : Bool) :
    safety.Holds (start builtins) (Session.start builtins recording).machine ∧
      safety.Follows {} (Session.start builtins recording).context (start builtins) := by
  refine ⟨Forest.Alike.newRoot (Builtin.alike_start (fun b => ?_) builtins),
    ProgramModel.follows_start ⟨rfl, rfl⟩⟩
  exact .function (by rfl) (.builtin (Ty.agreeAll_refl _) (Ty.agrees_refl _))

/-- What running a program that checks leads to from a machine whose root `Follows` the context. -/
theorem exists_run (depth : ℕ) {p : Program} {d : Declared} {Γ Γ' : Context} (hp : p.Readable d)
    (hcheck : p.Checks Ty.agrees Γ Γ')
    (hquoted : ∀ s ∈ p, ∀ name ∈ s.binds, Text.isQuoted name = false) {f : TypeTree}
    (hfollows : safety.Follows d Γ f) {m : Machine} (hm : safety.Holds f m) :
    ∃ r m' f', outcome (Execute.program depth Machine.root p) m = (r, m') ∧ f ≤ f' ∧
      safety.Holds f' m' ∧ (∀ stop, r = .error stop → stop.Unfinished) ∧
      ∀ u, r = .ok u → safety.Follows (p.foldl Declared.after d) Γ' f' := by
  have hleads := ProgramModel.leads_program (fun _ => depth) (sound_evaluate depth) hp hcheck
    hquoted (fun _ _ => trivial) hfollows
  obtain ⟨r, m', f', ⟨n, hn⟩, hf, hm', hr⟩ := hleads m hm
  refine ⟨r, m', f', hn n (Nat.le_refl n), hf, hm', ?_, ?_⟩
  · rintro stop rfl
    exact hr
  · rintro u rfl
    exact hr

/-- The name is bound at the root of the machine to a value of the type that the context records. -/
def Machine.HoldsName (m : Machine) (Γ : Context) (name : String) : Prop :=
  ∃ ty v, Γ.here.get? name = some ty ∧ (m.scopes.bindings root).get? name = some v ∧
    v.Inhabits (m.scopes.registry root) ty

/-- How running a program from a session ends, if evaluations may nest less than `depth` deep, and
what its names hold meanwhile. -/
structure Program.RunsSafely (p : Program) (σ : Session) (Γ : Context) (depth : ℕ) : Prop where
  /-- It comes to its end, finds no pattern that fits, or had more to do. -/
  unfinished : ∀ stop,
    (outcome (Execute.program depth σ.scope p) σ.machine).1 = .error stop → stop.Unfinished
  /-- From the end of a definition on, its name holds a value of the type that the context records:
  at the ends of all statements, wherever running stops, and while expressions are evaluated. -/
  holdsName : ∀ q rest after, p = q ++ rest ++ after →
    (outcome (Execute.program depth σ.scope q) σ.machine).1 = .ok () →
    ∀ name value span, .define name value span ∈ q →
      ∀ m,
        (outcome (Execute.program depth σ.scope (q ++ rest)) σ.machine).2.MeetsWhileEvaluating m →
        m.HoldsName Γ name

/-- A program that is read from a text and `Accepted` has `RunsSafely`, with and without the
built-in functions. -/
theorem Program.runsSafely_of_accepted {file source : String} {p : Program}
    (hp : parse file source = .ok p) {builtins recording : Bool} {Γ : Context}
    (h : p.Accepted (Session.start builtins recording) Γ) (depth : ℕ) :
    p.RunsSafely (Session.start builtins recording) Γ depth := by
  have hread := Program.readable_of_parse hp
  have hchecks := h.checks_agrees hread
  have hquoted := h.unquoted
  obtain ⟨hm, hfollows⟩ := TypeTree.holds_start builtins recording
  constructor
  · obtain ⟨r, m', f', hrun, -, -, hstop, -⟩ := exists_run depth hread hchecks hquoted hfollows hm
    rw [show Session.scope _ = Machine.root from rfl, hrun]
    exact hstop
  · rintro q rest after rfl hq name value span hmem m hmeets
    obtain ⟨hread, -⟩ := Program.readable_append.mp hread
    obtain ⟨hreadq, hreadrest⟩ := Program.readable_append.mp hread
    obtain ⟨Γ₂, hchecks, hafter⟩ := hchecks.append
    obtain ⟨Γ₁, hchecksq, hchecksrest⟩ := hchecks.append
    have hquoted : ∀ s ∈ q ++ rest, ∀ name ∈ s.binds, Text.isQuoted name = false :=
      fun s hs => hquoted s (List.mem_append_left after hs)
    have hquotedq : ∀ s ∈ q, ∀ name ∈ s.binds, Text.isQuoted name = false :=
      fun s hs => hquoted s (List.mem_append_left rest hs)
    have hquotedrest : ∀ s ∈ rest, ∀ name ∈ s.binds, Text.isQuoted name = false :=
      fun s hs => hquoted s (List.mem_append_right q hs)
    -- what has been defined is bound at the root from then on, in all worlds that come later
    obtain ⟨r₁, m₁, f₁, hrunq, -, hm₁, -, hfollows₁⟩ :=
      exists_run depth hreadq hchecksq hquotedq hfollows hm
    obtain rfl : r₁ = .ok () := (congrArg Prod.fst hrunq).symm.trans hq
    have hfollows₁ := hfollows₁ () rfl
    obtain ⟨r₂, m₂, f₂, hrunrest, hf, hm₂, -, -⟩ :=
      exists_run depth hreadrest hchecksrest hquotedrest hfollows₁ hm₁
    have hrun : outcome (Execute.program depth (Session.start builtins recording).scope (q ++ rest))
        (Session.start builtins recording).machine = (r₂, m₂) :=
      (outcome_forM_append_of_ok hrunq).trans hrunrest
    obtain ⟨ty, hty, hnullary⟩ := hchecksq.exists_get?_of_define hfollows.constructors_bound hmem
    obtain ⟨v, hv, hval⟩ := hfollows₁.exists_value hty hnullary hf hm₂
    have hgrows : m₂.Grows m := by
      rw [hrun] at hmeets
      exact hmeets.grows
    have hrooted := safety.rooted hm₂
    refine ⟨ty, v, hafter.get?_eq_some (hchecksrest.get?_eq_some hty), ?_, ?_⟩
    · have hbindings : m.scopes.bindings Machine.root = m₂.scopes.bindings 0 :=
        hgrows.bindings_eq hrooted.size_pos
      rw [hbindings]
      exact (hrooted.get?_root name).symm.trans hv
    · have hregistry : m.scopes.registry Machine.root = f₂.1.registry 0 :=
        (hgrows.registry_eq hrooted.size_pos).trans (Forest.Alike.registry_eq hm₂ 0).symm
      rw [hregistry]
      exact Value.HasTy.inhabits hval

/-- A program that sums up lists, by a function that an assignment makes recursive. -/
private def sumOfList : String :=
  "(data List (Nil) (Cons Nat List))" ++
  "(define sum (lambda l List 0))" ++
  "(assign sum (lambda l List (match l (Nil 0 (Cons h t) (+ h (sum t))))))" ++
  "(print (sum (Cons 2 (Cons 3 Nil))))"

/-- `sumOfList` runs safely, though nothing promises that a recursive function comes to an end. -/
theorem Program.runsSafely_sumOfList : ∃ p Γ, parse "sum" sumOfList = .ok p ∧
    p.Accepted (Session.start true) Γ ∧ ∀ depth, p.RunsSafely (Session.start true) Γ depth := by
  have haccepts : (parse "sum" sumOfList).toOption.any (·.accepts (Session.start true)) = true := by
    decide +kernel
  cases hp : parse "sum" sumOfList with
  | error e =>
    rw [hp] at haccepts
    cases haccepts
  | ok p =>
    rw [hp] at haccepts
    obtain ⟨Γ, h⟩ := Program.accepts_iff.mp haccepts
    exact ⟨p, Γ, rfl, h, Program.runsSafely_of_accepted hp h⟩

end Casewise

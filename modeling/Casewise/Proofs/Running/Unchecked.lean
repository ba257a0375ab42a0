import Casewise.Proofs.Running.Failing
import Casewise.Proofs.Value.Valid

/-!
# Running without checking

A program that is run without being checked may hand any value to any operation, and it stops
wherever the kind of a value does not fit. Its values are sound nevertheless: scopes hold sound
values only, so whatever is taken from them is sound, and so is what the operations make of it.

Where counts do not agree, running stops, but only in the places that compare a given number with a
declared one.

## Main definitions

* `Cause.Lawful`: the causes for which an unchecked program may stop.
* `unchecked`: data types and numbers of scopes as worlds.

## Main statements

* `Evaluator.keeps_evaluate`: the value of an expression that was read is sound.
* `Execute.leads_stmt`: executing a statement that was read keeps the scopes sound.
-/

namespace Casewise

/-! ### Counts that do not agree -/

/-- The causes for which a program that was read may stop, beside the given data types. Where a
count is wrong, a given number is compared with the declared one. -/
inductive Cause.Lawful (R : Registry) : Cause → Prop
  | of_code {c : Cause} (h : c.code ≠ "E330") : Lawful R c
  /-- A function is given a wrong number of arguments. -/
  | call (text : String) {expected got : Int} (h : expected ≠ got) :
    Lawful R (.arityMismatch ("'" ++ text ++ "'") expected got)
  /-- An expression does not give a constructor the fields that it is declared with. -/
  | constructor {name : String} {info : ConstructorInfo} {got : Int}
    (hinfo : R.constructor? name = some info) (hgot : (info.arity : Int) ≠ got) :
    Lawful R (.arityMismatch ("constructor '" ++ name ++ "'") info.arity got)
  /-- A pattern has not as many parts as its constructor is declared with. -/
  | pattern {name : String} {info : ConstructorInfo} {got : Int}
    (hinfo : R.constructor? name = some info) (hgot : (info.arity : Int) ≠ got) :
    Lawful R (.arityMismatch ("pattern '" ++ name ++ "'") info.arity got)

/-- Matching fails for `Lawful` causes. -/
theorem Cause.OfMatching.lawful {R : Registry} {c : Cause} (h : c.OfMatching R) : c.Lawful R := by
  cases h with
  | unboundName name => exact .of_code (by simp [Cause.code])
  | redefinition name => exact .of_code (by simp [Cause.code])
  | arityMismatch hinfo hgot => exact .pattern hinfo hgot

/-- The reasons for which a program that was read may stop: an error with a lawful cause, or no room
for deeper evaluations. -/
def Stop.Lawful (R : Registry) : Stop → Prop
  | error e => e.cause.Lawful R
  | unknownOperator _ => False
  | tooDeep => True

/-- Data types and numbers of scopes as worlds: evaluating adds scopes, and only statements add data
types. -/
def unchecked (R : Registry) : Frame Extent where
  Holds w m := m.scopes.Valid ∧ m.scopes.extent = w
  Reaches w w' := w'.registry = w.registry ∧ w.size ≤ w'.size
  Harmless stop := stop.Lawful R
  reaches_refl _ := ⟨rfl, Nat.le_refl _⟩
  reaches_trans h h' := ⟨h'.1.trans h.1, Nat.le_trans h.2 h'.2⟩
  le_of_reaches h := ⟨h.1 ▸ Registry.le_refl _, h.2⟩
  holds_of_scopes_eq h hscopes := by rwa [hscopes]
  harmless_placedAt {stop span} h := by
    cases stop with
    | error e => exact h
    | unknownOperator name => exact h
    | tooDeep => exact h

/-- The scope is one of those counted, and the data types are as said. -/
structure Extent.Has (w : Extent) (R : Registry) (s : ScopeId) : Prop where
  /-- The data types. -/
  registry : w.registry = R
  /-- The scope. -/
  size : s < w.size

/-- A constructor of the extent is one of the data types given or one of the declared ones. -/
def Extent.AddsOnly (w : Extent) (R : Registry) (cs : List ConstructorDecl) : Prop :=
  ∀ name info, w.registry.constructor? name = some info →
    R.constructor? name = some info ∨ ∃ c ∈ cs, c.name = name

/-- `AddsOnly` holds of data types that are as said. -/
theorem Extent.Has.addsOnly {w : Extent} {R : Registry} {s : ScopeId} (h : w.Has R s)
    (cs : List ConstructorDecl) : w.AddsOnly R cs := by
  intro name info hinfo
  rw [h.registry] at hinfo
  exact .inl hinfo

namespace Unchecked

variable {R : Registry} {w w' : Extent} {s : ScopeId}

theorem has_later (hw : (unchecked R).Reaches w w') (h : w.Has R s) : w'.Has R s :=
  ⟨hw.1.trans h.registry, Nat.lt_of_lt_of_le h.size hw.2⟩

theorem valid_later (hw : (unchecked R).Reaches w w') {v : Value} (h : v.Valid w) : v.Valid w' :=
  h.mono ((unchecked R).le_of_reaches hw)

theorem leads_fail {α : Type} {Q : Extent → α → Prop} {c : Cause} (h : c.code ≠ "E330")
    (span : Option Span) : (unchecked R).Leads w (fun _ => Run.fail c span) Q :=
  .stop (show Stop.Lawful R (.error ⟨c, span⟩) from .of_code h)

/-- `Run.extend` with sound values makes one of the scopes counted then. -/
theorem leads_extend (h : w.Has R s) {bound : Table Value} (hbound : bound.All (Value.Valid w)) :
    (unchecked R).Leads w (fun _ => Run.extend s bound) fun w' t => w'.Has R t := by
  refine .of_ok fun m hm => ?_
  obtain ⟨hvalid, rfl⟩ := hm
  obtain ⟨hvalid', hextent⟩ := hvalid.extend h.size hbound
  refine ⟨_, _, ⟨m.scopes.registry 0, m.scopes.scopes.size + 1⟩, rfl, ⟨rfl, Nat.le_succ _⟩,
    ⟨hvalid', hextent⟩, ?_⟩
  exact ⟨h.registry, Nat.lt_succ_self _⟩

theorem leads_registry (h : w.Has R s) :
    (unchecked R).Leads w (fun _ => Run.withScopes (·.registry s)) fun w' found =>
      found = w'.registry := by
  refine .withScopes fun m hm => ?_
  obtain ⟨hvalid, rfl⟩ := hm
  exact hvalid.rooted.registry_eq h.size

end Unchecked

/-! ### Evaluating -/

namespace Evaluator

open Unchecked

variable {R : Registry} {w : Extent} {s : ScopeId} {recur : Evaluator}

/-- Evaluating an expression that was read gives sound values, and stops for lawful reasons only. -/
def Keeps (R : Registry) (recur : Evaluator) : Prop :=
  ∀ {w : Extent} {s : ScopeId} {e : Expr} {d : Declared}, w.Has R s → e.Readable d →
    (unchecked R).Leads w (fun _ => recur s e) fun w' v => v.Valid w'

theorem leads_truth (what : String) (span : Option Span) (v : Value) :
    (unchecked R).Leads w (fun _ => truth what span v) fun _ _ => True := by
  cases v with
  | boolean b => exact .pure trivial
  | _ => exact leads_fail (by simp [Cause.code]) span

/-- `binary` with an operator that the language knows makes sound values of sound values. -/
theorem leads_binary {op : BinaryOp} (hop : BinaryOp.ofSymbol? op.symbol = some op)
    {left right : Value} (hleft : left.Valid w) (hright : right.Valid w) (span : Option Span) :
    (unchecked R).Leads w (fun _ => binary op left right span) fun w' v => v.Valid w' := by
  have htruths {f : Bool → Bool → Run Value} (hf : ∀ a b, ∃ c, f a b = pure (.boolean c)) :
      (unchecked R).Leads w (fun _ => do
        let a ← truth ("'" ++ op.name ++ "'") span left
        let b ← truth ("'" ++ op.name ++ "'") span right
        f a b) fun w' v => v.Valid w' := by
    refine (leads_truth _ span left).bind fun _ _ a _ => ?_
    refine (leads_truth _ span right).bind fun _ _ b _ => ?_
    obtain ⟨c, hc⟩ := hf a b
    rw [hc]
    exact .pure (.boolean c)
  cases op with
  | plus =>
    simp only [binary]
    split
    · next m n => exact .pure (.number (Int.add_nonneg hleft.nonneg hright.nonneg))
    · exact leads_fail (by simp [Cause.code]) span
  | eq => exact htruths fun a b => ⟨a == b, rfl⟩
  | and => exact htruths fun a b => ⟨a && b, rfl⟩
  | or => exact htruths fun a b => ⟨a || b, rfl⟩
  | other name unknown => exact absurd hop (BinaryOp.ofSymbol?_ne_other unknown)

/-- Arguments that are evaluated with `mapM` have sound values, one for each. -/
theorem leads_mapM (hrecur : Keeps R recur) {d : Declared} {args : List Expr}
    (hargs : ∀ e ∈ args, e.Readable d) (h : w.Has R s) :
    (unchecked R).Leads w (fun _ => args.mapM (recur s)) fun w' vs => ∀ v ∈ vs, v.Valid w' := by
  have heach : List.Forall₂ (fun a _ => ∀ w', (unchecked R).Reaches w w' →
      (unchecked R).Leads w' (fun _ => recur s a) fun w' v => v.Valid w') args args :=
    List.forall₂_same.mpr fun e he w' hw' => hrecur (has_later hw' h) (hargs e he)
  have hall : (unchecked R).Leads w (fun _ => args.mapM (recur s)) fun w' vs =>
      List.Forall₂ (fun v _ => v.Valid w') vs args :=
    .mapM (fun hw hv => hv.mono hw) heach
  exact hall.imp fun w' _ vs hvs => forall_mem_right hvs.flip fun _ _ v hv => hv

/-- `checkCount` compares the number of arguments with the one that a constructor takes. -/
theorem leads_checkCount (name : String) (arity : ℕ) (args : List Value) :
    (unchecked R).Leads w (fun _ => Run.ofExcept (checkCount ("'" ++ name ++ "'") arity args))
      fun w' _ => w' = w ∧ args.length = arity := by
  rw [checkCount]
  split
  · next hlength => exact .ofExcept rfl ⟨rfl, Int.ofNat_inj.mp hlength⟩
  · next hlength =>
    exact .ofExcept_fine (fun u hu => by cases hu) (.throw (.call name fun h => hlength h.symm))

/-- `call` of a sound value has a sound value. -/
theorem leads_call (hrecur : Keeps R recur) (hw : w.registry = R) {f : Value} (hf : f.Valid w)
    {args : List Value} (hargs : ∀ v ∈ args, v.Valid w) (head : Expr) (span : Option Span) :
    (unchecked R).Leads w (fun _ => call recur f args head span) fun w' v => v.Valid w' := by
  cases hf with
  | @closure param body scope d hbody hscope =>
    simp only [call]
    split
    · next arg =>
      have hbound : (Table.ofList [(param, arg)]).All (Value.Valid w) :=
        Table.All.empty.insert (hargs arg (by simp)) param
      exact (leads_extend ⟨hw, hscope⟩ hbound).bind fun w' _ inner hinner => hrecur hinner hbody
    · next hne =>
      refine .stop (show Stop.Lawful R (.error _) from .call head.text fun hone => ?_)
      obtain ⟨arg, rfl⟩ := List.length_eq_one_iff.mp (Int.ofNat_inj.mp hone).symm
      exact hne arg rfl
  | builtin b =>
    simp only [call, Builtin.call_eq]
    split
    · next hlength =>
      have hworks := b.works_apply (w := w) hlength
      refine .ofExcept_fine (fun v hv => hworks.ok v hv hargs) fun e he => ?_
      obtain ⟨text, htext⟩ := hworks.fails e he
      exact .of_code (by simp [htext, Cause.code])
    · next hlength =>
      refine .ofExcept_fine (fun v hv => by cases hv) (.throw (.call b.name fun h => ?_))
      exact hlength (Int.ofNat_inj.mp h).symm
  | @constructor name info hinfo =>
    simp only [call]
    refine (leads_checkCount name info.arity args).bind fun w' _ _ hcount => ?_
    obtain ⟨rfl, hlength⟩ := hcount
    exact .pure (.constructed hinfo hlength hargs)
  | _ => exact leads_fail (by simp [Cause.code]) head.span

/-- What `construct` builds has the fields that its constructor is declared with. -/
theorem leads_construct (h : w.Has R s) (name : String) {fields : List Value}
    (hfields : ∀ v ∈ fields, v.Valid w) (span : Option Span) :
    (unchecked R).Leads w (fun _ => construct s name fields span) fun w' v => v.Valid w' := by
  refine (leads_registry h).bind fun w' hw' found hfound => ?_
  have h' := has_later hw' h
  rw [hfound]
  cases hinfo : w'.registry.constructor? name with
  | none => exact leads_fail (by simp [Cause.code]) span
  | some info =>
    dsimp only
    split
    · next hlength =>
      rw [h'.registry] at hinfo
      refine .stop (show Stop.Lawful R (.error _) from .constructor hinfo fun heq => ?_)
      exact hlength (Int.ofNat_inj.mp heq).symm
    · next hlength =>
      refine .pure (.constructed hinfo (not_not.mp hlength) fun v hv => ?_)
      exact valid_later hw' (hfields v hv)

/-- `select` of a branch for a sound value gives a sound value. -/
theorem leads_select (hrecur : Keeps R recur) (h : w.Has R s) {subject : Value}
    (hsubject : subject.Valid w) (span : Option Span) (ps : List Pattern) {d : Declared}
    {branches : List Expr} (hbranches : ∀ e ∈ branches, e.Readable d) :
    (unchecked R).Leads w (fun _ => select recur s subject span ps branches)
      fun w' v => v.Valid w' := by
  induction ps generalizing w branches with
  | nil => exact leads_fail (by simp [Cause.code]) span
  | cons p ps ih =>
    cases branches with
    | nil => exact leads_fail (by simp [Cause.code]) span
    | cons branch branches =>
      obtain ⟨hbranch, hbranches⟩ := List.forall_mem_cons.mp hbranches
      simp only [select]
      refine (leads_registry h).bind fun w₁ hw₁ found hfound => ?_
      have h₁ := has_later hw₁ h
      have hsubject₁ := valid_later hw₁ hsubject
      rw [hfound]
      obtain ⟨hbound, hfails⟩ := p.bindings?_closed (Value.Valid.closed w₁) hsubject₁
      have hmatch : (unchecked R).Leads w₁
          (fun _ => Run.ofExcept (p.bindings? w₁.registry subject)) fun w' bindings =>
            ∀ bound, bindings = some bound → bound.All (Value.Valid w') := by
        refine .ofExcept_fine (fun bindings hok bound hsome => ?_) fun e he => ?_
        · rw [hsome] at hok
          exact hbound bound hok
        · have hlawful := (hfails e he).lawful
          rwa [h₁.registry] at hlawful
      refine hmatch.bind fun w₂ hw₂ bindings hbindings => ?_
      have h₂ := has_later hw₂ h₁
      refine (Frame.Leads.log _).bind fun w₃ hw₃ _ _ => ?_
      have h₃ := has_later hw₃ h₂
      cases bindings with
      | none => exact ih h₃ (valid_later hw₃ (valid_later hw₂ hsubject₁)) hbranches
      | some bound =>
        have hvalid := (hbindings bound rfl).imp fun _ hv => valid_later hw₃ hv
        exact (leads_extend h₃ hvalid).bind fun w₄ _ inner hinner => hrecur hinner hbranch

/-- What a name means is `Valid`, and a quoted name that means nothing stands for a string that can
be written between quotes. -/
theorem keeps_var (h : w.Has R s) {name : String} (hatom : IsAtom name) (span : Option Span) :
    (unchecked R).Leads w (fun _ => step recur s (.var name span)) fun w' v => v.Valid w' := by
  have hfind : (unchecked R).Leads w (fun _ => Run.withScopes (·.get? s name)) fun w' found =>
      ∀ v, found = some v → v.Valid w' := by
    refine .withScopes fun m hm v hv => ?_
    obtain ⟨hvalid, rfl⟩ := hm
    exact hvalid.get? hv
  simp only [step]
  refine hfind.bind fun w' _ found hfound => ?_
  cases found with
  | some v => exact .pure (hfound v rfl)
  | none =>
    dsimp only
    split
    · next hquoted => exact .pure (.string (Text.isStringBody_unquoted hatom hquoted))
    · exact leads_fail (by simp [Cause.code]) span

/-- `step`, the rule for each form of expression, keeps values sound if evaluating the others
does. -/
theorem keeps_step (hrecur : Keeps R recur) : Keeps R (step recur) := by
  intro w s e d h he
  cases he with
  | var hatom _ => exact keeps_var h hatom _
  | number => exact .pure (.number (Int.natCast_nonneg _))
  | boolean b span => exact .pure (.boolean b)
  | @not operand span hoperand =>
    refine (hrecur h hoperand).bind fun _ _ v _ => ?_
    exact (leads_truth _ span v).bind fun _ _ b _ => .pure (.boolean !b)
  | @binary op left right span hop hleft hright =>
    refine (hrecur h hleft).bind fun w₁ hw₁ a ha => ?_
    refine (hrecur (has_later hw₁ h) hright).bind fun w₂ hw₂ b hb => ?_
    exact leads_binary hop (valid_later hw₂ ha) hb span
  | @cond condition thenBranch elseBranch span hcondition hthen helse =>
    refine (hrecur h hcondition).bind fun w₁ hw₁ v _ => ?_
    refine (leads_truth _ condition.span v).bind fun w₂ hw₂ b _ => ?_
    have h₂ := has_later hw₂ (has_later hw₁ h)
    cases b with
    | true => exact hrecur h₂ hthen
    | false => exact hrecur h₂ helse
  | lambda _ _ hbody => exact .pure (.closure hbody h.size)
  | @app head args span _ hhead hargs =>
    refine (hrecur h hhead).bind fun w₁ hw₁ f hf => ?_
    have h₁ := has_later hw₁ h
    refine (leads_mapM hrecur hargs h₁).bind fun w₂ hw₂ values hvalues => ?_
    exact leads_call hrecur (has_later hw₂ h₁).registry (valid_later hw₂ hf) hvalues head span
  | pair hfirst hsecond =>
    refine (hrecur h hfirst).bind fun w₁ hw₁ a ha => ?_
    refine (hrecur (has_later hw₁ h) hsecond).bind fun w₂ hw₂ b hb => ?_
    exact .pure (.pair (valid_later hw₂ ha) hb)
  | @fst operand span hoperand =>
    refine (hrecur h hoperand).bind fun w₁ _ v hv => ?_
    cases hv with
    | pair ha hb => exact .pure ha
    | _ => exact leads_fail (by simp [Cause.code]) span
  | @snd operand span hoperand =>
    refine (hrecur h hoperand).bind fun w₁ _ v hv => ?_
    cases hv with
    | pair ha hb => exact .pure hb
    | _ => exact leads_fail (by simp [Cause.code]) span
  | @construct name args span _ _ hargs =>
    refine (leads_mapM hrecur hargs h).bind fun w₁ hw₁ fields hfields => ?_
    exact leads_construct (has_later hw₁ h) name hfields span
  | @cases scrutinee patterns branches span hscrutinee hlength _ hbranches =>
    refine (hrecur h hscrutinee).bind fun w₁ hw₁ subject hsubject => ?_
    -- patterns and branches pair up, since the expression was read
    rw [if_neg (not_not.mpr hlength)]
    exact leads_select hrecur (has_later hw₁ h) hsubject span patterns hbranches

/-- The value of an expression that was read is sound, and `evaluate` stops for lawful reasons only,
however deep evaluations may nest. -/
theorem keeps_evaluate (R : Registry) (depth : ℕ) : Keeps R (evaluate depth) := by
  induction depth with
  | zero => exact fun _ _ => .stop (show Stop.Lawful R .tooDeep from trivial)
  | succ depth ih =>
    intro w s e d h he
    simp only [evaluate]
    refine (Frame.Leads.log _).bind fun w' hw' _ _ => ?_
    exact (keeps_step ih (has_later hw' h) he).located e.span

end Evaluator

/-! ### Executing -/

namespace Execute

open Unchecked

variable {R : Registry} {w : Extent}

theorem leads_evaluate (h : w.Has R 0) (depth : ℕ) {e : Expr} {d : Declared} (he : e.Readable d) :
    (unchecked R).free.Leads w (fun _ => evaluate depth 0 e) fun w' v => v.Valid w' ∧ w'.Has R 0 :=
  ((Evaluator.keeps_evaluate R depth h he).imp fun _ hw' _ hv => ⟨hv, has_later hw' h⟩).free

theorem leads_log {P : Extent → Prop} (h : P w) (event : Event) :
    (unchecked R).free.Leads w (fun _ => Run.log event) fun w' _ => P w' :=
  .of_ok fun m hm => ⟨⟨⟩, m.log event, w, rfl, le_refl w, hm, h⟩

/-- `Run.update` keeps the scopes sound or fails without a wrong count, if the update does. -/
theorem leads_update {f : Forest Value → Except LangError (Forest Value)} {P : Extent → Prop}
    (hok : ∀ scopes scopes', scopes.Valid → scopes.extent = w → f scopes = .ok scopes' →
      scopes'.Valid ∧ w ≤ scopes'.extent ∧ P scopes'.extent)
    (hfails : ∀ scopes, FailsOnly (fun e => e.cause.code ≠ "E330") (f scopes)) :
    (unchecked R).free.Leads w (fun _ => Run.update f) fun w' _ => P w' := by
  intro m hm
  obtain ⟨hvalid, hextent⟩ := hm
  cases hf : f m.scopes with
  | error e =>
    refine ⟨.error (.error e), m, w, ⟨0, fun _ _ => ?_⟩, le_refl w, ⟨hvalid, hextent⟩, ?_⟩
    · rw [Run.update, outcome_bind_of_ok (outcome_get m), hf]
      rfl
    · exact .of_code (hfails m.scopes e hf)
  | ok scopes =>
    obtain ⟨hvalid', hle, hP⟩ := hok m.scopes scopes hvalid hextent hf
    have hupdate := ProgramModel.outcome_update_of_ok hf
    exact ⟨_, _, scopes.extent, ⟨0, fun _ _ => hupdate⟩, hle, ⟨hvalid', rfl⟩, hP⟩

/-- `set` of a name of the root to a sound value. -/
theorem leads_set (hsize : 0 < w.size) (name : String) {v : Value} (hv : v.Valid w) :
    (unchecked R).free.Leads w (fun _ => Run.update (·.set 0 name v)) fun w' _ => w' = w := by
  refine leads_update (fun f f' hf hextent hset => ?_) fun f => ?_
  · rw [Forest.set] at hset
    split at hset
    · cases hset
    · cases hset
      obtain rfl := hextent
      obtain ⟨hvalid, hextent⟩ := hf.write hsize name hv
      exact ⟨hvalid, le_of_eq hextent.symm, hextent⟩
  · rw [Forest.set]
    split
    · exact .throw (by simp [Cause.code])
    · exact .ok _

/-- `update` of a name to another sound value, wherever it is bound. -/
theorem leads_assign (name : String) {v : Value} (hv : v.Valid w) :
    (unchecked R).free.Leads w (fun _ => Run.update (·.update 0 name v)) fun w' _ => w' = w := by
  refine leads_update (fun f f' hf hextent hupdate => ?_) fun f => ?_
  · rw [Forest.update] at hupdate
    split at hupdate
    · next owner howner =>
      cases hupdate
      obtain rfl := hextent
      have howner := hf.rooted.mem_path 0 owner (List.mem_of_find?_eq_some howner)
      obtain ⟨hvalid, hextent⟩ := hf.write howner name hv
      exact ⟨hvalid, le_of_eq hextent.symm, hextent⟩
    · cases hupdate
  · rw [Forest.update]
    split
    · exact .ok _
    · exact .throw (by simp [Cause.code])

/-- What `constructor?` finds after a declaration was known before or is one of the declared
ones. -/
theorem constructor?_after_declare {R' : Registry} {owner name : String}
    {constructors : List ConstructorDecl} {info : ConstructorInfo}
    (h : outcome (Registry.declare owner (constructors.map fun c => (c.name, c.fields))) R =
      (.ok (), R'))
    (hinfo : R'.constructor? name = some info) :
    R.constructor? name = some info ∨ ∃ c ∈ constructors, c.name = name := by
  rcases (Registry.constructor?_of_declare h).mp hinfo with hknown | ⟨fields, hmem, -⟩
  · exact .inl hknown
  · obtain ⟨c, hc, heq⟩ := List.mem_map.mp hmem
    exact .inr ⟨c, hc, congrArg Prod.fst heq⟩

/-- `Run.declare` of a data type at the root makes its constructors known and no others. -/
theorem leads_declare (h : w.Has R 0) (name : String) (constructors : List ConstructorDecl) :
    (unchecked R).free.Leads w
      (fun _ => Run.declare 0 name (constructors.map fun c => (c.name, c.fields)))
      fun w' _ => 0 < w'.size ∧ w'.AddsOnly R constructors ∧
        ∀ c ∈ constructors, w'.registry.constructor? c.name = some ⟨c.name, name, c.fields⟩ := by
  intro m hm
  obtain ⟨hvalid, rfl⟩ := hm
  obtain ⟨r, R', hR'⟩ : ∃ r R', outcome (Registry.declare name
      (constructors.map fun c => (c.name, c.fields))) (m.scopes.registry 0) = (r, R') :=
    ⟨_, _, rfl⟩
  have hscopes := hvalid.rooted.outcome_declare_eq.mpr ⟨R', hR', rfl⟩
  cases r with
  | error e =>
    obtain ⟨⟨clash, rfl⟩, -⟩ := Registry.declare_eq_error hR'
    have hsame := Forest.eq_of_declare_error hscopes
    refine ⟨_, _, m.scopes.extent, ⟨0, fun _ _ => Run.outcome_declare_of hscopes⟩, le_refl _,
      ⟨hsame.symm ▸ hvalid, congrArg Forest.extent hsame⟩, .of_code ?_⟩
    simp [Cause.code]
  | ok u =>
    have hle := Registry.le_of_declare hR'
    obtain ⟨hvalid', hextent⟩ := hvalid.withRegistry hle
    refine ⟨_, _, _, ⟨0, fun _ _ => Run.outcome_declare_of hscopes⟩, ?_, ⟨hvalid', rfl⟩, ?_⟩
    · rw [hextent]
      exact ⟨hle, Nat.le_refl _⟩
    · rw [hextent]
      refine ⟨h.size, fun c info hinfo => ?_, fun c hc => ?_⟩
      · have hadded := constructor?_after_declare hR' hinfo
        rwa [show m.scopes.registry 0 = R from h.registry] at hadded
      · exact Registry.constructor?_of_declare_of_mem hR' (List.mem_map_of_mem hc)

/-- `set` of the constructors of a data type, each as a function of its fields. -/
theorem leads_set_constructors {owner : String} (hsize : 0 < w.size) {cs : List ConstructorDecl}
    (hinfo : ∀ c ∈ cs, w.registry.constructor? c.name = some ⟨c.name, owner, c.fields⟩) :
    (unchecked R).free.Leads w (fun _ => cs.forM fun c =>
      Run.update (·.set 0 c.name (.constructor c.name c.fields.length))) fun w' _ => w' = w := by
  induction cs with
  | nil => exact .pure rfl
  | cons c cs ih =>
    obtain ⟨hc, hcs⟩ := List.forall_mem_cons.mp hinfo
    simp only [List.forM]
    refine (leads_set hsize c.name (.constructor hc)).bind fun w' _ _ hw' => ?_
    obtain rfl := hw'
    exact ih hcs

/-- The check `undeclared` fails without a wrong count. -/
theorem fails_undeclared (name : String) (constructors : List ConstructorDecl)
    (span : Option Span) (f : Forest Value) :
    FailsOnly (fun e => e.cause.code ≠ "E330") (undeclared 0 name constructors span f) := by
  rw [undeclared]
  split
  · exact .throw (by simp [Cause.code])
  · refine .forM fun c _ => ?_
    split
    · exact .throw (by simp [Cause.code])
    · exact .ok _

/-- `Execute.data` keeps the scopes sound, and adds its constructors only. -/
theorem leads_data (h : w.Has R 0) (name : String) (constructors : List ConstructorDecl)
    (span : Option Span) :
    (unchecked R).free.Leads w (fun _ => data 0 name constructors span)
      fun w' _ => w'.AddsOnly R constructors := by
  have hlook : (unchecked R).free.Leads w
      (fun _ => Run.withScopes (undeclared 0 name constructors span)) fun w' r =>
        FailsOnly (fun e => e.cause.code ≠ "E330") r ∧ w'.Has R 0 :=
    .withScopes fun m _ => ⟨fails_undeclared name constructors span m.scopes, h⟩
  simp only [data]
  refine hlook.bind fun w₁ _ r hr => ?_
  have hchecked : (unchecked R).free.Leads w₁ (fun _ => Run.ofExcept r) fun w' _ => w'.Has R 0 :=
    .ofExcept_fine (fun _ _ => hr.2) fun e he => .of_code (hr.1 e he)
  refine hchecked.bind fun w₂ _ _ h₂ => ?_
  refine (leads_declare h₂ name constructors).bind fun w₃ _ _ hdeclared => ?_
  obtain ⟨hsize, hadds, hinfo⟩ := hdeclared
  refine (leads_set_constructors hsize hinfo).bind fun w₄ _ _ hw₄ => ?_
  obtain rfl := hw₄
  exact leads_log hadds _

/-- Executing a statement that was read keeps the scopes sound and adds its `constructors` only, and
it stops for lawful reasons only. -/
theorem leads_stmt (h : w.Has R 0) (depth : ℕ) {s : Stmt} {d : Declared} (hs : s.Readable d) :
    (unchecked R).free.Leads w (fun _ => stmt depth 0 s) fun w' _ =>
      w'.AddsOnly R s.constructors := by
  simp only [stmt.eq_def]
  refine Frame.Leads.located ?_ s.span
  cases hs with
  | @define name value span _ hvalue =>
    refine (leads_log (P := (Extent.Has · R 0)) h _).bind fun w₁ _ _ h₁ => ?_
    refine (leads_evaluate h₁ depth hvalue).bind fun w₂ _ v hv => ?_
    obtain ⟨hv, h₂⟩ := hv
    refine (leads_set h₂.size name hv).imp fun w₃ _ _ hw₃ => ?_
    rw [hw₃]
    exact h₂.addsOnly _
  | @assign target value span htarget hvalue =>
    cases target with
    | var name nameSpan =>
      refine (leads_evaluate h depth hvalue).bind fun w₁ hw₁ v hv => ?_
      refine (leads_log (P := fun w' => v.Valid w' ∧ w'.Has R 0) hv _).bind fun w₂ _ _ hv₂ => ?_
      refine (leads_assign name hv₂.1).imp fun w₃ _ _ hw₃ => ?_
      rw [hw₃]
      exact hv₂.2.addsOnly _
    | _ => exact (leads_fail (by simp [Cause.code]) _).free
  | @print value span hvalue =>
    refine (leads_evaluate h depth hvalue).bind fun w₁ _ v hv => ?_
    refine (leads_log (P := (Extent.Has · R 0)) hv.2 _).bind fun w₂ _ _ h₂ => ?_
    exact .of_ok fun m hm => ⟨_, m.print v.display, w₂, rfl, le_refl w₂, hm, h₂.addsOnly _⟩
  | @data name constructors span _ _ _ => exact leads_data h name constructors span

end Execute

end Casewise

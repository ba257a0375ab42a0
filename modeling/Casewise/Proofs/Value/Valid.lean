import Casewise.Proofs.Pattern.Closed
import Casewise.Proofs.Reading.Strings
import Casewise.Proofs.Running.Programs

/-!
# Sound values

What is true of the values of a program whether it was checked or not: no number is negative, every
string can be written between quotes, what a constructor has built has the fields that the
constructor is declared with, and functions are made of what was read. What is taken from such
values, by a pattern or out of a scope, is such a value again, and so is what a built-in function
makes of them.

## Main definitions

* `Value.Valid`: sound values, beside given data types and scopes.
* `Value.parts`: everything in a value.
* `Forest.Valid`: scopes that hold sound values.

## Main statements

* `Value.Valid.closed`: patterns find sound values in sound values.
* `Forest.Valid.extend`, `Forest.Valid.write`, `Forest.Valid.withRegistry`: changes that keep scopes
  sound.
* `Builtin.works_apply`: built-in functions make sound values of sound values.
-/

namespace Casewise

/-! ### Sound values -/

/-- The declared data types and the number of scopes. -/
structure Extent where
  /-- The declared data types. -/
  registry : Registry
  /-- The number of scopes. -/
  size : ℕ

/-- `w ≤ w'` says that no constructor and no scope is lost. -/
instance : Preorder Extent where
  le w w' := w.registry ≤ w'.registry ∧ w.size ≤ w'.size
  le_refl w := ⟨w.registry.le_refl, Nat.le_refl w.size⟩
  le_trans _ _ _ h h' := ⟨Registry.le_trans h.1 h'.1, Nat.le_trans h.2 h'.2⟩

/-- What is true of the values of a program, whether it was checked or not. -/
inductive Value.Valid (w : Extent) : Value → Prop
  | number {n : Int} (h : 0 ≤ n) : Valid w (.number n)
  | boolean (b : Bool) : Valid w (.boolean b)
  /-- A string can be written between quotes. -/
  | string {text : String} (h : Text.IsStringBody text) : Valid w (.string text)
  /-- A closure has a body that was read, and a scope of its own. -/
  | closure {param : String} {body : Expr} {s : ScopeId} {d : Declared} (hbody : body.Readable d)
    (hs : s < w.size) : Valid w (.closure param body s)
  | builtin (b : Builtin) : Valid w (.builtin b)
  /-- A constructor takes as many fields as it is declared with. -/
  | constructor {name : String} {info : ConstructorInfo}
    (hinfo : w.registry.constructor? name = some info) : Valid w (.constructor name info.arity)
  | pair {a b : Value} (ha : Valid w a) (hb : Valid w b) : Valid w (.pair a b)
  /-- What a constructor has built has as many fields as it is declared with. -/
  | constructed {name : String} {info : ConstructorInfo} {fields : List Value}
    (hinfo : w.registry.constructor? name = some info) (hlength : fields.length = info.arity)
    (hfields : ∀ v ∈ fields, Valid w v) : Valid w (.constructed name fields)

namespace Value.Valid

variable {w w' : Extent} {v : Value}

theorem mono (hw : w ≤ w') (h : v.Valid w) : v.Valid w' := by
  induction h with
  | number h => exact .number h
  | boolean b => exact .boolean b
  | string h => exact .string h
  | closure hbody hs => exact .closure hbody (Nat.lt_of_lt_of_le hs hw.2)
  | builtin b => exact .builtin b
  | constructor hinfo => exact .constructor (hw.1 _ _ hinfo)
  | pair _ _ iha ihb => exact .pair iha ihb
  | constructed hinfo hlength _ ih => exact .constructed (hw.1 _ _ hinfo) hlength ih

theorem nonneg {n : Int} (h : (Value.number n).Valid w) : 0 ≤ n := by
  cases h with
  | number h => exact h

theorem isStringBody {text : String} (h : (Value.string text).Valid w) :
    Text.IsStringBody text := by
  cases h with
  | string h => exact h

/-- The values that are `Valid` are a closed kind: patterns find sound values in them, and as many
as they look for. -/
theorem closed (w : Extent) : Subject.Closed w.registry (Value.Valid w) where
  components {s a b} h hparts := by
    cases h with
    | pair ha hb =>
      cases hparts
      exact ⟨ha, hb⟩
    | _ => cases hparts
  fields {s name info fields} h hinfo hfields := by
    cases h with
    | @constructed name' info' fields' hinfo' hlength hvalid =>
      change (if name' = info.name then some fields' else none) = some fields at hfields
      split at hfields
      · next hname =>
        cases hfields
        -- both are declared under one name
        rw [Registry.name_of_constructor? hinfo] at hname
        rw [hname, hinfo] at hinfo'
        cases hinfo'
        exact ⟨hlength, hvalid⟩
      · cases hfields
    | _ => cases hfields

end Value.Valid

/-! ### What is in values -/

mutual

/-- The value and all values in it. -/
def Value.parts : Value → List Value
  | .pair first second => .pair first second :: (parts first ++ parts second)
  | .constructed name fields => .constructed name fields :: partsAll fields
  | v => [v]

/-- The values and all values in them. -/
def Value.partsAll : List Value → List Value
  | [] => []
  | v :: vs => parts v ++ partsAll vs

end

theorem Value.mem_partsAll {vs : List Value} {u : Value} :
    u ∈ partsAll vs ↔ ∃ v ∈ vs, u ∈ v.parts := by
  induction vs with
  | nil => simp [partsAll]
  | cons v vs ih => simp [partsAll, ih]

/-- `Valid` passes to `parts`. -/
theorem Value.Valid.of_mem_parts {w : Extent} {v : Value} (h : v.Valid w) :
    ∀ u ∈ v.parts, u.Valid w := by
  intro u hu
  induction v using Value.induction with
  | pair a b iha ihb =>
    rw [Value.parts, List.mem_cons, List.mem_append] at hu
    rcases hu with rfl | hu
    · exact h
    · cases h with
      | pair ha hb => exact hu.elim (iha ha) (ihb hb)
  | constructed name fields ih =>
    rw [Value.parts, List.mem_cons, Value.mem_partsAll] at hu
    rcases hu with rfl | ⟨v, hv, hu⟩
    · exact h
    · cases h with
      | constructed hinfo hlength hfields => exact ih v hv (hfields v hv) hu
  | _ =>
    obtain rfl := List.mem_singleton.mp hu
    exact h

/-! ### Sound scopes -/

namespace Forest

/-- The data types that the root knows, and the number of scopes. -/
def extent (f : Forest Value) : Extent :=
  ⟨f.registry 0, f.scopes.size⟩

/-- The scopes stand in one tree and bind names to sound values only. -/
structure Valid (f : Forest Value) : Prop where
  /-- All scopes stand in one tree. -/
  rooted : f.Rooted
  /-- The names of a scope are bound to sound values. -/
  bindings : ∀ s, (f.bindings s).All (Value.Valid f.extent)

namespace Valid

variable {f : Forest Value}

theorem get? (h : f.Valid) {s : ScopeId} {name : String} {v : Value}
    (hget : f.get? s name = some v) : v.Valid f.extent := by
  obtain ⟨t, -, ht⟩ := List.exists_of_findSome?_eq_some hget
  exact h.bindings t name v ht

/-- A new scope with sound values keeps the scopes `Valid`. -/
theorem extend (h : f.Valid) {s : ScopeId} (hs : s < f.scopes.size) {bound : Table Value}
    (hbound : bound.All (Value.Valid f.extent)) :
    (f.extend s bound).2.Valid ∧
      (f.extend s bound).2.extent = ⟨f.registry 0, f.scopes.size + 1⟩ := by
  have hregistry := registry_extend_of_ne f s 0 bound (Nat.ne_of_lt h.rooted.size_pos)
  have hextent : (f.extend s bound).2.extent = ⟨f.registry 0, f.scopes.size + 1⟩ := by
    rw [extent, hregistry, Forest.extend, Array.size_push]
  have hle : f.extent ≤ (f.extend s bound).2.extent := by
    rw [hextent]
    exact ⟨Registry.le_refl _, Nat.le_succ _⟩
  refine ⟨⟨h.rooted.extend hs bound, fun t => ?_⟩, hextent⟩
  by_cases hnew : t = f.scopes.size
  · rw [hnew, bindings_extend_self]
    exact hbound.imp fun _ hv => hv.mono hle
  · rw [bindings_extend_of_ne f s t bound hnew]
    exact (h.bindings t).imp fun _ hv => hv.mono hle

/-- Binding a name to a sound value keeps the scopes `Valid`. -/
theorem write (h : f.Valid) {s : ScopeId} (hs : s < f.scopes.size) (name : String) {v : Value}
    (hv : v.Valid f.extent) :
    (f.write s name v).Valid ∧ (f.write s name v).extent = f.extent := by
  have hextent : (f.write s name v).extent = f.extent := by
    rw [extent, extent, registry_write, size_write]
  refine ⟨⟨h.rooted.write s name v, fun t => ?_⟩, hextent⟩
  rw [hextent, bindings_write f s t name v hs]
  split
  · exact (h.bindings s).insert hv name
  · exact h.bindings t

/-- Further data types keep the scopes `Valid`. -/
theorem withRegistry (h : f.Valid) {R : Registry} (hR : f.registry 0 ≤ R) :
    (f.withRegistry R).Valid ∧ (f.withRegistry R).extent = ⟨R, f.scopes.size⟩ := by
  have hextent : (f.withRegistry R).extent = ⟨R, f.scopes.size⟩ := by
    rw [extent, h.rooted.registry_withRegistry]
    rfl
  have hle : f.extent ≤ (f.withRegistry R).extent := by
    rw [hextent]
    exact ⟨hR, Nat.le_refl _⟩
  exact ⟨⟨h.rooted.withRegistry R, fun t => (h.bindings t).imp fun _ hv => hv.mono hle⟩, hextent⟩

/-- The scopes of `Machine.initial` are sound. -/
theorem initial (builtins recording : Bool) :
    (Machine.initial builtins recording).scopes.Valid where
  rooted := .newRoot _
  bindings s name v hget := by
    cases s with
    | zero =>
      have halike : Table.Alike
          (fun _ v => v.Valid (Machine.initial builtins recording).scopes.extent)
          (if builtins then Builtin.types else ∅) (if builtins then Builtin.values else ∅) :=
        Builtin.alike_start (fun b => .builtin b) builtins
      have hrel := halike.get?_rel name
      change (if builtins then Builtin.values else ∅).get? name = some v at hget
      rw [hget] at hrel
      generalize Table.get? _ name = ty at hrel
      cases hrel with
      | some hv => exact hv
    | succ s => cases hget

end Valid

end Forest

/-! ### Built-in functions -/

namespace Builtin

variable {α : Type} {w : Extent} {b : Builtin}

/-- The result, if there is one, is as it should be; otherwise some value is of the wrong kind. -/
structure Works (Q : α → Prop) (r : Except LangError α) : Prop where
  /-- A result is as it should be. -/
  ok : ∀ a, r = .ok a → Q a
  /-- The only error is a value of the wrong kind. -/
  fails : FailsOnly (fun e => ∃ text, e.cause = .typeMismatch text) r

theorem Works.pure {Q : α → Prop} {a : α} (h : Q a) : Works Q (.ok a) where
  ok a' ha := by
    cases ha
    exact h
  fails := .ok a

theorem Works.throw {Q : α → Prop} (text : String) :
    Works Q (throw { cause := .typeMismatch text } : Except LangError α) where
  ok a h := by cases h
  fails := .throw ⟨text, rfl⟩

theorem Works.bind {β : Type} {P : β → Prop} {Q : α → Prop} {r : Except LangError β}
    {f : β → Except LangError α} (hr : Works P r) (hf : ∀ b, P b → Works Q (f b)) :
    Works Q (r >>= f) where
  ok a h := by
    obtain ⟨b, hb, ha⟩ := bind_eq_ok.mp h
    exact (hf b (hr.ok b hb)).ok a ha
  fails := hr.fails.bind fun b hb => (hf b (hr.ok b hb)).fails

theorem works_number (v : Value) : Works (fun n => v.Valid w → 0 ≤ n) (b.number v) := by
  cases v with
  | number n => exact .pure fun hv => hv.nonneg
  | _ => exact .throw _

/-- A string that is a `Valid` argument can be written between quotes. -/
theorem works_string (v : Value) :
    Works (fun text => v.Valid w → Text.IsStringBody text) (b.string v) := by
  cases v with
  | string text => exact .pure fun hv => hv.isStringBody
  | _ => exact .throw _

variable {P : α → Prop} {arg : Value → Except LangError α} {args : List Value}

/-- `onTwo`, a function of two arguments, works if what it asks of each argument does. -/
theorem works_onTwo {f : α → α → Value}
    (harg : ∀ v : Value, Works (fun x => v.Valid w → P x) (arg v))
    (hf : ∀ x y, P x → P y → (f x y).Valid w) (hlength : args.length = 2) :
    Works (fun v => (∀ a ∈ args, a.Valid w) → v.Valid w) (b.onTwo arg f args) := by
  obtain ⟨v, v', rfl⟩ := List.length_eq_two.mp hlength
  refine (harg v).bind fun x hx => (harg v').bind fun y hy => .pure fun hargs => ?_
  have hv := hargs v (by simp)
  have hv' := hargs v' (by simp)
  exact hf x y (hx hv) (hy hv')

/-- `onOne`, a function of one argument, works if what it asks of the argument does. -/
theorem works_onOne {f : α → Value} (harg : ∀ v : Value, Works (fun x => v.Valid w → P x) (arg v))
    (hf : ∀ x, P x → (f x).Valid w) (hlength : args.length = 1) :
    Works (fun v => (∀ a ∈ args, a.Valid w) → v.Valid w) (b.onOne arg f args) := by
  obtain ⟨v, rfl⟩ := List.length_eq_one_iff.mp hlength
  exact (harg v).bind fun x hx => .pure fun hargs => hf x (hx (hargs v (by simp)))

/-- `Builtin.apply` of as many arguments as the function takes complains about their kinds at most,
and makes sound values of sound values. -/
theorem works_apply (hlength : args.length = b.arity) :
    Works (fun v => (∀ a ∈ args, a.Valid w) → v.Valid w) (b.apply args) := by
  cases b with
  | sub => exact works_onTwo works_number (fun m n _ _ => .number (Int.le_max_right _ _)) hlength
  | mul => exact works_onTwo works_number (fun m n hm hn => .number (Int.mul_nonneg hm hn)) hlength
  | lt => exact works_onTwo works_number (fun m n _ _ => .boolean _) hlength
  | le => exact works_onTwo works_number (fun m n _ _ => .boolean _) hlength
  | natEq => exact works_onTwo works_number (fun m n _ _ => .boolean _) hlength
  | strEq => exact works_onTwo works_string (fun s t _ _ => .boolean _) hlength
  | concat => exact works_onTwo works_string (fun s t hs ht => .string (hs.append ht)) hlength
  | «show» =>
    refine works_onOne works_number (fun n hn => .string ?_) hlength
    obtain ⟨k, rfl⟩ := Int.eq_ofNat_of_zero_le hn
    exact Text.isStringBody_toString k

/-- `call` of a built-in function checks the number of arguments first. -/
theorem call_eq (b : Builtin) (args : List Value) :
    b.call (some b.arity) args =
      if args.length = b.arity then b.apply args
      else throw { cause := .arityMismatch ("'" ++ b.name ++ "'") b.arity args.length } := by
  rw [call]
  change (checkCount ("'" ++ b.name ++ "'") b.arity args >>= fun _ => b.apply args) = _
  by_cases h : args.length = b.arity
  · rw [if_pos h, checkCount, if_pos (Int.ofNat_inj.mpr h)]
    rfl
  · rw [if_neg h, checkCount, if_neg fun heq => h (Int.ofNat_inj.mp heq)]
    rfl

end Builtin

end Casewise

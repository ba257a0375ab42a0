import Casewise.Proofs.Running.Leads
import Casewise.Proofs.Value.Valid
import Casewise.Proofs.Writing.Expressions
import Casewise.Proofs.Writing.Sexps

/-!
# Values that are displayed

A value that holds no function is displayed as a text that is a form, and the form tells the value.
The text reads as an expression, too: numbers, truth values and pairs are written as in a program,
what a constructor has built is written as an application of the constructor, and a string is a
quoted name. As long as the constructors are declared and no quoted name means anything, the value
of this expression is the value that was displayed.

## Main definitions

* `Value.IsData`, `Value.Data`: values that hold no function.
* `Value.KeepsLimit`: values that hold no number with more digits than reading allows.
* `Value.form`: the form that a value is displayed as.
* `Form.value`: the value that is displayed as a form.
* `Recall`: when values can be read back.

## Main statements

* `Value.Data.value_form`: the form of a value tells the value.
* `Value.Data.eq_of_display`: the text of a value tells the value.
* `Value.Data.recalls_display`: the text of a value reads as an expression that has this value.
-/

namespace Casewise

/-! ### Forms of values -/

namespace Value

/-- There is no function in the value. -/
def IsData (v : Value) : Prop :=
  ∀ u ∈ v.parts, u.isFunction = false

theorem isData_pair {a b : Value} : (pair a b).IsData ↔ a.IsData ∧ b.IsData := by
  simp [IsData, parts, isFunction, or_imp, forall_and]

/-- `IsData` holds of what a constructor has built if it does of its fields. -/
theorem isData_constructed {name : String} {fields : List Value} :
    (constructed name fields).IsData ↔ ∀ v ∈ fields, v.IsData := by
  simp only [IsData, parts, List.forall_mem_cons, mem_partsAll]
  constructor
  · rintro ⟨-, h⟩ v hv u hu
    exact h u ⟨v, hv, hu⟩
  · intro h
    refine ⟨rfl, ?_⟩
    rintro u ⟨v, hv, hu⟩
    exact h v hv u hu

/-- Whether the value is a number that is displayed with too many digits to be read. -/
def isOverlong (d : Declared) : Value → Bool
  | number n => (d.exceeded? (number n).display).isSome
  | _ => false

/-- No number in the value is displayed with too many digits to be read. -/
def KeepsLimit (d : Declared) (v : Value) : Prop :=
  ∀ u ∈ v.parts, u.isOverlong d = false

theorem keepsLimit_number {d : Declared} {n : Int} :
    (number n).KeepsLimit d ↔ d.exceeded? (number n).display = none := by
  simp [KeepsLimit, parts, isOverlong]

theorem keepsLimit_pair {d : Declared} {a b : Value} :
    (pair a b).KeepsLimit d ↔ a.KeepsLimit d ∧ b.KeepsLimit d := by
  simp [KeepsLimit, parts, isOverlong, or_imp, forall_and]

theorem keepsLimit_constructed {d : Declared} {name : String} {fields : List Value} :
    (constructed name fields).KeepsLimit d ↔ ∀ v ∈ fields, v.KeepsLimit d := by
  simp only [KeepsLimit, parts, List.forall_mem_cons, mem_partsAll]
  constructor
  · rintro ⟨-, h⟩ v hv u hu
    exact h u ⟨v, hv, hu⟩
  · intro h
    refine ⟨rfl, ?_⟩
    rintro u ⟨v, hv, hu⟩
    exact h v hv u hu

/-- Sound values that hold no function, beside given data types. -/
inductive Data (R : Registry) : Value → Prop
  | number {n : Int} (h : 0 ≤ n) : Data R (number n)
  | boolean (b : Bool) : Data R (boolean b)
  /-- A string can be written between quotes. -/
  | string {text : String} (h : Text.IsStringBody text) : Data R (string text)
  | pair {a b : Value} (ha : Data R a) (hb : Data R b) : Data R (pair a b)
  /-- What a constructor has built has as many fields as it is declared with. -/
  | constructed {name : String} {info : ConstructorInfo} {fields : List Value}
    (hinfo : R.constructor? name = some info) (hlength : fields.length = info.arity)
    (hfields : ∀ v ∈ fields, Data R v) : Data R (constructed name fields)

/-- A `Valid` value without functions is `Value.Data`. -/
theorem Valid.data {w : Extent} {v : Value} (h : v.Valid w) (hdata : v.IsData) :
    v.Data w.registry := by
  induction h with
  | number h => exact .number h
  | boolean b => exact .boolean b
  | string h => exact .string h
  | pair _ _ iha ihb =>
    obtain ⟨ha, hb⟩ := isData_pair.mp hdata
    exact .pair (iha ha) (ihb hb)
  | constructed hinfo hlength _ ih =>
    have hfields := isData_constructed.mp hdata
    exact .constructed hinfo hlength fun v hv => ih v hv (hfields v hv)
  | _ => cases hdata _ (List.mem_singleton_self _)

mutual

/-- The form that a value is displayed as. A function has none, and what it is displayed as stands
in its place. -/
def form : Value → Form
  | boolean value => .atom (if value then "true" else "false")
  | pair first second => .list [.atom "pair", form first, form second]
  | constructed name fields => .list (.atom name :: forms fields)
  | v => .atom v.display

/-- The forms that values are displayed as. -/
def forms : List Value → List Form
  | [] => []
  | v :: vs => form v :: forms vs

end

@[simp]
theorem forms_eq_map (vs : List Value) : forms vs = vs.map form := by
  induction vs with
  | nil => rfl
  | cons v vs ih => rw [forms, ih, List.map_cons]

theorem displays_eq_map (vs : List Value) : displays vs = vs.map display := by
  induction vs with
  | nil => rfl
  | cons v vs ih => rw [displays, ih, List.map_cons]

/-- What a name in front of values builds. -/
def ofParts (name : String) : List Value → Value
  | [a, b] => if name = "pair" then pair a b else constructed name [a, b]
  | vs => constructed name vs

end Value

mutual

/-- The value that is displayed as a form, for forms that display values. -/
def Form.value : Form → Value
  | .atom text =>
    if text = "true" then .boolean true
    else if text = "false" then .boolean false
    else
      match Text.decimal? text with
      | some n => .number n
      | none => .string (Text.unquoted text)
  | .list (.atom name :: fs) => .ofParts name (values fs)
  | .list _ => .boolean false

/-- The values that are displayed as forms. -/
def Form.values : List Form → List Value
  | [] => []
  | f :: fs => value f :: values fs

end

@[simp]
theorem Form.values_eq_map (fs : List Form) : Form.values fs = fs.map Form.value := by
  induction fs with
  | nil => rfl
  | cons f fs ih => rw [Form.values, ih, List.map_cons]

/-! ### Writing values -/

namespace Value.Data

variable {R : Registry} {v : Value}

/-- `display` of a value without functions `Writes` its form. -/
theorem writes (hatoms : ∀ name info, R.constructor? name = some info → IsAtom name)
    (h : v.Data R) : Writes v.display v.form := by
  induction h with
  | number hn =>
    obtain ⟨k, rfl⟩ := Int.eq_ofNat_of_zero_le hn
    exact .atom (isAtom_toString k)
  | boolean b => exact .truth b
  | string htext => exact .atom (Text.isStringBody_iff.mp htext)
  | pair _ _ iha ihb =>
    exact .list (.cons (.word "pair" (by decide)) (.cons iha (.cons ihb .nil)))
  | @constructed name info fields hinfo _ _ ih =>
    rw [display, form, displays_eq_map, forms_eq_map]
    exact .list (.cons (.atom (hatoms name info hinfo)) (writes_map ih))

/-- `Form.value` tells the value from its form, unless a constructor is named like a pair. -/
theorem value_form (hnames : R.constructor? "pair" = none) (h : v.Data R) : v.form.value = v := by
  induction h with
  | @number n hn =>
    obtain ⟨k, rfl⟩ := Int.eq_ofNat_of_zero_le hn
    have htrue : toString k ≠ "true" := ne_toString_of_decimal? rfl k
    have hfalse : toString k ≠ "false" := ne_toString_of_decimal? rfl k
    change (Form.atom (toString k)).value = _
    rw [Form.value, if_neg htrue, if_neg hfalse, Text.decimal?_toString]
  | boolean b => cases b <;> rfl
  | @string text htext =>
    have hquoted := Text.isQuoted_quoted text
    have htrue : "\"" ++ text ++ "\"" ≠ "true" := Text.ne_of_isQuoted hquoted rfl
    have hfalse : "\"" ++ text ++ "\"" ≠ "false" := Text.ne_of_isQuoted hquoted rfl
    have hdecimal := Text.decimal?_of_isQuoted hquoted
    change (Form.atom ("\"" ++ text ++ "\"")).value = _
    rw [Form.value, if_neg htrue, if_neg hfalse, hdecimal]
    exact congrArg Value.string (Text.unquoted_quoted text)
  | pair _ _ iha ihb =>
    rw [form, Form.value, Form.values_eq_map, List.map_cons, List.map_cons, iha, ihb]
    rfl
  | @constructed name info fields hinfo _ _ ih =>
    have hvalues : (fields.map form).map Form.value = fields := by
      rw [List.map_map]
      exact (List.map_congr_left ih).trans (List.map_id fields)
    have hname : name ≠ "pair" := by
      rintro rfl
      rw [hnames] at hinfo
      cases hinfo
    rw [form, forms_eq_map, Form.value, Form.values_eq_map, hvalues, ofParts.eq_def]
    split
    · rw [if_neg hname]
    · rfl

end Value.Data

/-! ### Reading values back -/

/-- A name that `isQuoted` and is no constructor without fields reads as a name. -/
theorem Expr.ofAtom_of_isQuoted {d : Declared} {name : String} (h : Text.isQuoted name = true)
    (hnullary : d.isNullary name = false) (span : Option Span) :
    Expr.ofAtom d name span = .var name span := by
  have htrue : name ≠ "true" := Text.ne_of_isQuoted h rfl
  have hfalse : name ≠ "false" := Text.ne_of_isQuoted h rfl
  rw [Expr.ofAtom, if_neg htrue, if_neg hfalse, Text.decimal?_of_isQuoted h, hnullary]
  rfl

/-- A text that `Writes` a form is read as the expression that the form reads as. -/
theorem Writes.outcome_read {text : String} {f : Form} (h : Writes text f) (file : String)
    (d : Declared) : ∃ e : Sexp, e.form = f ∧
      ∀ x, Expr.ofSexp d e = .ok x → outcome (Expr.read file text) d = (.ok x, d) := by
  obtain ⟨e, hread, he⟩ := h.readOne file
  refine ⟨e, he, fun x hx => ?_⟩
  rw [Expr.read, outcome_withDeclared_bind_eq_ok]
  exact ⟨e, mapError_eq_ok.mpr hread, Prod.ext hx rfl⟩

/-- Values without functions whose `display` is the same text are equal. -/
theorem Value.Data.eq_of_display {R R' : Registry} {v v' : Value} (h : v.Data R) (h' : v'.Data R')
    (hatoms : ∀ name info, R.constructor? name = some info → IsAtom name)
    (hatoms' : ∀ name info, R'.constructor? name = some info → IsAtom name)
    (hpair : R.constructor? "pair" = none) (hpair' : R'.constructor? "pair" = none)
    (hdisplay : v.display = v'.display) : v = v' := by
  have hforms : v.form = v'.form := by
    have hwrites := h.writes hatoms
    rw [hdisplay] at hwrites
    exact hwrites.form_unique (h'.writes hatoms')
  calc v = v.form.value := (h.value_form hpair).symm
    _ = v'.form.value := congrArg Form.value hforms
    _ = v' := h'.value_form hpair'

/-- Machines with the given scopes, of which nothing is changed and which never stop. -/
def Frame.still (f : Forest Value) : Frame Extent where
  Holds _ m := m.scopes = f
  Reaches w w' := w' = w
  Harmless _ := False
  reaches_refl _ := rfl
  reaches_trans h h' := h'.trans h
  le_of_reaches h := le_of_eq h.symm
  holds_of_scopes_eq h hscopes := hscopes.trans h
  harmless_placedAt := id

theorem Frame.Leads.bind_eq {f : Forest Value} {α β : Type} {x : ℕ → Run α} {g : ℕ → α → Run β}
    {a : α} {b : β} (hx : (Frame.still f).Leads f.extent x fun _ u => u = a)
    (hg : (Frame.still f).Leads f.extent (fun n => g n a) fun _ u => u = b) :
    (Frame.still f).Leads f.extent (fun n => x n >>= g n) fun _ u => u = b := by
  refine hx.bind fun w hw u hu => ?_
  obtain rfl : w = f.extent := hw
  rw [hu]
  exact hg

/-- If evaluations may nest deep enough, the expression has the value at the root of the scopes. -/
def Expr.Recalls (f : Forest Value) (x : Expr) (v : Value) : Prop :=
  (Frame.still f).Leads f.extent (fun n => evaluate n 0 x) fun _ u => u = v

namespace Expr.Recalls

variable {f : Forest Value} {x : Expr} {v : Value}

/-- An expression `Recalls` the value that the rule for it gives. -/
theorem of_step
    (h : (Frame.still f).Leads f.extent (fun n => Evaluator.step (evaluate n) 0 x)
      fun _ u => u = v) :
    x.Recalls f v := by
  refine Frame.Leads.of_succ ?_
  simp only [evaluate]
  have hlog : (Frame.still f).Leads f.extent (fun _ => Run.log (.evaluating x)) fun _ u => u = () :=
    (Frame.Leads.log _).imp fun _ _ _ _ => rfl
  exact hlog.bind_eq (h.located x.span)

/-- An expression that `Recalls` a value has it on every machine with the scopes. -/
theorem exists_depth (h : x.Recalls f v) {m : Machine} (hm : m.scopes = f) :
    ∃ n, ∀ depth ≥ n, (outcome (evaluate depth Machine.root x) m).1 = .ok v := by
  obtain ⟨r, m', w, ⟨n, hn⟩, -, -, hr⟩ := h m hm
  refine ⟨n, fun depth hdepth => ?_⟩
  have hout := congrArg Prod.fst (hn depth hdepth)
  cases r with
  | error stop => exact absurd hr id
  | ok u =>
    rw [show u = v from hr] at hout
    exact hout

theorem mapM {xs : List Expr} {vs : List Value} (h : List.Forall₂ (Expr.Recalls f) xs vs) :
    (Frame.still f).Leads f.extent (fun n => xs.mapM (evaluate n 0)) fun _ us => us = vs := by
  have hall : (Frame.still f).Leads f.extent (fun n => xs.mapM (evaluate n 0)) fun _ us =>
      List.Forall₂ Eq us vs :=
    .mapM (fun _ hu => hu) (h.imp fun x v hx w hw => hw ▸ hx)
  refine hall.imp fun _ _ us hus => ?_
  rwa [List.forall₂_eq_eq_eq] at hus

end Expr.Recalls

/-- `construct` of fields that recall values `Recalls` what is built of these. -/
theorem Expr.Recalls.construct {f : Forest Value} {name : String} {info : ConstructorInfo}
    (hinfo : (f.registry 0).constructor? name = some info) {xs : List Expr} {fields : List Value}
    (hlength : fields.length = info.arity) (hxs : List.Forall₂ (Expr.Recalls f) xs fields)
    (span : Option Span) : (Expr.construct name xs span).Recalls f (.constructed name fields) := by
  have hregistry : (Frame.still f).Leads f.extent (fun _ => Run.withScopes (·.registry 0))
      fun _ found => found = f.registry 0 :=
    .withScopes fun m hm => congrArg (Forest.registry · 0) hm
  refine .of_step ?_
  refine (Expr.Recalls.mapM hxs).bind_eq (hregistry.bind_eq ?_)
  rw [hinfo]
  simp only [hlength, ne_eq, not_true_eq_false, if_false]
  exact .pure rfl

theorem Expr.Recalls.pair {f : Forest Value} {x y : Expr} {a b : Value} (hx : x.Recalls f a)
    (hy : y.Recalls f b) (span : Option Span) : (Expr.pair x y span).Recalls f (.pair a b) :=
  .of_step (hx.bind_eq (hy.bind_eq (.pure rfl)))

/-- A quoted name that the root does not bind `Recalls` the string that stands between its
quotes. -/
theorem Expr.Recalls.quoted {f : Forest Value} (hf : f.Rooted) {name : String}
    (hquoted : Text.isQuoted name = true) (hname : (f.bindings 0).get? name = none)
    (span : Option Span) : (Expr.var name span).Recalls f (.string (Text.unquoted name)) := by
  have hfind : (Frame.still f).Leads f.extent (fun _ => Run.withScopes (·.get? 0 name))
      fun _ found => found = none := by
    refine .withScopes fun m hm => ?_
    have hm : m.scopes = f := hm
    rw [hm, hf.get?_root, hname]
  refine .of_step ?_
  simp only [Evaluator.step]
  refine hfind.bind_eq ?_
  simp only [hquoted, if_true]
  exact .pure rfl

/-- The declarations and the scopes let values be read back: names that stand for values mean what
they should, and quoted names mean nothing. -/
structure Recall (d : Declared) (f : Forest Value) : Prop where
  /-- All scopes stand in one tree. -/
  rooted : f.Rooted
  /-- A constructor is an atom. -/
  isAtom : ∀ name info, (f.registry 0).constructor? name = some info → IsAtom name
  /-- A constructor in front of its fields is read as what it builds. -/
  head : ∀ name info, (f.registry 0).constructor? name = some info →
    ∀ span, Head.of d (.atom name span) = .construct name
  /-- No quoted name is a constructor without fields. -/
  isNullary : ∀ name, Text.isQuoted name = true → d.isNullary name = false
  /-- No quoted name is bound at the root. -/
  bindings : ∀ name, Text.isQuoted name = true → (f.bindings 0).get? name = none

/-- A quoted name `Recalls` the string that stands between its quotes. -/
theorem Recall.recalls_string {d : Declared} {f : Forest Value} (h : Recall d f) (text : String)
    (span : Option Span) :
    (Expr.var ("\"" ++ text ++ "\"") span).Recalls f (.string text) := by
  have hquoted := Text.isQuoted_quoted text
  have hrecalls := Expr.Recalls.quoted h.rooted hquoted (h.bindings _ hquoted) span
  rwa [Text.unquoted_quoted] at hrecalls

namespace Value.Data

variable {d : Declared} {f : Forest Value} {v : Value}

/-- The form of a value without functions reads as an expression that `Recalls` this value, unless a
number in it has too many digits. -/
theorem recalls (h : Recall d f) (hv : v.Data (f.registry 0)) (hlimit : v.KeepsLimit d) {e : Sexp}
    (he : e.form = v.form) : ∃ x, Expr.ofSexp d e = .ok x ∧ x.Recalls f v := by
  induction hv generalizing e with
  | @number n hn =>
    obtain ⟨k, rfl⟩ := Int.eq_ofNat_of_zero_le hn
    obtain ⟨span, rfl⟩ := Sexp.form_eq_atom.mp (he : _ = Form.atom (toString k))
    have hread := Expr.ofAtom_toString d k (some span)
    exact ⟨_, Declared.converted_eq_ok.mpr ⟨keepsLimit_number.mp hlimit, hread⟩,
      .of_step (.pure rfl)⟩
  | boolean b =>
    obtain ⟨span, rfl⟩ := Sexp.form_eq_atom.mp he
    have hread := Expr.ofAtom_truth d b (some span)
    exact ⟨_, Declared.converted_eq_ok.mpr ⟨Declared.exceeded?_truth b, hread⟩,
      .of_step (.pure rfl)⟩
  | @string text htext =>
    obtain ⟨span, rfl⟩ := Sexp.form_eq_atom.mp (he : _ = Form.atom ("\"" ++ text ++ "\""))
    have hquoted := Text.isQuoted_quoted text
    have hread := Expr.ofAtom_of_isQuoted hquoted (h.isNullary _ hquoted) (some span)
    have hdigits : d.exceeded? ("\"" ++ text ++ "\"") = none :=
      Declared.exceeded?_of_decimal?_eq_none (Text.decimal?_of_isQuoted hquoted)
    exact ⟨_, Declared.converted_eq_ok.mpr ⟨hdigits, hread⟩, h.recalls_string text _⟩
  | @pair a b _ _ iha ihb =>
    obtain ⟨headSpan, es, span, rfl, hes⟩ := Sexp.form_eq_headed.mp he
    obtain ⟨first, es, rfl, hfirst, hes⟩ := List.map_eq_cons_iff.mp hes
    obtain ⟨second, es, rfl, hsecond, hes⟩ := List.map_eq_cons_iff.mp hes
    obtain rfl := List.map_eq_nil_iff.mp hes
    obtain ⟨hlimita, hlimitb⟩ := keepsLimit_pair.mp hlimit
    obtain ⟨x, hx, hxa⟩ := iha hlimita hfirst
    obtain ⟨y, hy, hyb⟩ := ihb hlimitb hsecond
    refine ⟨.pair x y span, ?_, hxa.pair hyb span⟩
    rw [Expr.ofSexp_pair, hx, hy]
    rfl
  | @constructed name info fields hinfo hlength _ ih =>
    rw [form, forms_eq_map] at he
    obtain ⟨headSpan, es, span, rfl, hes⟩ := Sexp.form_eq_headed.mp he
    have hall : (∃ xs, List.Forall₂ (fun e x => Expr.ofSexp d e = .ok x) es xs ∧
        List.Forall₂ (Expr.Recalls f) xs fields) ↔ ∀ v ∈ fields, True :=
      exists_forall₂_iff hes fun v hv e he =>
        iff_true_intro (ih v hv (keepsLimit_constructed.mp hlimit v hv) he)
    obtain ⟨xs, hread, hxs⟩ := hall.mpr fun _ _ => trivial
    refine ⟨.construct name xs span, ?_, Expr.Recalls.construct hinfo hlength hxs span⟩
    rw [Expr.ofSexp_of_construct (h.head name info hinfo headSpan), Expr.ofSexps_eq_ok.mpr hread]
    rfl

/-- What `display` writes of a value without functions is read as an expression that has this value,
unless a number in it has too many digits. -/
theorem recalls_display (h : Recall d f) (hv : v.Data (f.registry 0)) (hlimit : v.KeepsLimit d)
    (file : String) :
    ∃ x, outcome (Expr.read file v.display) d = (.ok x, d) ∧ x.Recalls f v := by
  obtain ⟨e, he, hread⟩ := (hv.writes h.isAtom).outcome_read file d
  obtain ⟨x, hx, hrecalls⟩ := hv.recalls h hlimit he
  exact ⟨x, hread x hx, hrecalls⟩

end Value.Data

end Casewise

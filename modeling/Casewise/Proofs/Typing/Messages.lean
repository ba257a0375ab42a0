import Casewise.Proofs.Ty.Names
import Casewise.Proofs.Typing.Dangling

/-!
# Messages about types

When a type stands where another one is expected, the message names both. Types that the checker
tells apart have different names, as long as the data types have names of their own: so the message
never names the same type twice. Well-named types are a closed kind, so this holds of every message
about a program whose data types are not named as built-in types are.

## Main definitions

* `Cause.TellsApart`: complaints that do not name the same type as expected and as found.

## Main statements

* `Ty.closedKind_wellNamed`: the well-named types are a closed kind.
* `Cause.OfChecking.tellsApart`: what checking complains about has different names.
* `Ty.names_separate_types`: names tell types apart as far as the checker does, and so do messages.
-/

namespace Casewise

/-! ### Complaints -/

/-- If the complaint is that a type stands where another one is expected, these have different
names. -/
inductive Cause.TellsApart : Cause → Prop
  /-- A type is expected and another one is found. -/
  | types {expected found : Ty} (hexpected : expected.WellNamed) (hfound : found.WellNamed)
    (h : expected.text ≠ found.text) (place : String) (span : Option Span) :
    TellsApart (mismatch expected.text found place span).cause
  /-- A function or a pair is expected and a type of another form is found. -/
  | form {expected : String} (hexpected : expected ∈ ["a function", "a pair"]) {found : Ty}
    (hfound : found.WellNamed) (h : expected ≠ found.text) (place : String) (span : Option Span) :
    TellsApart (mismatch expected found place span).cause
  | pattern (p : Pattern) (subject : Ty) :
    TellsApart
      (.typeMismatch ("pattern '" ++ p.text ++ "' cannot match a value of type " ++ subject.text))
  | noBranches : TellsApart (.typeMismatch "match has no branches")
  | other {c : Cause} (h : c.code ≠ "E321") : TellsApart c

namespace Ty

/-- The `WellNamed` types are a closed kind. -/
theorem closedKind_wellNamed : ClosedKind WellNamed where
  builtin {name ty} hbuiltin := by
    obtain rfl := eq_prim_of_builtin? hbuiltin
    exact .prim hbuiltin
  arrow_iff {inputs output} := by
    constructor
    · intro h
      cases h with
      | arrow hinputs houtput => exact ⟨hinputs, houtput⟩
    · rintro ⟨hinputs, houtput⟩
      exact .arrow hinputs houtput
  pair_iff {first second} := by
    constructor
    · intro h
      cases h with
      | pair hfirst hsecond => exact ⟨hfirst, hsecond⟩
    · rintro ⟨hfirst, hsecond⟩
      exact .pair hfirst hsecond
  construct howner _ := by
    cases howner with
    | data hatom hbuiltin => exact .construct hatom hbuiltin

theorem WellNamed.text_ne {a b : Ty} (ha : a.WellNamed) (hb : b.WellNamed)
    (h : a.agrees b = false) : a.text ≠ b.text := by
  intro htext
  rw [(ha.text_eq_iff hb).mp htext] at h
  cases h

/-- No `WellNamed` type is called a function or a pair, for this is two forms. -/
theorem WellNamed.ne_text {ty : Ty} (h : ty.WellNamed) {text : String}
    (htext : text ∈ ["a function", "a pair"]) : text ≠ ty.text := by
  have htwo : ∀ text ∈ ["a function", "a pair"], (readOne "" text).toOption.isSome = false := by
    decide +kernel
  rintro rfl
  have hone := h.isSome_readOne
  rw [htwo _ htext] at hone
  cases hone

end Ty

/-- In a context of `WellNamed` types, checking complains about types with different names. -/
theorem Cause.OfChecking.tellsApart {es : List Expr} {c : Cause}
    (h : c.OfChecking Ty.WellNamed Ty.sameTag es) : c.TellsApart := by
  cases h with
  | expected hexpected hfound hagrees place span =>
    exact .types hexpected hfound (hexpected.text_ne hfound hagrees) place span
  | @branches thenTy elseTy hthen helse htag span =>
    -- types without the same tag do not agree
    have hagrees : thenTy.agrees elseTy = false := by
      rw [Bool.eq_false_iff]
      intro hagrees
      rw [Ty.sameTag_of_agrees hagrees] at htag
      cases htag
    exact .types hthen helse (hthen.text_ne helse hagrees) _ span
  | function hfound _ span =>
    exact .form (by decide) hfound (hfound.ne_text (by decide)) _ span
  | pair hfound _ place span =>
    exact .form (by decide) hfound (hfound.ne_text (by decide)) place span
  | pattern p hsubject => exact .pattern p _
  | noBranches => exact .noBranches
  | names hnames => cases hnames <;> exact .other (by simp [code])
  | _ => exact .other (by simp [code])

/-! ### Statements one by one -/

theorem Stmt.mem_annotations {st : Stmt} {ty : Ty} (h : ty ∈ st.annotations) :
    ∃ e ∈ st.exprs, ty ∈ e.annotations := by
  cases st with
  | define name value span => exact ⟨value, List.mem_singleton_self _, h⟩
  | _ => cases h

/-- All types that a statement writes are of the kind: those that it gives to parameters, and those
that it declares and that its fields have. -/
structure Stmt.OfKind (K : Ty → Prop) (st : Stmt) : Prop where
  /-- The types of parameters. -/
  annotations : ∀ e ∈ st.exprs, ∀ ty ∈ e.annotations, K ty
  /-- The data type that is declared, and the types of fields. -/
  declared : ∀ ty ∈ st.declaredTys, K ty

namespace Context.OfKind

variable {K : Ty → Prop} {Γ : Context} {st : Stmt} {p : Program}

/-- `Context.OfKind` is kept when a statement of the kind is checked, whether it checks or not. -/
theorem after (hK : Ty.ClosedKind K) (h : Γ.OfKind K) (hst : st.OfKind K) :
    (Γ.after st).OfKind K := by
  rcases Γ.after_cases st with hchecks | ⟨-, hsame⟩
  · refine h.of_checks hK hchecks (fun ty hty => ?_) hst.declared
    obtain ⟨e, he, hty⟩ := Stmt.mem_annotations hty
    exact hst.annotations e he ty hty
  · rwa [hsame]

/-- `Context.OfKind` is kept when statements of the kind are checked one by one. -/
theorem afterEach (hK : Ty.ClosedKind K) (h : Γ.OfKind K) (hp : ∀ st ∈ p, st.OfKind K) :
    (Γ.afterEach p).OfKind K := by
  induction p generalizing Γ with
  | nil => exact h
  | cons st p ih =>
    obtain ⟨hst, hp⟩ := List.forall_mem_cons.mp hp
    exact ih (h.after hK hst) hp

end Context.OfKind

/-- A readable statement writes `WellNamed` types, if it does not declare a data type with the name
of a built-in one. -/
theorem Stmt.Readable.ofKind_wellNamed {d : Declared} {st : Stmt} (h : st.Readable d)
    (hname : ∀ name constructors span, st = .data name constructors span →
      name ∉ ["Nat", "Bool", "Str"]) : st.OfKind Ty.WellNamed where
  annotations e he ty hty := by
    obtain ⟨part, hpart, hty⟩ := List.mem_flatMap.mp hty
    have hread := (h.exprs e he).of_mem_parts part hpart
    cases hread with
    | lambda hatom hparamTy hbody =>
      rw [List.mem_singleton.mp hty]
      exact hparamTy.wellNamed
    | _ => cases hty
  declared := by
    cases h with
    | data hatom hnames hfields =>
      have hbuiltin := Ty.builtin?_eq_none_iff.mpr (hname _ _ _ rfl)
      refine List.forall_mem_cons.mpr ⟨.data hatom hbuiltin, fun ty hty => ?_⟩
      obtain ⟨c, hc, hty⟩ := List.mem_flatMap.mp hty
      exact (hfields c hc ty hty).wellNamed
    | _ => exact fun ty hty => nomatch hty

/-- If every data type in them has a name that reads as one atom and is not the name of a built-in
type (`WellNamed`), two types have the same name if and only if they agree. In a context of such
types a statement that writes such types is never rejected with a message that names the same type
as expected and as found (`TellsApart`), and leaves a context of such types. So this holds of every
statement of a program whose data types are not named as built-in types are, when its statements are
checked one by one, whether they check or not. -/
theorem Ty.names_separate_types :
    (∀ name, (data name).WellNamed ↔
      (∃ span, readOne "" name = .ok (.atom name span)) ∧ name ∉ ["Nat", "Bool", "Str"]) ∧
    (∀ a b : Ty, a.WellNamed → b.WellNamed → (a.text = b.text ↔ a.agrees b = true)) ∧
    (∀ (Γ : Context) (st : Stmt), Γ.OfKind WellNamed → st.OfKind WellNamed →
      (∀ e, (outcome (Check.stmt st) Γ).1 = .error e → e.cause.TellsApart) ∧
        (Γ.after st).OfKind WellNamed) ∧
    ∀ file source p, parse file source = .ok p →
      (∀ name constructors span, .data name constructors span ∈ p → name ∉ ["Nat", "Bool", "Str"]) →
      ∀ builtins before st rest, p = before ++ st :: rest →
        ∀ e, (outcome (Check.stmt st) ((Session.start builtins).context.afterEach before)).1 =
          .error e → e.cause.TellsApart := by
  have hstep : ∀ (Γ : Context) (st : Stmt), Γ.OfKind WellNamed → st.OfKind WellNamed →
      ∀ e, (outcome (Check.stmt st) Γ).1 = .error e → e.cause.TellsApart := by
    intro Γ st hΓ hst e he
    exact (hΓ.stmtWith_failsOnly closedKind_wellNamed hst.annotations e he).tellsApart
  refine ⟨fun name => wellNamed_data_iff, fun a b ha hb => ha.text_eq_iff hb,
    fun Γ st hΓ hst => ⟨hstep Γ st hΓ hst, hΓ.after closedKind_wellNamed hst⟩, ?_⟩
  rintro file source p hparse hnames builtins before st rest rfl e he
  have hp : ∀ st' ∈ before ++ st :: rest, st'.OfKind WellNamed := by
    intro st' hst'
    obtain ⟨d, hread⟩ := (Program.readable_of_parse hparse).exists_of_mem hst'
    refine hread.ofKind_wellNamed ?_
    rintro name constructors span rfl
    exact hnames name constructors span hst'
  have hstart := (Context.OfKind.start closedKind_wellNamed builtins).afterEach closedKind_wellNamed
    fun st' hst' => hp st' (List.mem_append_left _ hst')
  exact hstep _ st hstart (hp st (by simp)) e he

/-- A program that adds one to the empty list. -/
private def listPlusOne : String :=
  "(data List (Nil) (Cons Nat List)) (print (+ Nil 1))"

private theorem exists_listPlusOne : ∃ st st' e, parse "main" listPlusOne = .ok [st, st'] ∧
    (∀ name constructors span, .data name constructors span ∈ [st, st'] → name = "List") ∧
    (outcome (Check.stmt st') ((Session.start true).context.afterEach [st])).1 = .error e ∧
    e.cause.code = "E321" := by
  have hholds : (parse "main" listPlusOne).toOption.map (fun p =>
      (p.length, (p.foldl Declared.after {}).dataTypes,
        (p.drop 1).map fun st =>
          (outcome (Check.stmt st) ((Session.start true).context.afterEach (p.take 1))).1.mapError
            (·.cause.code))) =
      some (2, ["List"], [.error "E321"]) := by
    decide +kernel
  obtain ⟨p, hparse, hp⟩ := exists_ok_of_map_toOption hholds
  obtain ⟨hlength, hp⟩ := Prod.mk.inj hp
  obtain ⟨st, st', rfl⟩ := List.length_eq_two.mp hlength
  obtain ⟨htypes, hcode⟩ := Prod.mk.inj hp
  cases hresult : (outcome (Check.stmt st') ((Session.start true).context.afterEach [st])).1 with
  | ok u => simp [hresult, Except.mapError] at hcode
  | error e =>
    refine ⟨st, st', e, hparse, fun name constructors span hmem => ?_, hresult, ?_⟩
    · have hknown := Declared.mem_dataTypes_foldl (d := {}).mpr (.inr ⟨constructors, span, hmem⟩)
      rw [htypes] at hknown
      exact List.mem_singleton.mp hknown
    · simpa [hresult, Except.mapError] using hcode

/-- Functions of lists have the same name whether they take lists or what `Cons` builds. The
messages about the negation of a number and about the rejected statement name different types. -/
theorem Ty.names_separate_types_list :
    (arrow [construct "Cons" [nat, data "List"] "List"] nat).text = (arrow [data "List"] nat).text ∧
    (∃ e, (outcome (Check.stmt (.print (.not (.number 1 none) none) none))
      (Session.start true).context).1 = .error e ∧ e.cause.code = "E321" ∧ e.cause.TellsApart) ∧
    ∃ st st' e, parse "main" listPlusOne = .ok [st, st'] ∧
      (outcome (Check.stmt st') ((Session.start true).context.afterEach [st])).1 = .error e ∧
      e.cause.code = "E321" ∧ e.cause.TellsApart := by
  obtain ⟨hdata, htext, hcontext, hprogram⟩ := names_separate_types
  refine ⟨?_, ?_, ?_⟩
  · have hatom : IsAtom "List" := isAtom_of_plain (by decide) (by decide) (by decide +kernel)
    have hlist : (data "List").WellNamed :=
      (hdata "List").mpr ⟨isAtom_iff_readOne.mp hatom, by decide⟩
    have hnat : nat.WellNamed := closedKind_wellNamed.nat
    have hcons : (construct "Cons" [nat, data "List"] "List").WellNamed :=
      closedKind_wellNamed.construct hlist (by simp [hlist, hnat])
    refine (htext _ _ (.arrow ?_ hnat) (.arrow ?_ hnat)).mpr (by decide)
    · exact List.forall_mem_singleton.mpr hcons
    · exact List.forall_mem_singleton.mpr hlist
  · have hstart : (Session.start true).context.OfKind WellNamed :=
      .start closedKind_wellNamed true
    have hprint : (Stmt.print (.not (.number 1 none) none) none).OfKind WellNamed :=
      ⟨by simp [Stmt.exprs, Expr.annotations, Expr.parts, Expr.paramTys], fun ty hty => nomatch hty⟩
    exact ⟨_, rfl, rfl, (hcontext _ _ hstart hprint).1 _ rfl⟩
  · obtain ⟨st, st', e, hparse, hnames, herror, hcode⟩ := exists_listPlusOne
    refine ⟨st, st', e, hparse, herror, hcode, ?_⟩
    refine hprogram _ _ _ hparse (fun name constructors span hmem => ?_) true [st] st'
      [] rfl e herror
    rw [hnames name constructors span hmem]
    decide

end Casewise

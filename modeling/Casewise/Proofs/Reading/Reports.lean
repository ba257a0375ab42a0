import Casewise.Proofs.Reading.Digits
import Casewise.Proofs.Reading.Statements
import Casewise.Proofs.Sexp.Blame

/-!
# How reading fails

Whatever a form is read as, and in whichever order its parts are read and its shape is tested, a
failure is the report that the text is malformed, and it points at one place; or some atom of the
form is a number with too many digits, and no report tells of it. In particular the number of the
parts of a pair pattern is tested before the pattern is built, so building it never fails.

## Main definitions

* `Failure.Arises`: how reading may fail.

## Main statements

* `Expr.arises_ofSexp`, `Stmt.arises_ofSexp`: so fails the reading of expressions and statements.
* `parse_arises`: a text that is no program is reported as malformed, or has a number with too many
  digits.
-/

namespace Casewise

/-- The form is the atom `text`, or the atom is in it. -/
inductive Sexp.HasAtom (text : String) : Sexp → Prop
  | atom (span : Span) : HasAtom text (.atom text span)
  | list {e : Sexp} {items : List Sexp} (span : Span) (he : e ∈ items) (h : HasAtom text e) :
    HasAtom text (.list items span)

/-- The atoms of the form are among those of which `occurs` holds. -/
def Sexp.HasOnly (occurs : String → Prop) (e : Sexp) : Prop :=
  ∀ text, e.HasAtom text → occurs text

/-- How reading may fail when numbers have `maxDigits` digits at most and the atoms in the text are
those of which `occurs` holds: the text is malformed, or one of the atoms has too many digits. -/
inductive Failure.Arises (maxDigits : Option ℕ) (occurs : String → Prop) : Failure → Prop
  | report (m : Malformed) (span : Span) : Arises maxDigits occurs (m.failure span)
  /-- An atom is a number with too many digits. -/
  | overlong {text : String} {limit : ℕ} (htext : occurs text) (hlimit : maxDigits = some limit)
    (hnumber : (Text.decimal? text).isSome) (hmany : limit < Text.digitCount text) :
    Arises maxDigits occurs (.overlong limit (Text.digitCount text))

variable {d : Declared} {maxDigits : Option ℕ} {occurs : String → Prop}

theorem Sexp.HasOnly.of_mem {items : List Sexp} {span : Span} (h : (list items span).HasOnly occurs)
    {e : Sexp} (he : e ∈ items) : e.HasOnly occurs :=
  fun text htext => h text (.list span he htext)

theorem arises_failure {α : Type} (m : Malformed) (span : Span) :
    FailsOnly (Failure.Arises maxDigits occurs) (throw (m.failure span) : Except Failure α) :=
  .throw (.report m span)

/-- `converted` fails only if the atom has too many digits. -/
theorem Declared.arises_converted {α : Type} {text : String} (htext : occurs text) (meaning : α) :
    FailsOnly (Failure.Arises d.maxDigits occurs) (d.converted text meaning) := by
  intro f h
  obtain ⟨limit, hlimit, rfl⟩ := converted_eq_error.mp h
  obtain ⟨hlimit, hnumber, hmany⟩ := exceeded?_eq_some_iff.mp hlimit
  exact .overlong htext hlimit hnumber hmany

theorem Pattern.ofSexp_of_exceeded {text : String} {limit : ℕ} (h : d.exceeded? text = some limit)
    (span : Span) :
    Pattern.ofSexp d (.atom text span) = .error (.overlong limit (Text.digitCount text)) :=
  Declared.converted_eq_error.mpr ⟨limit, h, rfl⟩

theorem Expr.ofSexp_of_exceeded {text : String} {limit : ℕ} (h : d.exceeded? text = some limit)
    (span : Span) :
    Expr.ofSexp d (.atom text span) = .error (.overlong limit (Text.digitCount text)) :=
  Declared.converted_eq_error.mpr ⟨limit, h, rfl⟩

/-! ### Types and patterns -/

theorem Ty.failsOnly_ofSexps {E : Failure → Prop} {es : List Sexp}
    (h : ∀ e ∈ es, FailsOnly E (Ty.ofSexp d e)) : FailsOnly E (Ty.ofSexps d es) := by
  rw [Ty.ofSexps_eq_mapM]
  exact .mapM h

/-- `Ty.ofSexp` fails only if the form is malformed. -/
theorem Ty.arises_ofSexp (e : Sexp) :
    FailsOnly (Failure.Arises maxDigits occurs) (Ty.ofSexp d e) := by
  induction e with
  | atom name span =>
    rw [Ty.ofSexp]
    split
    · exact .ok _
    · split
      · exact .ok _
      · exact arises_failure _ _
  | list items span ih =>
    rw [Ty.ofSexp.eq_def]
    split
    · next hlist => cases hlist
    · next arrowSpan args span' hlist =>
      cases hlist
      split
      · exact arises_failure _ _
      · have hargs := Ty.failsOnly_ofSexps fun e he => ih e (List.mem_cons_of_mem _ he)
        exact .bind hargs fun tys _ => .ok _
    · next pairSpan first second span' hlist =>
      cases hlist
      have hfirst := ih first (by simp)
      have hsecond := ih second (by simp)
      exact .bind hfirst fun a _ => .bind hsecond fun b _ => .ok _
    · exact arises_failure _ _
    · exact arises_failure _ _

theorem Pattern.failsOnly_ofSexps {E : Failure → Prop} {es : List Sexp}
    (h : ∀ e ∈ es, FailsOnly E (Pattern.ofSexp d e)) : FailsOnly E (Pattern.ofSexps d es) := by
  rw [Pattern.ofSexps_eq_mapM]
  exact .mapM h

/-- `structured` builds a pattern from its head and its parts, unless its head says that it is a
pair and it has not two parts. -/
theorem Pattern.exists_structured {head : String} {subs : List Pattern}
    (h : ¬ (head = "pair" ∧ subs.length ≠ 2)) (span : Option Span) :
    ∃ p, structured head subs span = .ok p := by
  by_cases hpair : head = "pair"
  · have htwo : subs.length = 2 := by
      by_contra hne
      exact h ⟨hpair, hne⟩
    obtain ⟨first, second, rfl⟩ := List.length_eq_two.mp htwo
    exact ⟨_, structured_eq_ok.mpr (.inl ⟨hpair, first, second, rfl, rfl⟩)⟩
  · exact ⟨_, structured_eq_ok.mpr (.inr ⟨hpair, rfl⟩)⟩

/-- `Pattern.ofSexp` fails only if the form is malformed or a number has too many digits. -/
theorem Pattern.arises_ofSexp {e : Sexp} (he : e.HasOnly occurs) :
    FailsOnly (Failure.Arises d.maxDigits occurs) (Pattern.ofSexp d e) := by
  induction e with
  | atom text span => exact Declared.arises_converted (he text (.atom span)) _
  | list items span ih =>
    have hitems := fun e hmem => ih e hmem (he.of_mem hmem)
    rw [Pattern.ofSexp.eq_def]
    split
    · next hlist => cases hlist
    · next head headSpan args span' hlist =>
      cases hlist
      have hargs := Pattern.failsOnly_ofSexps fun e hmem =>
        hitems e (List.mem_cons_of_mem _ hmem)
      refine .bind hargs fun subs hsubs => ?_
      have hlength : args.length = subs.length := (Pattern.ofSexps_eq_ok.mp hsubs).length_eq
      split
      · exact arises_failure _ _
      · next hcount =>
        -- the count has been tested, so building the pattern does not test it again
        rw [hlength] at hcount
        obtain ⟨p, hp⟩ := Pattern.exists_structured hcount span
        change FailsOnly _ ((structured head subs span).mapError Failure.lang)
        rw [hp]
        exact .ok p
    · exact arises_failure _ _

/-! ### Expressions -/

theorem Expr.arises_wrongCount (form : String) (expected : Nat) (args : List Sexp) (span : Span) :
    FailsOnly (Failure.Arises maxDigits occurs) (Expr.wrongCount form expected args span) :=
  arises_failure _ _

theorem Expr.failsOnly_ofSexps {E : Failure → Prop} {es : List Sexp}
    (h : ∀ e ∈ es, FailsOnly E (Expr.ofSexp d e)) : FailsOnly E (Expr.ofSexps d es) := by
  rw [Expr.ofSexps_eq_mapM]
  exact .mapM h

/-- `Expr.ofArms` fails only as reading one of the arms would. -/
theorem Expr.failsOnly_ofArms {E : Failure → Prop} {arms : List Sexp}
    (h : ∀ e ∈ arms, FailsOnly E (Expr.ofSexp d e)) : FailsOnly E (Expr.ofArms d arms) := by
  rw [Expr.ofArms_eq_ofSexps]
  exact Expr.failsOnly_ofSexps fun e hmem => h e (mem_of_mem_arms (.inr hmem))

/-- `Expr.ofSexp` fails only if the form is malformed or a number has too many digits. -/
theorem Expr.arises_ofSexp {e : Sexp} (he : e.HasOnly occurs) :
    FailsOnly (Failure.Arises d.maxDigits occurs) (Expr.ofSexp d e) := by
  induction e using Sexp.deepInduction with
  | atom text span => exact Declared.arises_converted (he text (.atom span)) _
  | list items span ihItems ihInner =>
    have ih := fun e hmem => ihItems e hmem (he.of_mem hmem)
    cases items with
    | nil => exact arises_failure _ _
    | cons head args =>
      have hargs := Expr.failsOnly_ofSexps fun e hmem => ih e (List.mem_cons_of_mem head hmem)
      rw [Expr.ofSexp.eq_def]
      dsimp only
      split
      · next left right _ =>
        have hleft := ih left (by simp)
        have hright := ih right (by simp)
        exact .bind hleft fun a _ => .bind hright fun b _ => .ok _
      · exact Expr.arises_wrongCount _ _ _ _
      · next operand _ => exact .bind (ih operand (by simp)) fun a _ => .ok _
      · exact Expr.arises_wrongCount _ _ _ _
      · next operand _ => exact .bind (ih operand (by simp)) fun a _ => .ok _
      · exact Expr.arises_wrongCount _ _ _ _
      · next operand _ => exact .bind (ih operand (by simp)) fun a _ => .ok _
      · exact Expr.arises_wrongCount _ _ _ _
      · next condition thenBranch elseBranch _ =>
        have hcondition := ih condition (by simp)
        have hthen := ih thenBranch (by simp)
        have helse := ih elseBranch (by simp)
        exact .bind hcondition fun a _ => .bind hthen fun b _ => .bind helse fun c _ => .ok _
      · exact Expr.arises_wrongCount _ _ _ _
      · next param paramSpan paramTy body _ =>
        have hbody := ih body (by simp)
        exact .bind (Ty.arises_ofSexp paramTy) fun ty _ => .bind hbody fun x _ => .ok _
      · exact arises_failure _ _
      · exact Expr.arises_wrongCount _ _ _ _
      · next first second _ =>
        have hfirst := ih first (by simp)
        have hsecond := ih second (by simp)
        exact .bind hfirst fun a _ => .bind hsecond fun b _ => .ok _
      · exact Expr.arises_wrongCount _ _ _ _
      · exact arises_failure _ _
      · next scrutinee arms armsSpan _ =>
        split
        · exact arises_failure _ _
        · have harms : (Sexp.list arms armsSpan).HasOnly occurs := he.of_mem (by simp)
          have hpatterns := Pattern.failsOnly_ofSexps fun e hmem =>
            Pattern.arises_ofSexp (d := d) (harms.of_mem (mem_of_mem_arms (.inl hmem)))
          have hbranches := Expr.failsOnly_ofArms fun e hmem =>
            ihInner arms armsSpan (by simp) e hmem (harms.of_mem hmem)
          have hscrutinee := ih scrutinee (by simp)
          exact .bind hpatterns fun ps _ => .bind hbranches fun xs _ =>
            .bind hscrutinee fun x _ => .ok _
      · exact Expr.arises_wrongCount _ _ _ _
      · exact .bind hargs fun xs _ => .ok _
      · have hhead := ih head List.mem_cons_self
        exact .bind hhead fun x _ => .bind hargs fun xs _ => .ok _

/-! ### Statements -/

/-- `ConstructorDecl.ofSexp` fails only if the form is malformed. -/
theorem ConstructorDecl.arises_ofSexp (e : Sexp) :
    FailsOnly (Failure.Arises maxDigits occurs) (ConstructorDecl.ofSexp d e) := by
  rw [ConstructorDecl.ofSexp.eq_def]
  split
  · exact .ok _
  · exact .bind (Ty.failsOnly_ofSexps fun e _ => Ty.arises_ofSexp e) fun tys _ => .ok _
  · exact arises_failure _ _

namespace Reading

/-- Whatever is declared while numbers have `maxDigits` digits at most, reading fails only if the
text is malformed or one of its atoms has too many digits, and it does not change the limit. -/
def Arises (maxDigits : Option ℕ) (occurs : String → Prop) {α : Type} (r : Reading α) : Prop :=
  ∀ d : Declared, d.maxDigits = maxDigits →
    FailsOnly (Failure.Arises maxDigits occurs) (outcome r d).1 ∧
      (outcome r d).2.maxDigits = maxDigits

namespace Arises

variable {α β : Type}

theorem pure (a : α) : (Pure.pure a : Reading α).Arises maxDigits occurs :=
  fun _ hd => ⟨.ok a, hd⟩

theorem failure (m : Malformed) (span : Span) :
    (throw (m.failure span) : Reading α).Arises maxDigits occurs :=
  fun _ hd => ⟨arises_failure m span, hd⟩

/-- `Reading.Arises` is closed under `>>=`. -/
theorem bind {r : Reading α} {f : α → Reading β} (hr : r.Arises maxDigits occurs)
    (hf : ∀ a, (f a).Arises maxDigits occurs) : (r >>= f).Arises maxDigits occurs := by
  intro d hd
  obtain ⟨hfails, hkeeps⟩ := hr d hd
  rw [outcome_bind]
  rcases hout : outcome r d with ⟨f | a, d'⟩
  · rw [hout] at hfails hkeeps
    cases hfails f rfl with
    | report m span => exact ⟨arises_failure m span, hkeeps⟩
    | overlong htext hlimit hnumber hmany =>
      exact ⟨.throw (.overlong htext hlimit hnumber hmany), hkeeps⟩
  · rw [hout] at hkeeps
    exact hf a d' hkeeps

theorem addType (name : String) :
    (modify (·.addType name) : Reading PUnit).Arises maxDigits occurs := by
  refine fun d hd => ⟨.ok _, ?_⟩
  change (d.addType name).maxDigits = maxDigits
  rw [Declared.addType]
  split <;> exact hd

theorem addConstructors (cs : List ConstructorDecl) :
    (modify (·.addConstructors cs) : Reading PUnit).Arises maxDigits occurs :=
  fun _ hd => ⟨.ok _, hd⟩

theorem withDeclared {f : Declared → Except Failure α}
    (h : ∀ d, FailsOnly (Failure.Arises d.maxDigits occurs) (f d)) :
    (withDeclared f).Arises maxDigits occurs := by
  rintro d rfl
  exact ⟨h d, rfl⟩

theorem expr {e : Sexp} (he : e.HasOnly occurs) :
    (Reading.withDeclared (Expr.ofSexp · e)).Arises maxDigits occurs :=
  withDeclared fun _ => Expr.arises_ofSexp he

end Arises

end Reading

theorem Stmt.arises_wrongCount (form : String) (expected : Nat) (args : List Sexp) (span : Span) :
    (Stmt.wrongCount form expected args span).Arises maxDigits occurs :=
  .failure _ _

/-- `Stmt.ofSexp` fails only if the form is malformed or a number has too many digits. -/
theorem Stmt.arises_ofSexp {e : Sexp} (he : e.HasOnly occurs) :
    (Stmt.ofSexp e).Arises maxDigits occurs := by
  rw [Stmt.ofSexp.eq_def]
  split
  · exact .failure _ _
  · split
    · exact .bind (.expr (he.of_mem (by simp))) fun value => .pure _
    · exact .failure _ _
    · exact Stmt.arises_wrongCount _ _ _ _
  · split
    · exact .bind (.expr (he.of_mem (by simp))) fun target =>
        .bind (.expr (he.of_mem (by simp))) fun value => .pure _
    · exact Stmt.arises_wrongCount _ _ _ _
  · split
    · exact .bind (.expr (he.of_mem (by simp))) fun value => .pure _
    · exact Stmt.arises_wrongCount _ _ _ _
  · split
    · exact .bind (.addType _) fun _ =>
        .bind (.withDeclared fun d => .mapM fun e _ => ConstructorDecl.arises_ofSexp e) fun cs =>
        .bind (.addConstructors _) fun _ => .pure _
    · exact .failure _ _
  · exact .failure _ _
  · exact .failure _ _

/-! ### Texts -/

/-- A text that `read` rejects is `Malformed` in one place. -/
theorem read_reports (file source : String) :
    FailsOnly (fun e => ∃ (m : Malformed) (span : Span), e = m.report span) (read file source) := by
  rw [read]
  refine .bind (fun e he => ?_) fun stream _ => .bind (fun e he => ?_) fun n _ => fun e he => ?_
  · obtain ⟨before, body, -, -, rfl⟩ := scan_eq_error_iff.mp he
    exact ⟨_, _, rfl⟩
  · rcases Nest.foldlM_step_cases stream.tokens with
      ⟨n, hn, -⟩ | ⟨before, t, after, -, -, -, herror⟩
    · rw [hn] at he
      cases he
    · rw [herror] at he
      cases he
      exact ⟨_, _, rfl⟩
  · obtain ⟨frames, forms⟩ := n
    cases frames with
    | nil => cases he
    | cons frame outer =>
      cases he
      exact ⟨_, _, rfl⟩

/-- A text that `parse` rejects is reported as malformed, or one of the atoms that it is read into
is a number with more than `usualDigits` digits. -/
theorem parse_arises (file source : String) :
    FailsOnly (Failure.Arises (some usualDigits) fun text =>
      ∃ es, read file source = .ok es ∧ ∃ e ∈ es, e.HasAtom text) (parse file source) := by
  change FailsOnly _ (outcome (Program.read file source) {}).1
  cases hread : read file source with
  | error e =>
    obtain ⟨m, span, rfl⟩ := read_reports file source e hread
    rw [Program.read, outcome_bind, outcome_withDeclared, hread]
    exact arises_failure m span
  | ok es =>
    have hforms : (es.mapM Stmt.ofSexp).Arises (some usualDigits) fun text =>
        ∃ es', read file source = .ok es' ∧ ∃ e ∈ es', e.HasAtom text :=
      mapM_closed .pure .bind fun e he => Stmt.arises_ofSexp fun text htext =>
        ⟨es, hread, e, he, htext⟩
    rw [hread] at hforms
    rw [Program.read, outcome_bind, outcome_withDeclared, hread]
    exact (hforms {} rfl).1

end Casewise

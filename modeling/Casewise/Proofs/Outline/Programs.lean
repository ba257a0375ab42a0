import Mathlib.Data.List.Forall2
import Casewise.Outline.Program
import Casewise.Proofs.Outline.Lines
import Casewise.Proofs.Syntax
import Casewise.Proofs.Text.Decimal
import Casewise.Proofs.Text.Quoted

/-!
# Outlines tell programs

The outline of a node begins with its kind, and its kind tells which fields come next. A field tells
its value, since names and texts are quoted and numbers are written in full, and it tells its nodes.
So the outline of a program tells all of it but the spans, and so does the printed text.

## Main statements

* `Ty.outline_inj`, `Pattern.outline_inj`, `Expr.outline_inj`, `Stmt.outline_inj`: equal outlines.
* `Program.isClear_outlines`: the lines of outlines can be told from their indentation.
* `Program.view_tells`: the text that is printed for a program tells the program.
-/

namespace Casewise

/-! ### Numbers -/

namespace Text

theorem le_of_all {text : String} (h : (text.toList.all fun c => 0x20 ≤ c.toNat) = true) :
    ∀ c ∈ text.toList, 0x20 ≤ c.toNat :=
  fun c hc => of_decide_eq_true (List.all_eq_true.mp h c hc)

theorem toString_negSucc (k : Nat) : toString (Int.negSucc k) = "-" ++ toString (k + 1) :=
  rfl

theorem le_of_mem_toString {n : Int} {c : Char} (h : c ∈ (toString n).toList) : 0x20 ≤ c.toNat := by
  have hnat {k : Nat} (h : c ∈ (toString k).toList) : 0x20 ≤ c.toNat := by
    have hdigit := isDigit_of_mem_toString c h
    rw [Char.isDigit, Bool.and_eq_true, decide_eq_true_eq] at hdigit
    have hzero : 0x30 ≤ c.toNat := hdigit.1
    omega
  cases n with
  | ofNat k => exact hnat h
  | negSucc k =>
    have hsign : ∀ c ∈ ("-" : String).toList, 0x20 ≤ c.toNat := le_of_all (by decide)
    rw [toString_negSucc, String.toList_append, List.mem_append] at h
    exact h.elim (hsign c) hnat

/-- Different integers have different `toString`. -/
theorem toString_int_inj {n n' : Int} (h : toString n = toString n') : n = n' := by
  have hnat {k k' : Nat} (h : toString k = toString k') : k = k' := by
    have hread := congrArg decimal? h
    rwa [decimal?_toString, decimal?_toString, Option.some.injEq] at hread
  have hsign {k k' : Nat} (h : toString k = toString (Int.negSucc k')) : False := by
    have hminus : '-' ∈ (toString k).toList := by
      rw [h, toString_negSucc, String.toList_append]
      exact List.mem_append_left _ List.mem_cons_self
    have hdigit := isDigit_of_mem_toString '-' hminus
    revert hdigit
    decide
  cases n with
  | ofNat k =>
    cases n' with
    | ofNat k' => rw [hnat h]
    | negSucc k' => exact (hsign h).elim
  | negSucc k =>
    cases n' with
    | ofNat k' => exact (hsign h.symm).elim
    | negSucc k' =>
      rw [toString_negSucc, toString_negSucc, String.append_right_inj] at h
      rw [Nat.succ.inj (hnat h)]

end Text

/-! ### Fields -/

namespace Outline

variable {kind kind' field text text' : String} {fields fields' members members' : List Outline}

@[simp]
theorem node_inj : node kind fields = node kind' fields' ↔ kind = kind' ∧ fields = fields' := by
  rw [node, node, line.injEq]

@[simp]
theorem value_inj : value field text = value field text' ↔ text = text' := by
  rw [value, value, line.injEq, String.append_right_inj, and_iff_left rfl]

@[simp]
theorem text_inj : Outline.text field text = Outline.text field text' ↔ text = text' :=
  value_inj.trans Text.quoted_inj

@[simp]
theorem number_inj {n n' : Int} : number field n = number field n' ↔ n = n' := by
  rw [number, number, value_inj]
  exact ⟨Text.toString_int_inj, fun h => by rw [h]⟩

@[simp]
theorem truth_inj {b b' : Bool} : truth field b = truth field b' ↔ b = b' := by
  rw [truth, truth, value_inj]
  cases b <;> cases b' <;> decide

@[simp]
theorem group_inj : group field members = group field members' ↔ members = members' := by
  cases members with
  | nil =>
    cases members' with
    | nil => exact iff_of_true rfl rfl
    | cons => exact iff_of_false (fun h => (by injection h with _ h; cases h)) nofun
  | cons member members =>
    cases members' with
    | nil => exact iff_of_false (fun h => (by injection h with _ h; cases h)) nofun
    | cons member' members' => rw [group, group, line.injEq, and_iff_right rfl]

/-- Whether a word can stand at the beginning of a line. -/
def isLabel (word : String) : Bool :=
  (word.toList.all fun c => 0x20 ≤ c.toNat) && word.toList.head?.any (· ≠ ' ')

/-- What `isLabel` accepts has no control character, and it neither is empty nor begins with a
space. -/
theorem of_isLabel (h : isLabel field = true) :
    (∀ c ∈ field.toList, 0x20 ≤ c.toNat) ∧ field.toList ≠ [] ∧
      field.toList.head? ≠ some ' ' := by
  rw [isLabel, Bool.and_eq_true] at h
  obtain ⟨hcontrol, hhead⟩ := h
  refine ⟨Text.le_of_all hcontrol, fun hnil => ?_, fun hspace => ?_⟩
  · rw [hnil] at hhead
    cases hhead
  · rw [hspace] at hhead
    cases hhead

theorem isClear_node (hkind : isLabel kind = true) :
    (node kind fields).IsClear ↔ ∀ f ∈ fields, f.IsClear := by
  constructor
  · intro h
    cases h with
    | line _ _ hbelow => exact hbelow
  · exact .line (of_isLabel hkind).1 (of_isLabel hkind).2.2

theorem isClear_line (hfield : isLabel field = true) (htext : ∀ c ∈ text.toList, 0x20 ≤ c.toNat)
    (hmembers : ∀ m ∈ members, m.IsClear) : (line (field ++ text) members).IsClear := by
  obtain ⟨hcontrol, hnil, hspace⟩ := of_isLabel hfield
  refine .line (fun c hc => ?_) ?_ hmembers
  · rw [String.toList_append, List.mem_append] at hc
    exact hc.elim (hcontrol c) (htext c)
  · rw [String.toList_append, List.head?_append_of_ne_nil _ hnil]
    exact hspace

theorem isClear_value (hfield : isLabel field = true) (htext : ∀ c ∈ text.toList, 0x20 ≤ c.toNat) :
    (value field text).IsClear := by
  rw [value, String.append_assoc]
  refine isClear_line hfield (fun c hc => ?_) nofun
  rw [String.toList_append, List.mem_append] at hc
  have hseparator : ∀ c ∈ (": " : String).toList, 0x20 ≤ c.toNat := Text.le_of_all (by decide)
  exact hc.elim (hseparator c) (htext c)

theorem isClear_text (hfield : isLabel field = true) : (Outline.text field text).IsClear :=
  isClear_value hfield fun _ => Text.le_of_mem_quoted

theorem isClear_number (hfield : isLabel field = true) {n : Int} : (number field n).IsClear :=
  isClear_value hfield fun _ => Text.le_of_mem_toString

theorem isClear_truth (hfield : isLabel field = true) {b : Bool} : (truth field b).IsClear := by
  refine isClear_value hfield (Text.le_of_all ?_)
  cases b <;> decide

theorem isClear_group (hfield : isLabel field = true) :
    (group field members).IsClear ↔ ∀ m ∈ members, m.IsClear := by
  cases members with
  | nil => exact iff_of_true (isClear_value hfield (Text.le_of_all (by decide))) nofun
  | cons member members =>
    constructor
    · intro h
      cases h with
      | line _ _ hbelow => exact hbelow
    · exact isClear_line hfield (Text.le_of_all (by decide))

end Outline

/-! ### Types -/

open Outline (isClear_node isClear_text isClear_number isClear_truth isClear_group)

namespace Ty

theorem outlines_eq_map (tys : List Ty) : outlines tys = tys.map outline := by
  induction tys with
  | nil => rfl
  | cons ty tys ih => rw [outlines, ih, List.map_cons]

theorem isClear_outline (ty : Ty) : ty.outline.IsClear := by
  induction ty with
  | prim name => simp (disch := decide) [outline, isClear_node, isClear_text]
  | arrow inputs output hinputs houtput =>
    simpa (disch := decide) [outline, isClear_node, isClear_group, outlines_eq_map, houtput]
      using hinputs
  | pair first second hfirst hsecond =>
    simp (disch := decide) [outline, isClear_node, isClear_group, hfirst, hsecond]
  | data name => simp (disch := decide) [outline, isClear_node, isClear_text]
  | construct name args owner hargs =>
    simpa (disch := decide) [outline, isClear_node, isClear_text, isClear_group, outlines_eq_map]
      using hargs

mutual

/-- `Ty.outline` tells the type. -/
theorem outline_inj : ∀ {a b : Ty}, a.outline = b.outline ↔ a = b
  | prim _, b => by cases b <;> simp [outline]
  | arrow inputs output, b => by
    cases b <;> simp [outline, @outlines_inj inputs, @outline_inj output]
  | pair first second, b => by cases b <;> simp [outline, @outline_inj first, @outline_inj second]
  | data _, b => by cases b <;> simp [outline]
  | construct _ args _, b => by cases b <;> simp [outline, @outlines_inj args]

theorem outlines_inj : ∀ {as bs : List Ty}, outlines as = outlines bs ↔ as = bs
  | [], bs => by cases bs <;> simp [outlines]
  | a :: as, bs => by cases bs <;> simp [outlines, @outline_inj a, @outlines_inj as]

end

end Ty

/-! ### Patterns -/

namespace Pattern

theorem outlines_eq_map (ps : List Pattern) : outlines ps = ps.map outline := by
  induction ps with
  | nil => rfl
  | cons p ps ih => rw [outlines, ih, List.map_cons]

theorem isClear_outline (p : Pattern) : p.outline.IsClear := by
  induction p with
  | wildcard => simp (disch := decide) [outline, isClear_node]
  | binding => simp (disch := decide) [outline, isClear_node, isClear_text]
  | number => simp (disch := decide) [outline, isClear_node, isClear_number]
  | boolean => simp (disch := decide) [outline, isClear_node, isClear_truth]
  | string => simp (disch := decide) [outline, isClear_node, isClear_text]
  | construct name args span hargs =>
    simpa (disch := decide) [outline, isClear_node, isClear_text, isClear_group, outlines_eq_map]
      using hargs
  | pair first second span hfirst hsecond =>
    simp (disch := decide) [outline, isClear_node, isClear_group, hfirst, hsecond]

mutual

/-- `Pattern.outline` tells the pattern apart from its spans. -/
theorem outline_inj : ∀ {p q : Pattern}, p.outline = q.outline ↔ p.same q = true
  | wildcard _, q => by cases q <;> simp [outline, same]
  | binding .., q => by cases q <;> simp [outline, same]
  | number .., q => by cases q <;> simp [outline, same]
  | boolean .., q => by cases q <;> simp [outline, same]
  | string .., q => by cases q <;> simp [outline, same]
  | construct _ args _, q => by cases q <;> simp [outline, same, @outlines_inj args]
  | pair first second _, q => by
    cases q <;> simp [outline, same, @outline_inj first, @outline_inj second]

theorem outlines_inj : ∀ {ps qs : List Pattern}, outlines ps = outlines qs ↔ sameAll ps qs = true
  | [], qs => by cases qs <;> simp [outlines, sameAll]
  | p :: ps, qs => by cases qs <;> simp [outlines, sameAll, @outline_inj p, @outlines_inj ps]

end

end Pattern

/-! ### Expressions -/

theorem BinaryOp.name_inj {op op' : BinaryOp} : op.name = op'.name ↔ op = op' := by
  refine ⟨fun h => ?_, fun h => by rw [h]⟩
  rw [← BinaryOp.ofName_name op, h, BinaryOp.ofName_name]

namespace Expr

theorem outlines_eq_map (es : List Expr) : outlines es = es.map outline := by
  induction es with
  | nil => rfl
  | cons e es ih => rw [outlines, ih, List.map_cons]

theorem isClear_outline (e : Expr) : e.outline.IsClear := by
  induction e with
  | var => simp (disch := decide) [outline, isClear_node, isClear_text]
  | number => simp (disch := decide) [outline, isClear_node, isClear_number]
  | boolean => simp (disch := decide) [outline, isClear_node, isClear_truth]
  | not operand span hoperand =>
    simp (disch := decide) [outline, isClear_node, isClear_group, hoperand]
  | binary op left right span hleft hright =>
    simp (disch := decide) [outline, isClear_node, isClear_text, isClear_group, hleft, hright]
  | cond condition thenBranch elseBranch span hcondition hthen helse =>
    simp (disch := decide) [outline, isClear_node, isClear_group, hcondition, hthen, helse]
  | lambda param paramTy body span hbody =>
    simp (disch := decide) [outline, isClear_node, isClear_text, isClear_group,
      paramTy.isClear_outline, hbody]
  | app head args span hhead hargs =>
    simpa (disch := decide) [outline, isClear_node, isClear_group, outlines_eq_map, hhead]
      using hargs
  | pair first second span hfirst hsecond =>
    simp (disch := decide) [outline, isClear_node, isClear_group, hfirst, hsecond]
  | fst operand span hoperand =>
    simp (disch := decide) [outline, isClear_node, isClear_group, hoperand]
  | snd operand span hoperand =>
    simp (disch := decide) [outline, isClear_node, isClear_group, hoperand]
  | construct name args span hargs =>
    simpa (disch := decide) [outline, isClear_node, isClear_text, isClear_group, outlines_eq_map]
      using hargs
  | cases scrutinee patterns branches span hscrutinee hbranches =>
    simpa (disch := decide) [outline, isClear_node, isClear_group, outlines_eq_map,
      Pattern.outlines_eq_map, Pattern.isClear_outline, hscrutinee] using hbranches

mutual

/-- `Expr.outline` tells the expression apart from its spans. -/
theorem outline_inj : ∀ {e f : Expr}, e.outline = f.outline ↔ e.same f = true
  | var .., f => by cases f <;> simp [outline, same]
  | number .., f => by cases f <;> simp [outline, same]
  | boolean .., f => by cases f <;> simp [outline, same]
  | not operand _, f => by cases f <;> simp [outline, same, @outline_inj operand]
  | binary op left right _, f => by
    cases f <;> simp [outline, same, BinaryOp.name_inj, @outline_inj left, @outline_inj right,
      and_assoc]
  | cond condition thenBranch elseBranch _, f => by
    cases f <;> simp [outline, same, @outline_inj condition, @outline_inj thenBranch,
      @outline_inj elseBranch, and_assoc]
  | lambda param paramTy body _, f => by
    cases f <;> simp [outline, same, Ty.outline_inj, @outline_inj body, and_assoc]
  | app head args _, f => by
    cases f <;> simp [outline, same, @outline_inj head, @outlines_inj args]
  | pair first second _, f => by
    cases f <;> simp [outline, same, @outline_inj first, @outline_inj second]
  | fst operand _, f => by cases f <;> simp [outline, same, @outline_inj operand]
  | snd operand _, f => by cases f <;> simp [outline, same, @outline_inj operand]
  | construct name args _, f => by cases f <;> simp [outline, same, @outlines_inj args]
  | cases scrutinee patterns branches _, f => by
    cases f <;> simp [outline, same, Pattern.outlines_inj, @outline_inj scrutinee,
      @outlines_inj branches, and_assoc]

theorem outlines_inj : ∀ {es fs : List Expr}, outlines es = outlines fs ↔ sameAll es fs = true
  | [], fs => by cases fs <;> simp [outlines, sameAll]
  | e :: es, fs => by cases fs <;> simp [outlines, sameAll, @outline_inj e, @outlines_inj es]

end

end Expr

/-! ### Programs -/

/-- Where `outline` tells subjects apart, the outlines of a list tell the list. -/
theorem Outline.map_inj {β : Type} {outline : β → Outline} {same : β → β → Bool}
    (h : ∀ a b, outline a = outline b ↔ same a b = true) (as bs : List β) :
    as.map outline = bs.map outline ↔
      (as.length = bs.length && (as.zip bs).all fun (a, b) => same a b) = true := by
  induction as generalizing bs with
  | nil => cases bs <;> simp
  | cons a as ih =>
    cases bs with
    | nil => simp
    | cons b bs =>
      have htail := ih bs
      simp only [Bool.and_eq_true, decide_eq_true_eq] at htail ⊢
      simp only [List.map_cons, List.cons.injEq, List.length_cons, List.zip_cons_cons,
        List.all_cons, Bool.and_eq_true, Nat.add_right_cancel_iff, h, htail]
      tauto

/-- `ConstructorDecl.outline` tells the declaration apart from its span. -/
theorem ConstructorDecl.outline_inj (c d : ConstructorDecl) :
    c.outline = d.outline ↔ c.same d = true := by
  simp [outline, same, Ty.outlines_inj]

theorem ConstructorDecl.isClear_outline (c : ConstructorDecl) : c.outline.IsClear := by
  simp (disch := decide) [outline, isClear_node, isClear_text, isClear_group, Ty.outlines_eq_map,
    Ty.isClear_outline]

namespace Stmt

/-- `Stmt.outline` tells the statement apart from its spans. -/
theorem outline_inj (s t : Stmt) : s.outline = t.outline ↔ s.same t = true := by
  cases s with
  | define name value span => cases t <;> simp [outline, same, Expr.outline_inj]
  | assign target value span => cases t <;> simp [outline, same, Expr.outline_inj]
  | print value span => cases t <;> simp [outline, same, Expr.outline_inj]
  | data name constructors span =>
    cases t with
    | data name' constructors' span' =>
      have hconstructors := Outline.map_inj ConstructorDecl.outline_inj constructors constructors'
      rw [outline, outline, same, Bool.and_assoc, Bool.and_eq_true, decide_eq_true_eq]
      simp [hconstructors]
    | _ => simp [outline, same]

theorem isClear_outline (s : Stmt) : s.outline.IsClear := by
  cases s with
  | define name value span =>
    simp (disch := decide) [outline, isClear_node, isClear_text, isClear_group,
      value.isClear_outline]
  | assign target value span =>
    simp (disch := decide) [outline, isClear_node, isClear_group, target.isClear_outline,
      value.isClear_outline]
  | print value span =>
    simp (disch := decide) [outline, isClear_node, isClear_group, value.isClear_outline]
  | data name constructors span =>
    simp (disch := decide) [outline, isClear_node, isClear_text, isClear_group,
      ConstructorDecl.isClear_outline]

end Stmt

namespace Program

/-- The outlines of a program are `Outline.IsClear`. -/
theorem isClear_outlines (p : Program) : ∀ o ∈ p.map Stmt.outline, o.IsClear := by
  intro o ho
  obtain ⟨s, -, rfl⟩ := List.mem_map.mp ho
  exact s.isClear_outline

/-- The text that is printed for a program tells the program. For a program its `outlineLines` are
printed, line by line and with nothing removed, and two programs are printed alike exactly if they
are equal apart from spans, as `Program.same` decides. -/
theorem view_tells (p q : Program) :
    (Outcome.success (p.outlineLines.map .printed)).stdout =
        String.join (p.outlineLines.map (· ++ "\n")) ∧
      ((Outcome.success (p.outlineLines.map .printed)).stdout =
          (Outcome.success (q.outlineLines.map .printed)).stdout ↔
        p.same q = true) := by
  refine ⟨Outline.stdout_linesOf p.isClear_outlines, ?_⟩
  have houtlines : p.map Stmt.outline = q.map Stmt.outline ↔ p.same q = true :=
    Outline.map_inj Stmt.outline_inj p q
  rw [← houtlines]
  constructor
  · exact Outline.stdout_linesOf_inj p.isClear_outlines q.isClear_outlines
  · intro h
    rw [outlineLines, outlineLines, h]

end Program

end Casewise

import Casewise.Proofs.Reading.Strings
import Casewise.Proofs.Writing.Programs

/-!
# What can be relied on in a program

A program that has been read is well-formed: everywhere in it, whatever is nested in whatever,
patterns and branches pair up, numbers are not negative, operators are known, functions have inputs,
data types are declared, and a name in a pattern means nothing else there.

## Main definitions

* `Ty.parts`, `Stmt.parts`, `Stmt.patterns`, `Stmt.types`: everything in a type and in a statement.
* `Stmt.WellFormed`: what can be relied on in a statement, after the statements before it.

## Main statements

* `Expr.Readable.of_mem_parts`, `Expr.Readable.of_mem_patterns`: whatever is in a readable
  expression is readable.
* `Program.Readable.wellFormed`: the statements of a readable program are well-formed.
-/

namespace Casewise

/-! ### What is in types -/

mutual

/-- The type and all types in it. -/
def Ty.parts : Ty → List Ty
  | arrow inputs output => arrow inputs output :: (partsAll inputs ++ parts output)
  | pair first second => pair first second :: (parts first ++ parts second)
  | construct name args owner => construct name args owner :: partsAll args
  | ty => [ty]

/-- The types and all types in them. -/
def Ty.partsAll : List Ty → List Ty
  | [] => []
  | ty :: tys => parts ty ++ partsAll tys

end

theorem Ty.mem_partsAll {tys : List Ty} {ty : Ty} :
    ty ∈ Ty.partsAll tys ↔ ∃ ty' ∈ tys, ty ∈ ty'.parts := by
  induction tys with
  | nil => simp [Ty.partsAll]
  | cons ty' tys ih => simp [Ty.partsAll, ih]

variable {d : Declared}

/-- `Ty.Readable` passes to `parts`. -/
theorem Ty.Readable.of_mem_parts {ty : Ty} (h : ty.Readable d) :
    ∀ ty' ∈ ty.parts, ty'.Readable d := by
  intro ty' hmem
  induction h with
  | prim h =>
    rw [List.mem_singleton.mp hmem]
    exact .prim h
  | arrow hne hinputs houtput ihInputs ihOutput =>
    rw [Ty.parts, List.mem_cons, List.mem_append, Ty.mem_partsAll] at hmem
    rcases hmem with rfl | ⟨input, hinput, hmem⟩ | hmem
    · exact .arrow hne hinputs houtput
    · exact ihInputs input hinput hmem
    · exact ihOutput hmem
  | pair hfirst hsecond ihFirst ihSecond =>
    rw [Ty.parts, List.mem_cons, List.mem_append] at hmem
    rcases hmem with rfl | hmem | hmem
    · exact .pair hfirst hsecond
    · exact ihFirst hmem
    · exact ihSecond hmem
  | data hatom hbuiltin hdeclared =>
    rw [List.mem_singleton.mp hmem]
    exact .data hatom hbuiltin hdeclared

/-! ### What is in patterns and expressions -/

/-- `Pattern.Readable` passes to `parts`. -/
theorem Pattern.Readable.of_mem_parts {p : Pattern} (h : p.Readable d) :
    ∀ q ∈ p.parts, q.Readable d := by
  intro q hmem
  induction h with
  | construct hatom hname hargs ihArgs =>
    rw [Pattern.parts, List.mem_cons, Pattern.mem_partsAll] at hmem
    rcases hmem with rfl | ⟨arg, harg, hmem⟩
    · exact .construct hatom hname hargs
    · exact ihArgs arg harg hmem
  | pair hfirst hsecond ihFirst ihSecond =>
    rw [Pattern.parts, List.mem_cons, List.mem_append] at hmem
    rcases hmem with rfl | hmem | hmem
    · exact .pair hfirst hsecond
    · exact ihFirst hmem
    · exact ihSecond hmem
  | wildcard span =>
    rw [List.mem_singleton.mp hmem]
    exact .wildcard span
  | binding hatom h =>
    rw [List.mem_singleton.mp hmem]
    exact .binding hatom h
  | number hdigits =>
    rw [List.mem_singleton.mp hmem]
    exact .number hdigits
  | boolean value span =>
    rw [List.mem_singleton.mp hmem]
    exact .boolean value span
  | string hatom =>
    rw [List.mem_singleton.mp hmem]
    exact .string hatom

/-- Induction over `children`, what expressions are built from. -/
theorem Expr.children_induction {motive : Expr → Prop}
    (h : ∀ e : Expr, (∀ c ∈ e.children, motive c) → motive e) (e : Expr) : motive e := by
  induction e with
  | var name span => exact h _ (by simp [children])
  | number value span => exact h _ (by simp [children])
  | boolean value span => exact h _ (by simp [children])
  | not operand span ih => exact h _ (by simpa [children] using ih)
  | binary op left right span ihLeft ihRight => exact h _ (by simp [children, ihLeft, ihRight])
  | cond condition thenBranch elseBranch span ihCondition ihThen ihElse =>
    exact h _ (by simp [children, ihCondition, ihThen, ihElse])
  | lambda param paramTy body span ih => exact h _ (by simpa [children] using ih)
  | app head args span ihHead ihArgs => exact h _ (List.forall_mem_cons.mpr ⟨ihHead, ihArgs⟩)
  | pair first second span ihFirst ihSecond => exact h _ (by simp [children, ihFirst, ihSecond])
  | fst operand span ih => exact h _ (by simpa [children] using ih)
  | snd operand span ih => exact h _ (by simpa [children] using ih)
  | construct name args span ih => exact h _ ih
  | cases scrutinee patterns branches span ihScrutinee ihBranches =>
    exact h _ (List.forall_mem_cons.mpr ⟨ihScrutinee, ihBranches⟩)

/-- `Expr.Readable` passes to `children`. -/
theorem Expr.Readable.children {e : Expr} (h : e.Readable d) : ∀ c ∈ e.children, c.Readable d := by
  cases h with
  | app hlead hhead hargs => exact List.forall_mem_cons.mpr ⟨hhead, hargs⟩
  | construct hatom hname hargs => exact hargs
  | cases hscrutinee hlength hpatterns hbranches =>
    exact List.forall_mem_cons.mpr ⟨hscrutinee, hbranches⟩
  | _ => simp_all [Expr.children]

/-- `Expr.Readable` passes to the patterns of the arms. -/
theorem Expr.Readable.ownPatterns {e : Expr} (h : e.Readable d) :
    ∀ p ∈ e.ownPatterns, p.Readable d := by
  cases h with
  | cases hscrutinee hlength hpatterns hbranches => exact hpatterns
  | _ => simp [Expr.ownPatterns]

/-- `Expr.Readable` passes to `parts`. -/
theorem Expr.Readable.of_mem_parts {e : Expr} (h : e.Readable d) : ∀ x ∈ e.parts, x.Readable d := by
  induction e using Expr.children_induction with
  | h e ih =>
    rw [Expr.parts_eq, List.forall_mem_cons, Expr.forall_mem_partsAll]
    exact ⟨h, fun c hc => ih c hc (h.children c hc)⟩

/-- `Expr.Readable` passes to `patterns`. -/
theorem Expr.Readable.of_mem_patterns {e : Expr} (h : e.Readable d) :
    ∀ p ∈ e.patterns, p.Readable d := by
  induction e using Expr.children_induction with
  | h e ih =>
    rw [Expr.patterns_eq, List.forall_mem_append, Pattern.forall_mem_partsAll,
      Expr.forall_mem_patternsAll]
    refine ⟨fun p hp => ?_, fun c hc => ih c hc (h.children c hc)⟩
    exact (h.ownPatterns p hp).of_mem_parts

/-! ### What is in statements -/

/-- The types that an expression gives to parameters. -/
def Expr.paramTys : Expr → List Ty
  | lambda _ paramTy _ _ => [paramTy]
  | _ => []

namespace Stmt

/-- All expressions in a statement. -/
def parts (s : Stmt) : List Expr :=
  Expr.partsAll s.exprs

/-- All patterns in a statement. -/
def patterns (s : Stmt) : List Pattern :=
  Expr.patternsAll s.exprs

/-- All types in a statement: those of fields and of parameters, and the types in them. -/
def types (s : Stmt) : List Ty :=
  Ty.partsAll (s.constructors.flatMap ConstructorDecl.fields ++ s.parts.flatMap Expr.paramTys)

/-- What can be relied on in a statement that comes after the statements `before`. -/
structure WellFormed (before : Program) (s : Stmt) : Prop where
  /-- A match has as many patterns as branches. -/
  arms : ∀ scrutinee patterns branches span,
    .cases scrutinee patterns branches span ∈ s.parts → patterns.length = branches.length
  /-- A number is not negative. -/
  number : ∀ n span, .number n span ∈ s.parts → 0 ≤ n
  /-- A number in a pattern is not negative. -/
  numberPattern : ∀ n span, .number n span ∈ s.patterns → 0 ≤ n
  /-- A binary operator is one that the language knows. -/
  operator : ∀ op left right span,
    .binary op left right span ∈ s.parts → op ∈ [.plus, .eq, .and, .or]
  /-- A function type has an input. -/
  input : ∀ inputs output, .arrow inputs output ∈ s.types → inputs ≠ []
  /-- No type is that of a constructor. -/
  construct : ∀ name args owner, .construct name args owner ∉ s.types
  /-- A data type is declared before, or by the statement itself. -/
  dataType : ∀ name, .data name ∈ s.types →
    ∃ constructors span, .data name constructors span ∈ before ++ [s]
  /-- A name in a pattern is no word and no literal, and no constructor without fields by its latest
  declaration. -/
  bindingName : ∀ name span, .binding name span ∈ s.patterns →
    name ≠ "_" ∧ name ≠ "true" ∧ name ≠ "false" ∧
      (¬ ∀ c ∈ name.toList, Text.isDigit c = true) ∧ Text.isQuoted name = false ∧
      before.arity? name ≠ some 0

end Stmt

/-! ### Readable statements -/

/-- `Stmt.Readable` passes to the expressions. -/
theorem Stmt.Readable.exprs {s : Stmt} (h : s.Readable d) : ∀ e ∈ s.exprs, e.Readable d := by
  cases h with
  | define hatom hvalue => simpa [Stmt.exprs] using hvalue
  | assign htarget hvalue => simpa [Stmt.exprs] using ⟨htarget, hvalue⟩
  | print hvalue => simpa [Stmt.exprs] using hvalue
  | data => simp [Stmt.exprs]

theorem Stmt.Readable.of_mem_parts {s : Stmt} (h : s.Readable d) : ∀ x ∈ s.parts, x.Readable d :=
  Expr.forall_mem_partsAll.mpr fun e he => (h.exprs e he).of_mem_parts

theorem Stmt.Readable.of_mem_patterns {s : Stmt} (h : s.Readable d) :
    ∀ p ∈ s.patterns, p.Readable d :=
  Expr.forall_mem_patternsAll.mpr fun e he => (h.exprs e he).of_mem_patterns

/-- A type that is readable after declarations is readable after more data types. -/
theorem Ty.Readable.of_subset {d' : Declared} (hd : d.dataTypes ⊆ d'.dataTypes) {ty : Ty}
    (h : ty.Readable d) : ty.Readable d' := by
  induction h with
  | prim h => exact .prim h
  | arrow hne _ _ ihInputs ihOutput => exact .arrow hne ihInputs ihOutput
  | pair _ _ ihFirst ihSecond => exact .pair ihFirst ihSecond
  | data hatom hbuiltin hmem => exact .data hatom hbuiltin (hd hmem)

/-- Statements only add `dataTypes`, and only those they declare. -/
theorem Declared.mem_dataTypes_after {s : Stmt} {name : String} :
    name ∈ (d.after s).dataTypes ↔
      name ∈ d.dataTypes ∨ ∃ constructors span, s = .data name constructors span := by
  cases s with
  | data own constructors span =>
    have hown : (∃ constructors' span', Stmt.data own constructors span =
        .data name constructors' span') ↔ name = own :=
      ⟨fun ⟨_, _, h⟩ => by cases h; rfl, fun h => ⟨constructors, span, by rw [h]⟩⟩
    rw [after, addConstructors, addType, hown]
    split
    · next hmem => exact ⟨.inl, fun h => h.elim id fun h => h ▸ hmem⟩
    · rw [List.mem_cons, or_comm]
  | _ => simp [after]

/-- A data type is in `dataTypes` after a program if it was before or the program declares it. -/
theorem Declared.mem_dataTypes_foldl {p : Program} {name : String} :
    name ∈ (p.foldl Declared.after d).dataTypes ↔
      name ∈ d.dataTypes ∨ ∃ constructors span, .data name constructors span ∈ p := by
  induction p generalizing d with
  | nil => simp
  | cons s p ih =>
    rw [List.foldl_cons, ih, Declared.mem_dataTypes_after, or_assoc]
    refine or_congr_right ⟨?_, ?_⟩
    · rintro (⟨constructors, span, rfl⟩ | ⟨constructors, span, hmem⟩)
      · exact ⟨constructors, span, List.mem_cons_self⟩
      · exact ⟨constructors, span, List.mem_cons_of_mem s hmem⟩
    · rintro ⟨constructors, span, hmem⟩
      rcases List.mem_cons.mp hmem with rfl | hmem
      · exact .inl ⟨constructors, span, rfl⟩
      · exact .inr ⟨constructors, span, hmem⟩

/-- Whatever type is in a readable statement is readable after the statement. -/
theorem Stmt.Readable.of_mem_types {s : Stmt} (h : s.Readable d) :
    ∀ ty ∈ s.types, ty.Readable (d.after s) := by
  have hsubset : d.dataTypes ⊆ (d.after s).dataTypes := fun name hname =>
    Declared.mem_dataTypes_after.mpr (.inl hname)
  intro ty hmem
  rw [Stmt.types, Ty.mem_partsAll] at hmem
  obtain ⟨ty', hmem', hmem⟩ := hmem
  refine Ty.Readable.of_mem_parts ?_ ty hmem
  rcases List.mem_append.mp hmem' with hfield | hparam
  · cases h with
    | data hatom hnames hfields =>
      obtain ⟨c, hc, hfield⟩ := List.mem_flatMap.mp hfield
      refine Ty.Readable.of_subset ?_ (hfields c hc ty' hfield)
      exact fun _ hname => hname
    | _ => simp [Stmt.constructors] at hfield
  · obtain ⟨e, he, hparam⟩ := List.mem_flatMap.mp hparam
    have hreadable := h.of_mem_parts e he
    cases hreadable with
    | lambda hatom hparamTy hbody =>
      rw [List.mem_singleton.mp hparam]
      exact hparamTy.of_subset hsubset
    | _ => simp [Expr.paramTys] at hparam

theorem BinaryOp.mem_of_ofSymbol? {symbol : String} {op : BinaryOp}
    (h : BinaryOp.ofSymbol? symbol = some op) : op ∈ [.plus, .eq, .and, .or] := by
  simp only [BinaryOp.ofSymbol?] at h
  grind

/-- A readable statement is `WellFormed` after the statements whose declarations it is read with. -/
theorem Stmt.Readable.wellFormed {before : Program} {s : Stmt}
    (h : s.Readable (before.foldl Declared.after {})) : s.WellFormed before where
  arms scrutinee patterns branches span hmem := by
    cases h.of_mem_parts _ hmem with
    | cases hscrutinee hlength hpatterns hbranches => exact hlength
  number n span hmem := by
    cases h.of_mem_parts _ hmem with
    | number => exact Int.natCast_nonneg _
  numberPattern n span hmem := by
    cases h.of_mem_patterns _ hmem with
    | number => exact Int.natCast_nonneg _
  operator op left right span hmem := by
    cases h.of_mem_parts _ hmem with
    | binary hop hleft hright => exact BinaryOp.mem_of_ofSymbol? hop
  input inputs output hmem := by
    cases h.of_mem_types _ hmem with
    | arrow hne hinputs houtput => exact hne
  construct name args owner hmem := by
    cases h.of_mem_types _ hmem
  dataType name hmem := by
    cases h.of_mem_types _ hmem with
    | data hatom hbuiltin hdeclared =>
      -- the declarations after the statement are those after the program that ends with it
      have hafter : (before.foldl Declared.after {}).after s =
          (before ++ [s]).foldl Declared.after {} := by
        rw [List.foldl_append, List.foldl_cons, List.foldl_nil]
      rw [hafter, Declared.mem_dataTypes_foldl] at hdeclared
      exact hdeclared.resolve_left (by simp)
  bindingName name span hmem := by
    cases h.of_mem_patterns _ hmem with
    | binding hatom hname =>
      obtain ⟨hwild, htrue, hfalse, hdecimal, hstring, hnullary⟩ :=
        Pattern.of_ofAtom_eq_binding hname
      refine ⟨hwild, htrue, hfalse, (decimal?_eq_none_iff hatom).mp hdecimal, ?_, ?_⟩
      · rw [Bool.eq_false_iff]
        intro hquoted
        rw [Text.isStringLiteral_of_isQuoted hatom hquoted] at hstring
        cases hstring
      · have hget := Program.get?_foldl_after before {} name
        rw [Declared.isNullary, decide_eq_false_iff_not, hget] at hnullary
        intro harity
        rw [harity] at hnullary
        exact hnullary rfl

/-- Each statement of a readable program is `WellFormed` after those before it. -/
theorem Program.Readable.wellFormed {p : Program} (h : p.Readable {}) :
    ∀ before s after, p = before ++ s :: after → s.WellFormed before := by
  rintro before s after rfl
  exact (Program.readable_append.mp h).2.1.wellFormed

end Casewise

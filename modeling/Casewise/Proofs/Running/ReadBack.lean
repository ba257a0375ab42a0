import Casewise.Proofs.Running.Reached
import Casewise.Proofs.Writing.Values

/-!
# Reading back what a session displays

A session reads programs, checks them and runs them, in any order and with any number of failures on
the way. Two things know about the constructors: reading, which has seen their declarations, and the
root, where the declarations that were executed have bound them. What the root knows has been read
before, so the text of a value that has no functions in it is read as the value again.

Reading is ahead of running, though. A constructor without fields that is declared in a statement
that failed, or was not reached, is known to reading alone. If it is named like a string, that
string reads as the constructor from then on.

## Main definitions

* `Session.Lived`: the sessions that reading, checking and running lead to.
* `Session.Unambiguous`: no name stands in the way of reading values back.
* `Session.Yields`: the values of the expressions of a session.

## Main statements

* `Session.Lived.knows`: what the root of a session knows has been read.
* `Session.Lived.displayed_reads_back`: what a session displays is read as the value that was
  displayed.
-/

namespace Casewise

/-! ### Reading remembers constructors -/

namespace Declared

/-- No constructor is forgotten. -/
def Remembers (d d' : Declared) : Prop :=
  ∀ name, d.constructors.contains name = true → d'.constructors.contains name = true

theorem Remembers.trans {d d' d'' : Declared} (h : d.Remembers d') (h' : d'.Remembers d'') :
    d.Remembers d'' :=
  fun name hname => h' name (h name hname)

theorem mem_nullary {d : Declared} {name : String} :
    name ∈ d.nullary ↔ d.isNullary name = true := by
  rw [nullary, List.mem_filter, and_iff_right_iff_imp, isNullary, decide_eq_true_eq,
    ← Table.contains_iff, Table.contains]
  intro h
  rw [h]
  rfl

/-- A constructor is known after `addConstructors` if it is declared there or known before. -/
theorem contains_addConstructors {d : Declared} {cs : List ConstructorDecl} {name : String} :
    (d.addConstructors cs).constructors.contains name = true ↔
      (∃ c ∈ cs, c.name = name) ∨ d.constructors.contains name = true := by
  rw [addConstructors, Table.contains, get?_foldl_insert, Option.isSome_or, Bool.or_eq_true,
    Option.isSome_map, List.find?_isSome]
  simp [Table.contains]

end Declared

namespace Reading

/-- However it ends, reading forgets no constructor. -/
def Remembers {α : Type} (r : Reading α) : Prop :=
  ∀ d : Declared, d.Remembers (outcome r d).2

namespace Remembers

variable {α β : Type}

theorem throw (f : Failure) : (throw f : Reading α).Remembers :=
  fun _ _ h => h

theorem pure (a : α) : (Pure.pure a : Reading α).Remembers :=
  fun _ _ h => h

theorem withDeclared (f : Declared → Except Failure α) : (withDeclared f).Remembers :=
  fun _ _ h => h

theorem bind {r : Reading α} {f : α → Reading β} (hr : r.Remembers) (hf : ∀ a, (f a).Remembers) :
    (r >>= f).Remembers :=
  rel_outcome_bind Declared.Remembers .trans hr hf

/-- `addType` forgets no constructor. -/
theorem addType (name : String) : (modify (·.addType name) : Reading PUnit).Remembers := by
  intro d other h
  change (d.addType name).constructors.contains other = true
  rw [Declared.addType]
  split
  · exact h
  · exact h

theorem addConstructors (cs : List ConstructorDecl) :
    (modify (·.addConstructors cs) : Reading PUnit).Remembers :=
  fun _ _ h => Declared.contains_addConstructors.mpr (.inr h)

theorem mapM {f : α → Reading β} (h : ∀ a, (f a).Remembers) (as : List α) :
    (as.mapM f).Remembers :=
  mapM_closed pure bind fun a _ => h a

end Remembers

end Reading

/-- `Stmt.ofSexp` forgets no constructor. -/
theorem Stmt.remembers_ofSexp (e : Sexp) : (Stmt.ofSexp e).Remembers := by
  rw [Stmt.ofSexp.eq_def]
  split
  · exact .throw _
  · split
    · exact .bind (.withDeclared _) fun value => .pure _
    · exact .throw _
    · exact .throw _
  · split
    · exact .bind (.withDeclared _) fun target => .bind (.withDeclared _) fun value => .pure _
    · exact .throw _
  · split
    · exact .bind (.withDeclared _) fun value => .pure _
    · exact .throw _
  · split
    · refine .bind (.addType _) fun _ => .bind (.withDeclared _) fun cs => ?_
      exact .bind (.addConstructors cs) fun _ => .pure _
    · exact .throw _
  · exact .throw _
  · exact .throw _

theorem Program.remembers_read (file source : String) : (Program.read file source).Remembers := by
  rw [Program.read]
  exact .bind (.withDeclared _) fun forms => .mapM Stmt.remembers_ofSexp forms

/-- The constructors of a program that `Program.read` has read are known from then on. -/
theorem Program.contains_of_read {file source : String} {d d' : Declared} {p : Program}
    (h : outcome (Program.read file source) d = (.ok p, d')) :
    ∀ s ∈ p, ∀ c ∈ s.constructors, d'.constructors.contains c.name = true := by
  obtain ⟨es, hes, hp⟩ := Program.outcome_read_eq_ok.mp h
  clear h hes
  induction es generalizing d p with
  | nil =>
    cases hp
    exact fun s hs => absurd hs List.not_mem_nil
  | cons e es ih =>
    obtain ⟨s, d₁, q, hs, hq, rfl⟩ := outcome_mapM_cons_eq_ok.mp hp
    refine List.forall_mem_cons.mpr ⟨fun c hc => ?_, ih hq⟩
    -- the statement adds its constructors, and the statements after it forget none
    obtain ⟨-, rfl⟩ := Stmt.outcome_ofSexp_eq_ok.mp hs
    have hadded : (d.after s).constructors.contains c.name = true := by
      rw [Table.contains, Declared.constructors_after]
      exact Declared.contains_addConstructors.mpr (.inl ⟨c, hc, rfl⟩)
    have hlater := Reading.Remembers.mapM Stmt.remembers_ofSexp es (d.after s) c.name hadded
    rwa [hq] at hlater

/-! ### Names of constructors -/

/-- The names that say what a list is when they stand in front of it. -/
def Head.reserved : List String :=
  ["not", "fst", "snd", "if", "lambda", "pair", "match", "+", "=", "and", "or"]

/-- A declared constructor in front of a list builds data, unless its name is `reserved`. -/
theorem Head.of_constructor {d : Declared} {name : String} (hname : name ∉ reserved)
    (hmem : d.constructors.contains name = true) (span : Span) :
    Head.of d (.atom name span) = .construct name := by
  simp only [reserved, List.mem_cons, List.not_mem_nil, or_false, not_or] at hname
  simp [Head.of, BinaryOp.ofSymbol?, hname, hmem]

/-- `construct` of a constructor that the scope does not know builds nothing, however deep
evaluations may nest. -/
theorem evaluate_construct_ne_ok {s : ScopeId} {name : String} {m : Machine}
    (h : (m.scopes.registry s).constructor? name = none) (depth : ℕ) (span : Option Span)
    (v : Value) :
    (outcome (evaluate depth s (.construct name [] span)) m).1 ≠ .ok v := by
  cases depth with
  | zero => exact nofun
  | succ depth =>
    have hbuild (m' : Machine) (hscopes : m'.scopes = m.scopes) :
        outcome (Evaluator.construct s name [] span) m' =
          (.error (.error ⟨.unboundName name, span⟩), m') := by
      have hfind : outcome (Run.withScopes (·.registry s)) m' =
          (.ok (m.scopes.registry s), m') := by
        rw [← hscopes]
        rfl
      rw [Evaluator.construct, outcome_bind_of_ok hfind, h]
      rfl
    change ((outcome (Evaluator.construct s name [] span) (m.log _)).1.mapError _) ≠ _
    rw [hbuild (m.log _) rfl]
    exact nofun

/-! ### Sessions -/

/-- The expression was read from a text, as a whole or in a statement, after some declarations. -/
def Expr.IsRead (e : Expr) : Prop :=
  (∃ file source d d', outcome (Expr.read file source) d = (.ok e, d')) ∨
    ∃ s : Stmt, s.IsRead ∧ e ∈ s.parts

/-- What was read from a text is `Readable`. -/
theorem Expr.IsRead.readable {e : Expr} (h : e.IsRead) : ∃ d, e.Readable d := by
  rcases h with ⟨file, source, d, d', hread⟩ | ⟨s, hs, he⟩
  · rw [Expr.read, outcome_withDeclared_bind_eq_ok] at hread
    obtain ⟨form, hform, hread⟩ := hread
    have hone := readOne_eq_ok_iff.mp (mapError_eq_ok.mp hform)
    have hreadable := isReadable_of_read hone form List.mem_cons_self
    exact ⟨d, (Expr.OfSexp.of_ofSexp (congrArg Prod.fst hread)).readable hreadable⟩
  · obtain ⟨d, hread⟩ := hs.readable
    exact ⟨d, hread.of_mem_parts e he⟩

namespace Session

/-- The sessions that begin at the start, with the statements that were read in them. Statements are
checked and executed whenever and as often as one likes, whether this has failed for others or
not. -/
inductive Lived : List Stmt → Session → Prop
  | start (builtins recording : Bool) (maxDigits : Option ℕ) :
    Lived [] (start builtins recording maxDigits)
  | read {known : List Stmt} {σ σ' : Session} (h : Lived known σ) {file source : String}
    {p : Program}
    (hread : σ.read (Program.read file source) = (.ok p, σ')) : Lived (known ++ p) σ'
  | misread {known : List Stmt} {σ σ' : Session} (h : Lived known σ) {file source : String}
    {f : Failure} (hread : σ.read (Program.read file source) = (.error f, σ')) : Lived known σ'
  | check {known : List Stmt} {σ : Session} (h : Lived known σ) {s : Stmt} (hs : s ∈ known) :
    Lived known (σ.check (Check.stmt s)).2
  | run {known : List Stmt} {σ : Session} (h : Lived known σ) {s : Stmt} (hs : s ∈ known)
    (depth : ℕ) : Lived known (σ.run (Execute.stmt depth · s)).2.2
  | evaluate {known : List Stmt} {σ : Session} (h : Lived known σ) {e : Expr} (he : e.IsRead)
    (depth : ℕ) : Lived known (σ.run (Casewise.evaluate depth · e)).2.2

/-- What is true of the sessions that were lived: the scopes are sound, and whatever constructor the
root knows is known to reading from a statement that was read. -/
structure Knows (σ : Session) (known : List Stmt) : Prop where
  /-- Statements are executed at the root. -/
  scope : σ.scope = Machine.root
  /-- The scopes are sound. -/
  valid : σ.machine.scopes.Valid
  /-- The statements were read. -/
  isRead : ∀ s ∈ known, s.IsRead
  /-- Reading knows the constructors of the statements. -/
  declared : ∀ s ∈ known, ∀ c ∈ s.constructors, σ.declared.constructors.contains c.name = true
  /-- The root knows no other constructors. -/
  registered : ∀ name info, (σ.machine.scopes.registry Machine.root).constructor? name = some info →
    ∃ s ∈ known, ∃ c ∈ s.constructors, c.name = name

namespace Knows

variable {σ : Session} {known : List Stmt}

/-- Before the first text nothing is known, by `Knows []`. -/
theorem start (builtins recording : Bool) (maxDigits : Option ℕ) :
    (Session.start builtins recording maxDigits).Knows [] where
  scope := rfl
  valid := .initial builtins recording
  isRead s hs := absurd hs List.not_mem_nil
  declared s hs := absurd hs List.not_mem_nil
  registered name info h := by cases h

/-- Reading a program with `Program.read` makes its constructors known to reading. -/
theorem read (h : σ.Knows known) {file source : String} {p : Program} {σ' : Session}
    (hread : σ.read (Program.read file source) = (.ok p, σ')) : σ'.Knows (known ++ p) := by
  obtain ⟨hok, rfl⟩ := Prod.mk.inj hread
  have hout : outcome (Program.read file source) σ.declared =
      (.ok p, (outcome (Program.read file source) σ.declared).2) := Prod.ext hok rfl
  have hnew := Program.contains_of_read hout
  have hold := Program.remembers_read file source σ.declared
  refine ⟨h.scope, h.valid, fun s hs => ?_, fun s hs c hc => ?_, fun name info hinfo => ?_⟩
  · rcases List.mem_append.mp hs with hs | hs
    · exact h.isRead s hs
    · exact ⟨file, source, _, p, _, hout, hs⟩
  · rcases List.mem_append.mp hs with hs | hs
    · exact hold c.name (h.declared s hs c hc)
    · exact hnew s hs c hc
  · obtain ⟨s, hs, hc⟩ := h.registered name info hinfo
    exact ⟨s, List.mem_append_left p hs, hc⟩

/-- Reading a text that is no program keeps `Knows`. -/
theorem misread (h : σ.Knows known) {file source : String} {f : Failure} {σ' : Session}
    (hread : σ.read (Program.read file source) = (.error f, σ')) : σ'.Knows known := by
  obtain ⟨-, rfl⟩ := Prod.mk.inj hread
  have hold := Program.remembers_read file source σ.declared
  exact { h with declared := fun s hs c hc => hold c.name (h.declared s hs c hc) }

/-- Executing a statement that was read keeps `Knows`: its constructors become known to the root at
most. -/
theorem run (h : σ.Knows known) {s : Stmt} (hs : s ∈ known) (depth : ℕ) :
    (σ.run (Execute.stmt depth · s)).2.2.Knows known := by
  have hrun : (σ.run (Execute.stmt depth · s)).2.2 =
      { σ with machine := (outcome (Execute.stmt depth σ.scope s) σ.machine).2 } := rfl
  rw [hrun, h.scope]
  obtain ⟨hvalid, hadds, -⟩ := Machine.valid_stmt h.valid (h.isRead s hs) depth
  refine ⟨rfl, hvalid, h.isRead, h.declared, fun name info hinfo => ?_⟩
  rcases hadds name info hinfo with hinfo | hc
  · exact h.registered name info hinfo
  · exact ⟨s, hs, hc⟩

theorem registry_eq (h : σ.Knows known) {m : Machine} (hgrows : σ.machine.Grows m) :
    m.scopes.registry Machine.root = σ.machine.scopes.registry Machine.root :=
  hgrows.registry_eq h.valid.rooted.size_pos

/-- Evaluating an expression keeps `Knows`. -/
theorem evaluate (h : σ.Knows known) {e : Expr} (he : e.IsRead) (depth : ℕ) :
    (σ.run (Casewise.evaluate depth · e)).2.2.Knows known := by
  have hrun : (σ.run (Casewise.evaluate depth · e)).2.2 =
      { σ with machine := (outcome (Casewise.evaluate depth σ.scope e) σ.machine).2 } := rfl
  rw [hrun, h.scope]
  obtain ⟨d, hread⟩ := he.readable
  have hvalid := (Machine.valid_evaluate h.valid hread h.valid.rooted.size_pos depth).1
  have hregistry := h.registry_eq (onlyAdds_evaluate depth Machine.root e σ.machine)
  refine ⟨rfl, hvalid, h.isRead, h.declared, fun name info hinfo => ?_⟩
  exact h.registered name info (hregistry ▸ hinfo)

end Knows

/-- What the root of a session knows has been read: `Lived` implies `Knows`. -/
theorem Lived.knows {known : List Stmt} {σ : Session} (h : σ.Lived known) : σ.Knows known := by
  induction h with
  | start builtins recording maxDigits => exact .start builtins recording maxDigits
  | read _ hread ih => exact ih.read hread
  | misread _ hread ih => exact ih.misread hread
  | check _ _ ih => exact ⟨ih.scope, ih.valid, ih.isRead, ih.declared, ih.registered⟩
  | run _ hs depth ih => exact ih.run hs depth
  | evaluate _ he depth ih => exact ih.evaluate he depth

/-- A session has `Lived` through a whole program by executing its statements. -/
theorem Lived.program {known : List Stmt} {σ : Session} (h : σ.Lived known) {p : Program}
    (hp : ∀ s ∈ p, s ∈ known) (depth : ℕ) :
    (σ.run (Execute.program depth · p)).2.2.Lived known := by
  have hscope := h.knows.scope
  change Lived known
    { σ with machine := (outcome (p.forM (Execute.stmt depth σ.scope)) σ.machine).2 }
  induction p generalizing σ with
  | nil => exact h
  | cons s p ih =>
    obtain ⟨hs, hp⟩ := List.forall_mem_cons.mp hp
    have hnext := h.run hs depth
    rw [List.forM, outcome_bind]
    change Lived known { σ with machine := (outcome (Execute.stmt depth σ.scope s) σ.machine).2 }
      at hnext
    rcases hout : outcome (Execute.stmt depth σ.scope s) σ.machine with ⟨stop | u, m'⟩
    · rwa [hout] at hnext
    · rw [hout] at hnext
      exact ih hnext hp hscope

/-! ### Displaying and reading back -/

/-- No name at the root of the session stands in the way of reading values back: no constructor
there has a reserved name, and no name there is quoted. -/
structure Unambiguous (σ : Session) : Prop where
  /-- No constructor has a reserved name. -/
  constructors : ∀ info ∈ (σ.machine.scopes.registry Machine.root).constructors,
    info.name ∉ Head.reserved
  /-- No name is quoted. -/
  names : ∀ name ∈ (σ.machine.scopes.bindings Machine.root).names, Text.isQuoted name = false

/-- In some scope of the session an expression has the value, and evaluating it leaves the
machine. -/
def Yields (σ : Session) (v : Value) (m : Machine) : Prop :=
  ∃ e : Expr, ∃ s < σ.machine.scopes.scopes.size, ∃ depth,
    e.IsRead ∧ outcome (evaluate depth s e) σ.machine = (.ok v, m)

variable {σ : Session} {known : List Stmt}

theorem read_eq {α : Type} {r : Reading α} {a : α}
    (h : outcome r σ.declared = (.ok a, σ.declared)) : σ.read r = (.ok a, σ) := by
  obtain ⟨hok, hdeclared⟩ := Prod.mk.inj h
  exact Prod.ext hok (congrArg (fun d => { σ with declared := d }) hdeclared)

/-- In an `Unambiguous` session a constructor that is found has no reserved name. -/
theorem Unambiguous.notMem_reserved (h : σ.Unambiguous) {name : String} {info : ConstructorInfo}
    (hinfo : (σ.machine.scopes.registry Machine.root).constructor? name = some info) :
    name ∉ Head.reserved := by
  rw [← Registry.name_of_constructor? hinfo]
  exact h.constructors info (Registry.mem_constructors hinfo)

/-- In an `Unambiguous` session no constructor is named like a pair. -/
theorem Unambiguous.constructor?_pair (h : σ.Unambiguous) :
    (σ.machine.scopes.registry Machine.root).constructor? "pair" = none := by
  by_contra hne
  obtain ⟨info, hinfo⟩ := Option.ne_none_iff_exists'.mp hne
  exact h.notMem_reserved hinfo (by decide)

namespace Knows

/-- The constructors that the root knows by `constructor?` are atoms. -/
theorem isAtom (h : σ.Knows known) (name : String) (info : ConstructorInfo)
    (hinfo : (σ.machine.scopes.registry Machine.root).constructor? name = some info) :
    IsAtom name := by
  obtain ⟨s, hs, c, hc, rfl⟩ := h.registered name info hinfo
  obtain ⟨d, hread⟩ := (h.isRead s hs).readable
  exact hread.isAtom c hc

/-- Values can be read back (`Recall`) in a session where no name stands in the way, also after
expressions were evaluated. -/
theorem recallable (h : σ.Knows known) (hclear : σ.Unambiguous)
    (hnullary : ∀ name ∈ σ.declared.nullary, Text.isQuoted name = false) {m : Machine}
    (hvalid : m.scopes.Valid) (hgrows : σ.machine.Grows m) : Recall σ.declared m.scopes := by
  have hregistry : m.scopes.registry 0 = σ.machine.scopes.registry Machine.root :=
    h.registry_eq hgrows
  have hbindings : m.scopes.bindings 0 = σ.machine.scopes.bindings Machine.root :=
    hgrows.bindings_eq h.valid.rooted.size_pos
  refine ⟨hvalid.rooted, ?_, ?_, fun name hquoted => ?_, fun name hquoted => ?_⟩
  · rw [hregistry]
    exact h.isAtom
  · rw [hregistry]
    intro name info hinfo
    obtain ⟨s, hs, c, hc, hcname⟩ := h.registered name info hinfo
    exact Head.of_constructor (hclear.notMem_reserved hinfo) (hcname ▸ h.declared s hs c hc)
  · by_contra hne
    have hmem := Declared.mem_nullary.mpr ((Bool.not_eq_false _).mp hne)
    rw [hnullary name hmem] at hquoted
    cases hquoted
  · rw [hbindings, Table.get?_eq_none_iff]
    intro hmem
    rw [hclear.names name hmem] at hquoted
    cases hquoted

/-- A value without functions that a session `Yields` is sound, and evaluating the expression has
changed nothing that the session knew. -/
theorem data_of_yields (h : σ.Knows known) {v : Value} {m : Machine} (hv : σ.Yields v m)
    (hdata : v.IsData) :
    m.scopes.Valid ∧ σ.machine.Grows m ∧ v.Data (σ.machine.scopes.registry Machine.root) := by
  obtain ⟨e, s, hs, depth, he, hout⟩ := hv
  obtain ⟨d, hread⟩ := he.readable
  have hgrows := onlyAdds_evaluate depth s e σ.machine
  obtain ⟨hvalid, hsound⟩ := Machine.valid_evaluate h.valid hread hs depth
  rw [hout] at hgrows hvalid hsound
  refine ⟨hvalid, hgrows, ?_⟩
  rw [← h.registry_eq hgrows]
  exact (hsound v rfl).data hdata

end Knows

/-- What a session displays reads back. As long as the session is `Unambiguous`, so that no name at
the root stands in the way, and reading knows no constructor without fields that is named like a
string, the text of a value that holds no functions (`IsData`), and no numbers with too many digits
to be read (`KeepsLimit`), is read as an expression whose value at the root is the value that was
displayed. And whatever reading knows, and however long the numbers are, no other value without
functions, of this session or of another one, has the same text. -/
theorem Lived.displayed_reads_back (h : σ.Lived known) (hclear : σ.Unambiguous) {v : Value}
    {m : Machine} (hv : σ.Yields v m) (hdata : v.IsData) :
    ((∀ name ∈ σ.declared.nullary, Text.isQuoted name = false) → v.KeepsLimit σ.declared →
      ∀ file, ∃ x, σ.read (Expr.read file v.display) = (.ok x, σ) ∧
        ∃ n, ∀ depth ≥ n, (outcome (Casewise.evaluate depth Machine.root x) m).1 = .ok v) ∧
    ∀ (known' : List Stmt) (σ' : Session) (v' : Value) (m' : Machine), σ'.Lived known' →
      σ'.Unambiguous → σ'.Yields v' m' → v'.IsData → v'.display = v.display → v' = v := by
  obtain ⟨hvalid, hgrows, hsound⟩ := h.knows.data_of_yields hv hdata
  constructor
  · intro hnullary hlimit file
    have hrecall := h.knows.recallable hclear hnullary hvalid hgrows
    have hsound' := h.knows.registry_eq hgrows ▸ hsound
    obtain ⟨x, hread, hrecalls⟩ := hsound'.recalls_display hrecall hlimit file
    exact ⟨x, read_eq hread, hrecalls.exists_depth rfl⟩
  · intro known' σ' v' m' h' hclear' hv' hdata' hdisplay
    obtain ⟨-, -, hsound'⟩ := h'.knows.data_of_yields hv' hdata'
    exact hsound'.eq_of_display hsound h'.knows.isAtom h.knows.isAtom hclear'.constructor?_pair
      hclear.constructor?_pair hdisplay

/-! ### A text that reads back, and one that does not -/

/-- The statements of a text, and the session in which the text was read and run from the start. -/
private def afterText (source : String) : List Stmt × Session :=
  match (start true).read (Program.read "text" source) with
  | (.ok p, σ) => (p, (σ.run (Execute.program 9 · p)).2.2)
  | (.error _, σ) => ([], σ)

private theorem lived_afterText (source : String) :
    (afterText source).2.Lived (afterText source).1 := by
  have hstart := Lived.start true false (some usualDigits)
  rcases hread : (start true).read (Program.read "text" source) with ⟨f | p, σ⟩
  · have hafter : afterText source = ([], σ) := by rw [afterText, hread]
    rw [hafter]
    exact hstart.misread hread
  · have hafter : afterText source = (p, (σ.run (Execute.program 9 · p)).2.2) := by
      rw [afterText, hread]
    rw [hafter]
    exact (hstart.read hread).program (fun s hs => hs) 9

/-- The value of a name in the session after a text, and the machine that evaluating leaves. -/
private def look (source name : String) : Option (Value × Machine) :=
  match outcome (Expr.read "name" name) (afterText source).2.declared with
  | (.ok e, _) =>
    match outcome (Casewise.evaluate 1 Machine.root e) (afterText source).2.machine with
    | (.ok v, m) => some (v, m)
    | _ => none
  | _ => none

private theorem yields_of_look {source name : String} {v : Value} {m : Machine}
    (h : look source name = some (v, m)) : (afterText source).2.Yields v m := by
  have hsize := (lived_afterText source).knows.valid.rooted.size_pos
  rw [look] at h
  split at h
  · next e d hread =>
    split at h
    · next v' m' hout =>
      cases h
      exact ⟨e, 0, hsize, 1, .inl ⟨"name", name, _, d, hread⟩, hout⟩
    · cases h
  · cases h

/-- The text that the value of a name is displayed as, unless it is of no use: there is a function
in the value, or a number with too many digits. -/
private def shown (source name : String) : Option String :=
  (look source name).bind fun (v, _) =>
    if v.parts.any fun u => u.isFunction || u.isOverlong (afterText source).2.declared then none
    else some v.display

private theorem exists_of_shown {source name text : String} (h : shown source name = some text) :
    ∃ v m, (afterText source).2.Yields v m ∧ v.IsData ∧
      v.KeepsLimit (afterText source).2.declared ∧ v.display = text := by
  obtain ⟨⟨v, m⟩, hlook, hshown⟩ := Option.bind_eq_some_iff.mp h
  dsimp only at hshown
  split at hshown
  · cases hshown
  · next hparts =>
    have hall : v.IsData ∧ v.KeepsLimit (afterText source).2.declared := by
      simpa [Value.IsData, Value.KeepsLimit, forall_and] using hparts
    exact ⟨v, m, yields_of_look hlook, hall.1, hall.2, Option.some.inj hshown⟩

/-- A text that builds data of what built-in functions compute. -/
private def box : String :=
  "(data Box (Box Str Nat) (None)) (define b (Box (concat \"a\" \"b\") (- 2 5)))"

/-- The box of a string and a number reads back from `(Box "ab" 0)`. -/
theorem Lived.displayed_reads_back_box :
    ∃ (known : List Stmt) (σ : Session) (v : Value) (m : Machine),
      σ.Lived known ∧ σ.Unambiguous ∧ (∀ name ∈ σ.declared.nullary, Text.isQuoted name = false) ∧
      σ.Yields v m ∧ v.IsData ∧ v.KeepsLimit σ.declared ∧ v.display = "(Box \"ab\" 0)" ∧
      ∃ x, σ.read (Expr.read "value" v.display) = (.ok x, σ) ∧
        ∃ n, ∀ depth ≥ n, (outcome (Casewise.evaluate depth Machine.root x) m).1 = .ok v := by
  have hlived := lived_afterText box
  have hclear : (afterText box).2.Unambiguous := ⟨by decide +kernel, by decide +kernel⟩
  have hnullary : ∀ name ∈ (afterText box).2.declared.nullary, Text.isQuoted name = false := by
    decide +kernel
  have hshown : shown box "b" = some "(Box \"ab\" 0)" := by decide +kernel
  obtain ⟨v, m, hyields, hdata, hlimit, hdisplay⟩ := exists_of_shown hshown
  have hback := (hlived.displayed_reads_back hclear hyields hdata).1 hnullary hlimit "value"
  exact ⟨_, _, v, m, hlived, hclear, hnullary, hyields, hdata, hlimit, hdisplay, hback⟩

/-- A text that names a constructor like a string, and fails before it is declared. -/
private def misnomer : String :=
  "(define x \"s\") (print y) (data D (\"s\"))"

/-- After `misnomer` no name at the root stands in the way, but a string is displayed as a text that
reads as the constructor, which the root does not know. -/
theorem Lived.not_displayed_reads_back_misnomer :
    ∃ (known : List Stmt) (σ : Session) (v : Value) (m : Machine) (x : Expr),
      (known, σ) = afterText misnomer ∧ σ.Lived known ∧ σ.Unambiguous ∧
      (∀ s ∈ known, ∀ c ∈ s.constructors, c.name ∉ Head.reserved) ∧
      σ.Yields v m ∧ v.IsData ∧ v.display = "\"s\"" ∧
      σ.read (Expr.read "value" v.display) = (.ok x, σ) ∧
      ∀ depth u, (outcome (Casewise.evaluate depth Machine.root x) m).1 ≠ .ok u := by
  have hlived := lived_afterText misnomer
  have hclear : (afterText misnomer).2.Unambiguous := ⟨by decide +kernel, by decide +kernel⟩
  have hnames : ∀ s ∈ (afterText misnomer).1, ∀ c ∈ s.constructors, c.name ∉ Head.reserved := by
    decide +kernel
  have hnullary : (afterText misnomer).2.declared.isNullary "\"s\"" = true := by
    decide +kernel
  have hunknown :
      ((afterText misnomer).2.machine.scopes.registry Machine.root).constructor? "\"s\"" =
      none := by
    decide +kernel
  have hshown : shown misnomer "x" = some "\"s\"" := by decide +kernel
  obtain ⟨v, m, hyields, hdata, -, hdisplay⟩ := exists_of_shown hshown
  generalize hafter : afterText misnomer = text at *
  obtain ⟨known, σ⟩ := text
  -- the string is read as the constructor
  have hwrites : Writes "\"s\"" (.atom "\"s\"") :=
    .atom (Text.isStringBody_iff.mp (show Text.IsStringBody "s" from rfl))
  obtain ⟨e, he, hread⟩ := hwrites.outcome_read "value" σ.declared
  obtain ⟨span, rfl⟩ := Sexp.form_eq_atom.mp he
  have hatom : Expr.ofAtom σ.declared "\"s\"" (some span) = .construct "\"s\"" [] (some span) := by
    simp [Expr.ofAtom, hnullary, show Text.decimal? "\"s\"" = none from rfl]
  have hdigits := Declared.exceeded?_of_decimal?_eq_none (d := σ.declared)
    (show Text.decimal? "\"s\"" = none from rfl)
  have hσ := read_eq (hread _ (Declared.converted_eq_ok.mpr ⟨hdigits, hatom⟩))
  -- which the root does not know
  obtain ⟨-, hgrows, -⟩ := hlived.knows.data_of_yields hyields hdata
  rw [← hlived.knows.registry_eq hgrows] at hunknown
  refine ⟨known, σ, v, m, _, rfl, hlived, hclear, hnames, hyields, hdata, hdisplay, ?_,
    fun depth => evaluate_construct_ne_ok hunknown depth (some span)⟩
  rw [hdisplay]
  exact hσ

end Session

end Casewise

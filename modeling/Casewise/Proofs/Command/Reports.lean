import Casewise.Command.Perform

/-!
# Reports that commands write

A command reports errors among the lines it writes. A report ends with its last remark, in color or
not, so a report about checking and a report about running are told apart by how they end. Only
printed lines reach the standard output.

## Main definitions

* `Written.isReport`, `Outcome.reports`: the reports among the written lines.
* `Written.isRemarked`: the reports that end with a remark.

## Main statements

* `Source.isRemarked_reportCheck`, `Source.isRemarked_reportStop`: which reports are about checking.
-/

namespace Casewise

namespace Written

/-- Whether the line is a report. -/
def isReport : Written → Bool
  | reported _ => true
  | _ => false

/-- Whether the line is a report that ends with the remark. -/
def isRemarked (remark : String) : Written → Bool
  | reported text => (" note: " ++ remark).toList.isSuffixOf text.toList
  | _ => false

end Written

namespace Outcome

/-- The reports, in order. -/
def reports (o : Outcome) : List Written :=
  o.written.filter Written.isReport

theorem stdout_append (status status' : Nat) (ws ws' : List Written) :
    stdout ⟨status, ws ++ ws'⟩ = stdout ⟨status', ws⟩ ++ stdout ⟨status', ws'⟩ := by
  rw [stdout, List.map_append, String.join_append]
  rfl

theorem stderr_eq_empty {o : Outcome} (h : ∀ w ∈ o.written, w.stderr = "") : o.stderr = "" := by
  rw [stderr, List.map_congr_left h]
  induction o.written with
  | nil => rfl
  | cons w ws ih => rwa [List.map_cons, String.join_cons, String.empty_append]

end Outcome

theorem Text.suffix_joined (separator : String) (parts : List String) (last : String) :
    last.toList <:+ (joined separator (parts ++ [last])).toList := by
  induction parts with
  | nil => exact List.suffix_rfl
  | cons part parts ih =>
    -- there is a separator after `part`, whatever comes next
    have hjoined : joined separator (part :: (parts ++ [last])) =
        part ++ separator ++ joined separator (parts ++ [last]) := by
      cases parts <;> rfl
    rw [List.cons_append, hjoined, String.toList_append]
    exact ih.trans (List.suffix_append _ _)

/-- `Diagnostic.render` shows the last of the notes at the end. -/
theorem Diagnostic.suffix_render {d : Diagnostic} {notes : List String} {remark : String}
    (h : d.notes = notes ++ [remark]) (color : Bool) (source : String → Option String) :
    (" note: " ++ remark).toList <:+ (d.render color source).toList := by
  have hlast : (" note: " ++ remark).toList <:+
      ("  " ++ Text.Paint.blue.apply color "=" ++ " note: " ++ remark).toList := by
    rw [String.append_assoc, String.toList_append (s := _ ++ _)]
    exact List.suffix_append _ _
  refine hlast.trans ?_
  rw [render, h, List.map_append, List.map_singleton, ← List.append_assoc]
  exact Text.suffix_joined _ _ _

namespace Source

variable (s : Source)

/-- An error with a remark is reported with the `remark` at the end. -/
theorem suffix_report (e : LangError) (remark : String) (h : remark ≠ "") :
    ∃ text, s.report (e.toDiagnostic (some remark)) = .reported text ∧
      (" note: " ++ remark).toList <:+ text.toList := by
  have hnotes : (e.toDiagnostic (some remark)).notes = [] ++ [remark] := by
    simp [LangError.toDiagnostic, h]
  exact ⟨_, rfl, Diagnostic.suffix_render hnotes _ _⟩

/-- `reportCheck` says that it is about checking. -/
theorem isRemarked_reportCheck (e : LangError) :
    (s.reportCheck e).isRemarked "while type checking" = true := by
  obtain ⟨text, hreport, hsuffix⟩ := s.suffix_report e "while type checking" (by decide)
  rw [reportCheck, hreport]
  exact List.isSuffixOf_iff_suffix.mpr hsuffix

/-- `reportStop` does not say that it is about checking. -/
theorem isRemarked_reportStop (stop : Stop) :
    (s.reportStop stop).isRemarked "while type checking" = false := by
  have hreport : ∃ e : LangError, s.reportStop stop =
      s.report (e.toDiagnostic (some "at runtime")) := by
    cases stop with
    | error e => exact ⟨e, rfl⟩
    | unknownOperator name => exact ⟨_, rfl⟩
    | tooDeep => exact ⟨_, rfl⟩
  obtain ⟨e, he⟩ := hreport
  obtain ⟨text, htext, hsuffix⟩ := s.suffix_report e "at runtime" (by decide)
  rw [he, htext]
  refine Bool.eq_false_iff.mpr fun hremarked => ?_
  -- of two endings of one text, the shorter is an ending of the longer
  have hchecking := List.isSuffixOf_iff_suffix.mp hremarked
  have hshorter := List.suffix_of_suffix_length_le hsuffix hchecking (by decide)
  exact absurd hshorter (by decide)

end Source

end Casewise

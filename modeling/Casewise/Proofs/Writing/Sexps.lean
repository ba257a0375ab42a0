import Casewise.Proofs.Sexp.Blame
import Casewise.Proofs.Syntax
import Casewise.Proofs.Writing.Forms

/-!
# Reading written forms

A form that some text reads as is written as a text that reads as the form again: its atoms are
atoms, and the spaces and parentheses between them keep them apart, whatever stands in a string.
So does a text that holds several such forms with blanks between them, whatever blanks these are.
The written text tells which form it is of, then.

## Main definitions

* `Sexp.IsRead`: some text reads as the form.

## Main statements

* `Writes.readOne`, `read_of_setApart`: what is written as forms reads as the forms.
* `Writes.form_unique`: a text tells which form it is written as.
* `isAtom_iff_readOne`: atoms are the texts that read as one atom.
* `Sexp.isRead_iff`: some text reads as a form exactly if all its atoms are atoms.
* `printing_reads_back`: what a text reads as, written out, reads as the same.
-/

namespace Casewise

/-! ### Reading what is written -/

/-- A text that sets apart (`SetApart`) what is written as forms reads as these forms. -/
theorem read_of_setApart {parts : List String} {fs : List Form} (h : List.Forall₂ Writes parts fs)
    {text : String} (htext : SetApart parts text) (file : String) :
    ∃ es, read file text = .ok es ∧ es.map Sexp.form = fs :=
  read_of_spells (spelt_setApart htext h).spells file

/-- A text that `Writes` a form is read as that form. -/
theorem Writes.readOne {text : String} {f : Form} (h : Writes text f) (file : String) :
    ∃ e, Casewise.readOne file text = .ok e ∧ e.form = f := by
  obtain ⟨es, hread, hes⟩ := read_of_setApart (.cons h .nil) .single file
  obtain ⟨e, rfl, he⟩ := List.map_eq_singleton_iff.mp hes
  exact ⟨e, readOne_eq_ok_iff.mpr hread, he⟩

/-- A text `Writes` one form only. -/
theorem Writes.form_unique {text : String} {f f' : Form} (h : Writes text f) (h' : Writes text f') :
    f = f' := by
  obtain ⟨e, hread, he⟩ := h.readOne ""
  obtain ⟨e', hread', he'⟩ := h'.readOne ""
  rw [hread'] at hread
  rw [← he, ← he', Except.ok.inj hread]

/-! ### Forms that texts read as -/

/-- An atom is what `readOne` reads as one atom, itself. -/
theorem isAtom_iff_readOne {text : String} :
    IsAtom text ↔ ∃ span, readOne "" text = .ok (.atom text span) := by
  constructor
  · intro h
    obtain ⟨e, hread, he⟩ := (Writes.atom h).readOne ""
    cases e with
    | atom text' span =>
      cases he
      exact ⟨span, hread⟩
    | list items span => cases he
  · rintro ⟨span, hread⟩
    exact isReadable_of_read (readOne_eq_ok_iff.mp hread) _ (List.mem_singleton_self _)

namespace Sexp

/-- `Sexp.text` of a form all of whose atoms are atoms `Writes` its form. -/
theorem writes (e : Sexp) (h : e.form.IsReadable) : Writes e.text e.form := by
  induction e using Sexp.induction with
  | atom text span => exact .atom h
  | list items span ih =>
    rw [form, forms_eq_map, Form.IsReadable, Form.allReadable_iff, List.forall_mem_map] at h
    rw [text, texts_eq_map, form, forms_eq_map]
    exact .list (writes_map fun e he => ih e he (h e he))

/-- Some text reads as a sequence of forms of which this is one, up to places. -/
def IsRead (e : Sexp) : Prop :=
  ∃ file source es, read file source = .ok es ∧ e.form ∈ es.map form

/-- Some text reads as a form exactly if all its atoms are atoms: `IsRead` is `Form.IsReadable`. -/
theorem isRead_iff {e : Sexp} : e.IsRead ↔ e.form.IsReadable := by
  constructor
  · rintro ⟨file, source, es, hread, he⟩
    obtain ⟨e', he', hform⟩ := List.mem_map.mp he
    rw [← hform]
    exact isReadable_of_read hread e' he'
  · intro h
    obtain ⟨es, hread, hes⟩ := read_of_setApart (.cons (e.writes h) .nil) .single ""
    exact ⟨"", e.text, es, hread, by rw [hes]; exact List.mem_singleton_self _⟩

end Sexp

/-- What a text reads as, written out by `Sexp.text`, reads as the same up to places: each of the
forms on its own, and all of them with blanks between neighbours (`SetApart`). Forms that texts read
as are thus equal up to places if they are written alike. -/
theorem printing_reads_back :
    (∀ file source es, read file source = .ok es → ∀ file',
      (∀ e ∈ es, ∃ e', readOne file' e.text = .ok e' ∧ e'.form = e.form) ∧
      ∀ text, SetApart (es.map Sexp.text) text →
        ∃ es', read file' text = .ok es' ∧ es'.map Sexp.form = es.map Sexp.form) ∧
    ∀ e e' : Sexp, e.IsRead → e'.IsRead → e.text = e'.text → e.form = e'.form := by
  refine ⟨fun file source es hread file' => ⟨fun e he => ?_, fun text htext => ?_⟩,
    fun e e' he he' htext => ?_⟩
  · exact (e.writes (isReadable_of_read hread e he)).readOne file'
  · have hwrites := writes_map fun e he => Sexp.writes e (isReadable_of_read hread e he)
    exact read_of_setApart hwrites htext file'
  · have hwrites := e.writes (Sexp.isRead_iff.mp he)
    rw [htext] at hwrites
    exact hwrites.form_unique (e'.writes (Sexp.isRead_iff.mp he'))

end Casewise

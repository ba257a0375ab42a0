import Mathlib.Data.List.Forall2
import Casewise.Proofs.Outcome
import Casewise.Proofs.Sexp.Spelling
import Casewise.Sexp.Nest

/-!
# Forms without places

`Form` is an s-expression without its spans, which is what two texts have in common that read alike.
A form is a sequence of tokens, and a text that spells these tokens reads as the form. Which texts
do is settled by `Spelt`, a property of pieces of text that joining and parenthesizing keep: what is
written out part by part reads as the forms of the parts.

## Main statements

* `read_of_spells`: a text that spells the tokens of forms reads as these forms.
* `isReadable_of_read`: every atom of a form read from a text is an atom.
* `Spelt.setApart`, `Spelt.parenthesized`: how written pieces are put together.
-/

namespace Casewise

/-- An s-expression without its spans. -/
inductive Form where
  /-- A run of characters without structure. -/
  | atom (text : String)
  | list (items : List Form)
  deriving Repr, Inhabited

namespace Sexp

mutual

/-- The form without its spans. -/
def form : Sexp → Form
  | atom text _ => .atom text
  | list items _ => .list (forms items)

/-- The forms without their spans. -/
def forms : List Sexp → List Form
  | [] => []
  | e :: es => form e :: forms es

end

@[simp]
theorem forms_eq_map (es : List Sexp) : forms es = es.map form := by
  induction es with
  | nil => rfl
  | cons e es ih => rw [forms, ih, List.map_cons]

/-- Only an atom has the `form` of an atom. -/
theorem form_eq_atom {e : Sexp} {text : String} :
    e.form = .atom text ↔ ∃ span, e = .atom text span := by
  cases e with
  | atom text' span => simp [form]
  | list items span => simp [form]

/-- Only a list has the `form` of a list. -/
theorem form_eq_list {e : Sexp} {items : List Form} :
    e.form = .list items ↔ ∃ es span, e = .list es span ∧ es.map form = items := by
  cases e with
  | atom text span => simp [form]
  | list es span => simp [form]

/-- Only a list that starts with an atom has a `form` that does. -/
theorem form_eq_headed {e : Sexp} {text : String} {items : List Form} :
    e.form = .list (.atom text :: items) ↔
      ∃ headSpan es span, e = .list (.atom text headSpan :: es) span ∧ es.map form = items := by
  constructor
  · intro h
    obtain ⟨all, span, rfl, hall⟩ := form_eq_list.mp h
    obtain ⟨head, es, rfl, hhead, hes⟩ := List.map_eq_cons_iff.mp hall
    obtain ⟨headSpan, rfl⟩ := form_eq_atom.mp hhead
    exact ⟨headSpan, es, span, rfl, hes⟩
  · rintro ⟨headSpan, es, span, rfl, rfl⟩
    rw [form, forms_eq_map, List.map_cons, form]

end Sexp

namespace Form

mutual

/-- The tokens that the form consists of. -/
def lexemes : Form → List Lexeme
  | atom text => [.atom text]
  | list items => .opening :: (lexemesAll items ++ [.closing])

/-- The tokens that the forms consist of. -/
def lexemesAll : List Form → List Lexeme
  | [] => []
  | f :: fs => lexemes f ++ lexemesAll fs

end

mutual

/-- Whether every atom in the form can be read as one. -/
def IsReadable : Form → Prop
  | atom text => IsAtom text
  | list items => AllReadable items

/-- Whether every atom in the forms can be read as one. -/
def AllReadable : List Form → Prop
  | [] => True
  | f :: fs => IsReadable f ∧ AllReadable fs

end

theorem lexemesAll_eq_flatten (fs : List Form) : lexemesAll fs = (fs.map lexemes).flatten := by
  induction fs with
  | nil => rfl
  | cons f fs ih => rw [lexemesAll, ih, List.map_cons, List.flatten_cons]

theorem allReadable_iff {fs : List Form} : AllReadable fs ↔ ∀ f ∈ fs, f.IsReadable := by
  induction fs with
  | nil => simp [AllReadable]
  | cons f fs ih => simp [AllReadable, ih]

end Form

/-! ### From tokens to forms -/

namespace Nest

theorem step_of_atom {n : Nest} {t : Token} {text : String} (ht : t.lexeme = .atom text) :
    n.step t = .ok (n.add (.atom text t.span)) := by
  rw [step, ht]

theorem step_of_opening {n : Nest} {t : Token} (ht : t.lexeme = .opening) :
    n.step t = .ok { n with frames := ⟨t.span, []⟩ :: n.frames } := by
  rw [step, ht]

/-- `Nest.step` at a closing parenthesis adds the innermost open list as a form. -/
theorem step_of_closing {frame : Frame} {outer : List Frame} {forms : List Sexp} {t : Token}
    (ht : t.lexeme = .closing) :
    step ⟨frame :: outer, forms⟩ t =
      .ok (add ⟨outer, forms⟩ (.list frame.items.reverse (frame.opening.through t.span))) := by
  rw [step, ht]

/-- `Nest.add` of forms to an open list puts them in front of its items, the last one foremost. -/
theorem foldl_add_frame (opening : Span) (items : List Sexp) (frames : List Frame)
    (forms : List Sexp) (es : List Sexp) :
    es.foldl add ⟨⟨opening, items⟩ :: frames, forms⟩ =
      ⟨⟨opening, es.reverse ++ items⟩ :: frames, forms⟩ := by
  induction es generalizing items with
  | nil => rfl
  | cons e es ih => simp [add, ih]

theorem foldl_add_nil (forms es : List Sexp) :
    es.foldl add ⟨[], forms⟩ = ⟨[], es.reverse ++ forms⟩ := by
  induction es generalizing forms with
  | nil => rfl
  | cons e es ih => simp [add, ih]

mutual

/-- `Nest.step` through the `lexemes` of a form adds the form. -/
theorem foldlM_step_lexemes :
    ∀ (f : Form) (n : Nest) (ts : List Token), ts.map Token.lexeme = f.lexemes →
      ∃ e : Sexp, ts.foldlM step n = .ok (n.add e) ∧ e.form = f
  | .atom text, n, ts, h => by
    obtain ⟨t, ts, rfl, ht, hts⟩ := List.map_eq_cons_iff.mp h
    obtain rfl := List.map_eq_nil_iff.mp hts
    refine ⟨.atom text t.span, ?_, rfl⟩
    rw [List.foldlM_cons, step_of_atom ht]
    rfl
  | .list items, n, ts, h => by
    obtain ⟨t, ts, rfl, ht, hts⟩ := List.map_eq_cons_iff.mp h
    obtain ⟨inner, last, rfl, hinner, hlast⟩ := List.map_eq_append_iff.mp hts
    obtain ⟨t', rest, rfl, ht', hrest⟩ := List.map_eq_cons_iff.mp hlast
    obtain rfl := List.map_eq_nil_iff.mp hrest
    obtain ⟨es, hes, hforms⟩ :=
      foldlM_step_lexemesAll items { n with frames := ⟨t.span, []⟩ :: n.frames } inner hinner
    refine ⟨.list es (t.span.through t'.span), ?_, by rw [Sexp.form, Sexp.forms_eq_map, hforms]⟩
    rw [List.foldlM_cons, step_of_opening ht]
    change (inner ++ [t']).foldlM step { n with frames := ⟨t.span, []⟩ :: n.frames } = _
    rw [List.foldlM_append, hes, foldl_add_frame, List.append_nil]
    change [t'].foldlM step ⟨⟨t.span, es.reverse⟩ :: n.frames, n.forms⟩ = _
    rw [List.foldlM_cons, step_of_closing ht', List.reverse_reverse]
    rfl

/-- `Nest.step` through the `lexemesAll` of forms adds the forms, one after the other. -/
theorem foldlM_step_lexemesAll :
    ∀ (fs : List Form) (n : Nest) (ts : List Token), ts.map Token.lexeme = Form.lexemesAll fs →
      ∃ es : List Sexp, ts.foldlM step n = .ok (es.foldl add n) ∧ es.map Sexp.form = fs
  | [], n, ts, h => ⟨[], by rw [List.map_eq_nil_iff.mp h]; rfl, rfl⟩
  | f :: fs, n, ts, h => by
    obtain ⟨ts₁, ts₂, rfl, h₁, h₂⟩ := List.map_eq_append_iff.mp h
    obtain ⟨e, he, hform⟩ := foldlM_step_lexemes f n ts₁ h₁
    obtain ⟨es, hes, hforms⟩ := foldlM_step_lexemesAll fs (n.add e) ts₂ h₂
    refine ⟨e :: es, ?_, by rw [List.map_cons, hform, hforms]⟩
    rw [List.foldlM_append, he]
    exact hes

end

end Nest

/-- A text that `Spells` the tokens of forms reads as these forms. -/
theorem read_of_spells {text : String} {fs : List Form}
    (h : Spells text.toList (Form.lexemesAll fs)) (file : String) :
    ∃ es, read file text = .ok es ∧ es.map Sexp.form = fs := by
  obtain ⟨stream, hstream, hlexemes⟩ := h.scan file
  obtain ⟨es, hes, hforms⟩ := Nest.foldlM_step_lexemesAll fs {} stream.tokens hlexemes
  refine ⟨es, ?_, hforms⟩
  rw [read, hstream]
  change stream.tokens.foldlM Nest.step {} >>= Nest.finish = _
  rw [hes, Nest.foldl_add_nil, List.append_nil]
  change Nest.finish ⟨[], es.reverse⟩ = _
  rw [Nest.finish, List.reverse_reverse]

/-! ### The atoms of what is read -/

namespace Nest

/-- Every atom in the finished forms and the open lists is an atom. -/
structure IsReadable (n : Nest) : Prop where
  /-- The atoms of the open lists. -/
  frames : ∀ frame ∈ n.frames, ∀ e ∈ frame.items, e.form.IsReadable
  /-- The atoms of the finished forms. -/
  forms : ∀ e ∈ n.forms, e.form.IsReadable

/-- `Nest.add` keeps a nest `IsReadable`. -/
theorem IsReadable.add {n : Nest} (h : n.IsReadable) {e : Sexp} (he : e.form.IsReadable) :
    (n.add e).IsReadable := by
  obtain ⟨frames, forms⟩ := n
  obtain ⟨hframes, hforms⟩ := h
  cases frames with
  | nil => exact ⟨hframes, List.forall_mem_cons.mpr ⟨he, hforms⟩⟩
  | cons frame outer =>
    obtain ⟨hframe, houter⟩ := List.forall_mem_cons.mp hframes
    exact ⟨List.forall_mem_cons.mpr ⟨List.forall_mem_cons.mpr ⟨he, hframe⟩, houter⟩, hforms⟩

/-- A readable token keeps a nest `IsReadable`. -/
theorem IsReadable.step {n n' : Nest} (h : n.IsReadable) {t : Token} (ht : t.lexeme.IsReadable)
    (hn : n.step t = .ok n') : n'.IsReadable := by
  cases hlexeme : t.lexeme with
  | atom text =>
    rw [step_of_atom hlexeme] at hn
    rw [hlexeme] at ht
    cases hn
    exact h.add ht
  | opening =>
    rw [step_of_opening hlexeme] at hn
    cases hn
    exact ⟨List.forall_mem_cons.mpr ⟨by simp, h.frames⟩, h.forms⟩
  | closing =>
    obtain ⟨frames, forms⟩ := n
    obtain ⟨hframes, hforms⟩ := h
    cases frames with
    | nil => simp [Nest.step, hlexeme] at hn
    | cons frame outer =>
      rw [step_of_closing hlexeme] at hn
      cases hn
      obtain ⟨hframe, houter⟩ := List.forall_mem_cons.mp hframes
      have hrest : IsReadable ⟨outer, forms⟩ := ⟨houter, hforms⟩
      refine hrest.add ?_
      rw [Sexp.form, Form.IsReadable, Form.allReadable_iff, Sexp.forms_eq_map, List.forall_mem_map]
      exact fun e he => hframe e (List.mem_reverse.mp he)

theorem IsReadable.foldlM {ts : List Token} (hts : ∀ t ∈ ts, t.lexeme.IsReadable) {n n' : Nest}
    (h : n.IsReadable) (hn : ts.foldlM Nest.step n = .ok n') : n'.IsReadable := by
  induction ts generalizing n with
  | nil => cases hn; exact h
  | cons t ts ih =>
    obtain ⟨ht, hts⟩ := List.forall_mem_cons.mp hts
    rw [List.foldlM_cons, bind_eq_ok] at hn
    obtain ⟨m, hm, hn⟩ := hn
    exact ih hts (h.step ht hm) hn

end Nest

/-- Every atom of a form that `read` finds is an atom. -/
theorem isReadable_of_read {file text : String} {es : List Sexp} (h : read file text = .ok es) :
    ∀ e ∈ es, e.form.IsReadable := by
  rw [read, bind_eq_ok] at h
  obtain ⟨stream, hstream, h⟩ := h
  rw [bind_eq_ok] at h
  obtain ⟨n, hn, h⟩ := h
  have hn := Nest.IsReadable.foldlM (isReadable_of_scan hstream) ⟨by simp, by simp⟩ hn
  rw [Nest.finish] at h
  split at h
  · cases h
    exact fun e he => hn.forms e (List.mem_reverse.mp he)
  · cases h

/-! ### Pieces of text -/

/-- The piece of text reads as the tokens, wherever it stands before the end of the text or a
character that ends atoms. -/
def Spelt (text : String) (ls : List Lexeme) : Prop :=
  ∀ ⦃rest : List Char⦄ ⦃ls' : List Lexeme⦄, EndsAtom rest → Spells rest ls' →
    Spells (text.toList ++ rest) (ls ++ ls')

/-- The text keeps its neighbours apart: it consists of blanks, and there are some. -/
structure IsSeparator (text : String) : Prop where
  /-- There are some characters. -/
  ne_nil : text.toList ≠ []
  /-- They are blank. -/
  blank : ∀ c ∈ text.toList, Text.isBlank c = true

theorem isSeparator_of_toList {text : String} {c : Char} (htext : text.toList = [c])
    (hc : Text.isBlank c = true) : IsSeparator text :=
  ⟨by simp [htext], by simp [htext, hc]⟩

theorem isSeparator_space : IsSeparator " " :=
  isSeparator_of_toList (show " ".toList = [' '] from rfl) (by decide)

theorem isSeparator_newline : IsSeparator "\n" :=
  isSeparator_of_toList (show "\n".toList = ['\n'] from rfl) (by decide)

/-- An atom may stand right before a text that `IsSeparator`. -/
theorem IsSeparator.endsAtom {separator : String} (h : IsSeparator separator) (rest : List Char) :
    EndsAtom (separator.toList ++ rest) := by
  obtain ⟨c, cs, hcs⟩ := List.exists_cons_of_ne_nil h.ne_nil
  intro d hd
  rw [hcs] at hd
  obtain rfl : c = d := Option.some.inj hd
  simp [Scan.endsAtom, h.blank c (by simp [hcs])]

/-- Blanks in front of a text do not count for `Spells`. -/
theorem Spells.blanks {gap cs : List Char} {ls : List Lexeme}
    (hgap : ∀ c ∈ gap, Text.isBlank c = true) (h : Spells cs ls) : Spells (gap ++ cs) ls := by
  induction gap with
  | nil => exact h
  | cons c gap ih =>
    obtain ⟨hc, hgap⟩ := List.forall_mem_cons.mp hgap
    exact .blank hc (ih hgap)

/-- The text consists of the parts, in order, with a separator between neighbours; the separators
may differ. -/
inductive SetApart : List String → String → Prop
  | nil : SetApart [] ""
  | single {part : String} : SetApart [part] part
  | cons {part next separator text : String} {rest : List String}
    (hseparator : IsSeparator separator) (h : SetApart (next :: rest) text) :
    SetApart (part :: next :: rest) (part ++ separator ++ text)

/-- Parts that are joined with a separator are set apart. -/
theorem setApart_joined {separator : String} (hseparator : IsSeparator separator) :
    ∀ parts : List String, SetApart parts (Text.joined separator parts)
  | [] => .nil
  | [_] => .single
  | _ :: next :: rest => .cons hseparator (setApart_joined hseparator (next :: rest))

namespace Spelt

theorem empty : Spelt "" [] :=
  fun _ _ _ h => h

theorem spells {text : String} {ls : List Lexeme} (h : Spelt text ls) : Spells text.toList ls := by
  have hspells := @h [] [] (fun _ hc => by cases hc) .nil
  rwa [List.append_nil, List.append_nil] at hspells

theorem atom {text : String} (h : IsAtom text) : Spelt text [.atom text] := by
  intro rest ls' hrest hspells
  rcases h with h | h
  · simpa using Spells.plain h hrest hspells
  · simpa using Spells.string h hspells

theorem append {a b separator : String} (hseparator : IsSeparator separator)
    {ls ls' : List Lexeme} (ha : Spelt a ls) (hb : Spelt b ls') :
    Spelt (a ++ separator ++ b) (ls ++ ls') := by
  intro rest ls'' hrest hspells
  have hafter : Spells (separator.toList ++ (b.toList ++ rest)) (ls' ++ ls'') :=
    .blanks hseparator.blank (hb hrest hspells)
  have := ha (hseparator.endsAtom _) hafter
  simpa using this

/-- Pieces that are `SetApart` read as their tokens, in order. -/
theorem setApart {parts : List String} {lss : List (List Lexeme)}
    (h : List.Forall₂ Spelt parts lss) {text : String} (htext : SetApart parts text) :
    Spelt text lss.flatten := by
  induction htext generalizing lss with
  | nil => cases h; exact empty
  | single =>
    obtain _ | ⟨hpart, _ | _⟩ := h
    simpa using hpart
  | cons hseparator _ ih =>
    obtain _ | ⟨hpart, hparts⟩ := h
    exact append hseparator hpart (ih hparts)

/-- Pieces inside parentheses, `Text.parenthesized`, read as their tokens inside parentheses. -/
theorem parenthesized {parts : List String} {lss : List (List Lexeme)}
    (h : List.Forall₂ Spelt parts lss) :
    Spelt (Text.parenthesized parts) (.opening :: (lss.flatten ++ [.closing])) := by
  intro rest ls' hrest hspells
  have hinner := setApart h (setApart_joined isSeparator_space parts)
  have := Spells.opening (@hinner (')' :: rest) _ (fun d hd => by cases hd; decide)
    (.closing hspells))
  simpa [Text.parenthesized] using this

end Spelt

end Casewise

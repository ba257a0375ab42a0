import Mathlib.Data.List.Basic
import Casewise.Command.Outcome
import Casewise.Outline

/-!
# Reading outlines back

The lines of an outline have no marks of where an outline ends, but none of them begins with a space
of its own, so the spaces in front of a line tell its level. What stands below a line are the lines
behind it that are further in, and so the lines tell the outlines. Where lines have no control
characters, printing keeps them as they are, and the printed text tells the lines.

## Main definitions

* `Outline.IsClear`: outlines whose lines can be told from their indentation.
* `Outline.inset`: the spaces in front of a line.

## Main statements

* `Outline.linesOf_inj`: different outlines have different lines.
* `Outline.stdout_linesOf_inj`: different outlines are printed differently.
-/

namespace Casewise

/-- Where a list falls into members that satisfy `p` and a rest that begins with one that does not,
it does so in one way only. -/
theorem append_inj_of_head? {β : Type} {p : β → Bool} {as bs as' bs' : List β}
    (has : ∀ a ∈ as, p a = true) (has' : ∀ a ∈ as', p a = true) (hbs : ∀ b ∈ bs.head?, p b = false)
    (hbs' : ∀ b ∈ bs'.head?, p b = false) (h : as ++ bs = as' ++ bs') : as = as' ∧ bs = bs' := by
  have htake {cs : List β} (hcs : ∀ c ∈ cs.head?, p c = false) : cs.takeWhile p = [] := by
    cases cs with
    | nil => rfl
    | cons c cs => exact List.takeWhile_cons_of_neg (Bool.eq_false_iff.mp (hcs c rfl))
  have heq := congrArg (List.takeWhile p) h
  rw [List.takeWhile_append_of_pos has, List.takeWhile_append_of_pos has', htake hbs, htake hbs',
    List.append_nil, List.append_nil] at heq
  subst heq
  exact ⟨rfl, List.append_cancel_left h⟩

/-! ### Printed lines -/

namespace Text

/-- Without an escape character, there is no color for `stripColor` to remove. -/
theorem stripColor_of_notMem {text : String} (h : escape ∉ text.toList) :
    stripColor text = text := by
  have hstrip (cs : List Char) (hcs : escape ∉ cs) : stripFrom [] cs = cs := by
    induction cs with
    | nil => rfl
    | cons c cs ih =>
      have hc : c ≠ escape := fun heq => hcs (heq ▸ List.mem_cons_self)
      have hcontinues : continuesSequence [] c = false := decide_eq_false hc
      have hcompletes : completesSequence [] c = false := rfl
      rw [stripFrom, hcontinues, hcompletes, if_neg hc,
        ih fun hmem => hcs (List.mem_cons_of_mem c hmem)]
      rfl
  rw [stripColor, hstrip _ h, String.ofList_toList]

/-- Where lines end with a line feed and have no other, `String.join` tells the lines. -/
theorem join_lines_inj :
    ∀ {ls ls' : List String}, (∀ l ∈ ls, '\n' ∉ l.toList) → (∀ l ∈ ls', '\n' ∉ l.toList) →
      String.join (ls.map (· ++ "\n")) = String.join (ls'.map (· ++ "\n")) → ls = ls' := by
  have hfirst (l : String) (ls : List String) :
      (String.join ((l :: ls).map (· ++ "\n"))).toList =
        l.toList ++ '\n' :: (String.join (ls.map (· ++ "\n"))).toList := by
    simp [String.toList_join]
  intro ls
  induction ls with
  | nil =>
    intro ls' _ _ h
    cases ls' with
    | nil => rfl
    | cons l' ls' =>
      have hchars := congrArg String.toList h
      rw [hfirst] at hchars
      simp [String.join] at hchars
  | cons l ls ih =>
    intro ls' hls hls' h
    have hchars := congrArg String.toList h
    rw [hfirst] at hchars
    cases ls' with
    | nil => simp [String.join] at hchars
    | cons l' ls' =>
      rw [hfirst] at hchars
      obtain ⟨hl, hls⟩ := List.forall_mem_cons.mp hls
      obtain ⟨hl', hls'⟩ := List.forall_mem_cons.mp hls'
      have hother {l : String} (hl : '\n' ∉ l.toList) : ∀ c ∈ l.toList, (c != '\n') = true :=
        fun c hc => bne_iff_ne.mpr fun heq => hl (heq ▸ hc)
      have hnewline (cs : List Char) : ∀ c ∈ ('\n' :: cs).head?, (c != '\n') = false := by
        rintro c ⟨rfl⟩
        rfl
      obtain ⟨hline, hrest⟩ :=
        append_inj_of_head? (hother hl) (hother hl') (hnewline _) (hnewline _) hchars
      rw [String.toList_inj.mp hline, ih hls hls' (String.toList_inj.mp (List.cons.inj hrest).2)]

end Text

namespace Outcome

theorem stdout_printed {lines : List String} (h : ∀ l ∈ lines, Text.escape ∉ l.toList) :
    (success (lines.map .printed)).stdout = String.join (lines.map (· ++ "\n")) := by
  have hlines : (lines.map Written.printed).map Written.stdout = lines.map (· ++ "\n") := by
    rw [List.map_map]
    refine List.map_congr_left fun l hl => ?_
    exact congrArg (· ++ "\n") (Text.stripColor_of_notMem (h l hl))
  rw [stdout, success, hlines]

end Outcome

/-! ### Levels -/

namespace Outline

/-- No line of the outline has a control character in it or begins with a space. -/
inductive IsClear : Outline → Prop
  /-- Neither the line itself nor those below it do. -/
  | line {text : String} {below : List Outline} (hcontrol : ∀ c ∈ text.toList, 0x20 ≤ c.toNat)
    (hspace : text.toList.head? ≠ some ' ') (hbelow : ∀ o ∈ below, IsClear o) :
    IsClear (.line text below)

/-- Induction over outlines that stand one after the other: what is to be proved is known for the
outlines below the first one and for those behind it. -/
@[elab_as_elim]
theorem induction {motive : List Outline → Prop} (nil : motive [])
    (cons : ∀ text below os, motive below → motive os → motive (.line text below :: os)) :
    ∀ os, motive os
  | [] => nil
  | .line text below :: os => cons text below os (induction nil cons below) (induction nil cons os)

/-- How many spaces a line begins with. -/
def inset (line : String) : Nat :=
  (line.toList.takeWhile (· = ' ')).length

/-- The `inset` of a line tells its level. -/
theorem inset_indentation_append {text : String} (h : text.toList.head? ≠ some ' ') (level : Nat) :
    inset (indentation level ++ text) = 2 * level := by
  have htext : text.toList.takeWhile (· = ' ') = [] := by
    cases hchars : text.toList with
    | nil => rfl
    | cons c cs =>
      rw [hchars] at h
      exact List.takeWhile_cons_of_neg fun hc => h (congrArg some (of_decide_eq_true hc))
  rw [inset, String.toList_append, indentation, String.toList_ofList, List.takeWhile_append_of_pos,
    htext, List.append_nil, List.length_replicate]
  intro c hc
  rw [List.eq_of_mem_replicate hc]
  rfl

theorem le_inset_of_mem (os : List Outline) :
    ∀ {level : Nat}, (∀ o ∈ os, o.IsClear) → ∀ line ∈ linesOf level os, 2 * level ≤ inset line := by
  induction os using Outline.induction with
  | nil => exact nofun
  | cons text below os ihBelow ih =>
    intro level hclear line hline
    obtain ⟨hfirst, hos⟩ := List.forall_mem_cons.mp hclear
    cases hfirst with
    | line _ hspace hbelow =>
      rw [linesOf, lines, List.cons_append, List.mem_cons, List.mem_append] at hline
      rcases hline with rfl | hline | hline
      · exact Nat.le_of_eq (inset_indentation_append hspace level).symm
      · have := ihBelow hbelow line hline
        omega
      · exact ih hos line hline

theorem inset_of_mem_head? {os : List Outline} (h : ∀ o ∈ os, o.IsClear) {level : Nat} :
    ∀ line ∈ (linesOf level os).head?, inset line = 2 * level := by
  intro line hline
  cases os with
  | nil => cases hline
  | cons o os =>
    cases h o List.mem_cons_self with
    | line _ hspace =>
      cases hline
      exact inset_indentation_append hspace level

/-- Different outlines that are clear have different `linesOf`. -/
theorem linesOf_inj (os : List Outline) :
    ∀ {level : Nat} {os' : List Outline}, (∀ o ∈ os, o.IsClear) → (∀ o ∈ os', o.IsClear) →
      linesOf level os = linesOf level os' → os = os' := by
  induction os using Outline.induction with
  | nil =>
    intro level os' _ _ h
    cases os' with
    | nil => rfl
    | cons o' os' =>
      cases o'
      cases h
  | cons text below os ihBelow ih =>
    intro level os' hclear hclear' h
    cases os' with
    | nil => cases h
    | cons o' os' =>
      obtain ⟨text', below'⟩ := o'
      obtain ⟨hfirst, hos⟩ := List.forall_mem_cons.mp hclear
      obtain ⟨hfirst', hos'⟩ := List.forall_mem_cons.mp hclear'
      cases hfirst with
      | line _ _ hbelow =>
      cases hfirst' with
      | line _ _ hbelow' =>
      rw [linesOf, lines, linesOf, lines, List.cons_append, List.cons_append, List.cons.injEq,
        String.append_right_inj] at h
      obtain ⟨rfl, h⟩ := h
      -- the lines below the first one are those that are further in
      have hdeeper {os : List Outline} (hos : ∀ o ∈ os, o.IsClear) :
          ∀ line ∈ linesOf (level + 1) os, decide (2 * level < inset line) = true :=
        fun line hline => decide_eq_true (by have := le_inset_of_mem os hos line hline; omega)
      have hbehind {os : List Outline} (hos : ∀ o ∈ os, o.IsClear) :
          ∀ line ∈ (linesOf level os).head?, decide (2 * level < inset line) = false :=
        fun line hline => decide_eq_false (by have := inset_of_mem_head? hos line hline; omega)
      obtain ⟨hlines, hrest⟩ := append_inj_of_head? (hdeeper hbelow) (hdeeper hbelow')
        (hbehind hos) (hbehind hos') h
      rw [ihBelow hbelow hbelow' hlines, ih hos hos' hrest]

/-! ### Printed outlines -/

/-- There is no control character in `linesOf` clear outlines. -/
theorem le_of_mem_linesOf (os : List Outline) :
    ∀ {level : Nat}, (∀ o ∈ os, o.IsClear) →
      ∀ line ∈ linesOf level os, ∀ c ∈ line.toList, 0x20 ≤ c.toNat := by
  induction os using Outline.induction with
  | nil => exact nofun
  | cons text below os ihBelow ih =>
    intro level hclear line hline
    obtain ⟨hfirst, hos⟩ := List.forall_mem_cons.mp hclear
    cases hfirst with
    | line hcontrol _ hbelow =>
      rw [linesOf, lines, List.cons_append, List.mem_cons, List.mem_append] at hline
      rcases hline with rfl | hline | hline
      · intro c hc
        rw [String.toList_append, indentation, String.toList_ofList, List.mem_append] at hc
        rcases hc with hc | hc
        · exact List.eq_of_mem_replicate hc ▸ Nat.le_refl 0x20
        · exact hcontrol c hc
      · exact ihBelow hbelow line hline
      · exact ih hos line hline

/-- What is printed of outlines are their `linesOf`. -/
theorem stdout_linesOf {os : List Outline} (h : ∀ o ∈ os, o.IsClear) :
    (Outcome.success ((linesOf 0 os).map .printed)).stdout =
      String.join ((linesOf 0 os).map (· ++ "\n")) := by
  refine Outcome.stdout_printed fun line hline hmem => ?_
  have hcontrol := le_of_mem_linesOf os h line hline _ hmem
  revert hcontrol
  decide

/-- Different outlines are printed differently: `linesOf` may be read back from what goes to the
output. -/
theorem stdout_linesOf_inj {os os' : List Outline} (h : ∀ o ∈ os, o.IsClear)
    (h' : ∀ o ∈ os', o.IsClear)
    (hprinted : (Outcome.success ((linesOf 0 os).map .printed)).stdout =
      (Outcome.success ((linesOf 0 os').map .printed)).stdout) : os = os' := by
  have hnewline {os : List Outline} (h : ∀ o ∈ os, o.IsClear) :
      ∀ line ∈ linesOf 0 os, '\n' ∉ line.toList := by
    intro line hline hmem
    have hcontrol := le_of_mem_linesOf os h line hline _ hmem
    revert hcontrol
    decide
  rw [stdout_linesOf h, stdout_linesOf h'] at hprinted
  exact linesOf_inj os h h' (Text.join_lines_inj (hnewline h) (hnewline h') hprinted)

end Outline

end Casewise

/-
Descriptions in documentation comments:

* `guttered`, `documentation`: a description as a block comment holds it, each line behind a star;
* `map_ungutter_lines`: taking the stars away gives back the lines of the description;
* `componentDescription_documentation`: the last block comment is read as the description in it.

A star is taken away from each line once, so stars that the description has of its own stay.
-/
import SvelteStories.Proofs.Text.Dedent
import SvelteStories.Story.Description

namespace SvelteStories

variable {d i l closing : List Char} {ls : List (List Char)}

/-! ### Gutters -/

/-- A line of a description in a block comment: the indentation, a star and, if the line is not
empty, a space before it. -/
def guttered (i l : List Char) : List Char :=
  if l = [] then i ++ [' ', '*'] else i ++ ([' ', '*', ' '] ++ l)

/-- The text of a documentation comment: a star, the lines of the description in the gutter, and a
blank line that the comment is closed on. -/
def documentation (i d closing : List Char) : List Char :=
  ['\n'].intercalate (['*'] :: ((d.splitOn '\n').map (guttered i) ++ [closing]))

/-- Of a line in the gutter, the description is left. -/
lemma ungutter_guttered (hi : isBlankText i = true) (l : List Char) :
    ungutter (guttered i l) = l := by
  have htrim (rest : List Char) : trimStart (i ++ ' ' :: '*' :: rest) = '*' :: rest := by
    rw [trimStart_append_of_blank hi]
    rfl
  rw [guttered]
  split_ifs with hl
  · rw [ungutter, htrim [], hl]
    rfl
  · rw [ungutter, List.cons_append, List.cons_append, htrim]
    rfl

/-- A blank line has no gutter. -/
lemma ungutter_of_blank (hl : isBlankText l = true) : ungutter l = l := by
  rw [ungutter, trimStart_eq_nil_iff.mpr hl]

lemma endless_guttered (hi : '\n' ∉ i) (hfeed : '\n' ∉ l) (hreturn : '\r' ∉ l) :
    '\n' ∉ guttered i l ∧ (guttered i l).getLast? ≠ some '\r' := by
  rw [guttered]
  split_ifs with hl
  · simp [hi]
  · rw [← List.append_assoc, List.getLast?_append_of_ne_nil _ hl]
    exact ⟨by simp [hi, hfeed], fun h => hreturn (List.mem_of_getLast? h)⟩

/-! ### Documentation comments -/

/-- The last block comment holds the description, whatever stands before it and whatever line
comments stand behind it. -/
lemma componentDescription_append {before behind : List Script.Comment} {comment : Script.Comment}
    (hblock : comment.kind = .block) (hbehind : ∀ c ∈ behind, c.kind = .line) :
    componentDescription (before ++ comment :: behind)
      = nonEmpty? (dedent (joinLines ((lines comment.text).map ungutter))) := by
  have hnone : behind.reverse.find? (·.kind = .block) = none := by
    refine List.find?_eq_none.mpr fun c hc => ?_
    rw [hbehind c (List.mem_reverse.mp hc)]
    decide
  have hfind : (before ++ comment :: behind).reverse.find? (·.kind = .block) = some comment := by
    rw [List.reverse_append, List.reverse_cons, List.append_assoc, List.find?_append, hnone,
      Option.none_or, List.singleton_append, List.find?_cons_of_pos (by simp [hblock])]
  rw [componentDescription, hfind]

section

variable (hreturn : '\r' ∉ d) (hi : ∀ c ∈ i, isBlank c = true ∧ c ≠ '\n')
  (hclosing : isBlankText closing = true)
include hreturn hi hclosing

/-- Without the gutter, the lines of the description stand between an empty line and blank ones. -/
lemma map_ungutter_lines (htrim : trim d = d) (hd : d ≠ []) :
    (lines (documentation i d closing)).map ungutter = [] :: (lines d ++ lines closing) := by
  have hblank : isBlankText i = true := isBlankText_iff.mpr fun c hc => (hi c hc).1
  have hfeed : '\n' ∉ i := fun hmem => (hi _ hmem).2 rfl
  have hlines : lines (documentation i d closing)
      = (['*'] :: (lines d).map (guttered i)) ++ lines closing := by
    rw [documentation, ← lines_eq_splitOn hreturn (getLast?_ne_of_trim htrim) hd,
      ← joinLines_eq_intercalate, ← List.cons_append,
      lines_joinLines_append _ (List.cons_ne_nil _ _)]
    · rfl
    refine List.forall_mem_cons.mpr ⟨by decide, List.forall_mem_map.mpr fun l hl => ?_⟩
    have hlreturn : '\r' ∉ l := fun hmem => hreturn ((sublist_of_mem_lines hl).subset hmem)
    exact endless_guttered hfeed (not_mem_of_mem_lines hl) hlreturn
  have hgutters : ((lines d).map (guttered i)).map ungutter = lines d := by
    rw [List.map_map]
    exact (List.map_congr_left fun l _ => ungutter_guttered hblank l).trans (List.map_id _)
  have hclosed : (lines closing).map ungutter = lines closing :=
    (List.map_congr_left fun l hl => ungutter_of_blank
      (isBlankText_of_mem_lines hclosing hl)).trans (List.map_id _)
  rw [hlines, List.map_append, List.map_cons, hgutters, hclosed]
  rfl

/-- What is left of a documentation comment is the description in it. -/
lemma dedent_ungutter (htrim : trim d = d) (hd : d ≠ []) :
    dedent (joinLines ((lines (documentation i d closing)).map ungutter)) = d := by
  have hblank : ∀ l ∈ lines closing, isBlankText l = true := fun l =>
    isBlankText_of_mem_lines hclosing
  have hfirst : ∀ l ∈ [([] : List Char)], isBlankText l = true := by simp [isBlankText]
  rw [map_ungutter_lines hreturn hi hclosing htrim hd]
  by_cases hnil : lines closing = []
  · -- the comment is closed right behind a line feed, which ends no line any more
    refine dedent_between_blanks hfirst hblank htrim hreturn hd ?_
    rw [hnil, List.append_nil, joinLines_cons_of_ne_nil (mt lines_eq_nil_iff.mp hd),
      joinLines_lines hreturn (getLast?_ne_of_trim htrim)]
    rfl
  · have hagain : ∀ l ∈ lines (joinLines (lines closing)), isBlankText l = true := fun l =>
      isBlankText_of_mem_lines (isBlankText_joinLines hblank)
    refine dedent_between_blanks hfirst hagain htrim hreturn hd ?_
    rw [← List.cons_append, lines_joinLines_append _ hnil]
    · rfl
    refine List.forall_mem_cons.mpr ⟨by simp, fun l hl => ⟨not_mem_of_mem_lines hl, fun hlast => ?_⟩⟩
    exact hreturn ((sublist_of_mem_lines hl).subset (List.mem_of_getLast? hlast))

end

/-- **Descriptions in documentation comments.** A description that is not empty and has neither
blanks around it nor carriage returns in it is read from the comment that it has been written into,
whatever its lines begin with and whatever the comment is indented by. Comments before that one and
line comments behind it say nothing about the component. -/
theorem componentDescription_documentation {comment : Script.Comment}
    (before behind : List Script.Comment) (hd : d ≠ []) (htrim : trim d = d) (hreturn : '\r' ∉ d)
    (hi : ∀ c ∈ i, isBlank c = true ∧ c ≠ '\n') (hclosing : isBlankText closing = true)
    (hblock : comment.kind = .block) (htext : comment.text = documentation i d closing)
    (hbehind : ∀ c ∈ behind, c.kind = .line) :
    componentDescription (before ++ comment :: behind) = some d := by
  rw [componentDescription_append hblock hbehind, htext,
    dedent_ungutter hreturn hi hclosing htrim hd, nonEmpty?, if_neg (by simpa using hd)]

/-- A description with an empty line, a bullet in front of bold text and an indented line. -/
def listDescription : List Char :=
  "Buttons:\n\n* **wide**\n    ones".toList

/-- The comment that documents a component with it. -/
def listComment : Script.Comment :=
  ⟨.block, documentation "\t".toList listDescription "\t ".toList, ⟨20, 70⟩⟩

theorem listDescription_documentation :
    listComment.text = "*\n\t * Buttons:\n\t *\n\t * * **wide**\n\t *     ones\n\t ".toList
      ∧ componentDescription ([⟨.block, " first ".toList, ⟨0, 11⟩⟩, ⟨.line, " a".toList, ⟨12, 16⟩⟩]
        ++ listComment :: [⟨.line, " b".toList, ⟨71, 75⟩⟩]) = some listDescription := by
  have hne : listDescription ≠ [] := by decide +kernel
  have htrim : trim listDescription = listDescription := by decide +kernel
  have hreturn : '\r' ∉ listDescription := by decide +kernel
  have htab : ∀ c ∈ "\t".toList, isBlank c = true ∧ c ≠ '\n' := by decide +kernel
  have hclosing : isBlankText "\t ".toList = true := by decide +kernel
  exact ⟨by decide +kernel, componentDescription_documentation _ _ hne htrim hreturn htab hclosing
    rfl rfl (by decide)⟩

end SvelteStories

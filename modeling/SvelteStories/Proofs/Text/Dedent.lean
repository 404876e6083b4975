/-
The common indentation of the lines of a text:

* `nonBlanks_dedent`, `dedent_sublist`: nothing but blanks is taken away with it, and nothing added;
* `indented`: a text with the same blanks in front of each line;
* `dedent_of_lines`: what is left of indented lines between blank ones;
* `dedent_spec`: an indented text is given back, and what has been given back stays as it is.

The indentation is counted and cut in bytes. That this never cuts into a character of an indented
line comes from `splitAtByte_append`: the blanks in front are a prefix of it.
-/
import SvelteStories.Proofs.Text.Lines

namespace SvelteStories

variable {t d w l : List Char} {ls : List (List Char)} {n : Nat}

/-! ### Indentation -/

lemma byteLength_trimStart_le (l : List Char) : byteLength (trimStart l) ≤ byteLength l := by
  obtain ⟨blanks, h⟩ := exists_trimStart l
  have hlength := congrArg byteLength h
  rw [byteLength_append] at hlength
  omega

lemma indentation_append (hw : isBlankText w = true) (l : List Char) :
    indentation (w ++ l) = byteLength w + indentation l := by
  have hle := byteLength_trimStart_le l
  rw [indentation, indentation, trimStart_append_of_blank hw, byteLength_append]
  omega

/-- A line that begins with a character other than a blank is not indented. -/
lemma indentation_cons {c : Char} (hc : isBlank c = false) (l : List Char) :
    indentation (c :: l) = 0 := by
  rw [indentation, trimStart, List.dropWhile_cons_of_neg (by simp [hc]), Nat.sub_self]

lemma commonIndentation_le (hl : l ∈ ls) (hblank : isBlankText l = false) :
    commonIndentation ls ≤ indentation l := by
  have hmem : indentation l ∈ (ls.filter fun l => !isBlankText l).map indentation :=
    List.mem_map_of_mem (List.mem_filter.mpr ⟨hl, by simp [hblank]⟩)
  rw [commonIndentation]
  cases hmin : ((ls.filter fun l => !isBlankText l).map indentation).min? with
  | none =>
      rw [List.min?_eq_none_iff.mp hmin] at hmem
      cases hmem
  | some n => exact (List.min?_eq_some_iff.mp hmin).2 _ hmem

/-- The common indentation is that of a line which no line is indented less than. -/
lemma commonIndentation_eq (hl : l ∈ ls) (hblank : isBlankText l = false)
    (hle : ∀ m ∈ ls, isBlankText m = false → indentation l ≤ indentation m) :
    commonIndentation ls = indentation l := by
  have hmin : ((ls.filter fun l => !isBlankText l).map indentation).min? = some (indentation l) := by
    refine List.min?_eq_some_iff.mpr ⟨?_, fun n hn => ?_⟩
    · exact List.mem_map_of_mem (List.mem_filter.mpr ⟨hl, by simp [hblank]⟩)
    · obtain ⟨m, hm, rfl⟩ := List.mem_map.mp hn
      obtain ⟨hm, hblank⟩ := List.mem_filter.mp hm
      exact hle m hm (by simpa using hblank)
  rw [commonIndentation, hmin]
  rfl

/-! ### Cut lines -/

lemma unindent_sublist (n : Nat) (l : List Char) : (unindent n l).Sublist l := by
  rw [unindent.eq_def]
  split
  · rename_i before rest hsplit
    rw [(splitAtByte_eq_some_iff.mp hsplit).1]
    exact List.sublist_append_right before rest
  · exact List.dropWhile_sublist _

@[simp] lemma unindent_zero (l : List Char) : unindent 0 l = l := by
  rw [unindent, splitAtByte]

lemma unindent_nil (n : Nat) : unindent n [] = [] :=
  List.sublist_nil.mp (unindent_sublist n [])

/-- What a line is indented by is cut off. -/
lemma unindent_append (w l : List Char) : unindent (byteLength w) (w ++ l) = l := by
  rw [unindent, splitAtByte_append]

/-- Cutting off no more than the indentation of a line cuts off nothing but blanks. -/
lemma nonBlanks_unindent (hn : isBlankText l = false → n ≤ indentation l) :
    nonBlanks (unindent n l) = nonBlanks l := by
  cases hl : isBlankText l with
  | true =>
      have hcut := isBlankText_of_sublist (unindent_sublist n l) hl
      rw [isBlankText_iff_nonBlanks.mp hl, isBlankText_iff_nonBlanks.mp hcut]
  | false =>
      obtain ⟨blanks, hl', hblanks⟩ := exists_blanks_append_trimStart l
      have hlength := congrArg byteLength hl'
      rw [byteLength_append] at hlength
      have hnil := isBlankText_iff_nonBlanks.mp hblanks
      rw [unindent.eq_def]
      split
      · rename_i before rest hsplit
        obtain ⟨hcut, hbefore⟩ := splitAtByte_eq_some_iff.mp hsplit
        have hle : byteLength before ≤ byteLength blanks := by
          have := hn hl
          rw [indentation] at this
          omega
        -- what is cut off is a part of the blanks that the line begins with
        obtain ⟨m, hm, -⟩ := exists_append_of_byteLength_le (hcut.symm.trans hl') hle
        rw [hm, nonBlanks_append, List.append_eq_nil_iff] at hnil
        rw [hcut, nonBlanks_append, hnil.1, List.nil_append]
      · conv_rhs => rw [hl', nonBlanks_append, hnil, List.nil_append]

/-! ### What is left of a text -/

/-- Nothing but blanks is taken away with the indentation. -/
lemma nonBlanks_dedent (t : List Char) : nonBlanks (dedent t) = nonBlanks t := by
  have hlines : ∀ l ∈ lines t,
      nonBlanks (unindent (commonIndentation (lines t)) l) = nonBlanks l := fun l hl =>
    nonBlanks_unindent (commonIndentation_le hl)
  rw [dedent, nonBlanks_trim, nonBlanks_joinLines, List.flatMap_map,
    List.flatMap_congr hlines, flatMap_nonBlanks_lines]

lemma dedent_sublist (t : List Char) : (dedent t).Sublist t :=
  (trim_sublist _).trans ((joinLines_map_sublist (unindent_sublist _) _).trans
    (joinLines_lines_sublist t))

lemma trim_dedent (t : List Char) : trim (dedent t) = dedent t :=
  trim_trim _

/-- Nothing is left of a blank text. -/
lemma dedent_of_blank (ht : isBlankText t = true) : dedent t = [] := by
  rw [← trim_dedent, trim_eq_nil_iff, isBlankText_iff_nonBlanks, nonBlanks_dedent,
    ← isBlankText_iff_nonBlanks, ht]

/-! ### Indented lines -/

/-- A line with `w` in front of it, unless it is blank. -/
def indentLine (w l : List Char) : List Char :=
  if isBlankText l then l else w ++ l

/-- A text with `w` in front of each line that is not blank. -/
def indented (w d : List Char) : List Char :=
  ['\n'].intercalate ((d.splitOn '\n').map (indentLine w))

lemma indentLine_of_blank (hl : isBlankText l = true) : indentLine w l = l :=
  if_pos hl

lemma indentLine_of_not_blank (hl : isBlankText l = false) : indentLine w l = w ++ l :=
  if_neg (by simp [hl])

/-! ### First lines -/

lemma getLast?_ne_of_trim (htrim : trim d = d) : d.getLast? ≠ some '\n' := by
  intro hlast
  have hblank := trimEnd_eq_self_iff.mp (trim_eq_self_iff.mp htrim).2 '\n' hlast
  exact absurd hblank (by decide)

/-- The first line of a trimmed text is neither blank nor indented. -/
lemma exists_first_line (htrim : trim d = d) (hd : d ≠ []) :
    ∃ l ∈ lines d, isBlankText l = false ∧ indentation l = 0 := by
  obtain ⟨c, t, rfl⟩ := List.exists_cons_of_ne_nil hd
  have hc : isBlank c = false :=
    trimStart_eq_self_iff.mp (trim_eq_self_iff.mp htrim).1 c rfl
  have hblank (l : List Char) : isBlankText (c :: l) = false := by
    rw [isBlankText, List.all_cons, hc, Bool.false_and]
  have hfeed : c ≠ '\n' := by
    rintro rfl
    cases hc
  have hreturn : c ≠ '\r' := by
    rintro rfl
    cases hc
  rw [lines_cons hfeed (absurd · hreturn)]
  cases lines t with
  | nil => exact ⟨[c], List.mem_cons_self, hblank [], indentation_cons hc []⟩
  | cons l ls => exact ⟨c :: l, List.mem_cons_self, hblank l, indentation_cons hc l⟩

/-! ### Lines between blank lines -/

section

variable {as bs : List (List Char)} (has : ∀ l ∈ as, isBlankText l = true)
  (hbs : ∀ l ∈ bs, isBlankText l = true) (hw : isBlankText w = true)
include has hbs hw

/-- Indented lines between blank ones are indented by what stands in front of them, if one of them
was not indented before. -/
lemma commonIndentation_indentLine (hl : l ∈ ls) (hfirst : isBlankText l = false)
    (hindentation : indentation l = 0) :
    commonIndentation (as ++ (ls.map (indentLine w) ++ bs)) = byteLength w := by
  have hmin : indentation (w ++ l) = byteLength w := by
    rw [indentation_append hw, hindentation, Nat.add_zero]
  have hmem : w ++ l ∈ as ++ (ls.map (indentLine w) ++ bs) := by
    rw [← indentLine_of_not_blank hfirst]
    exact List.mem_append_right _ (List.mem_append_left _ (List.mem_map_of_mem hl))
  rw [← hmin]
  refine commonIndentation_eq hmem (by rw [isBlankText_append, hfirst, Bool.and_false]) ?_
  intro m hm hmblank
  rw [List.mem_append, List.mem_append] at hm
  obtain hm | hm | hm := hm
  · rw [has m hm] at hmblank
    cases hmblank
  · obtain ⟨k, -, rfl⟩ := List.mem_map.mp hm
    cases hk : isBlankText k with
    | true =>
        rw [indentLine_of_blank hk, hk] at hmblank
        cases hmblank
    | false =>
        rw [indentLine_of_not_blank hk, hmin, indentation_append hw]
        omega
  · rw [hbs m hm] at hmblank
    cases hmblank

/-- What is left of indented lines between blank ones, if one of them was not indented before, and
cutting does not change the blank ones among them. -/
lemma dedent_of_lines (hlines : lines t = as ++ (ls.map (indentLine w) ++ bs)) (hl : l ∈ ls)
    (hfirst : isBlankText l = false) (hindentation : indentation l = 0)
    (hblank : ∀ l ∈ ls, isBlankText l = true → unindent (byteLength w) l = l) :
    dedent t = trim (joinLines ls) := by
  have hback : (ls.map (indentLine w)).map (unindent (byteLength w)) = ls := by
    rw [List.map_map]
    refine (List.map_congr_left fun k hk => ?_).trans (List.map_id ls)
    cases hk' : isBlankText k with
    | true => simp [indentLine_of_blank hk', hblank k hk hk']
    | false => simp [indentLine_of_not_blank hk', unindent_append]
  have hcut {ms : List (List Char)} (hms : ∀ l ∈ ms, isBlankText l = true) :
      ∀ l ∈ ms.map (unindent (byteLength w)), isBlankText l = true := by
    intro k hk
    obtain ⟨m, hm, rfl⟩ := List.mem_map.mp hk
    exact isBlankText_of_sublist (unindent_sublist _ m) (hms m hm)
  rw [dedent, hlines, commonIndentation_indentLine has hbs hw hl hfirst hindentation,
    List.map_append, List.map_append, hback]
  exact trim_joinLines (hcut has) (hcut hbs) ls

/-- A trimmed text is what is left of its lines, indented between blank ones, if cutting does not
change the blank ones among them. -/
lemma dedent_of_trimmed_lines (htrim : trim d = d) (hreturn : '\r' ∉ d) (hd : d ≠ [])
    (hblank : ∀ l ∈ lines d, isBlankText l = true → unindent (byteLength w) l = l)
    (hlines : lines t = as ++ ((lines d).map (indentLine w) ++ bs)) : dedent t = d := by
  obtain ⟨l, hl, hfirst, hindentation⟩ := exists_first_line htrim hd
  rw [dedent_of_lines has hbs hw hlines hl hfirst hindentation hblank,
    joinLines_lines hreturn (getLast?_ne_of_trim htrim), htrim]

end

/-- A trimmed text between blank lines is given back. -/
lemma dedent_between_blanks {as bs : List (List Char)} (has : ∀ l ∈ as, isBlankText l = true)
    (hbs : ∀ l ∈ bs, isBlankText l = true) (htrim : trim d = d) (hreturn : '\r' ∉ d) (hd : d ≠ [])
    (hlines : lines t = as ++ (lines d ++ bs)) : dedent t = d := by
  have hnone : (lines d).map (indentLine []) = lines d :=
    (List.map_congr_left fun l _ => by simp [indentLine]).trans (List.map_id _)
  have hempty : isBlankText [] = true := rfl
  refine dedent_of_trimmed_lines has hbs hempty htrim hreturn hd (fun l _ _ => ?_) ?_
  · exact unindent_zero l
  · rw [hnone, hlines]

/-- A trimmed text without carriage returns has no indentation to lose. -/
lemma dedent_eq_self (htrim : trim d = d) (hreturn : '\r' ∉ d) : dedent d = d := by
  by_cases hd : d = []
  · rw [hd]
    rfl
  have hnone : ∀ l ∈ ([] : List (List Char)), isBlankText l = true := by simp
  refine dedent_between_blanks hnone hnone htrim hreturn hd ?_
  rw [List.append_nil, List.nil_append]

/-! ### Indented texts -/

/-- Neither a line feed nor a carriage return at the end comes to a line with the indentation. -/
lemma endless_indentLine (hw : '\n' ∉ w) (hfeed : '\n' ∉ l) (hreturn : '\r' ∉ l) :
    '\n' ∉ indentLine w l ∧ (indentLine w l).getLast? ≠ some '\r' := by
  have hlast : l.getLast? ≠ some '\r' := fun h => hreturn (List.mem_of_getLast? h)
  cases hl : isBlankText l with
  | true =>
      rw [indentLine_of_blank hl]
      exact ⟨hfeed, hlast⟩
  | false =>
      have hne : l ≠ [] := by
        rintro rfl
        cases hl
      rw [indentLine_of_not_blank hl, List.mem_append, not_or, List.getLast?_append_of_ne_nil w hne]
      exact ⟨⟨hw, hfeed⟩, hlast⟩

/-- An indented text between two line feeds and blanks behind it is given back. -/
lemma dedent_indented (htrim : trim d = d) (hreturn : '\r' ∉ d)
    (hempty : ∀ l ∈ d.splitOn '\n', isBlankText l = true → l = [])
    (hw : ∀ c ∈ w, isBlank c = true ∧ c ≠ '\n') {behind : List Char}
    (hbehind : isBlankText behind = true) :
    dedent ('\n' :: (indented w d ++ '\n' :: behind)) = d := by
  have hwblank : isBlankText w = true := isBlankText_iff.mpr fun c hc => (hw c hc).1
  have hwfeed : '\n' ∉ w := fun hmem => (hw _ hmem).2 rfl
  by_cases hd : d = []
  · rw [hd]
    refine dedent_of_blank ?_
    rw [isBlankText_iff] at hbehind ⊢
    simpa [indented, indentLine, isBlankText, isBlank] using hbehind
  have hsplit := lines_eq_splitOn hreturn (getLast?_ne_of_trim htrim) hd
  have hne : (lines d).map (indentLine w) ≠ [] := by simpa using mt lines_eq_nil_iff.mp hd
  -- the text is made of an empty line, the indented ones and what is behind them
  have htext : '\n' :: (indented w d ++ '\n' :: behind)
      = joinLines (([] :: (lines d).map (indentLine w)) ++ [behind]) := by
    rw [joinLines_append (List.cons_ne_nil _ _) (List.cons_ne_nil _ _),
      joinLines_cons_of_ne_nil hne, joinLines_eq_intercalate (List.map _ _), hsplit]
    rfl
  have hlines : lines ('\n' :: (indented w d ++ '\n' :: behind))
      = [[]] ++ ((lines d).map (indentLine w) ++ lines behind) := by
    rw [htext, lines_joinLines_append _ (List.cons_ne_nil _ _)]
    · rfl
    refine List.forall_mem_cons.mpr ⟨by simp, List.forall_mem_map.mpr fun m hm => ?_⟩
    have hmreturn : '\r' ∉ m := fun hmem => hreturn ((sublist_of_mem_lines hm).subset hmem)
    exact endless_indentLine hwfeed (not_mem_of_mem_lines hm) hmreturn
  refine dedent_of_trimmed_lines (by simp [isBlankText]) (fun m => isBlankText_of_mem_lines hbehind)
    hwblank htrim hreturn hd (fun m hm hblank => ?_) hlines
  rw [hempty m (hsplit ▸ hm) hblank, unindent_nil]

/-- **Taking the common indentation away.** Nothing but blanks is taken away from a text, and
nothing comes to it. A trimmed text whose blank lines are empty is given back when the same blanks
have been put in front of its lines, a line feed before it, and a line feed and blanks behind it.
And what is left of a text without carriage returns has no indentation any more. -/
theorem dedent_spec :
    (∀ t, nonBlanks (dedent t) = nonBlanks t ∧ (dedent t).Sublist t)
      ∧ (∀ d w behind, trim d = d → '\r' ∉ d →
        (∀ l ∈ d.splitOn '\n', isBlankText l = true → l = []) →
        (∀ c ∈ w, isBlank c = true ∧ c ≠ '\n') → isBlankText behind = true →
        dedent ('\n' :: (indented w d ++ '\n' :: behind)) = d)
      ∧ ∀ t, '\r' ∉ t → dedent (dedent t) = dedent t := by
  refine ⟨fun t => ⟨nonBlanks_dedent t, dedent_sublist t⟩, ?_, fun t hreturn => ?_⟩
  · intro d w behind htrim hreturn hempty hw hbehind
    exact dedent_indented htrim hreturn hempty hw hbehind
  · have hnone : '\r' ∉ dedent t := fun hmem => hreturn ((dedent_sublist t).subset hmem)
    exact dedent_eq_self (trim_dedent t) hnone

/-- A text with an indented line and an empty one. -/
def indentedList : List Char :=
  "Shows:\n\n  * the label".toList

/-- Blanks of one byte and of three. -/
def mixedBlanks : List Char :=
  "\t \u2003".toList

theorem indentedList_dedent :
    trim indentedList = indentedList ∧ '\r' ∉ indentedList
      ∧ (∀ l ∈ indentedList.splitOn '\n', isBlankText l = true → l = [])
      ∧ (∀ c ∈ mixedBlanks, isBlank c = true ∧ c ≠ '\n') ∧ isBlankText "\u2003\n ".toList = true
      ∧ indented mixedBlanks indentedList
        = "\t \u2003Shows:\n\n\t \u2003  * the label".toList
      ∧ dedent ('\n' :: (indented mixedBlanks indentedList ++ '\n' :: "\u2003\n ".toList))
        = indentedList
      ∧ dedent (dedent indentedList) = dedent indentedList := by
  have htrim : trim indentedList = indentedList := by decide +kernel
  have hreturn : '\r' ∉ indentedList := by decide +kernel
  have hempty : ∀ l ∈ indentedList.splitOn '\n', isBlankText l = true → l = [] := by
    decide +kernel
  have hblanks : ∀ c ∈ mixedBlanks, isBlank c = true ∧ c ≠ '\n' := by decide +kernel
  have hbehind : isBlankText "\u2003\n ".toList = true := by decide +kernel
  obtain ⟨-, hgiven, hagain⟩ := dedent_spec
  exact ⟨htrim, hreturn, hempty, hblanks, hbehind, by decide +kernel,
    hgiven _ _ _ htrim hreturn hempty hblanks hbehind, hagain _ hreturn⟩

end SvelteStories

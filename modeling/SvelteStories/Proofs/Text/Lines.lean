/-
Lines of a text:

* `nonBlanks`: the characters of a text that are not blank; neither trimming a text nor cutting it
  into lines changes them (`nonBlanks_trim`, `flatMap_nonBlanks_lines`);
* `lines_induction`: a text, one end of a line or one character of a line after the other;
* `lines_joinLines_append`: lines put together are cut apart again;
* `joinLines_lines`: lines put together again give the text that they were cut from;
* `trim_joinLines`: blank lines around others are trimmed off with the blanks.
-/
import Mathlib.Data.List.Basic
import SvelteStories.Proofs.Text.Trim
import SvelteStories.Text.Lines

namespace SvelteStories

variable {t u l : List Char} {ls : List (List Char)} {c : Char}

/-! ### Blank texts -/

/-- The characters of a text that are not blank. -/
def nonBlanks (t : List Char) : List Char :=
  t.filter fun c => !isBlank c

@[simp] lemma nonBlanks_nil : nonBlanks [] = [] := rfl

@[simp] lemma nonBlanks_append (t u : List Char) :
    nonBlanks (t ++ u) = nonBlanks t ++ nonBlanks u :=
  List.filter_append ..

lemma nonBlanks_cons_of_blank (hc : isBlank c = true) (t : List Char) :
    nonBlanks (c :: t) = nonBlanks t :=
  List.filter_cons_of_neg (by simp [hc])

lemma isBlankText_iff : isBlankText t = true ↔ ∀ c ∈ t, isBlank c = true :=
  List.all_eq_true

/-- A text is blank if there is nothing else in it. -/
lemma isBlankText_iff_nonBlanks : isBlankText t = true ↔ nonBlanks t = [] := by
  rw [isBlankText_iff, nonBlanks, List.filter_eq_nil_iff]
  simp

lemma isBlankText_append : isBlankText (t ++ u) = (isBlankText t && isBlankText u) :=
  List.all_append

lemma isBlankText_of_sublist (h : u.Sublist t) (ht : isBlankText t = true) :
    isBlankText u = true :=
  isBlankText_iff.mpr fun c hc => isBlankText_iff.mp ht c (h.subset hc)

/-! ### Trimming -/

lemma trimStart_eq_nil_iff : trimStart t = [] ↔ isBlankText t = true := by
  rw [trimStart, List.dropWhile_eq_nil_iff, isBlankText_iff]

lemma trimStart_append_of_blank (ht : isBlankText t = true) (u : List Char) :
    trimStart (t ++ u) = trimStart u := by
  have hnil := trimStart_eq_nil_iff.mpr ht
  rw [trimStart] at hnil
  rw [trimStart, List.dropWhile_append, hnil]
  rfl

lemma trimEnd_append_of_blank (hu : isBlankText u = true) (t : List Char) :
    trimEnd (t ++ u) = trimEnd t := by
  have hreverse : isBlankText u.reverse = true := by simpa [isBlankText] using hu
  have hstart := trimStart_append_of_blank hreverse t.reverse
  rw [trimEnd, trimEnd, List.reverse_append]
  exact congrArg List.reverse hstart

/-- What is cut off the start of a text is blank. -/
lemma exists_blanks_append_trimStart (t : List Char) :
    ∃ blanks, t = blanks ++ trimStart t ∧ isBlankText blanks = true :=
  ⟨t.takeWhile isBlank, List.takeWhile_append_dropWhile.symm,
    isBlankText_iff.mpr fun _ => List.mem_takeWhile_imp⟩

/-- A text is what is left of it when it is trimmed, between blanks. -/
lemma exists_trim (t : List Char) : ∃ before behind, t = before ++ (trim t ++ behind)
    ∧ isBlankText before = true ∧ isBlankText behind = true := by
  obtain ⟨before, hstart, hbefore⟩ := exists_blanks_append_trimStart t
  obtain ⟨behind, hend, hbehind⟩ := exists_blanks_append_trimStart (trimStart t).reverse
  refine ⟨before, behind.reverse, ?_, hbefore, ?_⟩
  · rw [trim, trimEnd, ← trimStart, ← List.reverse_append, ← hend, List.reverse_reverse, ← hstart]
  · simpa [isBlankText] using hbehind

lemma trim_sublist (t : List Char) : (trim t).Sublist t := by
  obtain ⟨before, behind, ht, -⟩ := exists_trim t
  conv_rhs => rw [ht]
  exact (List.sublist_append_left _ behind).trans (List.sublist_append_right before _)

lemma nonBlanks_trim (t : List Char) : nonBlanks (trim t) = nonBlanks t := by
  obtain ⟨before, behind, ht, hbefore, hbehind⟩ := exists_trim t
  rw [isBlankText_iff_nonBlanks] at hbefore hbehind
  conv_rhs => rw [ht]
  rw [nonBlanks_append, nonBlanks_append, hbefore, hbehind, List.nil_append, List.append_nil]

lemma trim_eq_nil_iff : trim t = [] ↔ isBlankText t = true := by
  refine ⟨fun h => ?_, fun h => ?_⟩
  · rw [isBlankText_iff_nonBlanks, ← nonBlanks_trim, h, nonBlanks_nil]
  · rw [trim, trimStart_eq_nil_iff.mpr h]
    rfl

/-- Blanks before a text are trimmed off. -/
lemma trim_append_left (hu : isBlankText u = true) (t : List Char) : trim (u ++ t) = trim t := by
  rw [trim, trimStart_append_of_blank hu, trim]

/-- Blanks behind a text are trimmed off. -/
lemma trim_append_right (hu : isBlankText u = true) (t : List Char) : trim (t ++ u) = trim t := by
  cases ht : isBlankText t with
  | true => rw [trim_eq_nil_iff.mpr ht, trim_eq_nil_iff, isBlankText_append, ht, hu, Bool.and_self]
  | false =>
      have hne : ¬ (t.dropWhile isBlank).isEmpty = true := by
        rw [List.isEmpty_iff, ← trimStart, trimStart_eq_nil_iff, ht]
        simp
      have happend : trimStart (t ++ u) = trimStart t ++ u := by
        rw [trimStart, List.dropWhile_append, if_neg hne, trimStart]
      rw [trim, happend, trimEnd_append_of_blank hu, trim]

/-- Trimming once is enough. -/
lemma trim_trim (t : List Char) : trim (trim t) = trim t := by
  obtain ⟨before, behind, ht, hbefore, hbehind⟩ := exists_trim t
  conv_rhs => rw [ht, trim_append_left hbefore, trim_append_right hbehind]

/-! ### Cutting -/

@[simp] lemma lines_feed (t : List Char) : lines ('\n' :: t) = [] :: lines t := rfl

@[simp] lemma lines_returnFeed (t : List Char) : lines ('\r' :: '\n' :: t) = [] :: lines t := rfl

lemma lines_cons (hfeed : c ≠ '\n') (hreturn : c = '\r' → t.head? ≠ some '\n') :
    lines (c :: t) = match lines t with
      | [] => [[c]]
      | l :: ls => (c :: l) :: ls := by
  rw [lines.eq_def]
  split
  · simp_all
  · simp_all
  · simp_all
  · rename_i heq
    obtain ⟨rfl, rfl⟩ := List.cons.inj heq
    rfl

lemma lines_cons_ne_nil (c : Char) (t : List Char) : lines (c :: t) ≠ [] := by
  by_cases hfeed : c = '\n'
  · simp [hfeed]
  by_cases hreturn : c = '\r' ∧ t.head? = some '\n'
  · obtain ⟨rfl, hhead⟩ := hreturn
    obtain ⟨t, rfl⟩ := List.head?_eq_some_iff.mp hhead
    simp
  · rw [lines_cons hfeed fun hc hhead => hreturn ⟨hc, hhead⟩]
    cases lines t <;> simp

/-- A text is empty, begins with the end of a line, or goes on with a character of its first line,
behind which nothing or the rest of that line stands. -/
@[elab_as_elim]
lemma lines_induction {motive : List Char → Prop} (empty : motive [])
    (feed : ∀ t, motive t → motive ('\n' :: t))
    (returnFeed : ∀ t, motive t → motive ('\r' :: '\n' :: t))
    (last : ∀ c, c ≠ '\n' → lines [c] = [[c]] → motive [c])
    (inside : ∀ c t l ls, c ≠ '\n' → lines t = l :: ls → lines (c :: t) = (c :: l) :: ls →
      motive t → motive (c :: t)) (t : List Char) : motive t := by
  fun_induction lines t with
  | case1 => exact empty
  | case2 t ih => exact feed t ih
  | case3 t ih => exact returnFeed t ih
  | case4 c t hfeed hreturn hlines _ =>
      cases t with
      | nil => exact last c hfeed (lines_cons hfeed (by simp))
      | cons d t => exact absurd hlines (lines_cons_ne_nil d t)
  | case5 c t hfeed hreturn l ls hlines ih =>
      have hnext : c = '\r' → t.head? ≠ some '\n' := fun hc hhead => by
        obtain ⟨t', ht⟩ := List.head?_eq_some_iff.mp hhead
        exact hreturn t' hc ht
      exact inside c t l ls hfeed hlines (by rw [lines_cons hfeed hnext, hlines]) ih

lemma head?_append_ne (hfeed : '\n' ∉ l) (hl : l ≠ []) (t : List Char) :
    (l ++ t).head? ≠ some '\n' := by
  cases l with
  | nil => exact absurd rfl hl
  | cons c l =>
      rw [List.mem_cons, not_or] at hfeed
      simpa [eq_comm] using hfeed.1

/-- A line in front of a line feed is cut off there. Only a carriage return at its end would be
taken for a part of the end of the line. -/
lemma lines_append_cons (hfeed : '\n' ∉ l) (hreturn : l.getLast? ≠ some '\r') (t : List Char) :
    lines (l ++ '\n' :: t) = l :: lines t := by
  induction l with
  | nil => rfl
  | cons c l ih =>
      rw [List.mem_cons, not_or] at hfeed
      by_cases hl : l = []
      · have hc : c ≠ '\r' := fun hc => hreturn (by rw [hc, hl]; rfl)
        rw [hl, List.singleton_append, lines_cons (Ne.symm hfeed.1) (absurd · hc)]
        rfl
      · rw [List.getLast?_cons_of_ne_nil hl] at hreturn
        rw [List.cons_append, lines_cons (Ne.symm hfeed.1) fun _ => head?_append_ne hfeed.2 hl _,
          ih hfeed.2 hreturn]

/-- Only an empty text has no lines. -/
lemma lines_eq_nil_iff : lines t = [] ↔ t = [] := by
  induction t using lines_induction with
  | empty => exact iff_of_true rfl rfl
  | feed t _ => simp
  | returnFeed t _ => simp
  | last c _ hlines => simp [hlines]
  | inside c t l ls _ _ hlines _ => simp [hlines]

/-- Cutting a text into lines keeps what is not blank. -/
lemma flatMap_nonBlanks_lines (t : List Char) : (lines t).flatMap nonBlanks = nonBlanks t := by
  induction t using lines_induction with
  | empty => rfl
  | feed t ih =>
      rw [lines_feed, List.flatMap_cons, ih, nonBlanks_cons_of_blank (by decide)]
      rfl
  | returnFeed t ih =>
      rw [lines_returnFeed, List.flatMap_cons, ih, nonBlanks_cons_of_blank (by decide),
        nonBlanks_cons_of_blank (by decide)]
      rfl
  | last c _ hlines => rw [hlines, List.flatMap_singleton]
  | inside c t l ls _ hrest hlines ih =>
      rw [hrest, List.flatMap_cons] at ih
      have happend (u : List Char) : nonBlanks (c :: u) = nonBlanks [c] ++ nonBlanks u :=
        nonBlanks_append [c] u
      rw [hlines, List.flatMap_cons, happend, happend t, List.append_assoc, ih]

/-- Of a blank text, all lines are blank. -/
lemma isBlankText_of_mem_lines (ht : isBlankText t = true) (hl : l ∈ lines t) :
    isBlankText l = true := by
  have hnil := flatMap_nonBlanks_lines t
  rw [isBlankText_iff_nonBlanks.mp ht, List.flatMap_eq_nil_iff] at hnil
  exact isBlankText_iff_nonBlanks.mpr (hnil l hl)

/-- No line feed is part of a line. -/
lemma not_mem_of_mem_lines (hl : l ∈ lines t) : '\n' ∉ l := by
  induction t using lines_induction generalizing l with
  | empty => cases hl
  | feed t ih =>
      obtain rfl | hl := List.mem_cons.mp hl
      · exact List.not_mem_nil
      · exact ih hl
  | returnFeed t ih =>
      obtain rfl | hl := List.mem_cons.mp hl
      · exact List.not_mem_nil
      · exact ih hl
  | last c hc hlines =>
      rw [hlines, List.mem_singleton] at hl
      rw [hl, List.mem_singleton]
      exact hc.symm
  | inside c t m ls hc hrest hlines ih =>
      rw [hrest] at ih
      rw [hlines] at hl
      obtain rfl | hl := List.mem_cons.mp hl
      · rw [List.mem_cons, not_or]
        exact ⟨hc.symm, ih List.mem_cons_self⟩
      · exact ih (List.mem_cons_of_mem _ hl)

/-- A line is part of the text. -/
lemma sublist_of_mem_lines (hl : l ∈ lines t) : l.Sublist t := by
  induction t using lines_induction generalizing l with
  | empty => cases hl
  | feed t ih =>
      obtain rfl | hl := List.mem_cons.mp hl
      · exact List.nil_sublist _
      · exact (ih hl).cons _
  | returnFeed t ih =>
      obtain rfl | hl := List.mem_cons.mp hl
      · exact List.nil_sublist _
      · exact ((ih hl).cons _).cons _
  | last c _ hlines =>
      rw [hlines, List.mem_singleton] at hl
      rw [hl]
  | inside c t m ls _ hrest hlines ih =>
      rw [hrest] at ih
      rw [hlines] at hl
      obtain rfl | hl := List.mem_cons.mp hl
      · exact (ih List.mem_cons_self).cons_cons c
      · exact (ih (List.mem_cons_of_mem _ hl)).cons c

/-! ### Putting together -/

lemma joinLines_cons_of_ne_nil (hls : ls ≠ []) (l : List Char) :
    joinLines (l :: ls) = l ++ '\n' :: joinLines ls := by
  cases ls with
  | nil => exact absurd rfl hls
  | cons m ls => rfl

lemma joinLines_cons_cons (c : Char) (l : List Char) (ls : List (List Char)) :
    joinLines ((c :: l) :: ls) = c :: joinLines (l :: ls) := by
  cases ls <;> rfl

/-- Where lines on both sides are put together, a line feed stands between them. -/
lemma joinLines_append {ms : List (List Char)} (hls : ls ≠ []) (hms : ms ≠ []) :
    joinLines (ls ++ ms) = joinLines ls ++ '\n' :: joinLines ms := by
  induction ls with
  | nil => exact absurd rfl hls
  | cons l ls ih =>
      rw [List.cons_append, joinLines_cons_of_ne_nil (by simp [hms])]
      by_cases hnil : ls = []
      · rw [hnil, List.nil_append]
        rfl
      · rw [ih hnil, joinLines_cons_of_ne_nil hnil, List.append_assoc, List.cons_append]

lemma joinLines_eq_intercalate (ls : List (List Char)) : joinLines ls = ['\n'].intercalate ls := by
  induction ls with
  | nil => rfl
  | cons l ls ih =>
      by_cases hls : ls = []
      · simp [hls, joinLines]
      · rw [joinLines_cons_of_ne_nil hls, List.intercalate_cons_of_ne_nil hls, ih,
          List.append_assoc, List.singleton_append]

lemma nonBlanks_joinLines (ls : List (List Char)) :
    nonBlanks (joinLines ls) = ls.flatMap nonBlanks := by
  induction ls with
  | nil => rfl
  | cons l ls ih =>
      by_cases hls : ls = []
      · simp [hls, joinLines]
      · rw [joinLines_cons_of_ne_nil hls, nonBlanks_append, nonBlanks_cons_of_blank (by decide),
          ih, List.flatMap_cons]

/-- Lines put together with others are cut off from them again. -/
lemma lines_joinLines_append (hls : ∀ l ∈ ls, '\n' ∉ l ∧ l.getLast? ≠ some '\r')
    {ms : List (List Char)} (hms : ms ≠ []) :
    lines (joinLines (ls ++ ms)) = ls ++ lines (joinLines ms) := by
  induction ls with
  | nil => rfl
  | cons l ls ih =>
      obtain ⟨hl, hls⟩ := List.forall_mem_cons.mp hls
      rw [List.cons_append, joinLines_cons_of_ne_nil (by simp [hms]), lines_append_cons hl.1 hl.2,
        ih hls, List.cons_append]

/-- Shorter lines put together are part of the longer ones put together. -/
lemma joinLines_map_sublist {f : List Char → List Char} (hf : ∀ l, (f l).Sublist l)
    (ls : List (List Char)) : (joinLines (ls.map f)).Sublist (joinLines ls) := by
  induction ls with
  | nil => exact .slnil
  | cons l ls ih =>
      by_cases hls : ls = []
      · simpa [hls, joinLines] using hf l
      · rw [List.map_cons, joinLines_cons_of_ne_nil (by simpa using hls),
          joinLines_cons_of_ne_nil hls]
        exact (hf l).append (ih.cons_cons _)

/-- Lines put together again are part of the text that they were cut from. -/
lemma joinLines_lines_sublist (t : List Char) : (joinLines (lines t)).Sublist t := by
  have hfeed (t : List Char) (ih : (joinLines (lines t)).Sublist t) :
      (joinLines ([] :: lines t)).Sublist ('\n' :: t) := by
    by_cases ht : lines t = []
    · rw [ht]
      exact List.nil_sublist _
    · rw [joinLines_cons_of_ne_nil ht]
      exact ih.cons_cons _
  induction t using lines_induction with
  | empty => exact .slnil
  | feed t ih => exact hfeed t ih
  | returnFeed t ih => exact (hfeed t ih).cons _
  | last c _ hlines =>
      rw [hlines]
      exact .refl _
  | inside c t l ls _ hrest hlines ih =>
      rw [hrest] at ih
      rw [hlines, joinLines_cons_cons]
      exact ih.cons_cons c

/-- Lines put together again are the text that they were cut from, unless its ends of lines have
carriage returns or one of them stands at its end. -/
lemma joinLines_lines (hreturn : '\r' ∉ t) (hlast : t.getLast? ≠ some '\n') :
    joinLines (lines t) = t := by
  have hrest {c : Char} {t : List Char} (ht : t ≠ [])
      (hlast : (c :: t).getLast? ≠ some '\n') : t.getLast? ≠ some '\n' := by
    rwa [List.getLast?_cons_of_ne_nil ht] at hlast
  induction t using lines_induction with
  | empty => rfl
  | feed t ih =>
      have ht : t ≠ [] := by
        rintro rfl
        exact hlast rfl
      rw [lines_feed, joinLines_cons_of_ne_nil (mt lines_eq_nil_iff.mp ht), List.nil_append,
        ih (fun hmem => hreturn (List.mem_cons_of_mem _ hmem)) (hrest ht hlast)]
  | returnFeed t _ => exact absurd List.mem_cons_self hreturn
  | last c _ hlines =>
      rw [hlines]
      rfl
  | inside c t l ls _ hcut hlines ih =>
      have ht : t ≠ [] := by
        rintro rfl
        cases hcut
      rw [hlines, joinLines_cons_cons, ← hcut,
        ih (fun hmem => hreturn (List.mem_cons_of_mem _ hmem)) (hrest ht hlast)]

/-- The lines of a text are what line feeds stand between, unless its ends of lines have carriage
returns or one of them stands at its end. -/
lemma lines_eq_splitOn (hreturn : '\r' ∉ t) (hlast : t.getLast? ≠ some '\n') (ht : t ≠ []) :
    lines t = t.splitOn '\n' := by
  have hfeed : ∀ l ∈ lines t, '\n' ∉ l := fun l => not_mem_of_mem_lines
  have hsplit := List.splitOn_intercalate '\n' hfeed (mt lines_eq_nil_iff.mp ht)
  rw [← joinLines_eq_intercalate, joinLines_lines hreturn hlast] at hsplit
  exact hsplit.symm

/-! ### Blank lines -/

lemma isBlankText_joinLines (hls : ∀ l ∈ ls, isBlankText l = true) :
    isBlankText (joinLines ls) = true := by
  rw [isBlankText_iff_nonBlanks, nonBlanks_joinLines, List.flatMap_eq_nil_iff]
  exact fun l hl => isBlankText_iff_nonBlanks.mp (hls l hl)

/-- Blank lines around others are trimmed off. -/
lemma trim_joinLines {as bs : List (List Char)} (has : ∀ l ∈ as, isBlankText l = true)
    (hbs : ∀ l ∈ bs, isBlankText l = true) (ls : List (List Char)) :
    trim (joinLines (as ++ (ls ++ bs))) = trim (joinLines ls) := by
  have hfeed : isBlankText ['\n'] = true := by decide
  have hblank {ls : List (List Char)} (h : ∀ l ∈ ls, isBlankText l = true) :
      trim (joinLines ls) = [] := trim_eq_nil_iff.mpr (isBlankText_joinLines h)
  have hbefore (ls : List (List Char)) : trim (joinLines (as ++ ls)) = trim (joinLines ls) := by
    by_cases hnil : as = []
    · rw [hnil, List.nil_append]
    by_cases hls : ls = []
    · rw [hls, List.append_nil, hblank has]
      rfl
    rw [joinLines_append hnil hls, trim_append_left (isBlankText_joinLines has)]
    exact trim_append_left hfeed (joinLines ls)
  rw [hbefore]
  by_cases hnil : bs = []
  · rw [hnil, List.append_nil]
  by_cases hls : ls = []
  · rw [hls, List.nil_append, hblank hbs]
    rfl
  have hright : isBlankText (['\n'] ++ joinLines bs) = true := by
    rw [isBlankText_append, hfeed, isBlankText_joinLines hbs, Bool.and_self]
  rw [joinLines_append hls hnil]
  exact trim_append_right hright (joinLines ls)

end SvelteStories

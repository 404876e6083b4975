/-
Lines and columns of the byte offsets of a file:

* `lastLine`: what stands in a text behind its last line feed;
* `LineStart`: an offset where a line starts, and `mem_lineStarts`: the list of these offsets;
* `narrow_eq`, `lastUpTo_eq`: the binary search, over a list split where the key belongs;
* `lastUpTo_lineStarts`: the line that is found for an offset;
* `Location.place`: line and column, in the order in which a reader comes upon them;
* `locate_spec`: what the location of an offset says.
-/
import Mathlib.Data.List.DropRight
import Mathlib.Data.List.GetD
import Mathlib.Data.Prod.Lex
import Mathlib.Order.Bounds.Defs
import SvelteStories.Proofs.Text.Boundary
import SvelteStories.Source

namespace SvelteStories

variable {s : Source} {t before rest : List Char} {n line column offset : Nat}

/-! ### Lines -/

/-- The characters of a text behind its last line feed; all of them if there is none. -/
def lastLine (t : List Char) : List Char :=
  t.rtakeWhile (· ≠ '\n')

/-- An offset where a line starts: the beginning of the text, or right behind a line feed. -/
def LineStart (t : List Char) (offset : Nat) : Prop :=
  ∃ before rest, t = before ++ rest ∧ byteLength before = offset
    ∧ (before = [] ∨ before.getLast? = some '\n')

lemma lastLine_concat {c : Char} (hc : c ≠ '\n') (t : List Char) :
    lastLine (t ++ [c]) = lastLine t ++ [c] :=
  List.rtakeWhile_concat_pos _ _ _ (by simpa using hc)

lemma not_mem_lastLine (t : List Char) : '\n' ∉ lastLine t :=
  fun h => by simpa using List.mem_rtakeWhile_imp h

/-- What is written behind a text without starting a line goes on with its last line. -/
lemma lastLine_append {u : List Char} (hu : '\n' ∉ u) (t : List Char) :
    lastLine (t ++ u) = lastLine t ++ u := by
  induction u using List.reverseRecOn with
  | nil => simp
  | append_singleton u c ih =>
      have hc : c ≠ '\n' := fun heq => hu (by simp [heq])
      rw [← List.append_assoc, lastLine_concat hc, ih fun h => hu (by simp [h]), List.append_assoc]

/-- A text is its last line, with a text before it that ends where a line starts. -/
lemma exists_append_lastLine (t : List Char) :
    ∃ u, t = u ++ lastLine t ∧ (u = [] ∨ u.getLast? = some '\n') := by
  refine ⟨t.rdropWhile (· ≠ '\n'), List.rdropWhile_append_rtakeWhile.symm, ?_⟩
  rw [or_iff_not_imp_left]
  intro hne
  have hlast := List.rdropWhile_last_not (· ≠ '\n') t hne
  rw [List.getLast?_eq_some_getLast hne]
  simpa using hlast

/-! ### Where lines start -/

lemma feedEnds_append (before rest : List Char) (offset : Nat) :
    feedEnds (before ++ rest) offset
      = feedEnds before offset ++ feedEnds rest (offset + byteLength before) := by
  induction before generalizing offset with
  | nil => simp [feedEnds]
  | cons c before ih =>
      simp only [List.cons_append, feedEnds, byteLength_cons, ih, Nat.add_assoc]
      split_ifs <;> rfl

lemma length_feedEnds (t : List Char) (offset : Nat) : (feedEnds t offset).length = t.count '\n' := by
  induction t generalizing offset with
  | nil => rfl
  | cons c t ih =>
      rw [feedEnds, List.count_cons]
      split_ifs with hc <;> simp_all

lemma feedEnds_eq_nil (ht : '\n' ∉ t) (offset : Nat) : feedEnds t offset = [] := by
  rw [← List.length_eq_zero_iff, length_feedEnds, List.count_eq_zero]
  exact ht

lemma exists_of_mem_feedEnds {x : Nat} (hx : x ∈ feedEnds t offset) :
    ∃ before rest, t = before ++ '\n' :: rest ∧ x = offset + byteLength (before ++ ['\n']) := by
  induction t generalizing offset with
  | nil => exact absurd hx List.not_mem_nil
  | cons c t ih =>
      have hrest : x ∈ feedEnds t (offset + c.utf8Size) → ∃ before rest,
          c :: t = before ++ '\n' :: rest ∧ x = offset + byteLength (before ++ ['\n']) := by
        intro hmem
        obtain ⟨before, rest, rfl, rfl⟩ := ih hmem
        exact ⟨c :: before, rest, rfl, by rw [List.cons_append, byteLength_cons, Nat.add_assoc]⟩
      rw [feedEnds] at hx
      split_ifs at hx with hc
      · rcases List.mem_cons.mp hx with rfl | hmem
        · exact ⟨[], t, by rw [hc, List.nil_append], by rw [hc]; rfl⟩
        · exact hrest hmem
      · exact hrest hx

lemma lineStarts_append (before rest : List Char) :
    lineStarts (before ++ rest) = lineStarts before ++ feedEnds rest (byteLength before) := by
  rw [lineStarts, lineStarts, feedEnds_append, Nat.zero_add, List.cons_append]

lemma length_lineStarts (t : List Char) : (lineStarts t).length = t.count '\n' + 1 := by
  rw [lineStarts, List.length_cons, length_feedEnds]

lemma mem_lineStarts {start : Nat} : start ∈ lineStarts t ↔ LineStart t start := by
  constructor
  · intro hmem
    rw [lineStarts, List.mem_cons] at hmem
    rcases hmem with rfl | hmem
    · exact ⟨[], t, rfl, rfl, Or.inl rfl⟩
    · obtain ⟨before, rest, rfl, hstart⟩ := exists_of_mem_feedEnds hmem
      exact ⟨before ++ ['\n'], rest, by simp, by rw [hstart, Nat.zero_add], Or.inr (by simp)⟩
  · rintro ⟨before, rest, rfl, rfl, rfl | hlast⟩
    · exact List.mem_cons_self
    · obtain ⟨before, rfl⟩ := List.getLast?_eq_some_iff.mp hlast
      rw [lineStarts_append, lineStarts_append, byteLength_append]
      simp [feedEnds]

lemma le_byteLength_of_mem_lineStarts {start : Nat} (h : start ∈ lineStarts t) :
    start ≤ byteLength t := by
  obtain ⟨before, rest, rfl, rfl, -⟩ := mem_lineStarts.mp h
  rw [byteLength_append]
  exact Nat.le_add_right _ _

/-- No line starts before the next boundary. -/
lemma lt_of_mem_feedEnds (hn : ∀ c, rest.head? = some c → n < c.utf8Size) (x : Nat)
    (hx : x ∈ feedEnds rest offset) : offset + n < x := by
  obtain ⟨before, behind, rfl, rfl⟩ := exists_of_mem_feedEnds hx
  refine Nat.add_lt_add_left ?_ _
  cases before with
  | nil => exact hn _ rfl
  | cons c before =>
      have hlt := hn c rfl
      rw [List.cons_append, byteLength_cons]
      omega

/-- The lines that start in a text start up to its last line. -/
lemma lineStarts_eq {u : List Char} (hu : t = u ++ lastLine t) : lineStarts t = lineStarts u := by
  rw [hu, lineStarts_append, feedEnds_eq_nil (not_mem_lastLine t), List.append_nil]

lemma getLast?_lineStarts {u : List Char} (hu : t = u ++ lastLine t)
    (hend : u = [] ∨ u.getLast? = some '\n') : (lineStarts t).getLast? = some (byteLength u) := by
  rw [lineStarts_eq hu]
  rcases hend with rfl | hlast
  · rfl
  · obtain ⟨v, rfl⟩ := List.getLast?_eq_some_iff.mp hlast
    rw [lineStarts_append, byteLength_append]
    simp [feedEnds]

/-! ### Looking an offset up -/

section Search

variable {below above : List Nat} {key base size : Nat}

/-- The half that is kept holds the last number that is not greater than the key. -/
lemma narrow_eq (hbelow : ∀ x ∈ below, x ≤ key) (habove : ∀ x ∈ above, key < x)
    (hbase : base < below.length) (hsize : below.length ≤ base + size)
    (hlength : base + size ≤ (below ++ above).length) :
    narrow (below ++ above) key base size = below.length - 1 := by
  induction size using Nat.strong_induction_on generalizing base with
  | _ size ih =>
      rw [List.length_append] at hlength
      rw [narrow]
      split_ifs with hsome
      · by_cases hkey : key < (below ++ above).getD (base + size / 2) 0
        · -- the middle is not in the lower list
          have hmiddle : below.length ≤ base + size / 2 := by
            by_contra hlt
            refine absurd hkey (not_lt.mpr ?_)
            rw [List.getD_append _ _ _ _ (by omega), List.getD_eq_getElem _ _ (by omega)]
            exact hbelow _ (List.getElem_mem _)
          simp only [if_pos hkey]
          exact ih _ (by omega) hbase (by omega) (by rw [List.length_append]; omega)
        · have hmiddle : base + size / 2 < below.length := by
            by_contra hle
            refine hkey ?_
            rw [List.getD_append_right _ _ _ _ (by omega),
              List.getD_eq_getElem _ _ (by omega)]
            exact habove _ (List.getElem_mem _)
          simp only [if_neg hkey]
          exact ih _ (by omega) hmiddle (by omega) (by rw [List.length_append]; omega)
      · omega

lemma lastUpTo_eq (hbelow : ∀ x ∈ below, x ≤ key) (habove : ∀ x ∈ above, key < x)
    (hne : below ≠ []) : lastUpTo (below ++ above) key = below.length - 1 := by
  have hpos : 0 < below.length := List.length_pos_iff.mpr hne
  have hplace : narrow (below ++ above) key 0 (below ++ above).length = below.length - 1 :=
    narrow_eq hbelow habove hpos (by rw [List.length_append]; omega) (by omega)
  have hfound : (below ++ above)[below.length - 1]? = some (below.getLast hne) := by
    rw [List.getElem?_append_left (by omega), List.getLast_eq_getElem, List.getElem?_eq_getElem]
  have hle : below.getLast hne ≤ key := hbelow _ (List.getLast_mem hne)
  rw [lastUpTo, search]
  simp only [hplace, hfound]
  split_ifs with heq hlt
  · rfl
  · exact Nat.add_sub_cancel _ 1
  · omega

end Search

/-- Every offset lies at a boundary, in the character behind one, or past the end. -/
lemma exists_boundary_before (t : List Char) (offset : Nat) :
    ∃ before rest n, t = before ++ rest ∧ offset = byteLength before + n
      ∧ ∀ c, rest.head? = some c → n < c.utf8Size := by
  induction t generalizing offset with
  | nil => exact ⟨[], [], offset, rfl, by simp, by simp⟩
  | cons c t ih =>
      by_cases hlt : offset < c.utf8Size
      · exact ⟨[], c :: t, offset, rfl, by simp, by simpa using hlt⟩
      · obtain ⟨before, rest, n, rfl, hoffset, hn⟩ := ih (offset - c.utf8Size)
        exact ⟨c :: before, rest, n, rfl, by rw [byteLength_cons]; omega, hn⟩

/-! ### Locations -/

/-- Line and column, in the order in which a reader comes upon them. -/
def Location.place (l : Location) : ℕ ×ₗ ℕ :=
  toLex (l.line, l.column)

/-- The line that an offset is looked up to be in. -/
lemma lastUpTo_lineStarts (h : t = before ++ rest)
    (hn : ∀ c, rest.head? = some c → n < c.utf8Size) :
    lastUpTo (lineStarts t) (byteLength before + n) = before.count '\n' := by
  have hbelow : ∀ x ∈ lineStarts before, x ≤ byteLength before + n :=
    fun x hx => (le_byteLength_of_mem_lineStarts hx).trans (Nat.le_add_right _ _)
  have hne : lineStarts before ≠ [] := List.cons_ne_nil _ _
  rw [h, lineStarts_append, lastUpTo_eq hbelow (lt_of_mem_feedEnds hn) hne, length_lineStarts,
    Nat.add_sub_cancel]

/-- The line that an offset is looked up to be in starts behind the last line feed. -/
lemma getD_lineStarts {u : List Char} (h : t = before ++ rest) (hu : before = u ++ lastLine before)
    (hend : u = [] ∨ u.getLast? = some '\n') :
    (lineStarts t).getD (before.count '\n') 0 = byteLength u := by
  have hlast := getLast?_lineStarts hu hend
  rw [List.getLast?_eq_getElem?, length_lineStarts, Nat.add_sub_cancel] at hlast
  rw [h, lineStarts_append, List.getD_append _ _ _ _ (by rw [length_lineStarts]; omega),
    List.getD_eq_getElem?_getD, hlast, Option.getD_some]

lemma line_locate (h : s.text = before ++ rest) (hn : ∀ c, rest.head? = some c → n < c.utf8Size) :
    (s.locate (byteLength before + n)).line = 1 + before.count '\n' := by
  rw [Source.locate, lastUpTo_lineStarts h hn]
  exact Nat.add_comm _ 1

/-- At a boundary, the line feeds before it and the characters of the last line are counted. -/
lemma locate_boundary (h : s.text = before ++ rest) :
    s.locate (byteLength before)
      = ⟨byteLength before, 1 + before.count '\n', 1 + (lastLine before).length⟩ := by
  obtain ⟨u, hu, hend⟩ := exists_append_lastLine before
  have hline := lastUpTo_lineStarts (n := 0) h fun c _ => c.utf8Size_pos
  have hlength : byteLength before = byteLength u + byteLength (lastLine before) := by
    rw [← byteLength_append, ← hu]
  have hstop : min (byteLength before) s.length = byteLength before := by
    rw [Source.length, h, byteLength_append]
    omega
  have hslice : slice? s.text ⟨byteLength u, byteLength before⟩ = some (lastLine before) :=
    slice?_eq_some_iff.mpr ⟨u, rest, by rw [← List.append_assoc, ← hu, h], rfl, hlength⟩
  rw [Nat.add_zero] at hline
  rw [Source.locate, hline, getD_lineStarts h hu hend, hstop, hslice]
  simp only [Option.map_some, Option.getD_some, Nat.add_comm 1]

/-- The location moves on with every character. -/
lemma place_lt_place {u : List Char} (h : s.text = before ++ (u ++ rest)) (hu : u ≠ []) :
    (s.locate (byteLength before)).place < (s.locate (byteLength (before ++ u))).place := by
  have h' : s.text = (before ++ u) ++ rest := by rw [h, List.append_assoc]
  rw [locate_boundary h, locate_boundary h', Location.place, Location.place,
    Prod.Lex.toLex_lt_toLex, List.count_append]
  dsimp only
  by_cases hfeed : '\n' ∈ u
  · have hpos : 0 < u.count '\n' := List.count_pos_iff.mpr hfeed
    exact Or.inl (by omega)
  · have hlength : 0 < u.length := List.length_pos_iff.mpr hu
    have hcount : u.count '\n' = 0 := List.count_eq_zero.mpr hfeed
    refine Or.inr ⟨by rw [hcount, Nat.add_zero], ?_⟩
    rw [lastLine_append hfeed, List.length_append]
    omega

/-- **Locations.** At a boundary of the text, the line counts the line feeds before it, and the column
counts the characters behind the last of them; both count from one. So boundaries have different
locations, which come in the same order. Any other offset, in a character or past the end, has a
location too: its line is that of the last offset up to there where a line starts. -/
theorem locate_spec (s : Source) :
    (∀ before rest, s.text = before ++ rest → s.locate (byteLength before)
        = ⟨byteLength before, 1 + before.count '\n', 1 + (lastLine before).length⟩)
      ∧ StrictMonoOn (fun offset => (s.locate offset).place) {offset | Boundary s.text offset}
      ∧ ∀ offset, ∃ start, IsGreatest {start | LineStart s.text start ∧ start ≤ offset} start
        ∧ (s.locate offset).line = (s.locate start).line := by
  refine ⟨fun before rest h => locate_boundary h, ?_, fun offset => ?_⟩
  · intro a ha b hb hab
    obtain ⟨before, inside, behind, htext, rfl, rfl⟩ := Boundary.between ha hb hab.le
    refine place_lt_place htext ?_
    rintro rfl
    simp at hab
  · obtain ⟨before, rest, n, htext, rfl, hn⟩ := exists_boundary_before s.text offset
    obtain ⟨u, hu, hend⟩ := exists_append_lastLine before
    have hstart : s.text = u ++ (lastLine before ++ rest) := by
      rw [htext, ← List.append_assoc, ← hu]
    have hlength : byteLength before = byteLength u + byteLength (lastLine before) := by
      rw [← byteLength_append, ← hu]
    refine ⟨byteLength u, ⟨⟨⟨u, _, hstart, rfl, hend⟩, by omega⟩, ?_⟩, ?_⟩
    · rintro other ⟨hother, hle⟩
      rw [← mem_lineStarts, htext, lineStarts_append, List.mem_append] at hother
      rcases hother with hbefore | hbehind
      · rw [lineStarts_eq hu] at hbefore
        exact le_byteLength_of_mem_lineStarts hbefore
      · exact absurd hle (not_le.mpr (lt_of_mem_feedEnds hn other hbehind))
    · have hcount : before.count '\n' = u.count '\n' := by
        calc before.count '\n'
            = u.count '\n' + (lastLine before).count '\n' := by rw [← List.count_append, ← hu]
          _ = u.count '\n' := by rw [List.count_eq_zero.mpr (not_mem_lastLine before), Nat.add_zero]
      rw [line_locate htext hn, locate_boundary hstart, hcount]

/-- A file with an empty line, an accent before the place that is looked for, and a line feed at its
end. -/
def accentedFile : Source :=
  ⟨"A.svelte", "a\n\né→b\n".toList⟩

/-- The place in front of the `b`: it has eight bytes and five characters before it. -/
theorem accentedFile_located :
    accentedFile.text = "a\n\né→".toList ++ "b\n".toList
      ∧ accentedFile.locate 8 = ⟨8, 3, 3⟩
      ∧ Boundary accentedFile.text 3 ∧ Boundary accentedFile.text 8
      ∧ (accentedFile.locate 3).place < (accentedFile.locate 8).place
      ∧ (accentedFile.locate 6).line = 3 := by
  obtain ⟨hboundary, hmono, -⟩ := locate_spec accentedFile
  have htext : accentedFile.text = "a\n\né→".toList ++ "b\n".toList := by decide +kernel
  have hthree : Boundary accentedFile.text 3 := by decide +kernel
  have height : Boundary accentedFile.text 8 := by decide +kernel
  have hlocate := hboundary _ _ htext
  exact ⟨htext, hlocate, hthree, height, hmono hthree height (by decide), by decide +kernel⟩

end SvelteStories

/-
The words that an export name is cut into:

* `WordBreak`: where a new word starts inside a run of alphanumeric characters;
* `Collected`: what has been read of a text is in the words found so far and in the one that has
  begun. `collected_concat` is one character of the text, `exists_collected` all of them;
* `exists_word_at`: the word that a character of the text is in, and what stands before it in this
  word;
* `IsCutInto`: a text is cut into words without loss, and exactly where it has to be;
* `wordsOf_spec`: an export name is cut into its words so and in no other way, and its display name
  has single spaces between them.
-/
import Mathlib.Data.List.Induction
import SvelteStories.Proofs.Story.Ids
import SvelteStories.Proofs.Text.Separated

namespace SvelteStories

variable {s t before behind gap current : List Char} {c d : Char} {ws earlier : List (List Char)}

/-! ### Where words start -/

/-- A new word starts at `c`, which stands behind `prev` and before `next`. All of them are
alphanumeric. -/
inductive WordBreak (prev c : Char) (next : Option Char) : Prop
  /-- A capital behind a small letter. -/
  | capital : isLower prev = true → isUpper c = true → WordBreak prev c next
  /-- A digit behind a letter. -/
  | digit : isAlphabetic prev = true → isAsciiDigit c = true → WordBreak prev c next
  /-- A letter behind a digit. -/
  | letter : isAsciiDigit prev = true → isAlphabetic c = true → WordBreak prev c next
  /-- The last of several capitals, if a small letter goes on with it. -/
  | lastCapital {small : Char} : isUpper prev = true → isUpper c = true → next = some small →
      isLower small = true → WordBreak prev c next

lemma startsWord_iff {prev : Char} {next : Option Char} :
    startsWord prev c next = true ↔ WordBreak prev c next := by
  simp only [startsWord, Bool.or_eq_true, Bool.and_eq_true, Option.any_eq_true]
  constructor
  · rintro (((⟨hprev, hc⟩ | ⟨hprev, hc⟩) | ⟨hprev, hc⟩) | ⟨⟨hprev, hc⟩, small, hnext, hsmall⟩)
    · exact .capital hprev hc
    · exact .digit hprev hc
    · exact .letter hprev hc
    · exact .lastCapital hprev hc hnext hsmall
  · rintro (⟨hprev, hc⟩ | ⟨hprev, hc⟩ | ⟨hprev, hc⟩ | ⟨hprev, hc, hnext, hsmall⟩)
    · exact .inl (.inl (.inl ⟨hprev, hc⟩))
    · exact .inl (.inl (.inr ⟨hprev, hc⟩))
    · exact .inl (.inr ⟨hprev, hc⟩)
    · exact .inr ⟨⟨hprev, hc⟩, _, hnext, hsmall⟩

/-! ### Words found so far -/

/-- The text `before` has been read: the words `ws` are found in it, and the characters `current`, in
reverse, are of a word that has begun. -/
structure Collected (before : List Char) (ws : List (List Char)) (current : List Char) : Prop where
  /-- The alphanumeric characters are in the words or in the one that has begun. -/
  letters : ws.flatten ++ current.reverse = before.filter isAlphanumeric
  /-- No word is empty. -/
  nonempty : ∀ w ∈ ws, w ≠ []
  /-- A word has begun if the last character read belongs to one, and this is its last one. -/
  last : current.head? = before.getLast?.filter isAlphanumeric

lemma closeWord_eq_ite (current : List Char) :
    closeWord current = if current = [] then [] else [current.reverse] := by
  cases current <;> rfl

/-- The word that has begun is one more word. -/
lemma Collected.close (h : Collected before ws current) :
    (ws ++ closeWord current).flatten = before.filter isAlphanumeric
      ∧ ∀ w ∈ ws ++ closeWord current, w ≠ [] := by
  rw [closeWord_eq_ite]
  split_ifs with hempty
  · subst hempty
    simpa using And.intro h.letters h.nonempty
  · refine ⟨by simpa using h.letters, ?_⟩
    rw [List.forall_mem_append]
    exact ⟨h.nonempty, by simpa using hempty⟩

/-- One character further. -/
lemma collected_concat (h : Collected before ws current) (c : Char) (t : List Char) :
    ∃ found current', wordsFrom current (c :: t) = found ++ wordsFrom current' t
      ∧ Collected (before ++ [c]) (ws ++ found) current' := by
  obtain ⟨hletters, hnonempty⟩ := h.close
  cases hc : isAlphanumeric c with
  | false =>
      refine ⟨closeWord current, [], by simp [wordsFrom, hc], ⟨?_, hnonempty, ?_⟩⟩
      · simpa [hc] using hletters
      · rw [List.getLast?_concat, Option.filter_some_neg (by simp [hc])]
        rfl
  | true =>
      have hlast : some c = (before ++ [c]).getLast?.filter isAlphanumeric := by
        rw [List.getLast?_concat, Option.filter_some_pos hc]
      rw [wordsFrom, if_pos hc]
      split
      · refine ⟨closeWord current, [c], rfl, ⟨?_, hnonempty, hlast⟩⟩
        rw [hletters, List.reverse_singleton, List.filter_append, List.filter_singleton, hc]
        rfl
      · refine ⟨[], c :: current, rfl, ⟨?_, by simpa using h.nonempty, hlast⟩⟩
        rw [List.append_nil, List.reverse_cons, ← List.append_assoc, h.letters, List.filter_append,
          List.filter_singleton, hc]
        rfl

/-- A text is read up to any place. -/
lemma exists_collected (before t : List Char) :
    ∃ ws current, wordsOf (before ++ t) = ws ++ wordsFrom current t
      ∧ Collected before ws current := by
  induction before using List.reverseRecOn generalizing t with
  | nil => exact ⟨[], [], rfl, ⟨rfl, by simp, rfl⟩⟩
  | append_singleton before c ih =>
      obtain ⟨ws, current, hwords, hcollected⟩ := ih (c :: t)
      obtain ⟨found, current', hfound, hcollected'⟩ := collected_concat hcollected c t
      refine ⟨ws ++ found, current', ?_, hcollected'⟩
      rw [List.append_assoc, List.singleton_append, hwords, hfound, List.append_assoc]

/-- The characters of a word that has begun are the first ones of the next word. -/
lemma exists_wordsFrom_cons (c : Char) (current t : List Char) :
    ∃ rest later, wordsFrom (c :: current) t = (current.reverse ++ c :: rest) :: later := by
  induction t generalizing c current with
  | nil => exact ⟨[], [], by simp [wordsFrom, closeWord]⟩
  | cons d t ih =>
      have hclose : closeWord (c :: current) = [current.reverse ++ c :: []] := by
        simp [closeWord]
      rw [wordsFrom]
      split
      · split
        · exact ⟨[], wordsFrom [d] t, by rw [hclose]; rfl⟩
        · obtain ⟨rest, later, hwords⟩ := ih d (c :: current)
          exact ⟨d :: rest, later, by rw [hwords]; simp⟩
      · exact ⟨[], wordsFrom [] t, by rw [hclose]; rfl⟩

/-- Every alphanumeric character of a text is in a word, behind what the word starts with. It starts
the word itself if no alphanumeric character is right before it, or if words break there. -/
lemma exists_word_at (before : List Char) (hc : isAlphanumeric c = true) (behind : List Char) :
    ∃ earlier start rest later,
      wordsOf (before ++ c :: behind) = earlier ++ (start ++ c :: rest) :: later
        ∧ earlier.flatten ++ start = before.filter isAlphanumeric
        ∧ (start = [] ↔ ∀ prev ∈ before.getLast?, isAlphanumeric prev = true →
          WordBreak prev c behind.head?) := by
  obtain ⟨ws, current, hwords, hcollected⟩ := exists_collected before (c :: behind)
  rw [wordsFrom, if_pos hc] at hwords
  have hprev : ∀ prev, prev ∈ current.head?
      ↔ prev ∈ before.getLast? ∧ isAlphanumeric prev = true := by
    intro prev
    rw [hcollected.last, Option.mem_def, Option.filter_eq_some_iff, Option.mem_def]
  split at hwords
  · -- a new word starts at `c`
    rename_i hbreak
    obtain ⟨rest, later, hrest⟩ := exists_wordsFrom_cons c [] behind
    refine ⟨ws ++ closeWord current, [], rest, later, ?_, ?_, ?_⟩
    · rw [hwords, hrest]
      simp
    · rw [List.append_nil]
      exact hcollected.close.1
    · obtain ⟨prev, hhead, hstarts⟩ := (Option.any_eq_true _ _).mp hbreak
      refine iff_of_true rfl fun prev' hlast halpha => ?_
      obtain rfl : prev = prev' :=
        Option.some.inj (hhead.symm.trans ((hprev prev').mpr ⟨hlast, halpha⟩))
      exact startsWord_iff.mp hstarts
  · -- `c` goes on with the word that has begun, if one has
    rename_i hgoes
    obtain ⟨rest, later, hrest⟩ := exists_wordsFrom_cons c current behind
    refine ⟨ws, current.reverse, rest, later, by rw [hwords, hrest], hcollected.letters, ?_⟩
    cases current with
    | nil =>
        refine iff_of_true rfl fun prev hlast halpha => ?_
        cases (hprev prev).mpr ⟨hlast, halpha⟩
    | cons prev current =>
        refine iff_of_false (by simp) fun hall => ?_
        obtain ⟨hlast, halpha⟩ := (hprev prev).mp rfl
        exact hgoes ((Option.any_eq_true _ _).mpr
          ⟨prev, rfl, startsWord_iff.mpr (hall prev hlast halpha)⟩)

/-! ### Texts cut into words -/

/-- The character of a text that `before` stands before is in a word, behind `start`. The words
`earlier` come before this one. -/
structure StandsIn (ws earlier : List (List Char)) (start before : List Char) : Prop where
  /-- Such a word is there. -/
  word : ∃ c rest later, ws = earlier ++ (start ++ c :: rest) :: later
  /-- What stands before the character in the words stands before it in the text. -/
  letters : earlier.flatten ++ start = before.filter isAlphanumeric

/-- The text `s` is cut into the words `ws`. -/
structure IsCutInto (s : List Char) (ws : List (List Char)) : Prop where
  /-- Nothing is lost but what belongs to no word, and nothing is added. -/
  letters : ws.flatten = s.filter isAlphanumeric
  /-- No word is empty. -/
  nonempty : ∀ w ∈ ws, w ≠ []
  /-- Each alphanumeric character is in a word. -/
  inWord : ∀ before c behind, s = before ++ c :: behind → isAlphanumeric c = true →
    ∃ earlier start, StandsIn ws earlier start before
  /-- Two of them are not in the same word if anything else stands between them. -/
  apart : ∀ before c gap d behind, s = before ++ c :: (gap ++ d :: behind) →
    isAlphanumeric c = true → isAlphanumeric d = true → (∃ e ∈ gap, isAlphanumeric e = false) →
    ∀ earlier start start', StandsIn ws earlier start before →
      ¬ StandsIn ws earlier start' (before ++ c :: gap)
  /-- A word starts with one of them if it is the first of a run, or if words break there. -/
  starts : ∀ before c behind, s = before ++ c :: behind → isAlphanumeric c = true →
    ((∃ earlier, StandsIn ws earlier [] before)
      ↔ ∀ prev ∈ before.getLast?, isAlphanumeric prev = true → WordBreak prev c behind.head?)

/-- Where words are put together, no word goes on from one side to the other. -/
lemma not_across {w : List Char} {later us vs : List (List Char)}
    (h : earlier ++ w :: later = us ++ vs) :
    us.flatten.length ≤ earlier.flatten.length
      ∨ earlier.flatten.length + w.length ≤ us.flatten.length := by
  rcases List.append_eq_append_iff.mp h with ⟨m, rfl, hm⟩ | ⟨m, rfl, -⟩
  · cases m with
    | nil => exact .inl (by simp)
    | cons v m =>
        obtain rfl : w = v := (List.cons.inj hm).1
        refine .inr ?_
        simp only [List.flatten_append, List.flatten_cons, List.length_append]
        omega
  · refine .inl ?_
    simp only [List.flatten_append, List.length_append]
    omega

lemma StandsIn.length_eq {start : List Char} (h : StandsIn ws earlier start before) :
    earlier.flatten.length + start.length = (before.filter isAlphanumeric).length := by
  rw [← h.letters, List.length_append]

/-- A text is cut into words that hold what it has of them. -/
lemma wordsOf_closed (s : List Char) :
    (wordsOf s).flatten = s.filter isAlphanumeric ∧ ∀ w ∈ wordsOf s, w ≠ [] := by
  obtain ⟨ws, current, hwords, hcollected⟩ := exists_collected s []
  rw [List.append_nil] at hwords
  rw [hwords]
  exact hcollected.close

/-- Before a character that belongs to no word, all words have come to an end. -/
lemma exists_words_around (before : List Char) (hd : isAlphanumeric d = false)
    (behind : List Char) :
    ∃ us vs, wordsOf (before ++ d :: behind) = us ++ vs
      ∧ us.flatten = before.filter isAlphanumeric := by
  obtain ⟨ws, current, hwords, hcollected⟩ := exists_collected before (d :: behind)
  refine ⟨ws ++ closeWord current, wordsFrom [] behind, ?_, hcollected.close.1⟩
  rw [hwords, wordsFrom, hd, List.append_assoc]
  rfl

lemma isCutInto_wordsOf (s : List Char) : IsCutInto s (wordsOf s) where
  letters := (wordsOf_closed s).1
  nonempty := (wordsOf_closed s).2
  inWord before c behind hs hc := by
    subst hs
    obtain ⟨earlier, start, rest, later, hwords, hletters, -⟩ := exists_word_at before hc behind
    exact ⟨earlier, start, ⟨c, rest, later, hwords⟩, hletters⟩
  apart before c gap d behind hs hc _ hgap earlier start start' hstands hstands' := by
    obtain ⟨e, hmem, he⟩ := hgap
    obtain ⟨gap, gap', rfl⟩ := List.append_of_mem hmem
    -- both characters would be in a word that goes on across what stands between them
    have hsplit : s = (before ++ c :: gap) ++ e :: (gap' ++ d :: behind) := by
      rw [hs]
      simp
    obtain ⟨us, vs, hwords, hletters⟩ := exists_words_around (before ++ c :: gap) he
      (gap' ++ d :: behind)
    obtain ⟨c', rest, later, hword⟩ := hstands'.word
    rw [← hsplit, hword] at hwords
    have hbefore := hstands.length_eq
    have hbehind := hstands'.length_eq
    have hlength := congrArg List.length hletters
    simp only [List.filter_append, List.filter_cons_of_pos hc, List.length_append,
      List.length_cons] at hbefore hbehind hlength
    rcases not_across hwords with hle | hle
    · omega
    · simp only [List.length_append, List.length_cons] at hle
      omega
  starts before c behind hs hc := by
    subst hs
    obtain ⟨earlier, start, rest, later, hwords, hletters, hstart⟩ :=
      exists_word_at before hc behind
    rw [← hstart]
    constructor
    · rintro ⟨earlier', ⟨c', rest', later', hword⟩, hletters'⟩
      have hlength := congrArg List.length (hletters.trans hletters'.symm)
      simp only [List.append_nil, List.length_append] at hlength
      rcases not_across (hwords.symm.trans hword) with hle | hle
      · exact List.eq_nil_of_length_eq_zero (by omega)
      · simp only [List.length_append, List.length_cons] at hle
        omega
    · rintro rfl
      exact ⟨earlier, ⟨c, rest, later, hwords⟩, hletters⟩

/-! ### One cut only -/

/-- The characters `x` make up whole words. -/
def CutAt (ws : List (List Char)) (x : List Char) : Prop :=
  ∃ earlier later, ws = earlier ++ later ∧ earlier.flatten = x

lemma cutAt_cons_iff {w x : List Char} (hw : w ≠ []) : CutAt (w :: ws) (w ++ x) ↔ CutAt ws x := by
  constructor
  · rintro ⟨earlier, later, hwords, hflatten⟩
    cases earlier with
    | nil => simp [hw] at hflatten
    | cons v earlier =>
        obtain ⟨rfl, hws⟩ := List.cons.inj hwords
        exact ⟨earlier, later, hws, List.append_cancel_left hflatten⟩
  · rintro ⟨earlier, later, rfl, rfl⟩
    exact ⟨w :: earlier, later, rfl, rfl⟩

/-- If words can be cut behind a text that they start with, their first one is not longer. -/
lemma isPrefix_of_cutAt {v w : List Char} {vs : List (List Char)} (hw : w ≠ [])
    (hflatten : w ++ ws.flatten = v ++ vs.flatten) (hcut : ws.flatten ≠ [] → CutAt (v :: vs) w) :
    v <+: w := by
  by_cases hnil : ws.flatten = []
  · rw [hnil, List.append_nil] at hflatten
    exact ⟨vs.flatten, hflatten.symm⟩
  · obtain ⟨earlier, later, hwords, rfl⟩ := hcut hnil
    cases earlier with
    | nil => exact absurd rfl hw
    | cons u earlier =>
        obtain rfl : v = u := (List.cons.inj hwords).1
        exact ⟨earlier.flatten, rfl⟩

/-- Words that make up the same text and can be cut at the same places are the same. -/
lemma eq_of_cutAt_iff {us vs : List (List Char)} (hus : ∀ w ∈ us, w ≠ []) (hvs : ∀ w ∈ vs, w ≠ [])
    (hflatten : us.flatten = vs.flatten)
    (hcut : ∀ x y, us.flatten = x ++ y → y ≠ [] → (CutAt us x ↔ CutAt vs x)) : us = vs := by
  induction us generalizing vs with
  | nil =>
      cases vs with
      | nil => rfl
      | cons v vs => simp [hvs v List.mem_cons_self] at hflatten
  | cons u us ih =>
      cases vs with
      | nil => simp [hus u List.mem_cons_self] at hflatten
      | cons v vs =>
          obtain ⟨hu, hus'⟩ := List.forall_mem_cons.mp hus
          obtain ⟨hv, hvs'⟩ := List.forall_mem_cons.mp hvs
          rw [List.flatten_cons, List.flatten_cons] at hflatten
          have hvu : v <+: u := isPrefix_of_cutAt hu hflatten fun hne =>
            (hcut u us.flatten rfl hne).mp ⟨[u], us, rfl, by simp⟩
          have huv : u <+: v := isPrefix_of_cutAt hv hflatten.symm fun hne =>
            (hcut v vs.flatten hflatten hne).mpr ⟨[v], vs, rfl, by simp⟩
          obtain rfl : u = v := huv.eq_of_length_le hvu.length_le
          have hrest := List.append_cancel_left hflatten
          refine congrArg (u :: ·) (ih hus' hvs' hrest fun x y hxy hy => ?_)
          have hx := hcut (u ++ x) y (by rw [List.flatten_cons, hxy, List.append_assoc]) hy
          rwa [cutAt_cons_iff hu, cutAt_cons_iff hu] at hx

/-- Words can be cut before a character exactly if one of them starts with it. -/
lemma IsCutInto.cutAt_iff (h : IsCutInto s ws) (hs : s = before ++ c :: behind)
    (hc : isAlphanumeric c = true) :
    CutAt ws (before.filter isAlphanumeric) ↔ ∃ earlier, StandsIn ws earlier [] before := by
  constructor
  · rintro ⟨earlier, later, hwords, hflatten⟩
    have hletters := h.letters
    rw [hwords, List.flatten_append, hflatten, hs, List.filter_append,
      List.filter_cons_of_pos hc] at hletters
    have hlater := List.append_cancel_left hletters
    cases later with
    | nil => cases hlater
    | cons w later =>
        have hw : w ≠ [] := h.nonempty w (by simp [hwords])
        obtain ⟨d, rest, rfl⟩ := List.exists_cons_of_ne_nil hw
        exact ⟨earlier, ⟨d, rest, later, hwords⟩, by rw [List.append_nil, hflatten]⟩
  · rintro ⟨earlier, ⟨d, rest, later, hwords⟩, hletters⟩
    exact ⟨earlier, _, hwords, by rwa [List.append_nil] at hletters⟩

/-- A text is cut into words in one way only. -/
lemma IsCutInto.unique {vs : List (List Char)} (h : IsCutInto s ws) (h' : IsCutInto s vs) :
    ws = vs := by
  refine eq_of_cutAt_iff h.nonempty h'.nonempty (h.letters.trans h'.letters.symm) ?_
  intro x y hxy hy
  obtain ⟨c, y, rfl⟩ := List.exists_cons_of_ne_nil hy
  rw [h.letters] at hxy
  obtain ⟨before, rest, hs, rfl, hrest⟩ := List.filter_eq_append_iff.mp hxy
  obtain ⟨skipped, behind, rfl, hskipped, hc, -⟩ := List.filter_eq_cons_iff.mp hrest
  have hfilter : (before ++ skipped).filter isAlphanumeric = before.filter isAlphanumeric := by
    rw [List.filter_append, List.filter_eq_nil_iff.mpr hskipped, List.append_nil]
  have hs' : s = (before ++ skipped) ++ c :: behind := by rw [hs, List.append_assoc]
  rw [← hfilter, h.cutAt_iff hs' hc, h'.cutAt_iff hs' hc, h.starts _ _ _ hs' hc,
    h'.starts _ _ _ hs' hc]

/-! ### Display names -/

/-- The upper case of an alphanumeric character is not empty and holds no space. -/
lemma upperCase_ne_space (hc : isAlphanumeric c = true) : upperCase c ≠ [] ∧ ' ' ∉ upperCase c := by
  have hspace : c ≠ ' ' := by
    rintro rfl
    exact absurd hc (by decide)
  rw [upperCase]
  split
  · refine ⟨List.cons_ne_nil _ _, fun hmem => ?_⟩
    have heq := List.mem_singleton.mp hmem
    split_ifs at heq with hlower
    · have hbehind : ' '.toNat < c.toNat - 32 := by
        simp only [Bool.and_eq_true, decide_eq_true_eq] at hlower
        show 32 < c.toNat - 32
        omega
      exact ofNat_ne (by decide) hbehind heq.symm
    · exact hspace heq.symm
  · exact mapCase_ne (by decide) (by decide) (by decide +kernel) hspace

lemma joinWords_eq_intercalate (ws : List (List Char)) : joinWords ws = [' '].intercalate ws := by
  induction ws with
  | nil => rfl
  | cons w ws ih =>
      cases ws with
      | nil => simp [joinWords]
      | cons v ws =>
          rw [joinWords, ih, List.intercalate_cons_of_ne_nil (List.cons_ne_nil v ws),
            List.append_assoc, List.singleton_append]
          exact List.cons_ne_nil v ws

/-- A word of alphanumeric characters that is capitalised is not empty and holds no space. -/
lemma capitalize_ne_space {w : List Char} (hw : w ≠ []) (hall : ∀ c ∈ w, isAlphanumeric c = true) :
    capitalize w ≠ [] ∧ ' ' ∉ capitalize w := by
  obtain ⟨c, w, rfl⟩ := List.exists_cons_of_ne_nil hw
  obtain ⟨hc, hall⟩ := List.forall_mem_cons.mp hall
  obtain ⟨hne, hspace⟩ := upperCase_ne_space hc
  rw [capitalize]
  refine ⟨by simp [hne], fun hmem => ?_⟩
  rcases List.mem_append.mp hmem with hmem | hmem
  · exact hspace hmem
  · exact absurd (hall ' ' hmem) (by decide)

lemma isSeparated_displayNameOf (s : List Char) :
    IsSeparated ' ' ((wordsOf s).map capitalize) (displayNameOf s) := by
  obtain ⟨hletters, hnonempty⟩ := wordsOf_closed s
  rw [displayNameOf, joinWords_eq_intercalate]
  refine isSeparated_intercalate fun v hv => ?_
  obtain ⟨w, hw, rfl⟩ := List.mem_map.mp hv
  refine capitalize_ne_space (hnonempty w hw) fun c hc => ?_
  have hmem : c ∈ s.filter isAlphanumeric := hletters ▸ List.mem_flatten.mpr ⟨w, hw, hc⟩
  exact (List.mem_filter.mp hmem).2

/-- **Words of names.** A name is cut into its words without loss and exactly where words break, and
this is the only way to cut it so. Its display name are these words, capitalised, with single spaces
between them: no word is empty, and no space stands at an end. -/
theorem wordsOf_spec (s : List Char) :
    (∀ ws, IsCutInto s ws ↔ ws = wordsOf s)
      ∧ IsSeparated ' ' ((wordsOf s).map capitalize) (displayNameOf s) := by
  refine ⟨fun ws => ⟨fun h => h.unique (isCutInto_wordsOf s), ?_⟩, isSeparated_displayNameOf s⟩
  rintro rfl
  exact isCutInto_wordsOf s

end SvelteStories

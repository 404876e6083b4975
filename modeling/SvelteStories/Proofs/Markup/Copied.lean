/-
Texts that stand in two files, and the small readers of markup that go over them:

* `Place.Copied`: what stands between two places of one file stands also between two places of
  another one, moved as a map of offsets says;
* `Place.SameTag`: behind two places the same text stands up to the end of a tag;
* `Copied.braced`, `SameTag.run`, `splitAtFirst_congr`, `textRun_congr`: the small readers find the
  same in both files. What stands behind the copied text does not matter to them, but for the first
  few characters.
-/
import SvelteStories.Markup.Template
import SvelteStories.Proofs.Markup.Reading

namespace SvelteStories.Markup

namespace Place

/-! ### Copies -/

/-- The text between two places `p` and `q` of one file stands in another one between `p'` and `q'`,
where the map `m` moves it. -/
def Copied (m : Nat → Nat) (p q p' q' : Place) : Prop :=
  ∃ s, p.Reads s q ∧ p'.Reads s q' ∧ ∀ n ≤ byteLength s, p'.offset + n = m (p.offset + n)

/-- Behind two places the same text stands up to the end of a tag. -/
def SameTag (p p' : Place) : Prop :=
  ∃ s u u', p.rest = s ++ '>' :: u ∧ p'.rest = s ++ '>' :: u'

/-- What stands from one place to another ends with the end of a tag. -/
def EndsTag (p q : Place) : Prop :=
  ∃ s, p.Reads (s ++ ['>']) q

section

variable {m : Nat → Nat} {p q r p' q' r' : Place} {s : List Char}

/-- There is only one text between two places. -/
lemma Reads.unique {u : List Char} (h : p.Reads s q) (h' : p.Reads u q) : s = u :=
  List.append_cancel_right (h.1.symm.trans h'.1)

lemma Reads.length_eq (h : p.Reads s q) : p.rest.length = s.length + q.rest.length := by
  rw [h.1, List.length_append]

lemma Reads.length_lt {c : Char} (h : p.Reads (c :: s) q) : q.rest.length < p.rest.length := by
  have hlength := h.length_eq
  simp only [List.length_cons] at hlength
  omega

lemma Reaches.length_le (h : p.Reaches q) : q.rest.length ≤ p.rest.length := by
  obtain ⟨s, hs⟩ := h
  have hlength := hs.length_eq
  omega

namespace Copied

/-- What has been gone over in one file stands in the other one, too. -/
lemma reads (h : Copied m p q p' q') (hs : p.Reads s q) : p'.Reads s q' := by
  obtain ⟨u, hu, hu', -⟩ := h
  rwa [hs.unique hu]

lemma reaches (h : Copied m p q p' q') : p'.Reaches q' := by
  obtain ⟨s, -, hs', -⟩ := h
  exact hs'.reaches

lemma start_eq (h : Copied m p q p' q') : p'.offset = m p.offset := by
  obtain ⟨_, -, -, hm⟩ := h
  simpa using hm 0 (Nat.zero_le _)

lemma stop_eq (h : Copied m p q p' q') : q'.offset = m q.offset := by
  obtain ⟨s, hs, hs', hm⟩ := h
  rw [hs.2, hs'.2]
  exact hm _ (Nat.le_refl _)

/-- A copy is cut in two at a place of the one file. -/
lemma split (h : Copied m p r p' r') (hq : p.Reaches q) (hr : q.Reaches r) :
    ∃ q', Copied m p q p' q' ∧ Copied m q r q' r' := by
  obtain ⟨s, hs⟩ := hq
  obtain ⟨u, hu⟩ := hr
  obtain ⟨w, hw, hw', hm⟩ := h
  obtain rfl := (hs.trans hu).unique hw
  obtain ⟨q', hs', hu'⟩ := reads_append_iff.mp hw'
  rw [byteLength_append] at hm
  refine ⟨q', ⟨s, hs, hs', fun n hn => hm n (by omega)⟩, u, hu, hu', fun n hn => ?_⟩
  have hn := hm (byteLength s + n) (by omega)
  rw [hs'.2, hs.2, Nat.add_assoc, Nat.add_assoc]
  exact hn

/-- A copy is cut in two behind a text. -/
lemma after (h : Copied m p r p' r') (hs : p.Reads s q) (hr : q.Reaches r) :
    Copied m p q p' (p'.after s) ∧ Copied m q r (p'.after s) r' := by
  obtain ⟨q', hq, hr⟩ := h.split hs.reaches hr
  rw [(hq.reads hs).after_eq]
  exact ⟨hq, hr⟩

/-- Both readers go over as many characters. -/
lemma length_eq (h : Copied m p q p' q') :
    p'.rest.length + q.rest.length = p.rest.length + q'.rest.length := by
  obtain ⟨s, hs, hs', -⟩ := h
  have hlength := hs.length_eq
  have hlength' := hs'.length_eq
  omega

/-- As many characters as the copied text has stand behind both beginnings. -/
lemma take_eq {n : Nat} (h : Copied m p q p' q') (hn : n + q.rest.length ≤ p.rest.length) :
    p'.rest.take n = p.rest.take n := by
  obtain ⟨s, hs, hs', -⟩ := h
  have hlength := hs.length_eq
  rw [hs.1, hs'.1, List.take_append_of_le_length (by omega),
    List.take_append_of_le_length (by omega)]

/-- Some more characters behind both beginnings, where the same ones stand behind the ends. -/
lemma take_eq_of_ahead {n k : Nat} (h : Copied m p q p' q')
    (hahead : q'.rest.take n = q.rest.take n) (hn : k + q.rest.length ≤ n + p.rest.length) :
    p'.rest.take k = p.rest.take k := by
  obtain ⟨s, hs, hs', -⟩ := h
  have hlength := hs.length_eq
  have htake : ∀ t : List Char, (s ++ t).take k = s.take k ++ (t.take n).take (k - s.length) := by
    intro t
    rw [List.take_append, List.take_take, Nat.min_eq_left (by omega)]
  rw [hs.1, hs'.1, htake, htake, hahead]

lemma sameTag_of_endsTag (h : Copied m p q p' q') (hq : p.EndsTag q) : SameTag p p' := by
  obtain ⟨s, hs⟩ := hq
  have hs' := h.reads hs
  exact ⟨s, q.rest, q'.rest, by simpa using hs.1, by simpa using hs'.1⟩

lemma sameTag (h : Copied m p q p' q') (hq : SameTag q q') : SameTag p p' := by
  obtain ⟨s, hs, hs', -⟩ := h
  obtain ⟨u, v, v', hv, hv'⟩ := hq
  exact ⟨s ++ u, v, v', by rw [hs.1, hv, List.append_assoc], by rw [hs'.1, hv', List.append_assoc]⟩

end Copied

lemma run_isPrefix (p : Place) (test : Char → Bool) : p.run test <+: p.rest :=
  List.takeWhile_prefix test

lemma rest_after_run (p : Place) (test : Char → Bool) :
    (p.after (p.run test)).rest = p.rest.dropWhile test := by
  have hsplit := List.takeWhile_append_dropWhile (p := test) (l := p.rest)
  have hreads := (p.reads_run test).1
  exact List.append_cancel_left (hreads.symm.trans hsplit.symm)

/-- A run of characters that something copied stops is the same one in both files. -/
lemma Copied.run {test : Char → Bool} (h : Copied m p r p' r')
    (hr : (p.after (p.run test)).Reaches r)
    (hlt : r.rest.length < (p.after (p.run test)).rest.length) :
    p'.run test = p.run test ∧ Copied m (p.after (p.run test)) r (p'.after (p.run test)) r' := by
  obtain ⟨hrun, hbehind⟩ := h.after (p.reads_run test) hr
  have hreads := hrun.reads (p.reads_run test)
  have hhead : (p'.after (p.run test)).rest.head? = (p.after (p.run test)).rest.head? := by
    simpa [List.head?_take] using congrArg List.head? (hbehind.take_eq (n := 1) (by omega))
  refine ⟨hreads.run_eq (fun c hc => List.all_eq_true.mp List.all_takeWhile c hc) ?_, hbehind⟩
  intro c hc
  rw [hhead, rest_after_run] at hc
  simpa [hc] using List.head?_dropWhile_not test p.rest

/-! ### Looking ahead in a tag -/

lemma EndsTag.of_reaches (hq : p.Reaches q) (h : q.EndsTag r) : p.EndsTag r := by
  obtain ⟨s, hs⟩ := hq
  obtain ⟨u, hu⟩ := h
  exact ⟨s ++ u, by simpa using hs.trans hu⟩

lemma EndsTag.reaches (h : p.EndsTag q) : p.Reaches q := by
  obtain ⟨s, hs⟩ := h
  exact hs.reaches

namespace SameTag

lemma head?_eq (h : SameTag p p') : p'.rest.head? = p.rest.head? := by
  obtain ⟨s, u, u', hu, hu'⟩ := h
  rw [hu, hu']
  cases s <;> rfl

lemma ne_nil (h : SameTag p p') : p.rest ≠ [] := by
  obtain ⟨s, u, u', hu, -⟩ := h
  simp [hu]

/-- A run of characters that a tag's end stops is the same one in both files. -/
lemma run (h : SameTag p p') (test : Char → Bool) (htest : test '>' = false) :
    p'.run test = p.run test ∧ SameTag (p.after (p.run test)) (p'.after (p.run test)) := by
  obtain ⟨s, u, u', hu, hu'⟩ := h
  have hrun : ∀ t : List Char, (s ++ '>' :: t).takeWhile test = s.takeWhile test := by
    intro t
    rw [List.takeWhile_append, List.takeWhile_cons_of_neg (by simp [htest]), List.append_nil]
    split_ifs with hlength
    · exact (List.IsPrefix.eq_of_length (List.takeWhile_prefix _) hlength).symm
    · rfl
  have hdrop : ∀ t : List Char, (s ++ '>' :: t).drop (s.takeWhile test).length
      = s.dropWhile test ++ '>' :: t := by
    intro t
    have hsplit : s = s.takeWhile test ++ s.dropWhile test :=
      List.takeWhile_append_dropWhile.symm
    conv_lhs => rw [hsplit, List.append_assoc, List.drop_append_of_le_length (by simp)]
    simp
  refine ⟨by simp only [Place.run, hu, hu', hrun], s.dropWhile test, u, u', ?_, ?_⟩
  · simp only [Place.after, Place.run, hu, hrun, hdrop]
  · simp only [Place.after, Place.run, hu, hu', hrun, hdrop]

lemma skipBlanks (h : SameTag p p') : SameTag p.skipBlanks p'.skipBlanks := by
  obtain ⟨hrun, hafter⟩ := h.run isAsciiBlank (by decide)
  rwa [Place.skipBlanks, Place.skipBlanks, hrun]

end SameTag

/-- A copy is cut in two behind its blanks. -/
lemma Copied.skipBlanks (h : Copied m p r p' r') (htag : SameTag p p')
    (hr : p.skipBlanks.Reaches r) : Copied m p.skipBlanks r p'.skipBlanks r' := by
  have hcut := h.after p.reads_skipBlanks hr
  rw [Place.skipBlanks, Place.skipBlanks, (htag.run isAsciiBlank (by decide)).1]
  exact hcut.2

/-! ### Code in braces -/

/-- Code in braces is read in both files. -/
lemma Copied.braced (h : Copied m p q p' q') {code : List Char}
    (hcode : braced p = .ok (code, q)) : braced p' = .ok (code, q') := by
  obtain ⟨hreads, hlegal⟩ := reads_braced hcode
  exact braced_eq_ok (h.reads hreads) hlegal

/-- Code takes two characters more in braces. -/
lemma length_of_braced {code : List Char} (h : Markup.braced p = .ok (code, q)) :
    code.length + 2 + q.rest.length = p.rest.length := by
  have hlength := (reads_braced h).1.length_eq
  simp only [List.length_cons, List.length_append, List.length_nil] at hlength
  omega

end

end Place

/-! ### Searching -/

/-- The text before the first occurrence of another one is the same whatever stands behind. -/
lemma splitAtFirst_congr {sought before behind : List Char} (behind' : List Char)
    (h : splitAtFirst sought (before ++ (sought ++ behind)) = some (before, sought ++ behind)) :
    splitAtFirst sought (before ++ (sought ++ behind'))
      = some (before, sought ++ behind') := by
  induction before with
  | nil =>
      cases hsought : sought ++ behind' with
      | nil =>
          obtain ⟨rfl, rfl⟩ := List.append_eq_nil_iff.mp hsought
          rfl
      | cons c t =>
          rw [List.nil_append, splitAtFirst, if_pos]
          rw [← hsought]
          exact List.isPrefixOf_iff_prefix.mpr (List.prefix_append _ _)
  | cons c before ih =>
      rw [List.cons_append, splitAtFirst] at h ⊢
      split_ifs at h with hstarts
      · simp at h
      · -- a text that starts before the end of the first occurrence does not see what follows it
        rw [if_neg, ih]
        · rfl
        · obtain ⟨⟨u, v⟩, hsplit, heq⟩ := Option.map_eq_some_iff.mp h
          obtain ⟨hu, hv⟩ := Prod.mk.inj heq
          rw [(List.cons.inj hu).2, hv] at hsplit
          exact hsplit
        · rw [List.isPrefixOf_iff_prefix] at hstarts ⊢
          rw [← List.append_assoc] at hstarts ⊢
          rw [← List.cons_append] at hstarts ⊢
          intro hprefix
          refine hstarts (List.IsPrefix.trans ?_ (List.prefix_append _ _))
          refine List.prefix_of_prefix_length_le hprefix (List.prefix_append _ _) ?_
          simp only [List.length_cons, List.length_append]
          omega

/-! ### What begins at a place -/

/-- What begins at a place is told by four characters. -/
lemma beginning_congr {t t' : List Char} (h : t'.take 4 = t.take 4) :
    beginning t' = beginning t := by
  by_cases hshort : t.length < 4
  · -- both texts end before that
    have hlength := congrArg List.length h
    simp only [List.length_take] at hlength
    rw [List.take_of_length_le (by omega), List.take_of_length_le (by omega)] at h
    rw [h]
  · obtain ⟨a, b, c, d, t, rfl⟩ : ∃ a b c d u, t = a :: b :: c :: d :: u := by
      rcases t with _ | ⟨a, _ | ⟨b, _ | ⟨c, _ | ⟨d, t⟩⟩⟩⟩
      case cons.cons.cons.cons => exact ⟨a, b, c, d, t, rfl⟩
      all_goals exact absurd (by simp) hshort
    obtain ⟨t', rfl⟩ : ∃ u, t' = a :: b :: c :: d :: u :=
      ⟨t'.drop 4, by simpa [h] using (List.take_append_drop 4 t').symm⟩
    by_cases ha : a = '<'
    · subst ha
      by_cases hb : b = '!'
      · subst hb
        by_cases hc : c = '-' <;> by_cases hd : d = '-' <;> simp [beginning, hc, hd]
      · by_cases hb' : b = '/' <;> simp [beginning, hb, hb']
    · by_cases ha' : a = '{'
      · subst ha'
        by_cases hb : b = ':' ∨ b = '/' ∨ b = '#' ∨ b = '@'
        · rcases hb with rfl | rfl | rfl | rfl <;> rfl
        · rw [not_or, not_or, not_or] at hb
          simp [beginning, hb]
      · simp [beginning, ha, ha']

/-- Where a run of parts ends, two characters tell so, unless the text ends. -/
lemma ending_cases {t : List Char} {ending : Ending} (h : beginning t = .ending ending) :
    t = [] ∨ ∃ a b u, t = a :: b :: u ∧ ∀ u', beginning (a :: b :: u') = .ending ending := by
  rw [beginning.eq_def] at h
  split at h
  · exact .inl rfl
  · cases h
  · cases h
    exact .inr ⟨_, _, _, rfl, fun _ => rfl⟩
  · cases h
  · cases h
    exact .inr ⟨_, _, _, rfl, fun _ => rfl⟩
  · cases h
    exact .inr ⟨_, _, _, rfl, fun _ => rfl⟩
  all_goals cases h

lemma ending_congr {t t' : List Char} {ending : Ending} (h : beginning t = .ending ending)
    (ht : t'.take 2 = t.take 2) : beginning t' = .ending ending := by
  rcases ending_cases h with rfl | ⟨a, b, u, rfl, hending⟩
  · obtain rfl : t' = [] := by simpa using ht
    exact h
  · obtain ⟨u', rfl⟩ : ∃ u', t' = a :: b :: u' :=
      ⟨t'.drop 2, by simpa [ht] using (List.take_append_drop 2 t').symm⟩
    exact hending u'

/-- Two characters tell that an element begins. -/
lemma element_cases {t : List Char} (h : beginning t = .node .element) :
    ∃ c u, t = '<' :: c :: u ∧ isAsciiLetter c = true := by
  rw [beginning.eq_def] at h
  split at h
  case h_4 c u _ _ =>
    refine ⟨c, u, rfl, ?_⟩
    by_contra hletter
    simp [hletter] at h
  all_goals cases h

lemma element_congr {t t' : List Char} (h : beginning t = .node .element)
    (ht : t'.take 2 = t.take 2) : beginning t' = .node .element := by
  obtain ⟨c, u, rfl, hletter⟩ := element_cases h
  obtain ⟨u', rfl⟩ : ∃ u', t' = '<' :: c :: u' :=
    ⟨t'.drop 2, by simpa [ht] using (List.take_append_drop 2 t').symm⟩
  have hbang : c ≠ '!' := by
    rintro rfl
    exact absurd hletter (by decide)
  have hslash : c ≠ '/' := by
    rintro rfl
    exact absurd hletter (by decide)
  simp [beginning, hbang, hletter]

/-! ### Plain text -/

/-- Whether text ends before a character that other characters follow. -/
def endsText (c : Char) (t : List Char) : Bool :=
  c = '{' || (c = '<' && t.head?.any fun d => isAsciiLetter d || d = '/' || d = '!')

lemma textRun_cons (c : Char) (t : List Char) :
    textRun (c :: t) = if endsText c t then [] else c :: textRun t := by
  by_cases hbrace : c = '{'
  · subst hbrace
    rfl
  · by_cases hlt : c = '<'
    · subst hlt
      cases t <;> simp [textRun, endsText]
    · simp [textRun, endsText, hbrace, hlt]

/-- A run of plain text is the same where the same two characters stand behind it. -/
lemma textRun_congr {s t t' : List Char} (h : textRun (s ++ t) = s) (ht : t'.take 2 = t.take 2) :
    textRun (s ++ t') = s := by
  have hhead : t'.head? = t.head? := by
    simpa [List.head?_take] using congrArg List.head? ht
  induction s with
  | nil =>
      rcases t with _ | ⟨c, t⟩
      · obtain rfl : t' = [] := by simpa using ht
        rfl
      · obtain ⟨u, rfl⟩ := List.head?_eq_some_iff.mp hhead
        have hu : u.head? = t.head? := by
          simpa [List.head?_take] using congrArg List.head? (List.cons.inj ht).2
        rw [List.nil_append, textRun_cons] at h ⊢
        split_ifs at h with hends
        rw [if_pos]
        rwa [endsText, hu, ← endsText]
  | cons c s ih =>
      rw [List.cons_append, textRun_cons] at h ⊢
      split_ifs at h with hends
      have hnext : (s ++ t').head? = (s ++ t).head? := by
        cases s with
        | nil => exact hhead
        | cons => rfl
      rw [if_neg, ih (List.cons.inj h).2]
      rwa [endsText, hnext, ← endsText]

/-- What ends text is the sign of a tag or of code. -/
lemma sign_of_textRun {c : Char} {t : List Char} (h : textRun (c :: t) = []) :
    c = '{' ∨ c = '<' := by
  rw [textRun_cons] at h
  split_ifs at h with hends
  simp only [endsText, Bool.or_eq_true, Bool.and_eq_true, decide_eq_true_eq] at hends
  exact hends.imp id And.left

/-- What ends text does not make more text of what stands before it, nor less. -/
lemma textRun_append_of_ends {r : List Char} (hr : textRun r = []) (s : List Char) :
    textRun (s ++ r) = textRun s := by
  induction s with
  | nil => exact hr
  | cons c s ih =>
      have hends : endsText c (s ++ r) = endsText c s := by
        cases s with
        | cons => rfl
        | nil =>
            cases r with
            | nil => rfl
            | cons d r =>
                rcases sign_of_textRun hr with rfl | rfl <;> simp [endsText, isAsciiLetter]
      rw [List.cons_append, textRun_cons, textRun_cons, hends, ih]

/-- What ends text does not change what begins before it. -/
lemma beginning_append_of_ends {s r : List Char} (hs : s ≠ []) (hr : textRun r = []) :
    beginning (s ++ r) = beginning s := by
  cases r with
  | nil => rw [List.append_nil]
  | cons e r =>
      have he := sign_of_textRun hr
      obtain ⟨a, s, rfl⟩ := List.exists_cons_of_ne_nil hs
      by_cases ha : a = '<'
      · subst ha
        rcases s with _ | ⟨b, s⟩
        · rcases he with rfl | rfl <;> rfl
        · by_cases hb : b = '!'
          · subst hb
            rcases s with _ | ⟨c, _ | ⟨d, s⟩⟩
            · rcases he with rfl | rfl <;> simp [beginning]
            · rcases he with rfl | rfl <;> simp [beginning]
            · exact beginning_congr rfl
          · by_cases hb' : b = '/' <;> simp [beginning, hb, hb']
      · by_cases ha' : a = '{'
        · subst ha'
          cases s with
          | nil => rcases he with rfl | rfl <;> rfl
          | cons b s =>
              by_cases hb : b = ':' ∨ b = '/' ∨ b = '#' ∨ b = '@'
              · rcases hb with rfl | rfl | rfl | rfl <;> rfl
              · rw [not_or, not_or, not_or] at hb
                simp [beginning, hb]
        · simp [beginning, ha, ha']

end SvelteStories.Markup

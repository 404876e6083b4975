/-
Slugs as a normal form of texts:

* `IsFolded`, `FoldsToWords`: characters in lower case that belong to words, and the texts whose
  alphanumeric characters all have such lower cases;
* `IsSlugOf`: what a slug is, said about its characters, its dashes and the gaps of the text;
* `isSeparated_slug`: a slug is made of words with one dash between each two;
* `slug_spec`: a slug is what it should be, is its own slug, and can be read back from an id.

Everything about dashes comes from `slug_eq`, which says where they stand; everything about the
characters between two gaps comes from `slugFrom`, read from one alphanumeric character on.
-/
import SvelteStories.Proofs.Story.Ids
import SvelteStories.Proofs.Text.Boundary
import SvelteStories.Proofs.Text.Separated

namespace SvelteStories

/-! ### Folded characters -/

/-- A character that belongs to words and is in lower case. -/
def IsFolded (c : Char) : Prop :=
  isAlphanumeric c = true ∧ lowerCase c = [c]

instance : DecidablePred IsFolded := fun c =>
  inferInstanceAs (Decidable (isAlphanumeric c = true ∧ lowerCase c = [c]))

/-- The lower case of every alphanumeric character of the text is made of folded characters. -/
def FoldsToWords (t : List Char) : Prop :=
  ∀ c ∈ t, isAlphanumeric c = true → ∀ d ∈ lowerCase c, IsFolded d

instance : DecidablePred FoldsToWords := fun t =>
  inferInstanceAs (Decidable (∀ c ∈ t, isAlphanumeric c = true → ∀ d ∈ lowerCase c, IsFolded d))

lemma foldsToWords_append_iff {s t : List Char} :
    FoldsToWords (s ++ t) ↔ FoldsToWords s ∧ FoldsToWords t :=
  List.forall_mem_append

lemma foldsToWords_cons_iff {c : Char} {t : List Char} :
    FoldsToWords (c :: t)
      ↔ (isAlphanumeric c = true → ∀ d ∈ lowerCase c, IsFolded d) ∧ FoldsToWords t :=
  List.forall_mem_cons

/-- Folded characters are the whole of what is left of a text that is filtered for words. -/
lemma filter_isAlphanumeric_of_folded {t : List Char} (h : ∀ c ∈ t, IsFolded c) :
    t.filter isAlphanumeric = t :=
  List.filter_eq_self.mpr fun c hc => (h c hc).1

/-! ### What a slug is -/

/-- The text `s` is a slug of the text `t`. -/
structure IsSlugOf (t s : List Char) : Prop where
  /-- It is made of folded characters and dashes. -/
  folded : ∀ c ∈ s, IsFolded c ∨ c = '-'
  /-- It does not begin with a dash. -/
  head : s.head? ≠ some '-'
  /-- It does not end in a dash. -/
  last : s.getLast? ≠ some '-'
  /-- No two dashes stand side by side. -/
  single : ¬ ['-', '-'] <:+: s
  /-- Its alphanumeric characters are those of the text, in lower case. -/
  letters : s.filter isAlphanumeric = (t.filter isAlphanumeric).flatMap lowerCase
  /-- Between two neighbours stands a dash if anything stands between them in the text. -/
  neighbours : ∀ before c gap d behind, t = before ++ c :: (gap ++ d :: behind) →
    isAlphanumeric c = true → isAlphanumeric d = true → (∀ e ∈ gap, isAlphanumeric e = false) →
    ∃ left right, s = left ++ (lowerCase c ++ ((if gap = [] then [] else ['-'])
        ++ (lowerCase d ++ right)))
      ∧ left.filter isAlphanumeric = (before.filter isAlphanumeric).flatMap lowerCase
      ∧ right.filter isAlphanumeric = (behind.filter isAlphanumeric).flatMap lowerCase

/-! ### Dashes -/

/-- A slug is the lowered runs of its text, separated by dashes. -/
lemma isSeparated_slug (t : List Char) : IsSeparated '-' (foldedRuns t) (slug t) := by
  rw [slug_eq]
  exact isSeparated_intercalate fun w hw => of_mem_foldedRuns hw

/-- Two dashes side by side stand nowhere in a slug. -/
lemma slug_ne_dashes {t a b : List Char} : slug t ≠ a ++ '-' :: '-' :: b := by
  intro h
  exact (isSeparated_slug t).single ⟨a, b, by rw [h, List.append_assoc]; rfl⟩

/-- The two parts of an id meet at the only two dashes in it that stand side by side. -/
lemma storyId_eq_iff_parts {component story a b : List Char} :
    storyId component story = a ++ '-' :: '-' :: b ↔ a = slug component ∧ b = slug story := by
  constructor
  · intro h
    rw [storyId, List.append_assoc, List.append_eq_append_iff] at h
    obtain ⟨m, rfl, hm⟩ | ⟨m, hm, hrest⟩ := h
    · -- the dashes stand where the component ends, or further on
      obtain _ | ⟨_, _ | ⟨_, m⟩⟩ := m
      · simpa using hm.symm
      · simp only [List.cons_append, List.nil_append, List.cons.injEq] at hm
        exact absurd (by rw [hm.2.2]; rfl) (isSeparated_slug story).head
      · simp only [List.cons_append, List.nil_append, List.cons.injEq] at hm
        exact absurd hm.2.2 slug_ne_dashes
    · obtain _ | ⟨_, _ | ⟨_, m⟩⟩ := m
      · simpa [eq_comm] using And.intro hm hrest
      · simp only [List.cons_append, List.nil_append, List.cons.injEq] at hrest
        exact absurd (by rw [hm, hrest.1]; simp) (isSeparated_slug component).last
      · simp only [List.cons_append, List.cons.injEq] at hrest
        rw [← hrest.1, ← hrest.2.1] at hm
        exact absurd hm slug_ne_dashes
  · rintro ⟨rfl, rfl⟩
    simp [storyId]

/-! ### Characters -/

lemma slugFrom_cons_of_pos {c : Char} (hc : isAlphanumeric c = true) (started gap : Bool)
    (t : List Char) :
    slugFrom started gap (c :: t)
      = (if started && gap then ['-'] else []) ++ (lowerCase c ++ slugFrom true false t) := by
  rw [slugFrom, if_pos hc, List.append_assoc]

lemma slugFrom_cons_of_neg {c : Char} (hc : isAlphanumeric c = false) (started gap : Bool)
    (t : List Char) : slugFrom started gap (c :: t) = slugFrom started true t := by
  rw [slugFrom, hc]
  rfl

lemma of_mem_slugFrom {t : List Char} (ht : FoldsToWords t) {started gap : Bool} {c : Char}
    (hc : c ∈ slugFrom started gap t) : IsFolded c ∨ c = '-' := by
  induction t generalizing started gap with
  | nil => cases hc
  | cons d t ih =>
      obtain ⟨hd, ht⟩ := foldsToWords_cons_iff.mp ht
      cases halpha : isAlphanumeric d with
      | false =>
          rw [slugFrom_cons_of_neg halpha] at hc
          exact ih ht hc
      | true =>
          rw [slugFrom_cons_of_pos halpha, List.mem_append, List.mem_append] at hc
          obtain hdash | hlower | hrest := hc
          · refine .inr (List.mem_singleton.mp ?_)
            split_ifs at hdash
            · exact hdash
            · cases hdash
          · exact .inl (hd halpha c hlower)
          · exact ih ht hrest

/-- Of a slug, the alphanumeric characters are those of the text, in lower case. -/
lemma filter_slugFrom {t : List Char} (ht : FoldsToWords t) (started gap : Bool) :
    (slugFrom started gap t).filter isAlphanumeric
      = (t.filter isAlphanumeric).flatMap lowerCase := by
  induction t generalizing started gap with
  | nil => rfl
  | cons c t ih =>
      obtain ⟨hc, ht⟩ := foldsToWords_cons_iff.mp ht
      cases halpha : isAlphanumeric c with
      | false =>
          rw [slugFrom_cons_of_neg halpha, ih ht, List.filter_cons_of_neg (by simp [halpha])]
      | true =>
          have hdash : (if started && gap then ['-'] else []).filter isAlphanumeric = [] := by
            split_ifs <;> decide
          rw [slugFrom_cons_of_pos halpha, List.filter_append, List.filter_append, hdash,
            filter_isAlphanumeric_of_folded (hc halpha), ih ht, List.filter_cons_of_pos halpha,
            List.flatMap_cons, List.nil_append]

/-- What stands before an alphanumeric character in a slug comes from what stands before it in the
text; from it on, the slug goes on as if it had just begun. -/
lemma exists_slugFrom_append_cons {before : List Char} (hbefore : FoldsToWords before) {c : Char}
    (hc : isAlphanumeric c = true) (t : List Char) (started gap : Bool) :
    ∃ left, slugFrom started gap (before ++ c :: t)
        = left ++ (lowerCase c ++ slugFrom true false t)
      ∧ left.filter isAlphanumeric = (before.filter isAlphanumeric).flatMap lowerCase := by
  induction before generalizing started gap with
  | nil =>
      refine ⟨if started && gap then ['-'] else [], slugFrom_cons_of_pos hc started gap t, ?_⟩
      split_ifs <;> decide
  | cons d before ih =>
      have hfilter := filter_slugFrom hbefore started gap
      obtain ⟨hd, hbefore⟩ := foldsToWords_cons_iff.mp hbefore
      cases halpha : isAlphanumeric d with
      | false =>
          obtain ⟨left, hleft, hletters⟩ := ih hbefore started true
          refine ⟨left, by rw [List.cons_append, slugFrom_cons_of_neg halpha, hleft], ?_⟩
          rw [hletters, List.filter_cons_of_neg (by simp [halpha])]
      | true =>
          obtain ⟨left, hleft, hletters⟩ := ih hbefore true false
          refine ⟨(if started && gap then ['-'] else []) ++ (lowerCase d ++ left), ?_, ?_⟩
          · rw [List.cons_append, slugFrom_cons_of_pos halpha, hleft]
            simp only [List.append_assoc]
          · rw [← hfilter, slugFrom_cons_of_pos halpha]
            simp only [List.filter_append, hletters, filter_slugFrom hbefore]

/-- Behind a gap, a slug that has started goes on with one dash, however long the gap is. -/
lemma slugFrom_gap {gap : List Char} (hgap : ∀ e ∈ gap, isAlphanumeric e = false) {d : Char}
    (hd : isAlphanumeric d = true) (t : List Char) :
    slugFrom true false (gap ++ d :: t)
      = (if gap = [] then [] else ['-']) ++ (lowerCase d ++ slugFrom true false t) := by
  have hpassed : ∀ {gap : List Char}, (∀ e ∈ gap, isAlphanumeric e = false) →
      slugFrom true true (gap ++ d :: t) = '-' :: (lowerCase d ++ slugFrom true false t) := by
    intro gap hgap
    induction gap with
    | nil => exact slugFrom_cons_of_pos hd true true t
    | cons e gap ih =>
        obtain ⟨he, hgap⟩ := List.forall_mem_cons.mp hgap
        rw [List.cons_append, slugFrom_cons_of_neg he, ih hgap]
  cases gap with
  | nil => exact slugFrom_cons_of_pos hd true false t
  | cons e gap =>
      obtain ⟨he, hgap⟩ := List.forall_mem_cons.mp hgap
      rw [List.cons_append, slugFrom_cons_of_neg he, hpassed hgap]
      rfl

/-- Slugs are what `IsSlugOf` says. -/
lemma isSlugOf_slug {t : List Char} (ht : FoldsToWords t) : IsSlugOf t (slug t) where
  folded _ hc := of_mem_slugFrom ht hc
  head := (isSeparated_slug t).head
  last := (isSeparated_slug t).last
  single := (isSeparated_slug t).single
  letters := filter_slugFrom ht false false
  neighbours before c gap d behind hsplit hc hd hgap := by
    subst hsplit
    obtain ⟨hbefore, hrest⟩ := foldsToWords_append_iff.mp ht
    have hbehind := (foldsToWords_cons_iff.mp
      (foldsToWords_append_iff.mp (foldsToWords_cons_iff.mp hrest).2).2).2
    obtain ⟨left, hleft, hletters⟩ :=
      exists_slugFrom_append_cons hbefore hc (gap ++ d :: behind) false false
    refine ⟨left, slugFrom true false behind, ?_, hletters, filter_slugFrom hbehind true false⟩
    rw [slug, hleft, slugFrom_gap hgap hd]

/-! ### Slugs of slugs -/

/-- Words put together with dashes are the runs of what they make up. -/
lemma runs_intercalate {ws : List (List Char)}
    (hws : ∀ w ∈ ws, w ≠ [] ∧ ∀ c ∈ w, isAlphanumeric c = true) :
    runs isAlphanumeric (['-'].intercalate ws) = ws := by
  have hword {w : List Char} (hne : w ≠ []) (hw : ∀ c ∈ w, isAlphanumeric c = true) :
      runs isAlphanumeric w = [w] := by
    obtain ⟨c, w, rfl⟩ := List.exists_cons_of_ne_nil hne
    obtain ⟨hc, hw⟩ := List.forall_mem_cons.mp hw
    rw [runs_cons_of_pos hc, List.takeWhile_eq_self_iff.mpr hw, List.dropWhile_eq_nil_iff.mpr hw]
    rfl
  induction ws with
  | nil => rfl
  | cons w ws ih =>
      obtain ⟨⟨hne, hw⟩, hws⟩ := List.forall_mem_cons.mp hws
      by_cases hnil : ws = []
      · rw [hnil, List.intercalate_singleton, hword hne hw]
      · rw [List.intercalate_cons_of_ne_nil hnil, List.append_assoc, List.singleton_append,
          runs_append_cons (by decide), hword hne hw, ih hws]
        rfl

lemma flatMap_lowerCase_of_folded {w : List Char} (hw : ∀ c ∈ w, IsFolded c) :
    w.flatMap lowerCase = w := by
  induction w with
  | nil => rfl
  | cons c w ih =>
      obtain ⟨hc, hw⟩ := List.forall_mem_cons.mp hw
      rw [List.flatMap_cons, hc.2, ih hw, List.singleton_append]

lemma mem_intercalate {ws : List (List Char)} {w : List Char} (hw : w ∈ ws) {c : Char}
    (hc : c ∈ w) : c ∈ ['-'].intercalate ws := by
  obtain ⟨before, behind, rfl⟩ := List.append_of_mem hw
  cases before with
  | nil =>
      rw [List.nil_append, intercalate_cons]
      exact List.mem_append_left _ hc
  | cons v before =>
      rw [List.cons_append, intercalate_cons, List.mem_append, List.mem_flatMap]
      exact .inr ⟨w, by simp, List.mem_cons_of_mem _ hc⟩

/-- The folded runs of a text are made of folded characters. -/
lemma isFolded_of_mem_foldedRuns {t w : List Char} (ht : FoldsToWords t) (hw : w ∈ foldedRuns t)
    {c : Char} (hc : c ∈ w) : IsFolded c := by
  have hslug : c ∈ slug t := by
    rw [slug_eq]
    exact mem_intercalate hw hc
  refine (of_mem_slugFrom ht hslug).resolve_right ?_
  rintro rfl
  exact (of_mem_foldedRuns hw).2 hc

lemma foldedRuns_slug {t : List Char} (ht : FoldsToWords t) :
    foldedRuns (slug t) = foldedRuns t := by
  have hfolded : ∀ w ∈ foldedRuns t, ∀ c ∈ w, IsFolded c := fun w hw c hc =>
    isFolded_of_mem_foldedRuns ht hw hc
  have hruns : runs isAlphanumeric (slug t) = foldedRuns t := by
    rw [slug_eq]
    exact runs_intercalate fun w hw =>
      ⟨(of_mem_foldedRuns hw).1, fun c hc => (hfolded w hw c hc).1⟩
  rw [foldedRuns.eq_def (slug t), hruns]
  exact (List.map_congr_left fun w hw => flatMap_lowerCase_of_folded (hfolded w hw)).trans
    (List.map_id _)

lemma slug_slug {t : List Char} (ht : FoldsToWords t) : slug (slug t) = slug t :=
  slug_eq_slug_iff.mpr (foldedRuns_slug ht)

/-- **Slugs are normal forms.** For a text whose alphanumeric characters have lower cases made of
folded characters, the slug is made of folded characters and single dashes between them: the
characters are those of the text in lower case, and a dash stands between two of them exactly if
other characters do in the text. It is its own slug. In an id that begins with it, two dashes stand
side by side in one place only, and the slugs of both names are what stands before and behind. -/
theorem slug_spec {t : List Char} (ht : FoldsToWords t) :
    IsSlugOf t (slug t) ∧ slug (slug t) = slug t
      ∧ ∀ story a b, storyId t story = a ++ '-' :: '-' :: b ↔ a = slug t ∧ b = slug story :=
  ⟨isSlugOf_slug ht, slug_slug ht, fun _ _ _ => storyId_eq_iff_parts⟩

/-- A capital whose lower case has a mark in it that belongs to no word: its slug is not its own
slug. -/
example : ¬ FoldsToWords ['\u0130'] ∧ slug (slug ['\u0130']) ≠ slug ['\u0130'] := by
  decide +kernel

/-- A title with blanks and punctuation around its words, in two of which letters are lowered. -/
def spacedTitle : List Char :=
  "  \u00C4rger / F\u00FC\u00DFe (3x)! ".toList

theorem spacedTitle_slug :
    FoldsToWords spacedTitle ∧ slug spacedTitle = "\u00E4rger-f\u00FC\u00DFe-3x".toList
      ∧ IsSlugOf spacedTitle (slug spacedTitle) ∧ slug (slug spacedTitle) = slug spacedTitle
      ∧ ∀ a b, storyId spacedTitle "With  icon".toList = a ++ '-' :: '-' :: b
        ↔ a = slug spacedTitle ∧ b = slug "With  icon".toList := by
  have hfolds : FoldsToWords spacedTitle := by decide +kernel
  obtain ⟨hslug, hsame, hid⟩ := slug_spec hfolds
  exact ⟨hfolds, by decide +kernel, hslug, hsame, hid _⟩

end SvelteStories

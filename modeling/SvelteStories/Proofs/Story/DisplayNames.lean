/-
Display names that are made of export names, and the export names that are made of them again:

* `flatten_wordsFrom`: the words of a name of alphanumeric characters are the name, cut into pieces;
* `IsJoined`: letters and digits of ASCII, no small letter behind a digit;
* `IsJoined.startsUpright`: no word of such a name begins with a small letter, unless the name does;
* `runs_joinWords`: words with spaces between them are told apart again;
* `IsCanonical`, `exportNameOf_displayNameOf`: a name that begins like a derived one is made again
  of its display name.
-/
import Mathlib.Data.List.Chain
import SvelteStories.Proofs.Story.Ids

namespace SvelteStories

section

variable {c prev : Char} {next : Option Char} {current e t w : List Char} {ws : List (List Char)}

/-! ### ASCII -/

lemma toNat_lt_of_isAsciiAlphanumeric (h : isAsciiAlphanumeric c = true) : c.toNat < 0x80 := by
  simp only [isAsciiAlphanumeric, isAsciiLetter, isAsciiDigit, Bool.or_eq_true, Bool.and_eq_true,
    decide_eq_true_eq] at h
  omega

lemma isAlphanumeric_of_ascii (h : isAsciiAlphanumeric c = true) : isAlphanumeric c = true := by
  have hsmall := toNat_lt_of_isAsciiAlphanumeric h
  rwa [isAlphanumeric, isAlphabetic, isNumeric, if_pos hsmall, if_pos hsmall, ← isAsciiAlphanumeric]

/-- Only small letters have a capital. -/
lemma upperCase_of_not_isLower (h : isAsciiAlphanumeric c = true) (hc : isLower c = false) :
    upperCase c = [c] := by
  have hsmall := toNat_lt_of_isAsciiAlphanumeric h
  rw [isLower, if_pos hsmall] at hc
  rw [upperCase, if_pos hsmall, hc, if_neg Bool.false_ne_true]

lemma isLower_of_isUpper (h : isAsciiAlphanumeric c = true) (hc : isUpper c = true) :
    isLower c = false ∧ isAsciiDigit c = false := by
  have hsmall := toNat_lt_of_isAsciiAlphanumeric h
  rw [isUpper, if_pos hsmall] at hc
  rw [isLower, if_pos hsmall, isAsciiDigit]
  simp only [Bool.and_eq_true, decide_eq_true_eq, Bool.and_eq_false_iff, decide_eq_false_iff_not]
    at hc ⊢
  omega

lemma isLower_of_isAsciiDigit (hc : isAsciiDigit c = true) : isLower c = false := by
  rw [isAsciiDigit, Bool.and_eq_true, decide_eq_true_eq, decide_eq_true_eq] at hc
  rw [isLower, if_pos (by omega), Bool.and_eq_false_iff, decide_eq_false_iff_not]
  omega

/-- A new word begins with a capital or a digit, unless it is a small letter behind a digit. -/
lemma isLower_of_startsWord (h : isAsciiAlphanumeric c = true)
    (hdigit : isAsciiDigit prev = true → isLower c = false)
    (hstarts : startsWord prev c next = true) : isLower c = false := by
  simp only [startsWord, Bool.or_eq_true, Bool.and_eq_true] at hstarts
  obtain ((⟨-, hc⟩ | ⟨-, hc⟩) | ⟨hprev, -⟩) | ⟨⟨-, hc⟩, -⟩ := hstarts
  · exact (isLower_of_isUpper h hc).1
  · exact isLower_of_isAsciiDigit hc
  · exact hdigit hprev
  · exact (isLower_of_isUpper h hc).1

/-! ### Words -/

lemma flatten_closeWord (current : List Char) : (closeWord current).flatten = current.reverse := by
  rw [closeWord]
  split
  · rename_i hempty
    rw [List.isEmpty_iff.mp hempty]
    rfl
  · rw [List.flatten_singleton]

/-- The words of a text are the text, cut into pieces. -/
lemma flatten_wordsFrom (ht : ∀ c ∈ t, isAlphanumeric c = true) (current : List Char) :
    (wordsFrom current t).flatten = current.reverse ++ t := by
  induction t generalizing current with
  | nil => rw [wordsFrom, flatten_closeWord, List.append_nil]
  | cons c t ih =>
      have ih := ih fun d hd => ht d (List.mem_cons_of_mem c hd)
      rw [wordsFrom, if_pos (ht c List.mem_cons_self)]
      split
      · rw [List.flatten_append, flatten_closeWord, ih]
        rfl
      · rw [ih, List.reverse_cons, List.append_assoc]
        rfl

/-- Letters and digits of ASCII, no small letter behind a digit. -/
structure IsJoined (t : List Char) : Prop where
  /-- Nothing else is in it. -/
  ascii : ∀ c ∈ t, isAsciiAlphanumeric c = true
  /-- A digit and a small letter never meet. -/
  apart : t.IsChain fun c d => isAsciiDigit c = true → isLower d = false

/-- The first character of a text is no small letter. -/
def StartsUpright (t : List Char) : Prop :=
  ∃ c rest, t = c :: rest ∧ isLower c = false

/-- If a word that has begun does not begin with a small letter, no further word does. -/
lemma startsUpright_of_mem_wordsFrom (ht : ∀ c ∈ t, isAsciiAlphanumeric c = true)
    (hapart : (prev :: t).IsChain fun c d => isAsciiDigit c = true → isLower d = false)
    (hstart : StartsUpright (prev :: current).reverse)
    (hw : w ∈ wordsFrom (prev :: current) t) : StartsUpright w := by
  induction t generalizing prev current with
  | nil => rwa [List.mem_singleton.mp hw]
  | cons c t ih =>
      obtain ⟨hdigit, hapart'⟩ := List.isChain_cons_cons.mp hapart
      have hc := ht c List.mem_cons_self
      have ht' : ∀ d ∈ t, isAsciiAlphanumeric d = true := fun d hd =>
        ht d (List.mem_cons_of_mem c hd)
      rw [wordsFrom, if_pos (isAlphanumeric_of_ascii hc)] at hw
      split at hw
      · rename_i hstarts
        obtain hw | hw := List.mem_append.mp hw
        · rwa [List.mem_singleton.mp hw]
        · exact ih ht' hapart' ⟨c, [], rfl, isLower_of_startsWord hc hdigit hstarts⟩ hw
      · obtain ⟨d, rest, hhead, hd⟩ := hstart
        exact ih ht' hapart' ⟨d, rest ++ [c], by rw [List.reverse_cons, hhead]; rfl, hd⟩ hw

/-- If a name does not begin with a small letter, none of its words does. -/
lemma IsJoined.startsUpright (h : IsJoined (c :: t)) (hc : isLower c = false)
    (hw : w ∈ wordsOf (c :: t)) : StartsUpright w := by
  have hwords : wordsOf (c :: t) = wordsFrom [c] t := by
    rw [wordsOf, wordsFrom, if_pos (isAlphanumeric_of_ascii (h.ascii c List.mem_cons_self))]
    rfl
  rw [hwords] at hw
  exact startsUpright_of_mem_wordsFrom (fun d hd => h.ascii d (List.mem_cons_of_mem c hd)) h.apart
    ⟨c, [], rfl, hc⟩ hw

lemma IsJoined.flatten_wordsOf (h : IsJoined t) : (wordsOf t).flatten = t :=
  flatten_wordsFrom (fun c hc => isAlphanumeric_of_ascii (h.ascii c hc)) []

/-- Words of ASCII that do not begin with small letters are capitalised as they are. -/
lemma capitalize_of_startsUpright (hw : ∀ c ∈ w, isAsciiAlphanumeric c = true)
    (h : StartsUpright w) : capitalize w = w := by
  obtain ⟨c, rest, rfl, hc⟩ := h
  rw [capitalize, upperCase_of_not_isLower (hw c List.mem_cons_self) hc]
  rfl

/-! ### Words with spaces between them -/

/-- Words that satisfy a test, which a space does not, are the runs of what they are joined to. -/
lemma runs_joinWords {p : Char → Bool} (hspace : p ' ' = false)
    (hws : ∀ w ∈ ws, w ≠ [] ∧ ∀ c ∈ w, p c = true) : runs p (joinWords ws) = ws := by
  have hword : ∀ w ∈ ws, runs p w = [w] := by
    intro w hw
    obtain ⟨hne, hall⟩ := hws w hw
    obtain ⟨c, w, rfl⟩ := List.exists_cons_of_ne_nil hne
    have hrest : ∀ d ∈ w, p d = true := fun d hd => hall d (List.mem_cons_of_mem c hd)
    rw [runs_cons_of_pos (hall c List.mem_cons_self), List.takeWhile_eq_self_iff.mpr hrest,
      List.dropWhile_eq_nil_iff.mpr hrest, runs]
  induction ws with
  | nil => rfl
  | cons w ws ih =>
      have ih := ih (fun v hv => hws v (List.mem_cons_of_mem w hv))
        fun v hv => hword v (List.mem_cons_of_mem w hv)
      cases ws with
      | nil => exact hword w List.mem_cons_self
      | cons v ws =>
          rw [joinWords, runs_append_cons hspace, hword w List.mem_cons_self, ih]
          · rfl
          · exact List.cons_ne_nil v ws

/-! ### Names made again -/

/-- A name of ASCII letters and digits that begins with a capital, or with an underscore before a
digit, and in which no small letter stands behind a digit. -/
inductive IsCanonical : List Char → Prop
  /-- A name that begins with a capital. -/
  | capital {c : Char} {t : List Char} : isUpper c = true → IsJoined (c :: t) → IsCanonical (c :: t)
  /-- A name that would begin with a digit. -/
  | digit {c : Char} {t : List Char} : isAsciiDigit c = true → IsJoined (c :: t) →
      IsCanonical ('_' :: c :: t)

/-- The words of a joined name stand in its display name as they are. -/
lemma IsJoined.runs_displayNameOf (h : IsJoined (c :: t)) (hc : isLower c = false) :
    runs isNamePart (displayNameOf (c :: t)) = wordsOf (c :: t)
      ∧ (wordsOf (c :: t)).flatMap capitalize = c :: t := by
  have hmem : ∀ w ∈ wordsOf (c :: t), ∀ d ∈ w, isAsciiAlphanumeric d = true := by
    intro w hw d hd
    refine h.ascii d ?_
    rw [← h.flatten_wordsOf]
    exact List.mem_flatten.mpr ⟨w, hw, hd⟩
  have hcapital : ∀ w ∈ wordsOf (c :: t), capitalize w = w := fun w hw =>
    capitalize_of_startsUpright (hmem w hw) (h.startsUpright hc hw)
  have hmap : (wordsOf (c :: t)).map capitalize = wordsOf (c :: t) :=
    (List.map_congr_left hcapital).trans (List.map_id _)
  constructor
  · rw [displayNameOf, hmap]
    refine runs_joinWords (by decide) fun w hw => ⟨?_, fun d hd => ?_⟩
    · obtain ⟨d, rest, rfl, -⟩ := h.startsUpright hc hw
      exact List.cons_ne_nil d rest
    · rw [isNamePart, isAlphanumeric_of_ascii (hmem w hw d hd), Bool.true_or, Bool.true_or]
  · rw [List.flatMap_def, hmap, h.flatten_wordsOf]

/-- **Export names made again.** The display name of a canonical export name is made of its words as
they are, which together are all of it but an underscore at its beginning, and the export name for
that display name is the same again. -/
theorem exportNameOf_displayNameOf (h : IsCanonical e) :
    runs isNamePart (displayNameOf e) = wordsOf e
      ∧ (wordsOf e).flatten = e.dropWhile (· = '_')
      ∧ exportNameOf (displayNameOf e) = e := by
  cases h with
  | @capital c t hc h =>
      obtain ⟨hlower, hdigit⟩ := isLower_of_isUpper (h.ascii c List.mem_cons_self) hc
      have hunderscore : c ≠ '_' := by
        rintro rfl
        exact absurd hc (by decide)
      obtain ⟨hruns, hname⟩ := h.runs_displayNameOf hlower
      refine ⟨hruns, ?_, ?_⟩
      · rw [h.flatten_wordsOf, List.dropWhile_cons_of_neg (by simpa using hunderscore)]
      · rw [exportNameOf, hruns, hname]
        simp [hdigit]
  | @digit c t hc h =>
      have hunderscore : c ≠ '_' := by
        rintro rfl
        exact absurd hc (by decide)
      -- the underscore belongs to no word
      have hwords : wordsOf ('_' :: c :: t) = wordsOf (c :: t) := rfl
      have hdisplay : displayNameOf ('_' :: c :: t) = displayNameOf (c :: t) := rfl
      obtain ⟨hruns, hname⟩ := h.runs_displayNameOf (isLower_of_isAsciiDigit hc)
      rw [hwords, hdisplay]
      refine ⟨hruns, ?_, ?_⟩
      · rw [h.flatten_wordsOf, List.dropWhile_cons_of_pos (by decide),
          List.dropWhile_cons_of_neg (by simpa using hunderscore)]
      · rw [exportNameOf, hruns, hname]
        simp [hc]

theorem htmlButton_made_again :
    (IsCanonical "HTMLButton2".toList ∧ displayNameOf "HTMLButton2".toList = "HTML Button 2".toList
      ∧ exportNameOf (displayNameOf "HTMLButton2".toList) = "HTMLButton2".toList)
      ∧ (IsCanonical "_3Columns".toList ∧ displayNameOf "_3Columns".toList = "3 Columns".toList
        ∧ exportNameOf (displayNameOf "_3Columns".toList) = "_3Columns".toList) := by
  have hbutton : IsCanonical "HTMLButton2".toList :=
    .capital (by decide) ⟨by decide, by decide⟩
  have hcolumns : IsCanonical "_3Columns".toList :=
    .digit (by decide) ⟨by decide, by decide⟩
  exact ⟨⟨hbutton, by decide, (exportNameOf_displayNameOf hbutton).2.2⟩,
    ⟨hcolumns, by decide, (exportNameOf_displayNameOf hcolumns).2.2⟩⟩

end

end SvelteStories

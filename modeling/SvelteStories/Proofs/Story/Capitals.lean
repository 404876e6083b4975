/-
The first characters of words in upper case:

* `isCased`: the letters that have a capital, and the capitals, without the small letters of ASCII;
* `isCased_of_shifted?`, `isCased_of_lookup`: both case tables go from such letters to such letters;
* `markedSmallLetters`: the letters that have no capital of one character, but one with a mark on it;
* `IsCapital`, `hasCapital`: the capital of a name part is as good a first character, and the
  rest of it are name parts unless the letter is one of those.
-/
import SvelteStories.Proofs.Story.ReadOff
import SvelteStories.Proofs.Text.CharRanges

namespace SvelteStories

variable {c u : Char} {m n : Nat} {codes : List Nat} {rs : List (Nat × Nat)}

/-! ### Letters with two cases -/

/-- Ranges of letters in which all letters with another upper case stand, and all their capitals. -/
def casedRanges : List (Nat × Nat) :=
  [(65, 90), (97, 122), (181, 181), (192, 214), (216, 246), (248, 705), (880, 884), (886, 887),
   (890, 893), (895, 895), (902, 902), (904, 906), (908, 908), (910, 929), (931, 1013),
   (1015, 1153), (1162, 1327), (1329, 1366), (1376, 1416), (4256, 4293), (4295, 4295),
   (4301, 4301), (4304, 4346), (4348, 4680), (5024, 5109), (5112, 5117), (7296, 7306),
   (7312, 7354), (7357, 7359), (7424, 7615), (7680, 7957), (7960, 7965), (7968, 8005),
   (8008, 8013), (8016, 8023), (8025, 8025), (8027, 8027), (8029, 8029), (8031, 8061),
   (8064, 8116), (8118, 8124), (8126, 8126), (8130, 8132), (8134, 8140), (8144, 8147),
   (8150, 8155), (8160, 8172), (8178, 8180), (8182, 8188), (8495, 8505), (8526, 8526),
   (8544, 8584), (11264, 11492), (11499, 11502), (11506, 11507), (11520, 11557), (11559, 11559),
   (11565, 11565), (42560, 42606), (42623, 42653), (42786, 42888), (42891, 42972), (42993, 43009),
   (43824, 43866), (43888, 44002), (64256, 64262), (64275, 64279), (65313, 65338), (65345, 65370),
   (66560, 66717), (66736, 66771), (66776, 66811), (66928, 66938), (66940, 66954), (66956, 66962),
   (66964, 66965), (66967, 66977), (66979, 66993), (66995, 67001), (67003, 67004), (68736, 68786),
   (68800, 68850), (68938, 68965), (68975, 68997), (71840, 71903), (93760, 93823), (93856, 93880),
   (93883, 93907), (125184, 125251)]

/-- The alphabetic marks among them. -/
def casedMarkRanges : List (Nat × Nat) :=
  [(837, 837), (9398, 9449)]

/-- A code point in those ranges. -/
def isCased (n : Nat) : Bool :=
  inRanges casedRanges n || inRanges casedMarkRanges n

/-- A code point of a small letter of ASCII. -/
def isAsciiSmall (n : Nat) : Bool :=
  97 ≤ n && n ≤ 122

/-- The marks that stand on letters. -/
def isDiacritic (n : Nat) : Bool :=
  768 ≤ n && n ≤ 836

/-- Whether a range holds code points of ASCII other than letters, or none of characters. -/
def isOdd (r : Nat × Nat) : Bool :=
  !(r = (65, 90) || r = (97, 122) || (0x80 ≤ r.1 && r.2 < 0xD800)
    || (0xDFFF < r.1 && r.2 < 0x110000))

/-- Cased letters are alphabetic, and there are no odd ranges of them. -/
lemma casedRanges_alphabetic :
    rangesWithin CharTable.letterRanges casedRanges = true
      ∧ rangesWithin CharTable.alphabeticMarkRanges casedMarkRanges = true
      ∧ ∀ r ∈ casedRanges ++ casedMarkRanges, isOdd r = false := by
  decide +kernel

lemma exists_range_of_isCased (h : isCased n = true) :
    ∃ r ∈ casedRanges ++ casedMarkRanges, isOdd r = false ∧ r.1 ≤ n ∧ n ≤ r.2 := by
  rw [isCased, ← inRanges_append] at h
  obtain ⟨r, hr, hin⟩ := inRanges_iff.mp h
  exact ⟨r, hr, casedRanges_alphabetic.2.2 r hr, hin⟩

lemma toNat_ofNat_of_isCased (h : isCased n = true) : (Char.ofNat n).toNat = n := by
  obtain ⟨r, -, hodd, hle, hge⟩ := exists_range_of_isCased h
  have hvalid : n.isValidChar := by
    simp only [isOdd, Bool.not_eq_false', Bool.or_eq_true, Bool.and_eq_true, decide_eq_true_eq]
      at hodd
    obtain ((rfl | rfl) | hr) | hr := hodd
    · exact .inl (by omega)
    · exact .inl (by omega)
    · exact .inl (by omega)
    · exact .inr ⟨by omega, by omega⟩
  rw [Char.ofNat, dif_pos hvalid]
  rfl

lemma isAlphabetic_of_isCased (h : isCased c.toNat = true) : isAlphabetic c = true := by
  rw [isAlphabetic]
  split
  · rename_i hsmall
    obtain ⟨r, -, hodd, hle, hge⟩ := exists_range_of_isCased h
    simp only [isOdd, Bool.not_eq_false', Bool.or_eq_true, Bool.and_eq_true, decide_eq_true_eq]
      at hodd
    simp only [isAsciiLetter, Bool.or_eq_true, Bool.and_eq_true, decide_eq_true_eq]
    obtain ((rfl | rfl) | hr) | hr := hodd <;> omega
  · obtain ⟨hletters, hmarks, -⟩ := casedRanges_alphabetic
    rw [isCased, Bool.or_eq_true] at h
    rw [Bool.or_eq_true]
    exact h.imp (inRanges_of_rangesWithin hletters) (inRanges_of_rangesWithin hmarks)

/-! ### The case tables -/

/-- Whether one range of cased letters holds all code points from `first` to `last`. -/
def isCasedUpTo (first last : Nat) : Bool :=
  (casedRanges ++ casedMarkRanges).any fun r => r.1 ≤ first && last ≤ r.2

/-- Whether a progression goes from cased letters to cased letters that are no small ones of ASCII.
The images may be in several ranges. -/
def fitsCase (map : Nat × Nat × Nat × Nat) : Bool :=
  let (first, last, step, image) := map
  isCasedUpTo first last
    && (isCasedUpTo image (image + (last - first))
      || (List.range (last - first + 1)).all fun k => k % step != 0 || isCased (image + k))
    && (image + (last - first) < 97 || 122 < image)

lemma fitsCase_upperMaps : ∀ map ∈ CaseTable.upperMaps, fitsCase map = true := by
  decide +kernel

lemma isCased_of_isCasedUpTo {first last : Nat} (h : isCasedUpTo first last = true)
    (hle : first ≤ n) (hge : n ≤ last) : isCased n = true := by
  obtain ⟨r, hr, hin⟩ := List.any_eq_true.mp h
  rw [Bool.and_eq_true, decide_eq_true_eq, decide_eq_true_eq] at hin
  rw [isCased, ← inRanges_append]
  exact inRanges_iff.mpr ⟨r, hr, by omega, by omega⟩

/-- A letter with a capital of one character, and the capital. -/
lemma isCased_of_shifted? (h : shifted? CaseTable.upperMaps n = some m) :
    isCased n = true ∧ isCased m = true ∧ isAsciiSmall m = false := by
  obtain ⟨⟨first, last, step, image⟩, hmap, hshift⟩ := List.exists_of_findSome?_eq_some h
  have hfits := fitsCase_upperMaps _ hmap
  simp only [fitsCase, Bool.and_eq_true, Bool.or_eq_true, decide_eq_true_eq] at hfits
  obtain ⟨⟨hdomain, himage⟩, hupright⟩ := hfits
  simp only [Bool.and_eq_true, decide_eq_true_eq, Option.ite_none_right_eq_some,
    Option.some.injEq] at hshift
  obtain ⟨⟨⟨hle, hge⟩, hstep⟩, rfl⟩ := hshift
  refine ⟨isCased_of_isCasedUpTo hdomain hle hge, ?_, ?_⟩
  · obtain himage | himage := himage
    · exact isCased_of_isCasedUpTo himage (by omega) (by omega)
    · have hk := List.all_eq_true.mp himage (n - first) (List.mem_range.mpr (by omega))
      simpa [hstep] using hk
  · rw [isAsciiSmall, Bool.and_eq_false_iff, decide_eq_false_iff_not, decide_eq_false_iff_not]
    omega

/-- The small letters whose capital is a letter with marks on it. -/
def markedSmallLetters : List Nat :=
  [0x1F0, 0x390, 0x3B0, 0x1E96, 0x1E97, 0x1E98, 0x1E99, 0x1F50, 0x1F52, 0x1F54, 0x1F56, 0x1FB6,
   0x1FB7, 0x1FC6, 0x1FC7, 0x1FD2, 0x1FD3, 0x1FD6, 0x1FD7, 0x1FE2, 0x1FE3, 0x1FE4, 0x1FE6, 0x1FE7,
   0x1FF6, 0x1FF7]

/-- Whether a letter goes to cased letters the first of which is no small one of ASCII, or to such a
letter with a mark somewhere behind it. -/
def expandsCase (expansion : Nat × List Nat) : Bool :=
  match expansion with
  | (_, []) => false
  | (n, u :: us) =>
    isCased n && isCased u && !isAsciiSmall u
      && (if markedSmallLetters.contains n then us.any isDiacritic else us.all isCased)

/-- All expansions are such, and every marked letter has one. -/
lemma upperExpansions_expandCase :
    (∀ e ∈ CaseTable.upperExpansions, expandsCase e = true)
      ∧ ∀ n ∈ markedSmallLetters, (CaseTable.upperExpansions.lookup n).isSome = true := by
  decide +kernel

/-- A letter with a capital of several characters, and the capital. -/
lemma isCased_of_lookup (h : CaseTable.upperExpansions.lookup n = some codes) :
    isCased n = true ∧ ∃ u us, codes = u :: us ∧ isCased u = true ∧ isAsciiSmall u = false
      ∧ (n ∈ markedSmallLetters → ∃ d ∈ us, isDiacritic d = true)
      ∧ (n ∉ markedSmallLetters → ∀ d ∈ us, isCased d = true) := by
  obtain ⟨before, behind, hmem, -⟩ := List.lookup_eq_some_iff.mp h
  have hexpands := upperExpansions_expandCase.1 (n, codes) (by simp [hmem])
  cases codes with
  | nil => cases hexpands
  | cons u us =>
      simp only [expandsCase, Bool.and_eq_true, Bool.not_eq_true', List.contains_iff_mem] at hexpands
      obtain ⟨⟨⟨hn, hu⟩, hupright⟩, hus⟩ := hexpands
      refine ⟨hn, u, us, rfl, hu, hupright, fun hmarked => ?_, fun hmarked => ?_⟩
      · rw [if_pos hmarked] at hus
        exact List.any_eq_true.mp hus
      · rw [if_neg hmarked] at hus
        exact List.all_eq_true.mp hus

/-! ### Marks -/

/-- Whether no range of a table holds a diacritic. -/
def hasNoDiacritic (rs : List (Nat × Nat)) : Bool :=
  rs.all fun r => r.2 < 768 || 836 < r.1

lemma inRanges_of_isDiacritic (hrs : hasNoDiacritic rs = true) (hn : isDiacritic n = true) :
    inRanges rs n = false := by
  rw [← Bool.not_eq_true, inRanges_iff]
  rintro ⟨r, hr, hle, hge⟩
  have hr := List.all_eq_true.mp hrs r hr
  simp only [isDiacritic, Bool.and_eq_true, Bool.or_eq_true, decide_eq_true_eq] at hr hn
  omega

/-- No diacritic is part of a name. -/
lemma isNamePart_of_isDiacritic (h : isDiacritic c.toNat = true) : isNamePart c = false := by
  have hletter : inRanges CharTable.letterRanges c.toNat = false :=
    inRanges_of_isDiacritic (by decide +kernel) h
  have hmark : inRanges CharTable.alphabeticMarkRanges c.toNat = false :=
    inRanges_of_isDiacritic (by decide +kernel) h
  have hdigit : inRanges CharTable.digitRanges c.toNat = false :=
    inRanges_of_isDiacritic (by decide +kernel) h
  have hother : inRanges CharTable.otherNumberRanges c.toNat = false :=
    inRanges_of_isDiacritic (by decide +kernel) h
  have hnumber : isNumeric.letterNumber c.toNat = false :=
    inRanges_of_isDiacritic (by decide +kernel) h
  have hcode : 768 ≤ c.toNat := by
    rw [isDiacritic, Bool.and_eq_true, decide_eq_true_eq] at h
    exact h.1
  rw [isNamePart, isAlphanumeric, isAlphabetic, isNumeric, if_neg (by omega), if_neg (by omega),
    hletter, hmark, hdigit, hother, hnumber, decide_eq_of_not_ascii (by omega) (by decide),
    decide_eq_of_not_ascii (by omega) (by decide)]
  rfl

/-! ### Capitals -/

lemma isNameStart_of_isAlphabetic (h : isAlphabetic c = true) :
    isNameStart c = true ∧ isNamePart c = true ∧ isAsciiDigit c = false := by
  refine ⟨by rw [isNameStart, h]; rfl, by rw [isNamePart, isAlphanumeric, h]; rfl, ?_⟩
  rw [isAlphabetic] at h
  rw [← Bool.not_eq_true, isAsciiDigit, Bool.and_eq_true, decide_eq_true_eq, decide_eq_true_eq]
  split at h
  · simp only [isAsciiLetter, Bool.or_eq_true, Bool.and_eq_true, decide_eq_true_eq] at h
    omega
  · omega

/-- The character `u` may stand at the beginning of a name wherever `c` may, and it is no small
letter of ASCII. -/
structure IsCapital (c u : Char) : Prop where
  /-- A name may start with both, or with neither. -/
  start : isNameStart u = isNameStart c
  /-- Both are digits of ASCII, or neither is. -/
  digit : isAsciiDigit u = isAsciiDigit c
  /-- It belongs to names. -/
  part : isNamePart u = true
  /-- It is no small letter of ASCII. -/
  upright : isAsciiSmall u.toNat = false

/-- A character without an upper case. -/
lemma IsCapital.refl (h : isNamePart c = true) (hc : isAsciiSmall c.toNat = false) :
    IsCapital c c :=
  ⟨rfl, rfl, h, hc⟩

/-- A letter and another one. -/
lemma IsCapital.of_isAlphabetic (hc : isAlphabetic c = true) (hu : isAlphabetic u = true)
    (hupright : isAsciiSmall u.toNat = false) : IsCapital c u := by
  obtain ⟨hc, -, hdigit⟩ := isNameStart_of_isAlphabetic hc
  obtain ⟨hu, hpart, hdigit'⟩ := isNameStart_of_isAlphabetic hu
  exact ⟨hu.trans hc.symm, hdigit'.trans hdigit.symm, hpart, hupright⟩

lemma IsCapital.of_isCased (hc : isCased c.toNat = true) (hn : isCased n = true)
    (hupright : isAsciiSmall n = false) : IsCapital c (Char.ofNat n) := by
  have hcode := toNat_ofNat_of_isCased hn
  refine .of_isAlphabetic (isAlphabetic_of_isCased hc) (isAlphabetic_of_isCased ?_) ?_
  · rwa [hcode]
  · rwa [hcode]

/-- The upper case of a character begins with a capital of it, and the rest are name parts unless
the character is a marked small letter. -/
def HasCapital (c : Char) : Prop :=
  ∃ u us, upperCase c = u :: us ∧ IsCapital c u
    ∧ ((∀ d ∈ us, isNamePart d = true) ↔ c.toNat ∉ markedSmallLetters)

lemma HasCapital.of_singleton (h : upperCase c = [u]) (hu : IsCapital c u)
    (hmarked : c.toNat ∉ markedSmallLetters) : HasCapital c :=
  ⟨u, [], h, hu, iff_of_true (by simp) hmarked⟩

lemma hasCapital_of_ascii (hc : isNamePart c = true) (hascii : c.toNat < 0x80) : HasCapital c := by
  have hmarked : c.toNat ∉ markedSmallLetters := fun hmem =>
    absurd hascii (Nat.not_lt.mpr ((by decide : ∀ n ∈ markedSmallLetters, 0x80 ≤ n) _ hmem))
  have hupper : upperCase c = [if isAsciiSmall c.toNat then Char.ofNat (c.toNat - 32) else c] := by
    rw [upperCase, if_pos hascii, isAsciiSmall]
  refine .of_singleton hupper ?_ hmarked
  split
  · rename_i hsmall
    rw [isAsciiSmall, Bool.and_eq_true, decide_eq_true_eq, decide_eq_true_eq] at hsmall
    have hcased : isCased c.toNat = true :=
      Bool.or_eq_true_iff.mpr (.inl (inRanges_iff.mpr ⟨(97, 122), by decide, hsmall⟩))
    have hcased' : isCased (c.toNat - 32) = true :=
      Bool.or_eq_true_iff.mpr
        (.inl (inRanges_iff.mpr ⟨(65, 90), by decide, by omega, by omega⟩))
    refine .of_isCased hcased hcased' ?_
    rw [isAsciiSmall, Bool.and_eq_false_iff, decide_eq_false_iff_not]
    omega
  · rename_i hsmall
    exact .refl hc (Bool.not_eq_true _ ▸ hsmall)

/-- The capital of a letter that has several characters in upper case. -/
lemma hasCapital_of_lookup (hascii : ¬ c.toNat < 0x80)
    (h : CaseTable.upperExpansions.lookup c.toNat = some codes) : HasCapital c := by
  obtain ⟨hc, u, us, rfl, hu, hupright, hmarked, hplain⟩ := isCased_of_lookup h
  refine ⟨Char.ofNat u, us.map Char.ofNat, ?_, .of_isCased hc hu hupright, ?_⟩
  · rw [upperCase, if_neg hascii, mapCase, h]
    rfl
  · constructor
    · intro hparts hmem
      obtain ⟨d, hd, hdiacritic⟩ := hmarked hmem
      have hpart := hparts _ (List.mem_map_of_mem hd)
      have hcode : (Char.ofNat d).toNat = d := by
        rw [isDiacritic, Bool.and_eq_true, decide_eq_true_eq, decide_eq_true_eq] at hdiacritic
        rw [Char.ofNat, dif_pos (.inl (by omega))]
        rfl
      rw [isNamePart_of_isDiacritic (by rwa [hcode])] at hpart
      cases hpart
    · intro hmem d hd
      obtain ⟨n, hn, rfl⟩ := List.mem_map.mp hd
      have hcased := hplain hmem n hn
      refine (isNameStart_of_isAlphabetic (isAlphabetic_of_isCased ?_)).2.1
      rwa [toNat_ofNat_of_isCased hcased]

/-- Whatever belongs to names has a capital. -/
lemma hasCapital (hc : isNamePart c = true) : HasCapital c := by
  by_cases hascii : c.toNat < 0x80
  · exact hasCapital_of_ascii hc hascii
  cases hlookup : CaseTable.upperExpansions.lookup c.toNat with
  | some codes => exact hasCapital_of_lookup hascii hlookup
  | none =>
      have hmarked : c.toNat ∉ markedSmallLetters := fun hmem => by
        have hsome := upperExpansions_expandCase.2 _ hmem
        rw [hlookup] at hsome
        cases hsome
      have hupper : upperCase c
          = [((shifted? CaseTable.upperMaps c.toNat).map Char.ofNat).getD c] := by
        rw [upperCase, if_neg hascii, mapCase, hlookup]
      refine .of_singleton hupper ?_ hmarked
      cases hshift : shifted? CaseTable.upperMaps c.toNat with
      | some n =>
          obtain ⟨hcased, hn, hupright⟩ := isCased_of_shifted? hshift
          exact .of_isCased hcased hn hupright
      | none =>
          refine .refl hc ?_
          rw [isAsciiSmall, Bool.and_eq_false_iff, decide_eq_false_iff_not, decide_eq_false_iff_not]
          omega

end SvelteStories

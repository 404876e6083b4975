/-
Export names among the identifiers of scripts:

* `isStray`: the name parts that belong to no identifier;
* `isLeadingMark`: the marks that no identifier starts with, though a name may;
* `isIdentifierPart_iff`, `isIdentifierStart_iff`: for all others, names and identifiers agree;
* `isIdentifier_iff_of_isExportName`: so an export name is an identifier unless it holds one of these;
* `reserved_of_isExportName`: no export name is a word that modules reserve.
-/
import SvelteStories.Proofs.Script.Words
import SvelteStories.Proofs.Story.ReadOff
import SvelteStories.Proofs.Text.CharRanges
import SvelteStories.Script.Parser.Context

namespace SvelteStories

open Script

variable {c : Char} {n : Nat} {name : List Char}

/-! ### Tables -/

/-- The letters in circles and squares. They are alphabetic, but symbols by their category. -/
def circledLetterRanges : List (Nat × Nat) :=
  [(0x24B6, 0x24E9), (0x1F130, 0x1F149), (0x1F150, 0x1F169), (0x1F170, 0x1F189)]

/-- The characters besides letters, marks and digits that identifiers go on with. -/
def otherPartRanges : List (Nat × Nat) :=
  [(0xB7, 0xB7), (0x387, 0x387), (0x1369, 0x1371), (0x19DA, 0x19DA), (0x200C, 0x200D),
   (0x203F, 0x2040), (0x2054, 0x2054), (0x30FB, 0x30FB), (0xFE33, 0xFE34), (0xFE4D, 0xFE4F),
   (0xFF3F, 0xFF3F), (0xFF65, 0xFF65)]

/-- A table with nothing from these. -/
def isApartFrom (tables : List (List (Nat × Nat))) (ss : List (Nat × Nat)) : Bool :=
  isAscending ss && tables.all fun rs => isAscending rs && rangesApart ss rs

lemma inRanges_of_isApartFrom {tables : List (List (Nat × Nat))} {rs ss : List (Nat × Nat)}
    (h : isApartFrom tables ss = true) (hrs : rs ∈ tables) (hn : inRanges ss n = true) :
    inRanges rs n = false := by
  rw [isApartFrom, Bool.and_eq_true, List.all_eq_true] at h
  obtain ⟨hss, hall⟩ := h
  obtain ⟨hascending, hapart⟩ := Bool.and_eq_true_iff.mp (hall rs hrs)
  exact inRanges_of_rangesApart hss hascending hapart hn

/-- The tables of the characters that identifiers go on with. -/
def partTables : List (List (Nat × Nat)) :=
  [CharTable.letterRanges, otherStartRanges, CharTable.markRanges, CharTable.digitRanges,
   otherPartRanges]

/-- Letters in circles, numbers that are no digits and alphabetic marks stand in tables of their own,
though identifiers go on with some of the numbers. -/
lemma tables_apart :
    isApartFrom partTables circledLetterRanges = true
      ∧ isApartFrom partTables.dropLast CharTable.otherNumberRanges = true
      ∧ isApartFrom [CharTable.letterRanges] CharTable.alphabeticMarkRanges = true := by
  decide +kernel

/-- What is alphabetic without being a letter is a mark or a letter in a circle. -/
lemma inRanges_alphabeticMarkRanges (h : inRanges CharTable.alphabeticMarkRanges n = true) :
    inRanges CharTable.markRanges n = true ∨ inRanges circledLetterRanges n = true := by
  have hwithin : rangesWithin CharTable.markRanges
      (CharTable.alphabeticMarkRanges.filter fun r => !circledLetterRanges.contains r) = true := by
    decide +kernel
  obtain ⟨r, hr, hin⟩ := inRanges_iff.mp h
  cases hcircled : circledLetterRanges.contains r with
  | true => exact .inr (inRanges_iff.mpr ⟨r, List.contains_iff_mem.mp hcircled, hin⟩)
  | false =>
      refine .inl (inRanges_of_rangesWithin hwithin (inRanges_iff.mpr ⟨r, ?_, hin⟩))
      rw [List.mem_filter, hcircled]
      exact ⟨hr, rfl⟩

/-! ### Characters -/

/-- A character that is part of names but of no identifier: the vertical tilde, a letter in a circle,
or a number that is no digit. -/
def isStray (c : Char) : Bool :=
  c = '\u2E2F' || inRanges circledLetterRanges c.toNat
    || (inRanges CharTable.otherNumberRanges c.toNat && !inRanges otherPartRanges c.toNat)

/-- A character that names start with and identifiers only go on with: a mark that counts as
alphabetic. -/
def isLeadingMark (c : Char) : Bool :=
  inRanges CharTable.alphabeticMarkRanges c.toNat && !inRanges otherStartRanges c.toNat

/-- The characters of names beyond ASCII. -/
lemma isNamePart_cases (hascii : ¬ c.toNat < 0x80) (h : isNamePart c = true) :
    inRanges CharTable.letterRanges c.toNat = true
      ∨ inRanges CharTable.alphabeticMarkRanges c.toNat = true
      ∨ inRanges CharTable.digitRanges c.toNat = true
      ∨ inRanges CharTable.otherNumberRanges c.toNat = true := by
  rw [isNamePart, isAlphanumeric, isAlphabetic, isNumeric, if_neg hascii, if_neg hascii,
    decide_eq_of_not_ascii hascii (by decide), decide_eq_of_not_ascii hascii (by decide)] at h
  simp only [Bool.or_eq_true, Bool.or_false] at h
  obtain (hletter | hmark) | (hdigit | hother) | hnumber := h
  · exact .inl hletter
  · exact .inr (.inl hmark)
  · exact .inr (.inr (.inl hdigit))
  · exact .inr (.inr (.inr hother))
  · exact .inl (inRanges_of_rangesWithin (by decide +kernel) hnumber)

lemma isIdentifierPart_of_not_ascii (hascii : ¬ c.toNat < 0x80) :
    isIdentifierPart c = (isIdentifierStart c || inRanges CharTable.markRanges c.toNat
      || inRanges CharTable.digitRanges c.toNat || inRanges otherPartRanges c.toNat) := by
  rw [isIdentifierPart, if_neg hascii]
  rfl

lemma isIdentifierStart_of_not_ascii (hascii : ¬ c.toNat < 0x80) :
    isIdentifierStart c = ((inRanges CharTable.letterRanges c.toNat && c.toNat != 0x2E2F)
      || inRanges otherStartRanges c.toNat) := by
  rw [isIdentifierStart, if_neg hascii, isLetter, if_neg hascii]
  rfl

/-- No identifier holds a stray character. -/
lemma isIdentifierPart_of_isStray (h : isStray c = true) : isIdentifierPart c = false := by
  simp only [isStray, Bool.or_eq_true, Bool.and_eq_true, decide_eq_true_eq, Bool.not_eq_true'] at h
  obtain (rfl | hcircled) | ⟨hnumber, hother⟩ := h
  · decide +kernel
  · have hnot {rs : List (Nat × Nat)} (hrs : rs ∈ partTables) : inRanges rs c.toNat = false :=
      inRanges_of_isApartFrom tables_apart.1 hrs hcircled
    have hle : 0x80 ≤ c.toNat := le_of_inRanges (by decide) hcircled
    rw [isIdentifierPart_of_not_ascii (by omega), isIdentifierStart_of_not_ascii (by omega),
      hnot (by simp [partTables]), hnot (by simp [partTables]), hnot (by simp [partTables]),
      hnot (by simp [partTables]), hnot (by simp [partTables])]
    rfl
  · have hnot {rs : List (Nat × Nat)} (hrs : rs ∈ partTables.dropLast) :
        inRanges rs c.toNat = false :=
      inRanges_of_isApartFrom tables_apart.2.1 hrs hnumber
    have hle : 0x80 ≤ c.toNat := le_of_inRanges (by decide +kernel) hnumber
    rw [isIdentifierPart_of_not_ascii (by omega), isIdentifierStart_of_not_ascii (by omega),
      hnot (by simp [partTables]), hnot (by simp [partTables]), hnot (by simp [partTables]),
      hnot (by simp [partTables]), hother]
    rfl

lemma isStray_of_ascii (hascii : c.toNat < 0x80) : isStray c = false := by
  rw [← Bool.not_eq_true]
  intro h
  simp only [isStray, Bool.or_eq_true, Bool.and_eq_true, decide_eq_true_eq] at h
  obtain (rfl | hcircled) | ⟨hnumber, -⟩ := h
  · exact absurd hascii (by decide)
  · have hle : 0x80 ≤ c.toNat := le_of_inRanges (by decide) hcircled
    omega
  · have hle : 0x80 ≤ c.toNat := le_of_inRanges (by decide +kernel) hnumber
    omega

/-- A name part belongs to identifiers unless it is a stray one. -/
lemma isIdentifierPart_iff (h : isNamePart c = true) :
    isIdentifierPart c = true ↔ isStray c = false := by
  refine ⟨fun hpart => ?_, fun hstray => ?_⟩
  · rw [← Bool.not_eq_true]
    intro hstray
    rw [isIdentifierPart_of_isStray hstray] at hpart
    cases hpart
  by_cases hascii : c.toNat < 0x80
  · rw [isIdentifierPart, if_pos hascii]
    rw [isNamePart, isAlphanumeric, isAlphabetic, isNumeric, if_pos hascii, if_pos hascii] at h
    exact h
  simp only [isStray, Bool.or_eq_false_iff, Bool.and_eq_false_iff, decide_eq_false_iff_not,
    Bool.not_eq_false'] at hstray
  obtain ⟨⟨htilde, hcircled⟩, hother⟩ := hstray
  rw [isIdentifierPart_of_not_ascii hascii, isIdentifierStart_of_not_ascii hascii]
  simp only [Bool.or_eq_true, Bool.and_eq_true, bne_iff_ne]
  obtain hletter | hmark | hdigit | hnumber := isNamePart_cases hascii h
  · have hcode : c.toNat ≠ 0x2E2F := fun hcode => htilde (Char.toNat_inj.mp hcode)
    exact .inl (.inl (.inl (.inl ⟨hletter, hcode⟩)))
  · obtain hmark | hcircle := inRanges_alphabeticMarkRanges hmark
    · exact .inl (.inl (.inr hmark))
    · rw [hcircle] at hcircled
      cases hcircled
  · exact .inl (.inr hdigit)
  · exact .inr (hother.resolve_left (by simp [hnumber]))

/-- A character that starts names starts identifiers unless it is a stray one or a mark. -/
lemma isIdentifierStart_iff (h : isNameStart c = true) :
    isIdentifierStart c = true ↔ isStray c = false ∧ isLeadingMark c = false := by
  by_cases hascii : c.toNat < 0x80
  · have hmark : isLeadingMark c = false := by
      rw [← Bool.not_eq_true, isLeadingMark, Bool.and_eq_true]
      rintro ⟨hmark, -⟩
      have hle : 0x80 ≤ c.toNat := le_of_inRanges (by decide +kernel) hmark
      omega
    rw [isNameStart, isAlphabetic, if_pos hascii] at h
    rw [isIdentifierStart, if_pos hascii]
    exact iff_of_true h ⟨isStray_of_ascii hascii, hmark⟩
  have hpart : isNamePart c = true := by
    rw [isNameStart, Bool.or_eq_true, Bool.or_eq_true] at h
    rw [isNamePart, isAlphanumeric]
    simp only [Bool.or_eq_true]
    tauto
  have halphabetic : inRanges CharTable.letterRanges c.toNat = true
      ∨ inRanges CharTable.alphabeticMarkRanges c.toNat = true := by
    rw [isNameStart, isAlphabetic, if_neg hascii, decide_eq_of_not_ascii hascii (by decide),
      decide_eq_of_not_ascii hascii (by decide)] at h
    simpa using h
  refine ⟨fun hstart => ⟨(isIdentifierPart_iff hpart).mp (identifierStart_classes hstart).1, ?_⟩, ?_⟩
  · rw [← Bool.not_eq_true, isLeadingMark, Bool.and_eq_true, Bool.not_eq_true']
    rintro ⟨hmark, hother⟩
    have hletter : inRanges CharTable.letterRanges c.toNat = false :=
      inRanges_of_isApartFrom tables_apart.2.2 List.mem_cons_self hmark
    rw [isIdentifierStart_of_not_ascii hascii, hletter, hother] at hstart
    cases hstart
  · rintro ⟨hstray, hleading⟩
    rw [isIdentifierStart_of_not_ascii hascii, Bool.or_eq_true, Bool.and_eq_true, bne_iff_ne]
    obtain hletter | hmark := halphabetic
    · refine .inl ⟨hletter, fun hcode => ?_⟩
      rw [isStray, decide_eq_true (Char.toNat_inj.mp hcode)] at hstray
      cases hstray
    · rw [isLeadingMark, hmark, Bool.true_and, Bool.not_eq_false'] at hleading
      exact .inr hleading

/-! ### Export names -/

/-- **An export name is an identifier unless it holds a stray character or starts with a mark.** -/
theorem isIdentifier_iff_of_isExportName (h : isExportName name = true) :
    IsIdentifier name ↔ (∀ c ∈ name, isStray c = false) ∧ ∀ c ∈ name.head?, isLeadingMark c = false := by
  obtain ⟨⟨c, t, rfl, hc, ht⟩, -⟩ := isExportName_iff.mp h
  have hparts : (∀ d ∈ t, isIdentifierPart d = true) ↔ ∀ d ∈ t, isStray d = false :=
    forall₂_congr fun d hd => isIdentifierPart_iff (ht d hd)
  have hidentifier : IsIdentifier (c :: t)
      ↔ isIdentifierStart c = true ∧ ∀ d ∈ t, isIdentifierPart d = true := by
    refine ⟨?_, fun ⟨hstart, hpart⟩ => ⟨c, t, rfl, hstart, hpart⟩⟩
    rintro ⟨c', t', heq, hstart, hpart⟩
    cases heq
    exact ⟨hstart, hpart⟩
  rw [hidentifier, hparts, isIdentifierStart_iff hc, List.forall_mem_cons]
  simp only [List.head?_cons, Option.mem_some_iff, forall_eq']
  tauto

/-- No export name is a word that modules reserve. -/
lemma reserved_of_isExportName {name : String} (h : isExportName name.toList = true)
    (budget : Nat) : (Context.top .plainModule budget).reserved name = false := by
  have hreserved := (isExportName_iff.mp h).2
  rw [String.ofList_toList] at hreserved
  have hne {w : String} (hw : w ∈ reservedWords) : name ≠ w := fun heq => hreserved (heq ▸ hw)
  have hlist {ws : List String} (hws : ∀ w ∈ ws, w ∈ reservedWords) : ws.contains name = false := by
    rw [← Bool.not_eq_true, List.contains_iff_mem]
    exact fun hmem => hreserved (hws name hmem)
  rw [Context.reserved, if_neg (hne (by decide)), if_neg (hne (by decide)),
    if_neg (hne (by decide)), decide_eq_false (hne (by decide)), hlist (by decide),
    hlist (by decide)]
  rfl

end SvelteStories

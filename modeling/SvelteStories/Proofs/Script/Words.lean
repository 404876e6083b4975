/-
Words of scripts:

* `identifierStart_classes`: a character that starts identifiers goes on with them, and starts nothing
  else;
* `readWordFrom_append`: a word goes on up to a character that belongs to no identifier;
* `IsIdentifier`, `readToken_identifier`: identifiers are read as words, whatever stands behind them.
-/
import Mathlib.Tactic.Common
import SvelteStories.Proofs.Script.Gaps
import SvelteStories.Proofs.Text.CharRanges

namespace SvelteStories.Script

variable {w rest : List Char} {c d : Char}

/-! ### Characters of identifiers -/

/-- The blanks of scripts. -/
def blankRanges : List (Nat × Nat) :=
  [(9, 13), (0x20, 0x20), (0x85, 0x85), (0xA0, 0xA0), (0x1680, 0x1680), (0x2000, 0x200A),
   (0x2028, 0x2029), (0x202F, 0x202F), (0x205F, 0x205F), (0x3000, 0x3000), (0xFEFF, 0xFEFF)]

lemma inRanges_of_isScriptBlank (h : isScriptBlank c = true) :
    inRanges blankRanges c.toNat = true := by
  rw [isScriptBlank, isBlank] at h
  simp only [blankRanges, inRanges, List.any_cons, List.any_nil, Bool.or_eq_true, Bool.and_eq_true,
    decide_eq_true_eq]
  split at h <;> simp only [Bool.or_eq_true, Bool.and_eq_true, decide_eq_true_eq] at h <;> omega

/-- The characters besides letters that identifiers may start with. -/
def otherStartRanges : List (Nat × Nat) :=
  [(0x1885, 0x1886), (0x2118, 0x2118), (0x212E, 0x212E), (0x309B, 0x309C)]

/-- Identifiers start with letters, `_`, `$` and a few other characters. -/
lemma isIdentifierStart_cases (h : isIdentifierStart c = true) :
    (isAsciiLetter c = true ∨ c = '_' ∨ c = '$')
      ∨ (0x80 ≤ c.toNat ∧ (inRanges CharTable.letterRanges c.toNat = true
        ∨ inRanges otherStartRanges c.toNat = true)) := by
  rw [isIdentifierStart] at h
  split at h
  · simp only [Bool.or_eq_true, decide_eq_true_eq, or_assoc] at h
    exact .inl h
  · rename_i hascii
    rw [isLetter, if_neg hascii, Bool.or_eq_true, Bool.and_eq_true] at h
    exact .inr ⟨Nat.not_lt.mp hascii, h.imp_left And.left⟩

/-- No identifier starts with a blank. -/
lemma isScriptBlank_of_identifierStart (h : isIdentifierStart c = true) :
    isScriptBlank c = false := by
  rw [← Bool.not_eq_true]
  intro hblank
  have hrange := inRanges_of_isScriptBlank hblank
  obtain (hletter | rfl | rfl) | ⟨-, hletter | hother⟩ := isIdentifierStart_cases h
  · simp only [isAsciiLetter, Bool.or_eq_true, Bool.and_eq_true, decide_eq_true_eq] at hletter
    obtain ⟨r, hr, hle, hge⟩ := inRanges_iff.mp hrange
    have hasciiBlank : ∀ r ∈ blankRanges, r.2 < 65 ∨ 122 < r.1 := by decide
    have := hasciiBlank r hr
    omega
  · exact absurd hblank (by decide)
  · exact absurd hblank (by decide)
  · rw [inRanges_of_rangesApart (by decide) (by decide +kernel) (by decide +kernel) hrange]
      at hletter
    cases hletter
  · rw [inRanges_of_rangesApart (by decide) (by decide) (by decide) hrange] at hother
    cases hother

/-- A character that starts identifiers goes on with them, and starts nothing else. -/
lemma identifierStart_classes (h : isIdentifierStart c = true) :
    isIdentifierPart c = true ∧ StartsToken c ∧ isAsciiDigit c = false
      ∧ c ≠ '"' ∧ c ≠ '\'' ∧ c ≠ '.' := by
  have hne {d : Char} (hd : isIdentifierStart d = false) : c ≠ d := by
    rintro rfl
    rw [hd] at h
    cases h
  refine ⟨?_, ⟨isScriptBlank_of_identifierStart h, hne (by decide), hne (by decide),
    hne (by decide)⟩, ?_, hne (by decide), hne (by decide), hne (by decide)⟩
  · rw [isIdentifierPart]
    split
    · rename_i hascii
      rw [isIdentifierStart, if_pos hascii] at h
      simp only [Bool.or_eq_true] at h ⊢
      simp only [isAsciiAlphanumeric, Bool.or_eq_true]
      tauto
    · rw [h, Bool.true_or, Bool.true_or, Bool.true_or]
  · rw [← Bool.not_eq_true, isAsciiDigit, Bool.and_eq_true, decide_eq_true_eq, decide_eq_true_eq]
    intro hdigit
    obtain (hletter | rfl | rfl) | ⟨hascii, -⟩ := isIdentifierStart_cases h
    · simp only [isAsciiLetter, Bool.or_eq_true, Bool.and_eq_true, decide_eq_true_eq] at hletter
      omega
    · exact absurd hdigit (by decide)
    · exact absurd hdigit (by decide)
    · omega

/-! ### Words -/

lemma readWordFrom_part (hc : isIdentifierPart c = true) (fuel offset : Nat) (run : WordRun) :
    readWordFrom (fuel + 1) offset { run with rest := c :: w }
      = readWordFrom fuel (offset + c.utf8Size) { run with value := c :: run.value, rest := w } := by
  have hslash : c ≠ '\\' := by
    rintro rfl
    exact absurd hc (by decide)
  rw [readWordFrom]
  split <;> simp_all

lemma readWordFrom_stop (hd : isIdentifierPart d = false) (hslash : d ≠ '\\') (fuel offset : Nat)
    (run : WordRun) :
    readWordFrom fuel offset { run with rest := d :: rest } = { run with rest := d :: rest } := by
  cases fuel with
  | zero => rfl
  | succ fuel =>
      rw [readWordFrom]
      split <;> simp_all

/-- The characters of a name are read up to one that belongs to no name. -/
lemma readWordFrom_append (rest : List Char) (hw : ∀ c ∈ w, isIdentifierPart c = true)
    (hd : isIdentifierPart d = false) (hslash : d ≠ '\\') (fuel : Nat) (hfuel : w.length < fuel)
    (offset : Nat) (run : WordRun) :
    readWordFrom fuel offset { run with rest := w ++ d :: rest }
      = { run with value := w.reverse ++ run.value, rest := d :: rest } := by
  induction w generalizing fuel offset run with
  | nil => exact readWordFrom_stop hd hslash fuel offset run
  | cons c w ih =>
      obtain ⟨fuel, rfl⟩ : ∃ m, fuel = m + 1 := ⟨fuel - 1, by omega⟩
      rw [List.length_cons] at hfuel
      rw [List.cons_append, readWordFrom_part (hw c List.mem_cons_self),
        ih (fun c' hc' => hw c' (List.mem_cons_of_mem c hc')) fuel (by omega) _
          { run with value := c :: run.value }]
      simp

/-! ### Identifiers -/

/-- A text that starts like an identifier and goes on like one. -/
def IsIdentifier (w : List Char) : Prop :=
  ∃ c t, w = c :: t ∧ isIdentifierStart c = true ∧ ∀ d ∈ t, isIdentifierPart d = true

lemma IsIdentifier.part (h : IsIdentifier w) : ∀ c ∈ w, isIdentifierPart c = true := by
  obtain ⟨c, t, rfl, hc, ht⟩ := h
  exact List.forall_mem_cons.mpr ⟨(identifierStart_classes hc).1, ht⟩

/-- Letters of ASCII make an identifier. -/
lemma isIdentifier_of_letters (hne : w ≠ []) (hw : ∀ c ∈ w, isAsciiLetter c = true) :
    IsIdentifier w := by
  have hstart : ∀ c ∈ w, isIdentifierStart c = true := by
    intro c hc
    have hletter := hw c hc
    have hascii : c.toNat < 0x80 := by
      simp only [isAsciiLetter, Bool.or_eq_true, Bool.and_eq_true, decide_eq_true_eq] at hletter
      omega
    rw [isIdentifierStart, if_pos hascii, hletter]
    rfl
  obtain ⟨c, t, rfl⟩ := List.exists_cons_of_ne_nil hne
  obtain ⟨hc, ht⟩ := List.forall_mem_cons.mp hstart
  exact ⟨c, t, rfl, hc, fun d hd => (identifierStart_classes (ht d hd)).1⟩

/-- An identifier is read as a word, up to a character that belongs to none. -/
lemma readToken_identifier (h : IsIdentifier w) (hd : isIdentifierPart d = false)
    (hslash : d ≠ '\\') (mode : LexMode) (rest : List Char) :
    readToken mode (w ++ d :: rest) = ⟨.word (String.ofList w), d :: rest, []⟩ := by
  have hpart := h.part
  obtain ⟨c, t, rfl, hc, -⟩ := h
  obtain ⟨-, -, hdigit, hquote, hquote', hdot⟩ := identifierStart_classes hc
  have hrun : readWordFrom (c :: t ++ d :: rest).length 0 ⟨[], false, [], none, c :: t ++ d :: rest⟩
      = ⟨(c :: t).reverse, false, [], none, d :: rest⟩ := by
    have happend := readWordFrom_append (w := c :: t) rest hpart hd hslash
      (c :: t ++ d :: rest).length (by simp) 0 ⟨[], false, [], none, []⟩
    rwa [List.append_nil] at happend
  have hword : readWord mode.reserved (c :: t ++ d :: rest)
      = ⟨.word (String.ofList (c :: t)), d :: rest, []⟩ := by
    rw [readWord, hrun]
    simp only [List.map_nil, Bool.false_and, Bool.false_eq_true, if_false, List.reverse_reverse]
  rw [List.cons_append] at hword ⊢
  rw [readToken, if_neg (by simp [hquote, hquote']), if_neg (by simp [hdigit, hdot]),
    if_pos (by simp [hc]), hword]

end SvelteStories.Script

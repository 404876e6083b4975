/-
Trimming:

* `exists_trimStart`, `exists_trimEnd`: what is cut off a text at either end;
* `trimStart_eq_self_iff`, `trimEnd_eq_self_iff`, `trim_eq_self_iff`: texts of which nothing is cut
  off;
* `slice?_trimmedSpan`: a narrowed span holds the trimmed text.
-/
import Mathlib.Data.List.TakeWhile
import SvelteStories.Proofs.Text.Boundary

namespace SvelteStories

variable {t u : List Char} {c : Char}

/-! ### Either end -/

lemma exists_trimStart (t : List Char) : ∃ blanks, t = blanks ++ trimStart t :=
  ⟨t.takeWhile isBlank, List.takeWhile_append_dropWhile.symm⟩

lemma exists_trimEnd (t : List Char) : ∃ blanks, t = trimEnd t ++ blanks := by
  obtain ⟨blanks, h⟩ := exists_trimStart t.reverse
  refine ⟨blanks.reverse, ?_⟩
  rw [trimEnd, ← List.reverse_append]
  exact (List.reverse_eq_iff.mp h)

/-- Nothing is cut off a text that begins with no blank. -/
lemma trimStart_eq_self_iff :
    trimStart t = t ↔ ∀ c, t.head? = some c → isBlank c = false := by
  rw [trimStart, List.dropWhile_eq_self_iff]
  cases t <;> simp

/-- Nothing is cut off a text that ends in no blank. -/
lemma trimEnd_eq_self_iff : trimEnd t = t ↔ ∀ c, t.getLast? = some c → isBlank c = false := by
  rw [trimEnd, List.reverse_eq_iff, ← List.head?_reverse]
  exact trimStart_eq_self_iff

lemma trimStart_cons (h : isBlank c = true) : trimStart (c :: t) = trimStart t := by
  simp [trimStart, h]

lemma trimEnd_append (hu : trimEnd u = u) (ht : trimEnd t = t) : trimEnd (u ++ t) = u ++ t := by
  rw [trimEnd_eq_self_iff] at hu ht ⊢
  intro c hc
  cases hlast : t.getLast? with
  | none =>
      rw [List.getLast?_append, hlast, Option.none_or] at hc
      exact hu c hc
  | some d =>
      rw [List.getLast?_append, hlast, Option.some_or] at hc
      exact ht c (hlast.trans hc)

/-- Nothing is cut off a trimmed text, at neither end. -/
lemma trim_eq_self_iff : trim t = t ↔ trimStart t = t ∧ trimEnd t = t := by
  constructor
  · intro h
    obtain ⟨blanks, hstart⟩ := exists_trimStart t
    obtain ⟨blanks', hend⟩ := exists_trimEnd (trimStart t)
    have hlength := congrArg List.length hstart
    have hlength' := congrArg List.length hend
    have htrim := congrArg List.length h
    simp only [trim, List.length_append] at hlength hlength' htrim
    have hblanks : blanks = [] := List.eq_nil_of_length_eq_zero (by omega)
    rw [hblanks, List.nil_append] at hstart
    rw [trim, ← hstart] at h
    exact ⟨hstart.symm, h⟩
  · rintro ⟨hstart, hend⟩
    rw [trim, hstart, hend]

/-! ### Places -/

lemma trimmedSpan_eq_self {s : Span} (h : trim t = t) (ht : t ≠ []) : trimmedSpan t s = s := by
  obtain ⟨hstart, hend⟩ := trim_eq_self_iff.mp h
  cases t with
  | nil => exact absurd rfl ht
  | cons c t => simp [trimmedSpan, hstart, hend]

/-- Of a trimmed text behind a blank, the blank is cut off. -/
lemma trimmedSpan_cons {s : Span} (hc : isBlank c = true) (h : trim t = t) (ht : t ≠ []) :
    trimmedSpan (c :: t) s = ⟨s.start + byteLength [c], s.stop⟩ := by
  obtain ⟨hstart, hend⟩ := trim_eq_self_iff.mp h
  cases t with
  | nil => exact absurd rfl ht
  | cons d t => simp [trimmedSpan, trimStart_cons hc, hstart, hend]

/-- Where a text is narrowed to is told by the text alone. -/
lemma exists_trimmedSpan_eq (t : List Char) :
    ∃ k, k + byteLength (trim t) ≤ byteLength t ∧ ∀ offset,
      trimmedSpan t ⟨offset, offset + byteLength t⟩
        = ⟨offset + k, offset + k + byteLength (trim t)⟩ := by
  obtain ⟨blanks, hstart⟩ := exists_trimStart t
  obtain ⟨blanks', hend⟩ := exists_trimEnd (trimStart t)
  have ht := congrArg byteLength hstart
  have hk := congrArg byteLength hend
  simp only [byteLength_append] at ht hk
  cases hkept : trimStart t with
  | nil => exact ⟨0, by simp [trim, hkept, trimEnd], fun offset => by
      simp [trimmedSpan, trim, hkept, trimEnd]⟩
  | cons c kept =>
      rw [hkept] at ht hk
      refine ⟨byteLength blanks, by rw [trim, hkept]; omega, fun offset => ?_⟩
      simp only [trimmedSpan, trim, hkept, Span.mk.injEq]
      omega

/-- The span of a text narrowed to what is left of it holds the trimmed text. -/
lemma slice?_trimmedSpan (before behind : List Char) :
    slice? (before ++ (t ++ behind))
      (trimmedSpan t ⟨byteLength before, byteLength before + byteLength t⟩) = some (trim t) := by
  obtain ⟨blanks, hstart⟩ := exists_trimStart t
  obtain ⟨blanks', hend⟩ := exists_trimEnd (trimStart t)
  rw [slice?_eq_some_iff]
  cases hkept : trimStart t with
  | nil =>
      refine ⟨before, t ++ behind, by simp [trim, hkept, trimEnd], ?_⟩
      simp [trimmedSpan, trim, hkept, trimEnd]
  | cons c kept =>
      have ht := congrArg byteLength hstart
      have hk := congrArg byteLength hend
      simp only [byteLength_append] at ht hk
      refine ⟨before ++ blanks, blanks' ++ behind, ?_, ?_, ?_⟩
      · simp only [trim, List.append_assoc, List.append_cancel_left_eq]
        rw [← List.append_assoc (trimEnd _), ← hend, ← List.append_assoc, ← hstart]
      · simp only [trimmedSpan, hkept, byteLength_append]
        rw [hkept] at ht
        omega
      · simp only [trimmedSpan, trim, hkept]
        rw [hkept] at ht hk
        omega

end SvelteStories

/-
Cutting a text at byte offsets:

* `Boundary`: an offset that stands between two characters or at an end of the text;
* `splitAtByte_eq_some_iff`: cutting at an offset succeeds exactly at a boundary, and gives the two
  parts that meet there;
* `slice?_eq_some_iff`: what stands under a span, read as a decomposition of the text.

All statements about offsets are reduced to decompositions of the list of characters here, so that
later proofs never look at `splitAtByte` again.
-/
import Mathlib.Tactic.Common
import SvelteStories.Text.Span

namespace SvelteStories

/-- Whether all characters of a text have a property is found out from the text. The priority keeps
searches from going through all characters there are. -/
instance (priority := 2000) decidableForallMem (t : List Char) (p : Char → Prop) [DecidablePred p] :
    Decidable (∀ c ∈ t, p c) :=
  List.decidableBAll p t

/-! ### Lengths in bytes -/

@[simp] lemma byteLength_nil : byteLength [] = 0 := rfl

@[simp] lemma byteLength_cons (c : Char) (t : List Char) :
    byteLength (c :: t) = c.utf8Size + byteLength t := rfl

@[simp] lemma byteLength_append (s t : List Char) :
    byteLength (s ++ t) = byteLength s + byteLength t := by
  induction s with
  | nil => simp
  | cons c s ih => simp [ih, Nat.add_assoc]

/-- Only the empty text takes no bytes. -/
lemma byteLength_eq_zero_iff {t : List Char} : byteLength t = 0 ↔ t = [] := by
  cases t with
  | nil => simp
  | cons c t =>
      have := c.utf8Size_pos
      simp only [byteLength_cons, reduceCtorEq, iff_false]
      omega

/-- Of two prefixes of one text the one with fewer bytes is a prefix of the other. -/
lemma exists_append_of_byteLength_le {s s' t t' : List Char} (h : s ++ t = s' ++ t')
    (hlen : byteLength s ≤ byteLength s') : ∃ m, s' = s ++ m ∧ t = m ++ t' := by
  rcases List.append_eq_append_iff.mp h with ⟨m, rfl, rfl⟩ | ⟨m, rfl, rfl⟩
  · exact ⟨m, rfl, rfl⟩
  · have hm : m = [] := byteLength_eq_zero_iff.mp (by simp only [byteLength_append] at hlen; omega)
    subst hm
    exact ⟨[], by simp, by simp⟩

/-! ### Boundaries -/

/-- An offset that stands between two characters of a text or at one of its ends. -/
def Boundary (t : List Char) (offset : Nat) : Prop :=
  ∃ before behind, t = before ++ behind ∧ byteLength before = offset

lemma Boundary.le {t : List Char} {offset : Nat} (h : Boundary t offset) :
    offset ≤ byteLength t := by
  obtain ⟨before, behind, rfl, rfl⟩ := h
  simp

lemma splitAtByte_append (before behind : List Char) :
    splitAtByte (byteLength before) (before ++ behind) = some (before, behind) := by
  induction before with
  | nil => simp [splitAtByte]
  | cons c before ih =>
      obtain ⟨n, hn⟩ : ∃ n, c.utf8Size = n + 1 := ⟨c.utf8Size - 1, by have := c.utf8Size_pos; omega⟩
      have hrest : n + 1 + byteLength before = n + byteLength before + 1 := by omega
      have hle : c.utf8Size ≤ n + byteLength before + 1 := by omega
      have hsub : n + byteLength before + 1 - c.utf8Size = byteLength before := by omega
      rw [byteLength_cons, hn, hrest, List.cons_append, splitAtByte, if_pos hle, hsub, ih]
      rfl

/-- Cutting at an offset gives the two parts of the text that meet there. -/
lemma splitAtByte_eq_some_iff {t before behind : List Char} {offset : Nat} :
    splitAtByte offset t = some (before, behind)
      ↔ t = before ++ behind ∧ byteLength before = offset := by
  constructor
  · intro h
    induction t generalizing offset before with
    | nil =>
        cases offset with
        | zero =>
            simp only [splitAtByte, Option.some.injEq, Prod.mk.injEq] at h
            obtain ⟨rfl, rfl⟩ := h
            simp
        | succ n => simp [splitAtByte] at h
    | cons c t ih =>
        cases offset with
        | zero =>
            simp only [splitAtByte, Option.some.injEq, Prod.mk.injEq] at h
            obtain ⟨rfl, rfl⟩ := h
            simp
        | succ n =>
            rw [splitAtByte] at h
            split at h
            · rename_i hle
              obtain ⟨⟨before', behind'⟩, hsplit, heq⟩ := Option.map_eq_some_iff.mp h
              simp only [Prod.mk.injEq] at heq
              obtain ⟨rfl, rfl⟩ := heq
              obtain ⟨rfl, hlen⟩ := ih hsplit
              exact ⟨rfl, by rw [byteLength_cons]; omega⟩
            · simp at h
  · rintro ⟨rfl, rfl⟩
    exact splitAtByte_append before behind

/-- The test for boundaries. -/
lemma isBoundary_iff {t : List Char} {offset : Nat} :
    isBoundary t offset = true ↔ Boundary t offset := by
  rw [isBoundary, Option.isSome_iff_exists]
  constructor
  · rintro ⟨⟨before, behind⟩, h⟩
    exact ⟨before, behind, splitAtByte_eq_some_iff.mp h⟩
  · rintro ⟨before, behind, h⟩
    exact ⟨(before, behind), splitAtByte_eq_some_iff.mpr h⟩

instance (t : List Char) (offset : Nat) : Decidable (Boundary t offset) :=
  decidable_of_iff _ isBoundary_iff

/-- The text between two boundaries stands between what is before the first and what is behind the
second. -/
lemma Boundary.between {t : List Char} {a b : Nat} (ha : Boundary t a) (hb : Boundary t b)
    (hab : a ≤ b) :
    ∃ before inside behind, t = before ++ (inside ++ behind) ∧ byteLength before = a
      ∧ byteLength (before ++ inside) = b := by
  obtain ⟨s, u, rfl, rfl⟩ := ha
  obtain ⟨s', u', h, rfl⟩ := hb
  obtain ⟨inside, rfl, rfl⟩ := exists_append_of_byteLength_le h hab
  exact ⟨s, inside, u', rfl, rfl, rfl⟩

/-! ### Slices -/

lemma slice?_append (before inside behind : List Char) :
    slice? (before ++ (inside ++ behind))
      ⟨byteLength before, byteLength before + byteLength inside⟩ = some inside := by
  rw [slice?, if_pos (Nat.le_add_right _ _)]
  simp only [splitAtByte_append, Nat.add_sub_cancel_left, Option.map_some]

/-- A slice is what the text reads between the two ends of the span. -/
lemma slice?_eq_some_iff {t inside : List Char} {s : Span} :
    slice? t s = some inside
      ↔ ∃ before behind, t = before ++ (inside ++ behind) ∧ byteLength before = s.start
        ∧ s.stop = s.start + byteLength inside := by
  constructor
  · intro h
    rw [slice?] at h
    split at h
    · rename_i hle
      split at h
      · rename_i before rest hstart
        obtain ⟨⟨inside', behind⟩, hstop, heq⟩ := Option.map_eq_some_iff.mp h
        obtain ⟨rfl, hbefore⟩ := splitAtByte_eq_some_iff.mp hstart
        obtain ⟨rfl, hinside⟩ := splitAtByte_eq_some_iff.mp hstop
        simp only at heq
        subst heq
        exact ⟨before, behind, rfl, hbefore, by omega⟩
      · simp at h
    · simp at h
  · rintro ⟨before, behind, rfl, hstart, hstop⟩
    obtain ⟨start, stop⟩ := s
    simp only at hstart hstop
    subst hstart hstop
    exact slice?_append before inside behind

/-- A slice in two pieces is cut where they meet. -/
lemma slice?_of_append {t u v : List Char} {s : Span} (h : slice? t s = some (u ++ v)) :
    slice? t ⟨s.start, s.start + byteLength u⟩ = some u
      ∧ slice? t ⟨s.start + byteLength u, s.stop⟩ = some v := by
  obtain ⟨before, behind, rfl, hstart, hstop⟩ := slice?_eq_some_iff.mp h
  rw [byteLength_append] at hstop
  constructor
  · exact slice?_eq_some_iff.mpr ⟨before, v ++ behind, by rw [List.append_assoc], hstart, rfl⟩
  · refine slice?_eq_some_iff.mpr ⟨before ++ u, behind, by simp, ?_, ?_⟩
    · rw [byteLength_append, hstart]
    · dsimp only
      omega

/-- Between two boundaries in order there is a slice. -/
lemma exists_slice? {t : List Char} {a b : Nat} (ha : Boundary t a) (hb : Boundary t b)
    (hab : a ≤ b) : ∃ inside, slice? t ⟨a, b⟩ = some inside := by
  obtain ⟨before, inside, behind, rfl, rfl, rfl⟩ := ha.between hb hab
  exact ⟨inside, slice?_eq_some_iff.mpr ⟨before, behind, rfl, rfl, byteLength_append _ _⟩⟩

end SvelteStories

/-
Ranges of bytes that contain one another or have none in common:

* `Span.contains_iff`, `Span.contains_trans`: containment, told from the ends;
* `Span.Apart`: two ranges that follow one another; what they contain does so too.
-/
import Mathlib.Tactic.Common
import SvelteStories.Text.Span

namespace SvelteStories

/-- Two ranges follow one another, in either order. -/
def Span.Apart (a b : Span) : Prop :=
  a.stop ≤ b.start ∨ b.stop ≤ a.start

instance (a b : Span) : Decidable (a.Apart b) := by
  unfold Span.Apart
  infer_instance

lemma Span.Apart.symm {a b : Span} (h : a.Apart b) : b.Apart a := Or.symm h

lemma Span.contains_iff {a b : Span} :
    a.contains b = true ↔ a.start ≤ b.start ∧ b.stop ≤ a.stop := by
  simp [contains]

lemma Span.contains_refl (a : Span) : a.contains a = true := by
  simp [contains]

lemma Span.contains_trans {a b c : Span} (h : a.contains b = true) (h' : b.contains c = true) :
    a.contains c = true := by
  rw [contains_iff] at h h' ⊢
  omega

/-- What two ranges without a common byte contain has none either. -/
lemma Span.Apart.mono {a b a' b' : Span} (h : a.Apart b) (ha : a.contains a' = true)
    (hb : b.contains b' = true) : a'.Apart b' := by
  rw [contains_iff] at ha hb
  rw [Apart] at h ⊢
  omega

end SvelteStories

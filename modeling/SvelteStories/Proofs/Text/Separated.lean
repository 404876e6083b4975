/-
Words with one separator between each two:

* `IsSeparated`: no word is empty or holds the separator, so no separator stands at an end of the text
  or next to another one;
* `words_around_separator`: what stands before a separator of such a text and behind it;
* `isSeparated_intercalate`: putting such words together makes such a text.
-/
import Mathlib.Tactic.Common

namespace SvelteStories

variable {d : Char} {a b t : List Char} {ws : List (List Char)}

/-- The text `t` is made of the words `ws` with one `d` between each two. -/
structure IsSeparated (d : Char) (ws : List (List Char)) (t : List Char) : Prop where
  /-- The words are put together with it. -/
  joined : t = [d].intercalate ws
  /-- No word is empty or holds it. -/
  words : ∀ w ∈ ws, w ≠ [] ∧ d ∉ w
  /-- The text does not begin with it. -/
  head : t.head? ≠ some d
  /-- The text does not end in it. -/
  last : t.getLast? ≠ some d
  /-- No two of it stand side by side. -/
  single : ¬ [d, d] <:+: t

/-- Before a separator and behind it there is text, which does not go on with a separator. -/
lemma words_around_separator (hws : ∀ w ∈ ws, w ≠ [] ∧ d ∉ w)
    (h : [d].intercalate ws = a ++ d :: b) :
    (a ≠ [] ∧ a.getLast? ≠ some d) ∧ b ≠ [] ∧ b.head? ≠ some d := by
  have hne : ws ≠ [] := by
    intro hnil
    rw [hnil, List.intercalate_nil] at h
    simp at h
  have hsplit : [] ∉ (a ++ d :: b).splitOn d := by
    rw [← h, List.splitOn_intercalate d (fun w hw => (hws w hw).2) hne]
    intro hmem
    exact (hws [] hmem).1 rfl
  rw [List.splitOn_append_cons_self, List.mem_append, not_or] at hsplit
  obtain ⟨ha, hb⟩ := hsplit
  refine ⟨⟨?_, fun hlast => ?_⟩, ?_, fun hhead => ?_⟩
  · rintro rfl
    simp at ha
  · obtain ⟨a, rfl⟩ := List.getLast?_eq_some_iff.mp hlast
    rw [List.splitOn_append_cons_self] at ha
    simp at ha
  · rintro rfl
    simp at hb
  · obtain ⟨b, rfl⟩ := List.head?_eq_some_iff.mp hhead
    have hcons := List.splitOn_append_cons_self (a := d) [] b
    rw [List.nil_append] at hcons
    simp [hcons] at hb

/-- Words that are not empty and do not hold a separator are separated by it. -/
theorem isSeparated_intercalate (hws : ∀ w ∈ ws, w ≠ [] ∧ d ∉ w) :
    IsSeparated d ws ([d].intercalate ws) where
  joined := rfl
  words := hws
  head := by
    intro hhead
    obtain ⟨b, hb⟩ := List.head?_eq_some_iff.mp hhead
    exact (words_around_separator (a := []) hws hb).1.1 rfl
  last := by
    intro hlast
    obtain ⟨a, ha⟩ := List.getLast?_eq_some_iff.mp hlast
    exact (words_around_separator hws ha).2.1 rfl
  single := by
    rintro ⟨a, b, h⟩
    rw [List.append_assoc] at h
    exact (words_around_separator (b := d :: b) hws h.symm).2.2 rfl

end SvelteStories

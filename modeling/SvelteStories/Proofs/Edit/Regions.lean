/-
Texts that differ in some regions only:

* `DiffersOnlyIn`: one text goes over into another one by replacing stretches that lie in regions,
  and keeping every other character in its place in the order;
* `differsOnlyIn_applyEdits`: edits that lie in regions change nothing else;
* `Edit.Inside`, `not_touches_of_apart`: edits that lie in ranges without a common byte do not
  touch.
-/
import SvelteStories.Proofs.Edit.Finish
import SvelteStories.Proofs.Text.Ranges

namespace SvelteStories

/-! ### What stays -/

/-- A text at an offset goes over into another one by replacing stretches that lie in the given
regions. All the other characters stay, in their order. -/
inductive DiffersOnlyIn (regions : List Span) : (offset : Nat) → List Char → List Char → Prop
  /-- Nothing is left. -/
  | nil (offset : Nat) : DiffersOnlyIn regions offset [] []
  /-- A character stays. -/
  | keep {offset : Nat} {t t' : List Char} (c : Char) :
      DiffersOnlyIn regions (offset + c.utf8Size) t t' →
      DiffersOnlyIn regions offset (c :: t) (c :: t')
  /-- A stretch is replaced, or a text is inserted if the stretch is empty. -/
  | replace {offset : Nat} {t t' : List Char} {r : Span} (old new : List Char) : r ∈ regions →
      r.start ≤ offset → offset + byteLength old ≤ r.stop →
      DiffersOnlyIn regions (offset + byteLength old) t t' →
      DiffersOnlyIn regions offset (old ++ t) (new ++ t')

namespace DiffersOnlyIn

variable {regions : List Span} {offset : Nat} {t t' : List Char}

lemma keep_append (kept : List Char)
    (h : DiffersOnlyIn regions (offset + byteLength kept) t t') :
    DiffersOnlyIn regions offset (kept ++ t) (kept ++ t') := by
  induction kept generalizing offset with
  | nil => exact h
  | cons c kept ih =>
      rw [byteLength_cons, ← Nat.add_assoc] at h
      exact .keep c (ih h)

lemma refl (offset : Nat) (t : List Char) : DiffersOnlyIn regions offset t t := by
  simpa using keep_append t (.nil (offset + byteLength t))

end DiffersOnlyIn

/-- An edit of a part of a range. -/
def Edit.Within (e : Edit) (s : Span) : Prop :=
  s.start ≤ e.start ∧ e.start ≤ e.stop ∧ e.stop ≤ s.stop

/-- Edits that lie in regions change nothing else. -/
theorem differsOnlyIn_applyEdits {regions : List Span} {t : List Char} {es : List Edit}
    {before rest : List Char} (h : FitsBehind t before rest es)
    (hwithin : ∀ e ∈ es, ∃ r ∈ regions, e.Within r) :
    DiffersOnlyIn regions (byteLength before) rest (applyEdits es (byteLength before) rest) := by
  induction es generalizing before rest with
  | nil => exact .refl _ _
  | cons e es ih =>
      obtain ⟨⟨r, hr, hstart, -, hstop⟩, hwithin⟩ := List.forall_mem_cons.mp hwithin
      obtain ⟨kept, covered, behind, rfl, hkept, hcovered, hback, hqueue⟩ := h.cut
      have hrest := ih hqueue hwithin
      rw [hback, ← hcovered] at hrest
      rw [applyEdits_cons behind hkept hcovered, List.append_assoc, ← hcovered]
      refine .keep_append kept ?_
      rw [hkept]
      exact .replace covered e.text hr hstart (by omega) hrest

/-! ### Edits that do not touch -/

/-- An edit of a range that replaces something, or else inserts between the bytes of the range. -/
def Edit.Inside (e : Edit) (s : Span) : Prop :=
  e.Within s ∧ (e.start = e.stop → s.start < e.start ∧ e.stop < s.stop)

lemma Edit.Within.mono {e : Edit} {s s' : Span} (h : e.Within s)
    (hs : s'.contains s = true) : e.Within s' := by
  rw [Span.contains_iff] at hs
  rw [Within] at h ⊢
  omega

lemma Edit.Inside.mono {e : Edit} {s s' : Span} (h : e.Inside s)
    (hs : s'.contains s = true) : e.Inside s' := by
  refine ⟨h.1.mono hs, fun heq => ?_⟩
  have := h.2 heq
  rw [Span.contains_iff] at hs
  omega

/-- Edits of ranges without a common byte do not touch. Only one of them may insert at the end of
its range. -/
lemma not_touches_of_apart {a b : Edit} {s s' : Span} (ha : a.Inside s) (hb : b.Within s')
    (h : s.Apart s') : ¬ a.Touches b := by
  obtain ⟨⟨hstart, hle, hstop⟩, hinsert⟩ := ha
  rw [Edit.Within] at hb
  rw [Edit.Touches, Edit.exists_common_byte_iff]
  rw [Span.Apart] at h
  omega

end SvelteStories

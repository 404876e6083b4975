/-
Preprocessors one after another:

* `Preprocessed.text`, `preprocessed`: what a preprocessor gives back, and what several of them make
  of a text when each is given what the one before it gave back;
* `CutsNothing`: none of them gives back a shorter part of its text on the way;
* `runPreprocessors_spec`: this is exactly when all of them count;
* `trimming_dropped`: a preprocessor that gives back a part of its text is passed over.
-/
import Mathlib.Tactic.Common
import SvelteStories.Transform.Hooks

namespace SvelteStories

variable {p : Preprocessor} {ps : List Preprocessor} {t : List Char}

/-- The text that a preprocessor gives back, whether it wrote it or not. -/
def Preprocessed.text : Preprocessed → List Char
  | written t => t
  | part t => t

/-- A text after preprocessors, each of which is given what the one before it gave back. -/
def preprocessed (ps : List Preprocessor) (t : List Char) : List Char :=
  ps.foldl (fun t p => (p t).text) t

/-- Whichever preprocessor gives back a part of its text gives back all of it, when each is given
what the one before it gave back. -/
def CutsNothing : List Preprocessor → List Char → Prop
  | [], _ => True
  | p :: ps, t => (∀ u, p t = .part u → u = t) ∧ CutsNothing ps (p t).text

/-! ### One preprocessor -/

/-- A preprocessor counts unless it gives back a shorter part of its text. -/
lemma runPreprocessor_eq_text_iff :
    runPreprocessor t p = (p t).text ↔ ∀ u, p t = .part u → u = t := by
  rw [runPreprocessor]
  cases p t with
  | written u => simp [Preprocessed.text]
  | part u => simp [Preprocessed.text, eq_comm]

lemma runPreprocessors_cons (p : Preprocessor) (ps : List Preprocessor) (t : List Char) :
    runPreprocessors (p :: ps) t = runPreprocessors ps (runPreprocessor t p) :=
  List.foldl_cons ..

lemma runPreprocessors_append_singleton (ps : List Preprocessor) (p : Preprocessor)
    (t : List Char) :
    runPreprocessors (ps ++ [p]) t = runPreprocessor (runPreprocessors ps t) p :=
  List.foldl_append

/-! ### Several preprocessors -/

lemma CutsNothing.take (h : CutsNothing ps t) (n : Nat) : CutsNothing (ps.take n) t := by
  induction ps generalizing t n with
  | nil => simpa using h
  | cons p ps ih =>
      cases n with
      | zero => trivial
      | succ n => exact ⟨h.1, ih h.2 n⟩

/-- If nothing is cut off, all of the preprocessors count. -/
lemma CutsNothing.runPreprocessors_eq (h : CutsNothing ps t) :
    runPreprocessors ps t = preprocessed ps t := by
  induction ps generalizing t with
  | nil => rfl
  | cons p ps ih =>
      rw [runPreprocessors_cons, runPreprocessor_eq_text_iff.mpr h.1, ih h.2]
      rfl

/-- If all of the preprocessors count from the first one on, nothing is cut off. -/
lemma cutsNothing_of_forall_take
    (h : ∀ n, runPreprocessors (ps.take n) t = preprocessed (ps.take n) t) :
    CutsNothing ps t := by
  induction ps generalizing t with
  | nil => trivial
  | cons p ps ih =>
      have hfirst : runPreprocessor t p = (p t).text := h 1
      refine ⟨runPreprocessor_eq_text_iff.mp hfirst, ih fun n => ?_⟩
      have hnext := h (n + 1)
      rw [List.take_succ_cons, runPreprocessors_cons, hfirst] at hnext
      exact hnext

/-- **Preprocessors one after another.** The texts behind the preprocessors, from the first one on,
are what each of them gives back for the text behind the one before it, exactly if none of them
gives back a shorter part of its text. And a further preprocessor comes behind all others exactly if
it gives back a text that it wrote, or all of the text behind the others. -/
theorem runPreprocessors_spec (ps : List Preprocessor) (t : List Char) :
    ((∀ n, runPreprocessors (ps.take n) t = preprocessed (ps.take n) t) ↔ CutsNothing ps t)
      ∧ ∀ p, runPreprocessors (ps ++ [p]) t = (p (runPreprocessors ps t)).text
        ↔ ∀ u, p (runPreprocessors ps t) = .part u → u = runPreprocessors ps t := by
  refine ⟨⟨cutsNothing_of_forall_take, fun h n => (h.take n).runPreprocessors_eq⟩, fun p => ?_⟩
  rw [runPreprocessors_append_singleton, runPreprocessor_eq_text_iff]

/-- A preprocessor that gives back its text from the first character on that is not blank. -/
def trimming : Preprocessor := fun t =>
  .part (trimStart t)

/-- The blanks that a preprocessor cuts off are there again behind it, although what it gives back is
a part of its text. -/
theorem trimming_dropped :
    (∀ t, ∃ u, trimming t = .part u ∧ u <:+ t)
      ∧ runPreprocessors [trimming] " x".toList = " x".toList
      ∧ preprocessed [trimming] " x".toList = "x".toList
      ∧ runPreprocessors [trimming] " x".toList ≠ preprocessed [trimming] " x".toList := by
  exact ⟨fun t => ⟨_, rfl, List.dropWhile_suffix _⟩, by decide, by decide, by decide⟩

end SvelteStories

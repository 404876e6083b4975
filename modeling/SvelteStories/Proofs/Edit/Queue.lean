/-
Which edits a draft accepts:

* `Edit.Touches`: two edits that share a byte, insert at one offset, or insert into one another;
  `Edit.clashes_iff_touches` says that the test of a draft decides just this;
* `Edit.Fits`: an edit of a range of the text, between characters;
* `Edit.Precedes`: an edit that ends before another one begins; the queue of a draft is kept in this
  order (`pairwise_insertEdit`), which is the invariant that all of `finish` rests on;
* `Draft.exists_overwrite_eq_ok_iff`: an edit is accepted exactly if it fits and touches none in the
  queue;
* `DraftCall`, `Draft.run`: what a list of calls makes of a draft;
* `acceptedEdits`: the edits that a list of calls gets accepted, told from the calls alone, and
  `Draft.Holds`, the invariant of a run.
-/
import Mathlib.Data.List.Induction
import SvelteStories.Edit
import SvelteStories.Proofs.Text.Boundary

namespace SvelteStories

namespace Edit

/-! ### Edits that touch -/

/-- Two edits touch if some byte is replaced by both, if one inserts strictly inside the range of
the other, or if both insert at one offset. -/
def Touches (a b : Edit) : Prop :=
  (∃ i, (a.start ≤ i ∧ i < a.stop) ∧ b.start ≤ i ∧ i < b.stop)
    ∨ (a.start = a.stop ∧ b.start < a.start ∧ a.start < b.stop)
    ∨ (b.start = b.stop ∧ a.start < b.start ∧ b.start < a.stop)
    ∨ (a.start = a.stop ∧ b.start = b.stop ∧ a.start = b.start)

/-- A common byte, told from the ends of the two ranges. -/
lemma exists_common_byte_iff {a b : Edit} :
    (∃ i, (a.start ≤ i ∧ i < a.stop) ∧ b.start ≤ i ∧ i < b.stop)
      ↔ a.start < a.stop ∧ b.start < b.stop ∧ a.start < b.stop ∧ b.start < a.stop := by
  constructor
  · rintro ⟨i, h⟩
    omega
  · intro h
    rcases Nat.le_total a.start b.start with hle | hle
    · exact ⟨b.start, by omega⟩
    · exact ⟨a.start, by omega⟩

instance (a b : Edit) : Decidable (a.Touches b) := by
  unfold Touches
  rw [exists_common_byte_iff]
  infer_instance

/-- The test of a draft decides whether two edits touch. -/
lemma clashes_iff_touches {a b : Edit} (ha : a.start ≤ a.stop) (hb : b.start ≤ b.stop) :
    a.Clashes b.start b.stop ↔ a.Touches b := by
  rw [Clashes, Touches, exists_common_byte_iff]
  split
  · omega
  · omega

/-- An edit of a range of the text that begins and ends between characters. -/
def Fits (t : List Char) (e : Edit) : Prop :=
  e.start ≤ e.stop ∧ e.stop ≤ byteLength t ∧ Boundary t e.start ∧ Boundary t e.stop

/-- An edit that ends before another one begins. Only one of the two may insert where they meet. -/
def Precedes (a b : Edit) : Prop :=
  a.stop ≤ b.start ∧ a.start < b.stop

/-- Of two edits that do not touch, the one that is first in text order ends before the other one
begins. -/
lemma precedes_of_before {a b : Edit} (ha : a.start ≤ a.stop) (hb : b.start ≤ b.stop)
    (htouch : ¬ a.Touches b) (h : a.before b = true) : a.Precedes b := by
  rw [Touches, exists_common_byte_iff] at htouch
  simp only [before, Bool.or_eq_true, decide_eq_true_eq, Bool.and_eq_true] at h
  rw [Precedes]
  omega

lemma precedes_of_not_before {a b : Edit} (ha : a.start ≤ a.stop) (hb : b.start ≤ b.stop)
    (htouch : ¬ a.Touches b) (h : a.before b = false) : b.Precedes a := by
  rw [Touches, exists_common_byte_iff] at htouch
  simp only [before, Bool.or_eq_false_iff, decide_eq_false_iff_not, Bool.and_eq_false_iff] at h
  rw [Precedes]
  omega

/-- Edits that follow one another do not touch. -/
lemma Precedes.not_touches {a b : Edit} (h : a.Precedes b) : ¬ a.Touches b := by
  rw [Touches, exists_common_byte_iff]
  rw [Precedes] at h
  omega

lemma Touches.symm {a b : Edit} (h : a.Touches b) : b.Touches a := by
  obtain ⟨i, ha, hb⟩ | h | h | ⟨ha, hb, h⟩ := h
  · exact Or.inl ⟨i, hb, ha⟩
  · exact Or.inr (Or.inr (Or.inl h))
  · exact Or.inr (Or.inl h)
  · exact Or.inr (Or.inr (Or.inr ⟨hb, ha, h.symm⟩))

end Edit

/-! ### The queue -/

/-- A new edit is put among those in the queue. -/
lemma insertEdit_perm (e : Edit) (es : List Edit) : (insertEdit e es).Perm (e :: es) := by
  induction es with
  | nil => exact List.Perm.refl _
  | cons d ds ih =>
      rw [insertEdit]
      split
      · exact (ih.cons d).trans (List.Perm.swap e d ds)
      · exact List.Perm.refl _

/-- The queue stays in text order, each edit ending before the next one begins. -/
lemma pairwise_insertEdit {e : Edit} {es : List Edit} (he : e.start ≤ e.stop)
    (hes : ∀ d ∈ es, d.start ≤ d.stop) (htouch : ∀ d ∈ es, ¬ d.Touches e)
    (hpair : es.Pairwise Edit.Precedes) : (insertEdit e es).Pairwise Edit.Precedes := by
  induction es with
  | nil => exact List.pairwise_singleton _ _
  | cons d ds ih =>
      obtain ⟨hd, hds⟩ := List.pairwise_cons.mp hpair
      simp only [List.forall_mem_cons] at hes htouch
      rw [insertEdit]
      split
      · rename_i hbefore
        refine List.pairwise_cons.mpr ⟨fun x hx => ?_, ih hes.2 htouch.2 hds⟩
        rcases List.mem_cons.mp ((insertEdit_perm e ds).mem_iff.mp hx) with rfl | hx
        · exact Edit.precedes_of_before hes.1 he htouch.1 hbefore
        · exact hd x hx
      · rename_i hbefore
        have hed : e.Precedes d :=
          Edit.precedes_of_not_before hes.1 he htouch.1 (Bool.eq_false_iff.mpr hbefore)
        refine List.pairwise_cons.mpr ⟨fun x hx => ?_, hpair⟩
        rcases List.mem_cons.mp hx with rfl | hx
        · exact hed
        · -- what follows `d` follows all that ends before `d` begins
          have hdx := hd x hx
          rw [Edit.Precedes] at hed hdx ⊢
          omega

namespace Draft

/-! ### One call -/

/-- A range that does not fit the text is refused. -/
lemma overwrite_of_not_fits {d : Draft} {start stop : Nat} {text : List Char}
    (h : ¬ (⟨start, stop, text⟩ : Edit).Fits d.unedited) :
    d.overwrite start stop text
      = .error (.invalidEditRange start stop (byteLength d.unedited)) := by
  rw [overwrite, if_neg]
  simp only [Bool.and_eq_true, decide_eq_true_eq, isBoundary_iff]
  exact fun hrange => h ⟨hrange.1.1, hrange.2.le, hrange.1.2, hrange.2⟩

/-- An edit that fits and is clear of the queue is put into it. -/
lemma overwrite_of_clear {d : Draft} {start stop : Nat} {text : List Char}
    (hes : ∀ a ∈ d.edits, a.start ≤ a.stop)
    (hfits : (⟨start, stop, text⟩ : Edit).Fits d.unedited)
    (hclear : ∀ a ∈ d.edits, ¬ a.Touches ⟨start, stop, text⟩) :
    d.overwrite start stop text
      = .ok { d with edits := insertEdit ⟨start, stop, text⟩ d.edits } := by
  obtain ⟨hle, -, hstart, hstop⟩ := hfits
  rw [overwrite, if_pos, if_neg]
  · simp only [List.any_eq_true, decide_eq_true_eq, not_exists, not_and]
    exact fun a ha hclash => hclear a ha ((Edit.clashes_iff_touches (hes a ha) hle).mp hclash)
  · simp only [Bool.and_eq_true, decide_eq_true_eq, isBoundary_iff]
    exact ⟨⟨hle, hstart⟩, hstop⟩

/-- An edit that touches one in the queue is refused. -/
lemma overwrite_of_touches {d : Draft} {start stop : Nat} {text : List Char} {a : Edit}
    (ha : a ∈ d.edits) (hle : a.start ≤ a.stop)
    (hfits : (⟨start, stop, text⟩ : Edit).Fits d.unedited)
    (htouch : a.Touches ⟨start, stop, text⟩) :
    d.overwrite start stop text = .error (.overlappingEdits start stop) := by
  obtain ⟨hle', -, hstart, hstop⟩ := hfits
  rw [overwrite, if_pos, if_pos]
  · simp only [List.any_eq_true, decide_eq_true_eq]
    exact ⟨a, ha, (Edit.clashes_iff_touches hle hle').mpr htouch⟩
  · simp only [Bool.and_eq_true, decide_eq_true_eq, isBoundary_iff]
    exact ⟨⟨hle', hstart⟩, hstop⟩

/-- An edit is accepted exactly if it fits the text and touches none in the queue. -/
lemma exists_overwrite_eq_ok_iff {d : Draft} {start stop : Nat} {text : List Char}
    (hes : ∀ a ∈ d.edits, a.start ≤ a.stop) :
    (∃ d', d.overwrite start stop text = .ok d')
      ↔ (⟨start, stop, text⟩ : Edit).Fits d.unedited
        ∧ ∀ a ∈ d.edits, ¬ a.Touches ⟨start, stop, text⟩ := by
  constructor
  · rintro ⟨d', h⟩
    by_cases hfits : (⟨start, stop, text⟩ : Edit).Fits d.unedited
    · refine ⟨hfits, fun a ha htouch => ?_⟩
      rw [overwrite_of_touches ha (hes a ha) hfits htouch] at h
      exact absurd h (by simp)
    · rw [overwrite_of_not_fits hfits] at h
      exact absurd h (by simp)
  · rintro ⟨hfits, hclear⟩
    exact ⟨_, overwrite_of_clear hes hfits hclear⟩

end Draft

/-! ### A run of calls -/

/-- What a draft can be asked for. -/
inductive DraftCall
  /-- To replace a range. -/
  | overwrite (start stop : Nat) (text : List Char)
  /-- To remove a range. -/
  | remove (start stop : Nat)
  /-- To insert at an offset. -/
  | insert (offset : Nat) (text : List Char)
  /-- To add behind the end. -/
  | append (text : List Char)
deriving DecidableEq, Repr

namespace DraftCall

/-- The edit that a positional call asks for. -/
def edit? : DraftCall → Option Edit
  | overwrite start stop text => some ⟨start, stop, text⟩
  | remove start stop => some ⟨start, stop, []⟩
  | insert offset text => some ⟨offset, offset, text⟩
  | append _ => none

/-- What a call adds behind the end. -/
def appended : DraftCall → List Char
  | append text => text
  | overwrite _ _ _ | remove _ _ | insert _ _ => []

end DraftCall

namespace Draft

/-- The answer of a draft to a call. -/
def answer (d : Draft) : DraftCall → Except Fault Draft
  | .overwrite start stop text => d.overwrite start stop text
  | .remove start stop => d.remove start stop
  | .insert offset text => d.insert offset text
  | .append text => .ok (d.append text)

/-- The draft after a call, which is the same one if the call was refused. -/
def after (d : Draft) (c : DraftCall) : Draft :=
  match d.answer c with
  | .ok d => d
  | .error _ => d

/-- The draft after a list of calls. -/
def run (d : Draft) (calls : List DraftCall) : Draft :=
  calls.foldl after d

lemma run_append_singleton (d : Draft) (calls : List DraftCall) (c : DraftCall) :
    d.run (calls ++ [c]) = (d.run calls).after c := by
  simp [run]

lemma after_of_error {d : Draft} {c : DraftCall} {f : Fault} (h : d.answer c = .error f) :
    d.after c = d := by
  simp [after, h]

/-- A positional call is answered as the replacement that it stands for. -/
lemma answer_of_edit? {d : Draft} {c : DraftCall} {e : Edit} (h : c.edit? = some e) :
    d.answer c = d.overwrite e.start e.stop e.text := by
  cases c with
  | overwrite | remove | insert =>
      simp only [DraftCall.edit?, Option.some.injEq] at h
      subst h
      rfl
  | append => simp [DraftCall.edit?] at h

end Draft

/-- Whether an edit has a place in a text besides others: it fits the text and touches none of
them. -/
def Edit.HasPlace (t : List Char) (others : List Edit) (e : Edit) : Prop :=
  e.Fits t ∧ ∀ a ∈ others, ¬ a.Touches e

instance (t : List Char) (others : List Edit) (e : Edit) : Decidable (e.HasPlace t others) := by
  unfold Edit.HasPlace Edit.Fits
  infer_instance

/-- The accepted edits with one more, if it has a place besides them. -/
def acceptEdit (t : List Char) (accepted : List Edit) (e : Edit) : List Edit :=
  if e.HasPlace t accepted then accepted ++ [e] else accepted

/-- The edits that a list of calls on a text gets accepted, in the order of the calls: each one that
has a place besides those before it. -/
def acceptedEdits (t : List Char) (calls : List DraftCall) : List Edit :=
  (calls.filterMap DraftCall.edit?).foldl (acceptEdit t) []

lemma acceptedEdits_append_singleton (t : List Char) (calls : List DraftCall) (c : DraftCall) :
    acceptedEdits t (calls ++ [c])
      = match c.edit? with
        | some e => acceptEdit t (acceptedEdits t calls) e
        | none => acceptedEdits t calls := by
  cases h : c.edit? <;> simp [acceptedEdits, List.filterMap_append, h]

/-- What a draft holds after a run that got `accepted` accepted and added `appended` behind the end.
The queue has its own order, which the third part states. -/
structure Draft.Holds (t : List Char) (accepted : List Edit) (appended : List Char)
    (d : Draft) : Prop where
  unedited : d.unedited = t
  queue : d.edits.Perm accepted
  ordered : d.edits.Pairwise Edit.Precedes
  fits : ∀ e ∈ d.edits, e.Fits t
  appended : d.appended = appended

namespace Draft.Holds

variable {t : List Char} {accepted : List Edit} {appended : List Char} {d d' : Draft}

lemma ofText (t : List Char) : (Draft.ofText t).Holds t [] [] where
  unedited := rfl
  queue := List.Perm.refl _
  ordered := List.Pairwise.nil
  fits := fun _ h => absurd h (by simp [Draft.ofText])
  appended := rfl

/-- A draft accepts what has a place besides the edits accepted before. -/
lemma exists_answer_eq_ok_iff (h : d.Holds t accepted appended) {c : DraftCall} {e : Edit}
    (hc : c.edit? = some e) : (∃ d', d.answer c = .ok d') ↔ e.HasPlace t accepted := by
  rw [Draft.answer_of_edit? hc, Draft.exists_overwrite_eq_ok_iff fun a ha => (h.fits a ha).1,
    h.unedited, Edit.HasPlace]
  simp only [h.queue.mem_iff]

/-- What a draft holds it holds of its own queue. -/
lemma of_edits (h : d.Holds t accepted appended) : d.Holds t d.edits appended :=
  ⟨h.unedited, List.Perm.refl _, h.ordered, h.fits, h.appended⟩

/-- An edit that fits the text and is clear of those accepted before is accepted. -/
lemma overwrite (h : d.Holds t accepted appended) {e : Edit} (hfits : e.Fits t)
    (hclear : ∀ a ∈ accepted, ¬ a.Touches e) :
    ∃ d', d.overwrite e.start e.stop e.text = .ok d'
      ∧ d'.Holds t (accepted ++ [e]) appended := by
  have hfits' : e.Fits d.unedited := h.unedited ▸ hfits
  have hordered : ∀ a ∈ d.edits, a.start ≤ a.stop := fun a ha => (h.fits a ha).1
  have hqueue : ∀ a ∈ d.edits, ¬ a.Touches e := fun a ha => hclear a (h.queue.mem_iff.mp ha)
  refine ⟨_, Draft.overwrite_of_clear hordered hfits' hqueue, h.unedited, ?_, ?_, ?_, h.appended⟩
  · exact (insertEdit_perm e d.edits).trans
      ((h.queue.cons e).trans (List.perm_append_singleton e accepted).symm)
  · exact pairwise_insertEdit hfits.1 hordered hqueue h.ordered
  · intro a ha
    rcases List.mem_cons.mp ((insertEdit_perm e d.edits).mem_iff.mp ha) with rfl | ha
    · exact hfits
    · exact h.fits a ha

/-- An edit that was accepted fits the text and is held from then on. -/
lemma of_overwrite (h : d.Holds t accepted appended) {start stop : Nat} {text : List Char}
    (hok : d.overwrite start stop text = .ok d') :
    (⟨start, stop, text⟩ : Edit).Fits t
      ∧ d'.Holds t (accepted ++ [⟨start, stop, text⟩]) appended := by
  obtain ⟨hfits, hclear⟩ :=
    (Draft.exists_overwrite_eq_ok_iff fun a ha => (h.fits a ha).1).mp ⟨d', hok⟩
  rw [h.unedited] at hfits
  obtain ⟨d'', hd'', hholds⟩ := h.overwrite hfits fun a ha => hclear a (h.queue.mem_iff.mpr ha)
  rw [hok] at hd''
  obtain rfl := Except.ok.inj hd''
  exact ⟨hfits, hholds⟩

/-- Text that is added behind the end leaves the queue as it is. -/
lemma append (h : d.Holds t accepted appended) (text : List Char) :
    (d.append text).Holds t accepted (appended ++ text) :=
  ⟨h.unedited, h.queue, h.ordered, h.fits, congrArg (· ++ text) h.appended⟩

lemma perm {accepted' : List Edit} (h : d.Holds t accepted appended)
    (hperm : accepted.Perm accepted') : d.Holds t accepted' appended :=
  ⟨h.unedited, h.queue.trans hperm, h.ordered, h.fits, h.appended⟩

/-- One call takes the edits accepted before to those accepted with it. -/
lemma after (h : d.Holds t accepted appended) (c : DraftCall) :
    (d.after c).Holds t
      (match c.edit? with
        | some e => acceptEdit t accepted e
        | none => accepted)
      (appended ++ c.appended) := by
  cases hc : c.edit? with
  | none =>
      obtain ⟨text, rfl⟩ : ∃ text, c = .append text := by
        cases c <;> simp [DraftCall.edit?] at hc ⊢
      exact ⟨h.unedited, h.queue, h.ordered, h.fits, congrArg (· ++ text) h.appended⟩
  | some e =>
      have happended : appended ++ c.appended = appended := by
        cases c <;> simp [DraftCall.edit?, DraftCall.appended] at hc ⊢
      rw [happended]
      by_cases hplace : e.HasPlace t accepted
      · -- the call is accepted, and the queue takes the edit in at its place
        obtain ⟨d', hd', hholds⟩ := h.overwrite hplace.1 hplace.2
        have hafter : d.after c = d' := by
          rw [Draft.after, Draft.answer_of_edit? hc, hd']
        simp only [hafter, acceptEdit, if_pos hplace]
        exact hholds
      · -- the call is refused, and the draft stays
        have hrefused : ¬ ∃ d', d.answer c = .ok d' := fun hok =>
          hplace ((h.exists_answer_eq_ok_iff hc).mp hok)
        have hafter : d.after c = d := by
          cases hanswer : d.answer c with
          | ok d' => exact absurd ⟨d', hanswer⟩ hrefused
          | error f => exact Draft.after_of_error hanswer
        simp only [hafter, acceptEdit, if_neg hplace]
        exact h

/-- A run of calls on a text. -/
lemma run (t : List Char) (calls : List DraftCall) :
    ((Draft.ofText t).run calls).Holds t (acceptedEdits t calls)
      (calls.flatMap DraftCall.appended) := by
  induction calls using List.reverseRecOn with
  | nil => exact ofText t
  | append_singleton calls c ih =>
      rw [Draft.run_append_singleton, acceptedEdits_append_singleton, List.flatMap_append]
      simpa using ih.after c

end Draft.Holds

end SvelteStories

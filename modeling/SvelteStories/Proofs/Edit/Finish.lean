/-
What a draft makes of its text:

* `edited`: the text with edits applied to it, told offset by offset and without regard to the order
  of the edits: at each offset the insertion there, then the replacement that begins there, then the
  character that stands there unless its bytes are replaced;
* `edited_perm`: that text depends on the set of the edits only, if no two of them touch;
* `applyEdits_eq_edited`: going through the queue from left to right gives it;
* `slicedText`: the same text put together from slices of the unedited one, which fails where a
  slice would run backwards, leave the text or cut a character; `slicedText_eq_some` says it never
  does;
* `draft_run`: what becomes of a text in any run of calls.
-/
import SvelteStories.Proofs.Edit.Queue

namespace SvelteStories

/-! ### The edited text, offset by offset -/

/-- What edits put at an offset: what is inserted there, and then what replaces the bytes that begin
there. -/
def textsAt (es : List Edit) (offset : Nat) : List Char :=
  (es.filter fun e => e.start = offset && e.stop = offset).flatMap Edit.text
    ++ (es.filter fun e => e.start = offset && offset < e.stop).flatMap Edit.text

/-- Whether edits replace the byte at an offset. -/
def isReplaced (es : List Edit) (offset : Nat) : Bool :=
  es.any fun e => e.start ≤ offset && offset < e.stop

/-- A text that starts at an offset, with edits applied to it. -/
def edited (es : List Edit) : (offset : Nat) → List Char → List Char
  | offset, [] => textsAt es offset
  | offset, c :: t =>
    textsAt es offset ++ (if isReplaced es offset then [] else [c])
      ++ edited es (offset + c.utf8Size) t

/-! ### Independence of the order -/

/-- Of edits that do not touch, at most one satisfies a test that makes any two touch. -/
lemma length_filter_le_one {es : List Edit} (test : Edit → Bool)
    (h : es.Pairwise fun a b => ¬ a.Touches b)
    (htest : ∀ a b, test a = true → test b = true → a.Touches b) :
    (es.filter test).length ≤ 1 := by
  have hpair := h.filter test
  have hall : ∀ a ∈ es.filter test, test a = true := fun a ha => (List.mem_filter.mp ha).2
  match hfilter : es.filter test with
  | [] => simp
  | [_] => simp
  | a :: b :: rest =>
      rw [hfilter] at hpair hall
      simp only [List.forall_mem_cons] at hall
      have hab := (List.pairwise_cons.mp hpair).1 b List.mem_cons_self
      exact absurd (htest a b hall.1 hall.2.1) hab

/-- Lists of at most one element that are permutations of one another are the same. -/
lemma eq_of_perm_of_length_le_one {α : Type} {l l' : List α} (h : l.Perm l')
    (hlen : l.length ≤ 1) : l = l' := by
  match l, hlen with
  | [], _ => exact (List.nil_perm.mp h).symm
  | [a], _ => exact List.singleton_perm.mp h

/-- The edited text does not depend on the order of edits that do not touch. -/
lemma edited_perm {es es' : List Edit} (hperm : es.Perm es')
    (h : es.Pairwise fun a b => ¬ a.Touches b) (offset : Nat) (t : List Char) :
    edited es offset t = edited es' offset t := by
  have htexts : ∀ o, textsAt es o = textsAt es' o := by
    intro o
    have hinsertion := length_filter_le_one (fun e => e.start = o && e.stop = o) h
      fun a b ha hb => by
        simp only [Bool.and_eq_true, decide_eq_true_eq] at ha hb
        exact Or.inr (Or.inr (Or.inr (by omega)))
    have hreplacement := length_filter_le_one (fun e => e.start = o && o < e.stop) h
      fun a b ha hb => by
        simp only [Bool.and_eq_true, decide_eq_true_eq] at ha hb
        exact Or.inl ⟨o, by omega⟩
    rw [textsAt, textsAt, eq_of_perm_of_length_le_one (hperm.filter _) hinsertion,
      eq_of_perm_of_length_le_one (hperm.filter _) hreplacement]
  have hreplaced : ∀ o, isReplaced es o = isReplaced es' o := fun o => by
    rw [Bool.eq_iff_iff]
    simp only [isReplaced, List.any_eq_true, hperm.mem_iff]
  induction t generalizing offset with
  | nil => exact htexts offset
  | cons c t ih => rw [edited, edited, htexts, hreplaced, ih]

/-! ### The queue from left to right -/

/-- Before the first edit the text stays as it is. -/
lemma edited_append_of_le {es : List Edit} {offset : Nat} {kept rest : List Char}
    (h : ∀ e ∈ es, e.start ≤ e.stop ∧ offset + byteLength kept ≤ e.start) :
    edited es offset (kept ++ rest) = kept ++ edited es (offset + byteLength kept) rest := by
  induction kept generalizing offset with
  | nil => simp
  | cons c kept ih =>
      have hc := c.utf8Size_pos
      simp only [byteLength_cons] at h
      have htexts : textsAt es offset = [] := by
        rw [textsAt, List.append_eq_nil_iff]
        refine ⟨?_, ?_⟩ <;>
        · rw [List.filter_eq_nil_iff.mpr, List.flatMap_nil]
          intro e he
          have := h e he
          simp only [Bool.and_eq_true, decide_eq_true_eq]
          omega
      have hreplaced : isReplaced es offset = false := by
        rw [isReplaced, List.any_eq_false]
        intro e he
        have := h e he
        simp only [Bool.and_eq_true, decide_eq_true_eq]
        omega
      have hoffset : offset + (c.utf8Size + byteLength kept)
          = offset + c.utf8Size + byteLength kept := by omega
      rw [List.cons_append, edited, htexts, hreplaced, byteLength_cons, hoffset, ih]
      · simp
      · intro e he
        have := h e he
        omega

/-- Behind an edit the text does not depend on it. -/
lemma edited_cons_of_lt {e : Edit} {es : List Edit} {offset : Nat} (t : List Char)
    (hstart : e.start < offset) (hstop : e.stop ≤ offset) :
    edited (e :: es) offset t = edited es offset t := by
  have htexts : ∀ o, e.start < o → textsAt (e :: es) o = textsAt es o := fun o ho => by
    have hne : ¬ e.start = o := by omega
    simp [textsAt, hne]
  have hreplaced : ∀ o, e.stop ≤ o → isReplaced (e :: es) o = isReplaced es o := fun o ho => by
    have hnot : ¬ o < e.stop := by omega
    simp [isReplaced, hnot]
  induction t generalizing offset with
  | nil => exact htexts offset hstart
  | cons c t ih =>
      rw [edited, edited, htexts offset hstart, hreplaced offset hstop,
        ih (by omega) (by omega)]

/-- Inside the range of an edit the text is left out. -/
lemma edited_inside {e : Edit} {es : List Edit} {offset : Nat} {covered : List Char}
    (rest : List Char) (hstart : e.start < offset) (hstop : offset + byteLength covered = e.stop)
    (hes : ∀ d ∈ es, d.start ≤ d.stop ∧ e.stop ≤ d.start) :
    edited (e :: es) offset (covered ++ rest) = edited es e.stop rest := by
  induction covered generalizing offset with
  | nil =>
      simp only [byteLength_nil, Nat.add_zero] at hstop
      subst hstop
      exact edited_cons_of_lt rest hstart (Nat.le_refl _)
  | cons c covered ih =>
      have hc := c.utf8Size_pos
      rw [byteLength_cons] at hstop
      have htexts : textsAt (e :: es) offset = [] := by
        rw [textsAt, List.append_eq_nil_iff]
        refine ⟨?_, ?_⟩ <;>
        · rw [List.filter_eq_nil_iff.mpr, List.flatMap_nil]
          intro d hd
          simp only [Bool.and_eq_true, decide_eq_true_eq]
          rcases List.mem_cons.mp hd with rfl | hd
          · omega
          · have := hes d hd
            omega
      have hreplaced : isReplaced (e :: es) offset = true := by
        simp only [isReplaced, List.any_cons, Bool.or_eq_true, Bool.and_eq_true,
          decide_eq_true_eq]
        exact Or.inl (by omega)
      rw [List.cons_append, edited, htexts, hreplaced, if_pos rfl, ih (by omega) (by omega)]
      simp

/-- An insertion stands at its offset, where only a replacement can follow it. -/
lemma edited_cons_insertion {e : Edit} {es : List Edit} (rest : List Char)
    (hempty : e.start = e.stop) (hprecedes : ∀ d ∈ es, e.Precedes d) :
    edited (e :: es) e.start rest = e.text ++ edited es e.start rest := by
  have hnone : (es.filter fun d => d.start = e.start && d.stop = e.start) = [] := by
    refine List.filter_eq_nil_iff.mpr fun d hd => ?_
    have := (hprecedes d hd).2
    simp only [Bool.and_eq_true, decide_eq_true_eq]
    omega
  have htexts : textsAt (e :: es) e.start = e.text ++ textsAt es e.start := by
    simp [textsAt, ← hempty, hnone]
  have hreplaced : isReplaced (e :: es) e.start = isReplaced es e.start := by
    simp [isReplaced, ← hempty]
  cases rest with
  | nil => exact htexts
  | cons c rest =>
      have hc := c.utf8Size_pos
      rw [edited, edited, htexts, hreplaced, edited_cons_of_lt rest (by omega) (by omega)]
      simp

/-- A replacement stands for its range, and nothing else stands at its start. -/
lemma edited_cons_replacement {e : Edit} {es : List Edit} {c : Char} {covered : List Char}
    (rest : List Char) (hstop : e.start + byteLength (c :: covered) = e.stop)
    (hes : ∀ d ∈ es, d.start ≤ d.stop) (hprecedes : ∀ d ∈ es, e.Precedes d) :
    edited (e :: es) e.start (c :: covered ++ rest) = e.text ++ edited es e.stop rest := by
  have hc := c.utf8Size_pos
  rw [byteLength_cons] at hstop
  have hfar : ∀ d ∈ es, ¬ d.start = e.start := fun d hd => by
    have := (hprecedes d hd).1
    omega
  have htexts : textsAt (e :: es) e.start = e.text := by
    have hlt : e.start < e.stop := by omega
    have hne : ¬ e.stop = e.start := by omega
    have hnone : ∀ p : Edit → Bool,
        (es.filter fun d => decide (d.start = e.start) && p d) = [] := fun p => by
      refine List.filter_eq_nil_iff.mpr fun d hd => ?_
      simp [hfar d hd]
    rw [textsAt, List.filter_cons_of_neg (by simp [hne]),
      List.filter_cons_of_pos (by simp [hlt]), hnone, hnone]
    simp
  have hreplaced : isReplaced (e :: es) e.start = true := by
    simp only [isReplaced, List.any_cons, Bool.or_eq_true, Bool.and_eq_true,
      decide_eq_true_eq]
    exact Or.inl (by omega)
  rw [List.cons_append, edited, htexts, hreplaced, if_pos rfl,
    edited_inside rest (by omega) (by omega) fun d hd => ⟨hes d hd, (hprecedes d hd).1⟩]
  simp

/-- At the first edit its text stands for the range. -/
lemma edited_cons_at {e : Edit} {es : List Edit} {covered : List Char} (rest : List Char)
    (hstop : e.start + byteLength covered = e.stop) (hes : ∀ d ∈ es, d.start ≤ d.stop)
    (hprecedes : ∀ d ∈ es, e.Precedes d) :
    edited (e :: es) e.start (covered ++ rest) = e.text ++ edited es e.stop rest := by
  cases covered with
  | nil =>
      have hempty : e.start = e.stop := by simpa using hstop
      rw [List.nil_append, edited_cons_insertion rest hempty hprecedes, hempty]
  | cons c covered => exact edited_cons_replacement rest hstop hes hprecedes

/-- From a cursor before it, an edit cuts the text into what is kept, what it replaces, and what is
behind. -/
lemma Edit.Fits.cut {t before rest : List Char} {e : Edit} (h : e.Fits t) (ht : t = before ++ rest)
    (hbefore : byteLength before ≤ e.start) :
    ∃ kept covered behind, rest = kept ++ (covered ++ behind)
      ∧ byteLength before + byteLength kept = e.start
      ∧ e.start + byteLength covered = e.stop := by
  obtain ⟨hle, -, hstart, hstop⟩ := h
  obtain ⟨upto, covered, behind, htext, hupto, hcovered⟩ := hstart.between hstop hle
  obtain ⟨kept, rfl, rfl⟩ := exists_append_of_byteLength_le (ht.symm.trans htext) (by omega)
  rw [byteLength_append] at hupto
  rw [byteLength_append, byteLength_append] at hcovered
  exact ⟨kept, covered, behind, rfl, hupto, by omega⟩

/-- A queue that is still to be gone through when `before` has been: its edits are in order and fit
the text, and none of them begins before the cursor. -/
structure FitsBehind (t before rest : List Char) (es : List Edit) : Prop where
  text : t = before ++ rest
  fits : ∀ e ∈ es, e.Fits t
  behind : ∀ e ∈ es, byteLength before ≤ e.start
  ordered : es.Pairwise Edit.Precedes

/-- At the first edit of a queue the text is cut, and the cursor moves behind its range. -/
lemma FitsBehind.cut {t before rest : List Char} {e : Edit} {es : List Edit}
    (h : FitsBehind t before rest (e :: es)) :
    ∃ kept covered behind, rest = kept ++ (covered ++ behind)
      ∧ byteLength before + byteLength kept = e.start
      ∧ e.start + byteLength covered = e.stop
      ∧ byteLength (before ++ kept ++ covered) = e.stop
      ∧ FitsBehind t (before ++ kept ++ covered) behind es := by
  obtain ⟨he, hes⟩ := List.pairwise_cons.mp h.ordered
  obtain ⟨hfit, hfits⟩ := List.forall_mem_cons.mp h.fits
  obtain ⟨kept, covered, behind, rfl, hkept, hcovered⟩ := hfit.cut h.text (h.behind e (by simp))
  have hback : byteLength (before ++ kept ++ covered) = e.stop := by
    rw [byteLength_append, byteLength_append]
    omega
  refine ⟨kept, covered, behind, rfl, hkept, hcovered, hback, by simp [h.text], hfits, ?_, hes⟩
  intro d hd
  rw [hback]
  exact (he d hd).1

/-- The first edit of a queue, with the text cut at it. -/
lemma applyEdits_cons {e : Edit} {es : List Edit} {cursor : Nat} {kept covered : List Char}
    (behind : List Char) (hkept : cursor + byteLength kept = e.start)
    (hcovered : e.start + byteLength covered = e.stop) :
    applyEdits (e :: es) cursor (kept ++ (covered ++ behind))
      = kept ++ e.text ++ applyEdits es e.stop behind := by
  have hstart : e.start - cursor = byteLength kept := by omega
  have hlen : e.stop - e.start = byteLength covered := by omega
  rw [applyEdits, hstart, splitAtByte_append]
  simp only [Option.getD_some, hlen, splitAtByte_append]

/-- Going through a queue from left to right gives the edited text. -/
lemma applyEdits_eq_edited {t : List Char} {es : List Edit} {before rest : List Char}
    (h : FitsBehind t before rest es) :
    applyEdits es (byteLength before) rest = edited es (byteLength before) rest := by
  induction es generalizing before rest with
  | nil =>
      have h : edited [] (byteLength before) (rest ++ [])
          = rest ++ edited [] (byteLength before + byteLength rest) [] :=
        edited_append_of_le (by simp)
      rw [List.append_nil, edited] at h
      rw [applyEdits, h]
      simp [textsAt]
  | cons e es ih =>
      obtain ⟨he, -⟩ := List.pairwise_cons.mp h.ordered
      obtain ⟨hfit, hfits⟩ := List.forall_mem_cons.mp h.fits
      obtain ⟨kept, covered, behind, rfl, hkept, hcovered, hback, hqueue⟩ := h.cut
      have hlater : ∀ d ∈ e :: es, d.start ≤ d.stop
          ∧ byteLength before + byteLength kept ≤ d.start := by
        refine List.forall_mem_cons.mpr ⟨by omega, fun d hd => ?_⟩
        have := (he d hd).1
        exact ⟨(hfits d hd).1, by omega⟩
      have hrest := ih hqueue
      rw [hback] at hrest
      calc applyEdits (e :: es) (byteLength before) (kept ++ (covered ++ behind))
          = kept ++ e.text ++ applyEdits es e.stop behind := applyEdits_cons behind hkept hcovered
        _ = kept ++ (e.text ++ edited es e.stop behind) := by rw [hrest, List.append_assoc]
        _ = kept ++ edited (e :: es) e.start (covered ++ behind) := by
            rw [edited_cons_at behind hcovered (fun d hd => (hfits d hd).1) he]
        _ = edited (e :: es) (byteLength before) (kept ++ (covered ++ behind)) := by
            rw [edited_append_of_le hlater, hkept]

/-! ### Slices -/

/-- The text with a queue of edits, put together from slices of the unedited text; nothing if a
slice runs backwards, leaves the text or cuts a character. -/
def slicedText (t : List Char) : List Edit → (cursor : Nat) → Option (List Char)
  | [], cursor => slice? t ⟨cursor, byteLength t⟩
  | e :: es, cursor => do
    let kept ← slice? t ⟨cursor, e.start⟩
    let rest ← slicedText t es e.stop
    return kept ++ e.text ++ rest

/-- All slices that a queue asks for can be taken. -/
lemma slicedText_eq_some {t : List Char} {es : List Edit} {before rest : List Char}
    (h : FitsBehind t before rest es) :
    slicedText t es (byteLength before) = some (applyEdits es (byteLength before) rest) := by
  induction es generalizing before rest with
  | nil =>
      have hslice := slice?_append before rest []
      rw [List.append_nil, ← h.text, ← byteLength_append, ← h.text] at hslice
      rw [slicedText, hslice, applyEdits]
  | cons e es ih =>
      obtain ⟨kept, covered, behind, rfl, hkept, hcovered, hback, hqueue⟩ := h.cut
      have hslice := slice?_append before kept (covered ++ behind)
      have hrest := ih hqueue
      rw [hback] at hrest
      rw [← h.text, hkept] at hslice
      rw [slicedText, hslice, hrest, applyEdits_cons behind hkept hcovered]
      rfl

/-! ### Runs -/

/-- Accepted edits do not touch one another. -/
lemma Draft.Holds.pairwise_not_touches {t : List Char} {accepted : List Edit}
    {appended : List Char} {d : Draft} (h : d.Holds t accepted appended) :
    accepted.Pairwise fun a b => ¬ a.Touches b := by
  have hqueue : d.edits.Pairwise fun a b => ¬ a.Touches b :=
    h.ordered.imp fun hab => hab.not_touches
  exact (h.queue.pairwise_iff fun hab hba => hab hba.symm).mp hqueue

/-- The queue of a draft is to be gone through from the start of the text. -/
lemma Draft.Holds.fitsBehind {t : List Char} {accepted : List Edit} {appended : List Char}
    {d : Draft} (h : d.Holds t accepted appended) : FitsBehind t [] t d.edits :=
  ⟨(List.nil_append t).symm, h.fits, fun _ _ => Nat.zero_le _, h.ordered⟩

/-- The text of a draft, offset by offset. -/
lemma Draft.Holds.finish_eq {t : List Char} {accepted : List Edit} {appended : List Char}
    {d : Draft} (h : d.Holds t accepted appended) :
    d.finish = edited accepted 0 t ++ appended := by
  have happlied : applyEdits d.edits 0 t = edited d.edits 0 t := applyEdits_eq_edited h.fitsBehind
  rw [Draft.finish, h.unedited, h.appended, happlied,
    edited_perm h.queue.symm h.pairwise_not_touches]

/-- **What becomes of a text in any run of calls.** A positional call is accepted exactly if its
edit fits the text and touches no edit accepted before, and one that is refused leaves the draft
alone. The queue holds the accepted edits. Finishing never takes a slice that is not there, and
gives the text with the accepted edits applied to it, followed by all that was added behind the
end. -/
theorem draft_run (t : List Char) (calls : List DraftCall) :
    let d := (Draft.ofText t).run calls
    let accepted := acceptedEdits t calls
    (∀ c e, c.edit? = some e →
        ((∃ d', d.answer c = .ok d') ↔ e.Fits t ∧ ∀ a ∈ accepted, ¬ a.Touches e))
      ∧ (∀ c f, d.answer c = .error f →
        (d.after c).edits = d.edits ∧ (d.after c).appended = d.appended)
      ∧ d.edits.Perm accepted
      ∧ slicedText t d.edits 0 = some (edited accepted 0 t)
      ∧ d.finish = edited accepted 0 t ++ calls.flatMap DraftCall.appended := by
  intro d accepted
  have h : d.Holds t accepted (calls.flatMap DraftCall.appended) := Draft.Holds.run t calls
  have hqueue : FitsBehind t [] t d.edits := h.fitsBehind
  have happlied : applyEdits d.edits 0 t = edited accepted 0 t := by
    rw [edited_perm h.queue.symm h.pairwise_not_touches]
    exact applyEdits_eq_edited hqueue
  refine ⟨fun c e hc => h.exists_answer_eq_ok_iff hc, fun c f hf => ?_, h.queue, ?_, ?_⟩
  · rw [Draft.after_of_error hf]
    exact ⟨rfl, rfl⟩
  · rw [← happlied]
    exact slicedText_eq_some hqueue
  · rw [Draft.finish, h.unedited, happlied, h.appended]

/-- A replacement, an insertion behind it, a refused call and an insertion where a replacement
begins. -/
example : ((Draft.ofText "abcdef".toList).run [.overwrite 1 3 ['X'], .insert 3 ['|'],
    .remove 2 4, .append ['!'], .overwrite 3 5 ['Y']]).finish = "aX|Yf!".toList := by decide

end SvelteStories

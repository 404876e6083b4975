/-
Drafts in which every call has to be accepted, and the order of the calls:

* `Draft.perform`: the draft after calls that are all accepted;
* `Draft.Holds.perform`, `Draft.Holds.exists_perform`: this draft holds the edits of the calls, and it
  exists exactly if they fit the text and no two of them touch;
* `perform_perm`: so the order in which edits are queued decides nothing, neither whether they are
  accepted nor what the text becomes.

Whether two edits touch does not depend on which of them comes first (`Edit.Touches.symm`), and edits
that do not touch have one order in the queue only, that of the text.
-/
import SvelteStories.Proofs.Edit.Finish
import SvelteStories.Proofs.Outcome

namespace SvelteStories

/-! ### Calls that are all accepted -/

/-- The draft after calls that are all accepted, or the fault of the first one that is refused. -/
def Draft.perform (d : Draft) (calls : List DraftCall) : Except Fault Draft :=
  calls.foldlM Draft.answer d

lemma Draft.perform_cons (d : Draft) (c : DraftCall) (calls : List DraftCall) :
    d.perform (c :: calls) = (d.answer c).bind fun d => d.perform calls := rfl

/-- Edits that a text can be given all at once. -/
structure Edit.AllAtOnce (t : List Char) (es : List Edit) : Prop where
  /-- Each fits the text. -/
  fits : ∀ e ∈ es, e.Fits t
  /-- No two of them touch. -/
  apart : es.Pairwise fun a b => ¬ a.Touches b

/-- This does not depend on their order. -/
lemma Edit.AllAtOnce.perm {t : List Char} {es es' : List Edit} (h : AllAtOnce t es)
    (hperm : es.Perm es') : AllAtOnce t es' where
  fits := fun e he => h.fits e (hperm.mem_iff.mpr he)
  apart := (hperm.pairwise_iff fun hab hba => hab hba.symm).mp h.apart

namespace Draft.Holds

variable {t : List Char} {accepted : List Edit} {appended : List Char} {d d' : Draft}
  {calls : List DraftCall}

lemma allAtOnce (h : d.Holds t accepted appended) : Edit.AllAtOnce t accepted where
  fits := fun e he => h.fits e (h.queue.mem_iff.mpr he)
  apart := h.pairwise_not_touches

/-- A call that is accepted adds its edit to those accepted before, and its text to the text behind
the end. -/
lemma answer (h : d.Holds t accepted appended) {c : DraftCall} (hok : d.answer c = .ok d') :
    d'.Holds t (accepted ++ c.edit?.toList) (appended ++ c.appended) := by
  cases c with
  | append text =>
      obtain rfl := Except.ok.inj hok
      simpa [DraftCall.edit?, DraftCall.appended] using h.append text
  | overwrite | remove | insert =>
      simpa [DraftCall.edit?, DraftCall.appended] using (h.of_overwrite hok).2

/-- Calls that are all accepted do so one after the other. -/
lemma perform (h : d.Holds t accepted appended) (hok : d.perform calls = .ok d') :
    d'.Holds t (accepted ++ calls.filterMap DraftCall.edit?)
      (appended ++ calls.flatMap DraftCall.appended) := by
  induction calls generalizing d accepted appended with
  | nil =>
      obtain rfl := Except.ok.inj hok
      simpa using h
  | cons c calls ih =>
      rw [Draft.perform_cons] at hok
      obtain ⟨d₁, hc, hok⟩ := bind_eq_ok_iff.mp hok
      have hcalls := ih (h.answer hc) hok
      have hedits : (c :: calls).filterMap DraftCall.edit?
          = c.edit?.toList ++ calls.filterMap DraftCall.edit? := by
        cases hedit : c.edit? <;> simp [hedit]
      rwa [hedits, List.flatMap_cons, ← List.append_assoc, ← List.append_assoc]

/-- Calls are all accepted if the text can be given their edits besides those accepted before. -/
lemma exists_perform (h : d.Holds t accepted appended)
    (hall : Edit.AllAtOnce t (accepted ++ calls.filterMap DraftCall.edit?)) :
    ∃ d', d.perform calls = .ok d' := by
  induction calls generalizing d accepted appended with
  | nil => exact ⟨d, rfl⟩
  | cons c calls ih =>
      -- the first call is accepted, whether it asks for an edit or adds text behind the end
      have hfirst : ∃ d₁, d.answer c = .ok d₁ := by
        cases hedit : c.edit? with
        | none =>
            obtain ⟨text, rfl⟩ : ∃ text, c = .append text := by
              cases c <;> simp [DraftCall.edit?] at hedit ⊢
            exact ⟨_, rfl⟩
        | some e =>
            refine (h.exists_answer_eq_ok_iff hedit).mpr ⟨hall.fits e (by simp [hedit]), ?_⟩
            exact fun a ha => (List.pairwise_append.mp hall.apart).2.2 a ha e (by simp [hedit])
      obtain ⟨d₁, hd₁⟩ := hfirst
      have hrest : Edit.AllAtOnce t
          ((accepted ++ c.edit?.toList) ++ calls.filterMap DraftCall.edit?) := by
        cases hedit : c.edit? <;> simpa [hedit] using hall
      obtain ⟨d', hd'⟩ := ih (h.answer hd₁) hrest
      exact ⟨d', by rw [Draft.perform_cons, hd₁]; exact hd'⟩

/-- Calls on a text are all accepted exactly if the text can be given their edits all at once. -/
lemma exists_perform_iff :
    (∃ d, (Draft.ofText t).perform calls = .ok d)
      ↔ Edit.AllAtOnce t (calls.filterMap DraftCall.edit?) := by
  constructor
  · rintro ⟨d, hd⟩
    exact ((ofText t).perform hd).allAtOnce
  · exact fun hall => (ofText t).exists_perform hall

end Draft.Holds

/-! ### The order of the calls -/

/-- **The order of the calls does not matter.** Of two lists of calls that ask for the same edits in
any order and add the same text behind the end, either all calls are accepted in both or not all in
either, and then the text becomes the same one. -/
theorem perform_perm {calls calls' : List DraftCall} (t : List Char)
    (hedits : (calls.filterMap DraftCall.edit?).Perm (calls'.filterMap DraftCall.edit?))
    (happended : calls.flatMap DraftCall.appended = calls'.flatMap DraftCall.appended) :
    ((∃ d, (Draft.ofText t).perform calls = .ok d)
        ↔ ∃ d', (Draft.ofText t).perform calls' = .ok d')
      ∧ ∀ d d', (Draft.ofText t).perform calls = .ok d → (Draft.ofText t).perform calls' = .ok d' →
        d.finish = d'.finish := by
  constructor
  · rw [Draft.Holds.exists_perform_iff, Draft.Holds.exists_perform_iff]
    exact ⟨fun h => h.perm hedits, fun h => h.perm hedits.symm⟩
  · intro d d' hd hd'
    have hholds := (Draft.Holds.ofText t).perform hd
    have hholds' := (Draft.Holds.ofText t).perform hd'
    calc d.finish
        = edited ([] ++ calls.filterMap DraftCall.edit?) 0 t
            ++ ([] ++ calls.flatMap DraftCall.appended) := hholds.finish_eq
      _ = edited ([] ++ calls'.filterMap DraftCall.edit?) 0 t
            ++ ([] ++ calls'.flatMap DraftCall.appended) := by
          rw [happended, edited_perm (hedits.append_left []) hholds.pairwise_not_touches]
      _ = d'.finish := hholds'.finish_eq.symm

/-- Insertions before and behind replacements that meet, queued from the left and from the right. -/
theorem abcdef_perform_perm :
    let calls := [.overwrite 1 3 ['X'], .insert 3 ['|'], .append ['!'], .overwrite 3 5 ['Y'],
      .insert 1 ['(']]
    let calls' := [.append ['!'], .overwrite 3 5 ['Y'], .insert 3 ['|'], .insert 1 ['('],
      .overwrite 1 3 ['X']]
    (calls.filterMap DraftCall.edit?).Perm (calls'.filterMap DraftCall.edit?)
      ∧ calls.flatMap DraftCall.appended = calls'.flatMap DraftCall.appended
      ∧ ∃ d d', (Draft.ofText "abcdef".toList).perform calls = .ok d
        ∧ (Draft.ofText "abcdef".toList).perform calls' = .ok d'
        ∧ d.finish = "a(X|Yf!".toList ∧ d'.finish = "a(X|Yf!".toList := by
  intro calls calls'
  have hedits : (calls.filterMap DraftCall.edit?).Perm (calls'.filterMap DraftCall.edit?) := by
    decide
  obtain ⟨hiff, hfinish⟩ := perform_perm "abcdef".toList hedits rfl
  obtain ⟨d, hd, htext⟩ : ∃ d, (Draft.ofText "abcdef".toList).perform calls = .ok d
      ∧ d.finish = "a(X|Yf!".toList := ⟨_, rfl, by decide⟩
  obtain ⟨d', hd'⟩ := hiff.mp ⟨d, hd⟩
  exact ⟨hedits, rfl, d, d', hd, hd', htext, (hfinish d d' hd hd').symm.trans htext⟩

end SvelteStories

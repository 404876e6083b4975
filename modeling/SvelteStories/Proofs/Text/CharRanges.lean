/-
Ranges of code points in increasing order, compared with one another:

* `rangesWithin`, `inRanges_of_rangesWithin`: one table holds whatever another one holds;
* `rangesApart`, `inRanges_of_rangesApart`: two tables have nothing in common.

Both go through the two tables side by side, once.
-/
import Mathlib.Data.List.Chain
import Mathlib.Data.List.TakeWhile
import SvelteStories.Text.CharClass

namespace SvelteStories

variable {rs ss : List (Nat × Nat)} {r s : Nat × Nat} {k n : Nat}

lemma inRanges_iff : inRanges rs n = true ↔ ∃ r ∈ rs, r.1 ≤ n ∧ n ≤ r.2 := by
  simp [inRanges]

lemma inRanges_append : inRanges (rs ++ ss) n = (inRanges rs n || inRanges ss n) :=
  List.any_append

/-- A character beyond ASCII is none of ASCII. -/
lemma decide_eq_of_not_ascii {c d : Char} (hascii : ¬ c.toNat < 0x80) (hd : d.toNat < 0x80) :
    decide (c = d) = false := by
  rw [decide_eq_false_iff_not]
  rintro rfl
  exact hascii hd

/-! ### Tables within tables -/

/-- Whether every range of the second table is part of a range of the first one. -/
def rangesWithin : List (Nat × Nat) → List (Nat × Nat) → Bool
  | [], rs => rs.isEmpty
  | s :: ss, rs => rangesWithin ss (rs.dropWhile fun r => s.1 ≤ r.1 && r.2 ≤ s.2)

lemma exists_of_rangesWithin (h : rangesWithin ss rs = true) (hr : r ∈ rs) :
    ∃ s ∈ ss, s.1 ≤ r.1 ∧ r.2 ≤ s.2 := by
  induction ss generalizing rs with
  | nil => rw [List.isEmpty_iff.mp h] at hr; cases hr
  | cons s ss ih =>
      rw [← List.takeWhile_append_dropWhile (p := fun r => s.1 ≤ r.1 && r.2 ≤ s.2) (l := rs),
        List.mem_append] at hr
      obtain hr | hr := hr
      · exact ⟨s, List.mem_cons_self, by simpa using List.mem_takeWhile_imp hr⟩
      · obtain ⟨s', hs', hin⟩ := ih h hr
        exact ⟨s', List.mem_cons_of_mem s hs', hin⟩

lemma inRanges_of_rangesWithin (h : rangesWithin ss rs = true) (hn : inRanges rs n = true) :
    inRanges ss n = true := by
  obtain ⟨r, hr, hle, hge⟩ := inRanges_iff.mp hn
  obtain ⟨s, hs, hstart, hstop⟩ := exists_of_rangesWithin h hr
  exact inRanges_iff.mpr ⟨s, hs, by omega, by omega⟩

/-! ### Tables with nothing in common -/

/-- Whether every range of the first table ends before a range of the second one starts, or starts
behind the end of it. -/
def rangesApart : List (Nat × Nat) → List (Nat × Nat) → Bool
  | [], _ => true
  | s :: ss, rs =>
    match rs.dropWhile fun r => r.2 < s.1 with
    | [] => true
    | r :: rs => s.2 < r.1 && rangesApart ss (r :: rs)

/-- Whether the ranges start one behind the other. -/
def isAscending : List (Nat × Nat) → Bool
  | r :: s :: rs => r.1 ≤ s.1 && isAscending (s :: rs)
  | _ => true

lemma pairwise_of_isAscending (h : isAscending rs = true) : rs.Pairwise fun a b => a.1 ≤ b.1 := by
  have : IsTrans (Nat × Nat) fun a b => a.1 ≤ b.1 := ⟨fun _ _ _ => le_trans⟩
  rw [← List.isChain_iff_pairwise]
  induction rs with
  | nil => exact .nil
  | cons r rs ih =>
      cases rs with
      | nil => exact .singleton r
      | cons s rs =>
          rw [isAscending, Bool.and_eq_true, decide_eq_true_eq] at h
          exact .cons_cons h.1 (ih h.2)

/-- What stands in ranges behind `k` is not before `k`. -/
lemma le_of_inRanges (hstart : ∀ r ∈ rs, k ≤ r.1) (hn : inRanges rs n = true) : k ≤ n := by
  obtain ⟨r, hr, hle, -⟩ := inRanges_iff.mp hn
  exact (hstart r hr).trans hle

lemma not_inRanges_of_rangesApart (hss : ss.Pairwise fun a b => a.1 ≤ b.1)
    (hrs : rs.Pairwise fun a b => a.1 ≤ b.1) (h : rangesApart ss rs = true)
    (hs : inRanges ss n = true) : inRanges rs n = false := by
  induction ss generalizing rs with
  | nil => cases hs
  | cons s ss ih =>
      obtain ⟨hstart, hss⟩ := List.pairwise_cons.mp hss
      have hle : s.1 ≤ n := le_of_inRanges (List.forall_mem_cons.mpr ⟨le_rfl, hstart⟩) hs
      -- the ranges that end before `s` starts do not hold `n`
      have hbefore : inRanges (rs.takeWhile fun r => r.2 < s.1) n = false := by
        rw [← Bool.not_eq_true, inRanges_iff]
        rintro ⟨r, hr, -, hge⟩
        have hend : r.2 < s.1 := by simpa using List.mem_takeWhile_imp hr
        omega
      rw [← List.takeWhile_append_dropWhile (p := fun r => r.2 < s.1) (l := rs), inRanges_append,
        hbefore, Bool.false_or]
      have hbehind := hrs.sublist (List.dropWhile_sublist fun r => r.2 < s.1)
      rw [rangesApart] at h
      generalize rs.dropWhile (fun r => r.2 < s.1) = behind at h hbehind
      cases behind with
      | nil => rfl
      | cons r behind =>
          simp only [Bool.and_eq_true, decide_eq_true_eq] at h
          rw [inRanges, List.any_cons, Bool.or_eq_true] at hs
          obtain hn | hn := hs
          · rw [← Bool.not_eq_true]
            intro hin
            have hge := le_of_inRanges
              (List.forall_mem_cons.mpr ⟨le_rfl, (List.pairwise_cons.mp hbehind).1⟩) hin
            simp only [Bool.and_eq_true, decide_eq_true_eq] at hn
            omega
          · exact ih hss hbehind h.2 hn

/-- Of two ascending tables that are apart, the second one holds nothing that the first one holds. -/
lemma inRanges_of_rangesApart (hss : isAscending ss = true) (hrs : isAscending rs = true)
    (h : rangesApart ss rs = true) (hs : inRanges ss n = true) : inRanges rs n = false :=
  not_inRanges_of_rangesApart (pairwise_of_isAscending hss) (pairwise_of_isAscending hrs) h hs

end SvelteStories

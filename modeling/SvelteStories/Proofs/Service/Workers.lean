/-
The work on a batch, in whatever order its steps are taken:

* `BatchWork.Step`: what a step does to the stages and the counts;
* `BatchRun.remaining`: the steps that are still to come, so that every schedule ends;
* `BatchWork.Follows`: what every step preserves, the counts included;
* `Follows.batch_eq`: a run that has ended gives what the service gives for the batch;
* `indexAll_schedules`: all of this, and what the service gives for a batch.
-/
import Mathlib.Algebra.GroupWithZero.Nat
import Mathlib.Tactic.Common
import SvelteStories.Proofs.Service.Reports
import SvelteStories.Service.Workers

namespace SvelteStories

variable {w : BatchWork} {run run' : BatchRun} {place : Nat} {inputs : List BatchFile}

/-! ### Steps -/

/-- What a step does: it moves the work on one file on, and leaves the work on the others alone. -/
inductive BatchWork.Step (w : BatchWork) : BatchRun → BatchRun → Prop
  /-- A worker takes the file up. -/
  | take {before after : List FileStage} {file : BatchFile} {total succeeded failed : UInt32}
      (hdone : w.continueOnError = false → ∀ stage ∈ before, stage.isDone = true) :
      w.Step ⟨before ++ .waiting file :: after, total, succeeded, failed⟩
        ⟨before ++ .taken file :: after, total, succeeded, failed⟩
  /-- It indexes the file and counts it among those of its kind. -/
  | count {before after : List FileStage} {file : BatchFile} {total succeeded failed : UInt32} :
      w.Step ⟨before ++ .taken file :: after, total, succeeded, failed⟩
        (BatchRun.count ⟨before ++ .counted (w.indexFile file) :: after, total, succeeded, failed⟩
          (w.indexFile file))
  /-- It puts what became of the file at its place in the results. -/
  | store {before after : List FileStage} {r : BatchOutcome} {total succeeded failed : UInt32} :
      w.Step ⟨before ++ .counted r :: after, total, succeeded, failed⟩
        ⟨before ++ .stored r :: after, total, succeeded, failed⟩

lemma BatchRun.setStage_count (run : BatchRun) (r : BatchOutcome) (place : Nat) (stage : FileStage) :
    (run.count r).setStage place stage = (run.setStage place stage).count r := by
  rw [BatchRun.count, BatchRun.count]
  split_ifs <;> rfl

/-- A stage at a place stands between those before it and those behind it. -/
lemma exists_stages_eq {stages : List FileStage} {stage : FileStage}
    (h : stages[place]? = some stage) :
    ∃ before after, stages = before ++ stage :: after ∧ before.length = place := by
  obtain ⟨hlt, rfl⟩ := List.getElem?_eq_some_iff.mp h
  refine ⟨stages.take place, stages.drop (place + 1), ?_, List.length_take_of_le hlt.le⟩
  rw [List.getElem_cons_drop, List.take_append_drop]

lemma BatchWork.step_of_step? (h : w.step? run place = some run') : w.Step run run' := by
  obtain ⟨stages, total, succeeded, failed⟩ := run
  rw [BatchWork.step?] at h
  split at h
  case h_1 file hstage =>
    obtain ⟨before, after, rfl, rfl⟩ := exists_stages_eq hstage
    split_ifs at h with hmay
    rw [← Option.some.inj h, BatchRun.setStage, List.set_append_right _ _ le_rfl, Nat.sub_self,
      List.set_cons_zero]
    refine .take fun hstop stage hmem => ?_
    rw [BatchWork.mayTake, hstop, if_neg Bool.false_ne_true, List.take_left,
      List.all_eq_true] at hmay
    exact hmay stage hmem
  case h_2 file hstage =>
    obtain ⟨before, after, rfl, rfl⟩ := exists_stages_eq hstage
    rw [← Option.some.inj h, BatchRun.setStage_count, BatchRun.setStage,
      List.set_append_right _ _ le_rfl, Nat.sub_self, List.set_cons_zero]
    exact .count
  case h_3 r hstage =>
    obtain ⟨before, after, rfl, rfl⟩ := exists_stages_eq hstage
    rw [← Option.some.inj h, BatchRun.setStage, List.set_append_right _ _ le_rfl, Nat.sub_self,
      List.set_cons_zero]
    exact .store
  all_goals cases h

/-- What every step preserves, every schedule preserves. -/
lemma BatchWork.run?_induction {P : BatchRun → Prop} {schedule : List Nat}
    (hstep : ∀ {run run'}, w.Step run run' → P run → P run') (h : w.run? run schedule = some run')
    (hrun : P run) : P run' := by
  induction schedule generalizing run with
  | nil => exact Option.some.inj h ▸ hrun
  | cons place schedule ih =>
      rw [BatchWork.run?, List.foldlM_cons] at h
      obtain ⟨next, hnext, hrest⟩ := Option.bind_eq_some_iff.mp h
      exact ih hrest (hstep (step_of_step? hnext) hrun)

/-! ### Schedules end -/

/-- The steps that are still to be taken on a file. -/
def FileStage.remaining : FileStage → Nat
  | waiting _ => 3
  | taken _ => 2
  | counted _ => 1
  | stored _ => 0

/-- The steps that are still to be taken on a batch. -/
def BatchRun.remaining (run : BatchRun) : Nat :=
  (run.stages.map FileStage.remaining).sum

lemma BatchRun.remaining_count (run : BatchRun) (r : BatchOutcome) :
    (run.count r).remaining = run.remaining := by
  rw [BatchRun.count]
  split_ifs <;> rfl

lemma BatchRun.remaining_start (inputs : List BatchFile) :
    (BatchRun.start inputs).remaining = 3 * inputs.length := by
  have hthree : inputs.map (FileStage.remaining ∘ .waiting) = List.replicate inputs.length 3 :=
    List.map_const' ..
  rw [BatchRun.remaining, BatchRun.start, List.map_map, hthree, List.sum_replicate_nat, Nat.mul_comm]

lemma BatchWork.Step.remaining (h : w.Step run run') : run.remaining = run'.remaining + 1 := by
  cases h with
  | take =>
      simp only [BatchRun.remaining, List.map_append, List.map_cons, List.sum_append, List.sum_cons,
        FileStage.remaining]
      omega
  | count =>
      rw [BatchRun.remaining_count]
      simp only [BatchRun.remaining, List.map_append, List.map_cons, List.sum_append, List.sum_cons,
        FileStage.remaining]
      omega
  | store =>
      simp only [BatchRun.remaining, List.map_append, List.map_cons, List.sum_append, List.sum_cons,
        FileStage.remaining]
      omega

lemma BatchWork.remaining_run? {schedule : List Nat} (h : w.run? run schedule = some run') :
    run.remaining = run'.remaining + schedule.length := by
  induction schedule generalizing run with
  | nil => rw [Option.some.inj h, List.length_nil, Nat.add_zero]
  | cons place schedule ih =>
      rw [BatchWork.run?, List.foldlM_cons] at h
      obtain ⟨next, hnext, hrest⟩ := Option.bind_eq_some_iff.mp h
      rw [(step_of_step? hnext).remaining, ih hrest, List.length_cons, Nat.add_assoc]

/-- Whether no step can be taken any more. -/
def BatchWork.Finished (w : BatchWork) (run : BatchRun) : Prop :=
  ∀ place, w.step? run place = none

lemma BatchWork.finished_of_remaining_eq_zero (w : BatchWork) (h : run.remaining = 0) :
    w.Finished run := by
  intro place
  by_contra hplace
  obtain ⟨next, hnext⟩ := Option.ne_none_iff_exists'.mp hplace
  have hless := (step_of_step? hnext).remaining
  omega

/-- Whatever has been done, the work can be brought to an end. -/
lemma BatchWork.exists_finished (w : BatchWork) (run : BatchRun) :
    ∃ schedule final, w.run? run schedule = some final ∧ w.Finished final := by
  induction hleft : run.remaining using Nat.strong_induction_on generalizing run with
  | _ left ih =>
      by_cases hfinished : w.Finished run
      · exact ⟨[], run, rfl, hfinished⟩
      · rw [BatchWork.Finished, not_forall] at hfinished
        obtain ⟨place, hplace⟩ := hfinished
        obtain ⟨next, hnext⟩ := Option.ne_none_iff_exists'.mp hplace
        have hless := (step_of_step? hnext).remaining
        obtain ⟨schedule, final, hrun, hfinal⟩ := ih next.remaining (by omega) next rfl
        refine ⟨place :: schedule, final, ?_, hfinal⟩
        rw [BatchWork.run?, List.foldlM_cons, hnext]
        exact hrun

/-! ### What every step preserves -/

/-- What will have become of a file, or has become of it. -/
def BatchWork.outcome (w : BatchWork) : FileStage → BatchOutcome
  | .waiting file | .taken file => w.indexFile file
  | .counted r | .stored r => r

/-- What has become of the files that are counted. -/
def BatchRun.counted (run : BatchRun) : List BatchOutcome :=
  run.stages.filterMap FileStage.counted?

lemma counted_start (inputs : List BatchFile) : (BatchRun.start inputs).counted = [] := by
  rw [BatchRun.counted, BatchRun.start, List.filterMap_map, List.filterMap_eq_nil_iff]
  exact fun _ _ => rfl

/-- A run that started on the files of a batch: what becomes of each file is what indexing it gives,
both counts are right, and a batch that does not go on behind failures is worked on in order. -/
structure BatchWork.Follows (w : BatchWork) (inputs : List BatchFile) (run : BatchRun) : Prop where
  outcomes : run.stages.map w.outcome = inputs.map w.indexFile
  total : run.total = .ofNat inputs.length
  succeeded : run.succeeded = .ofNat (run.counted.countP (!·.isFailure))
  failed : run.failed = .ofNat (run.counted.countP BatchOutcome.isFailure)
  ordered : w.continueOnError = false →
    run.stages.Pairwise fun first second => second.isWaiting = true ∨ first.isDone = true

namespace BatchWork.Follows

lemma start (w : BatchWork) (inputs : List BatchFile) : w.Follows inputs (.start inputs) where
  outcomes := by
    rw [BatchRun.start, List.map_map]
    rfl
  total := rfl
  succeeded := by rw [counted_start]; rfl
  failed := by rw [counted_start]; rfl
  ordered _ := List.pairwise_map.mpr (List.pairwise_of_forall fun _ _ => Or.inl rfl)

/-- Order is kept when work goes on with a file behind which nothing is under way. -/
lemma ordered_replace {before after : List FileStage} {stage : FileStage} (next : FileStage)
    (hstage : stage.isDone = false)
    (hdone : stage.isWaiting = true → ∀ first ∈ before, first.isDone = true)
    (h : (before ++ stage :: after).Pairwise fun first second =>
      second.isWaiting = true ∨ first.isDone = true) :
    (before ++ next :: after).Pairwise fun first second =>
      second.isWaiting = true ∨ first.isDone = true := by
  obtain ⟨hbefore, hrest, hacross⟩ := List.pairwise_append.mp h
  obtain ⟨hbehind, hafter⟩ := List.pairwise_cons.mp hrest
  refine List.pairwise_append.mpr ⟨hbefore, List.pairwise_cons.mpr ⟨fun second hmem => ?_, hafter⟩,
    fun first hfirst second hsecond => ?_⟩
  · exact Or.inl ((hbehind second hmem).resolve_right (by simp [hstage]))
  · rcases List.mem_cons.mp hsecond with rfl | hmem
    · have hold := hacross first hfirst stage List.mem_cons_self
      exact Or.inr (hold.elim (fun hwaiting => hdone hwaiting first hfirst) id)
    · exact hacross first hfirst second (List.mem_cons_of_mem _ hmem)

/-- Counting a file counts it once, among those of its kind. -/
lemma count {before after : List FileStage} {file : BatchFile} {total succeeded failed : UInt32}
    (hrun : w.Follows inputs ⟨before ++ .taken file :: after, total, succeeded, failed⟩) :
    w.Follows inputs
      (BatchRun.count ⟨before ++ .counted (w.indexFile file) :: after, total, succeeded, failed⟩
        (w.indexFile file)) := by
  obtain ⟨houtcomes, htotal, hsucceeded, hfailed, hordered⟩ := hrun
  have houtcomes' : (before ++ .counted (w.indexFile file) :: after).map w.outcome
      = inputs.map w.indexFile := by
    simpa [BatchWork.outcome] using houtcomes
  have hordered' := fun hstop => ordered_replace (.counted (w.indexFile file)) rfl
    (fun hwaiting => by cases hwaiting) (hordered hstop)
  simp only [BatchRun.counted, List.filterMap_append, List.filterMap_cons, FileStage.counted?,
    List.countP_append] at hsucceeded hfailed
  rw [BatchRun.count]
  cases hkind : (w.indexFile file).isFailure
  · refine ⟨houtcomes', htotal, ?_, ?_, hordered'⟩
    · simp [BatchRun.counted, FileStage.counted?, hkind, hsucceeded,
        UInt32.add_assoc]
    · simp [BatchRun.counted, FileStage.counted?, hkind, hfailed]
  · refine ⟨houtcomes', htotal, ?_, ?_, hordered'⟩
    · simp [BatchRun.counted, FileStage.counted?, hkind, hsucceeded]
    · simp [BatchRun.counted, FileStage.counted?, hkind, hfailed,
        UInt32.add_assoc]

/-- Moving on with a file without counting it changes no count. -/
lemma replace {before after : List FileStage} {stage next : FileStage}
    {total succeeded failed : UInt32}
    (hrun : w.Follows inputs ⟨before ++ stage :: after, total, succeeded, failed⟩)
    (hstage : stage.isDone = false) (houtcome : w.outcome next = w.outcome stage)
    (hcounted : next.counted? = stage.counted?)
    (hdone : w.continueOnError = false → stage.isWaiting = true →
      ∀ first ∈ before, first.isDone = true) :
    w.Follows inputs ⟨before ++ next :: after, total, succeeded, failed⟩ := by
  obtain ⟨houtcomes, htotal, hsucceeded, hfailed, hordered⟩ := hrun
  have hcounts : (before ++ next :: after).filterMap FileStage.counted?
      = (before ++ stage :: after).filterMap FileStage.counted? := by
    rw [List.filterMap_append, List.filterMap_append, List.filterMap_cons, List.filterMap_cons,
      hcounted]
  refine ⟨?_, htotal, ?_, ?_, fun hstop => ?_⟩
  · rw [List.map_append, List.map_cons, houtcome, ← List.map_cons, ← List.map_append]
    exact houtcomes
  · rw [BatchRun.counted, hcounts]
    exact hsucceeded
  · rw [BatchRun.counted, hcounts]
    exact hfailed
  · exact ordered_replace next hstage (hdone hstop) (hordered hstop)

lemma step (h : w.Step run run') (hrun : w.Follows inputs run) : w.Follows inputs run' := by
  cases h with
  | take hdone => exact hrun.replace rfl rfl rfl fun hstop _ => hdone hstop
  | count => exact hrun.count
  | store => exact hrun.replace rfl rfl rfl fun _ hwaiting => by cases hwaiting

lemma of_run? {schedule : List Nat} (h : w.run? (.start inputs) schedule = some run) :
    w.Follows inputs run :=
  BatchWork.run?_induction step h (start w inputs)

end BatchWork.Follows

/-! ### The end of the work -/

section Finished

variable (hfinished : w.Finished run)

include hfinished

/-- When no step can be taken, no worker is busy. -/
lemma BatchWork.Finished.isUnderWay_eq_false {stage : FileStage} (hmem : stage ∈ run.stages) :
    stage.isUnderWay = false := by
  obtain ⟨place, hplace⟩ := List.mem_iff_getElem?.mp hmem
  have hnone := hfinished place
  rw [BatchWork.step?, hplace] at hnone
  cases stage with
  | waiting file => rfl
  | taken file => cases hnone
  | counted r => cases hnone
  | stored r => rfl

/-- When no step can be taken, no waiting file may be taken up. -/
lemma BatchWork.Finished.mayTake_eq_false {before after : List FileStage} {file : BatchFile}
    (hstages : run.stages = before ++ .waiting file :: after) :
    w.mayTake run.stages before.length = false := by
  have hnone := hfinished before.length
  rw [BatchWork.step?, hstages, List.getElem?_append_right le_rfl, Nat.sub_self,
    List.getElem?_cons_zero] at hnone
  rw [hstages]
  simpa using hnone

/-- When no step can be taken, what has been counted stands in the results. -/
lemma BatchWork.Finished.counted_eq : run.counted = run.batch.results := by
  refine List.filterMap_congr fun stage hmem => ?_
  have hstage := hfinished.isUnderWay_eq_false hmem
  cases stage with
  | waiting file => rfl
  | taken file => cases hstage
  | counted r => cases hstage
  | stored r => rfl

/-- A batch that goes on behind failures ends when all files are done. -/
lemma BatchWork.Finished.results_of_continue (hworkers : 0 < w.workers)
    (hcontinue : w.continueOnError = true) : run.batch.results = run.stages.map w.outcome := by
  have hquiet : run.stages.countP FileStage.isUnderWay = 0 :=
    List.countP_eq_zero.mpr fun stage hmem => by simp [hfinished.isUnderWay_eq_false hmem]
  have hstored : ∀ stage ∈ run.stages, stage.stored? = some (w.outcome stage) := by
    intro stage hmem
    have hstage := hfinished.isUnderWay_eq_false hmem
    cases stage with
    | waiting file =>
        obtain ⟨before, after, hstages⟩ := List.append_of_mem hmem
        have hmay := hfinished.mayTake_eq_false hstages
        rw [BatchWork.mayTake, if_pos hcontinue, hquiet] at hmay
        exact absurd hworkers (of_decide_eq_false hmay)
    | taken file => cases hstage
    | counted r => cases hstage
    | stored r => rfl
  rw [BatchRun.batch, List.filterMap_congr hstored, List.filterMap_eq_map']

end Finished

/-! ### Up to the first failure -/

section ThroughFirst

variable {α : Type} (test : α → Bool) (as : List α)

lemma throughFirst_eq_take : throughFirst test as = as.take (as.findIdx test + 1) := by
  induction as with
  | nil => rfl
  | cons a as ih =>
      rw [throughFirst, List.findIdx_cons]
      cases test a
      · simp [ih]
      · simp

lemma length_throughFirst_le : (throughFirst test as).length ≤ as.length := by
  rw [throughFirst_eq_take]
  exact List.length_take_le' ..

/-- At most one element satisfies the test. -/
lemma countP_throughFirst_le : (throughFirst test as).countP test ≤ 1 := by
  induction as with
  | nil => exact Nat.zero_le 1
  | cons a as ih =>
      rw [throughFirst]
      split_ifs with ha
      · exact List.countP_le_length
      · rwa [List.countP_cons_of_neg ha]

end ThroughFirst

/-- The stored outcomes of a batch that is worked on in order, when it ends. -/
lemma filterMap_stored?_eq {stages : List FileStage}
    (hordered : stages.Pairwise fun first second => second.isWaiting = true ∨ first.isDone = true)
    (hquiet : ∀ stage ∈ stages, stage.isUnderWay = false)
    (hwaiting : ∀ (before : List FileStage) (file : BatchFile) (after : List FileStage),
      stages = before ++ .waiting file :: after →
      ¬ ∀ first ∈ before, first.isDone = true) :
    stages.filterMap FileStage.stored?
      = throughFirst BatchOutcome.isFailure (stages.map w.outcome) := by
  induction stages with
  | nil => rfl
  | cons stage stages ih =>
      obtain ⟨hbehind, hordered'⟩ := List.pairwise_cons.mp hordered
      obtain ⟨hstage, hquiet'⟩ := List.forall_mem_cons.mp hquiet
      cases stage with
      | waiting file => exact absurd (by simp) (hwaiting [] file stages rfl)
      | taken file => cases hstage
      | counted r => cases hstage
      | stored r =>
          show r :: stages.filterMap FileStage.stored?
            = throughFirst BatchOutcome.isFailure (r :: stages.map w.outcome)
          rw [throughFirst]
          by_cases hkind : r.isFailure = true
          · -- nothing behind a failure has been taken up
            have hrest : stages.filterMap FileStage.stored? = [] := by
              refine List.filterMap_eq_nil_iff.mpr fun second hmem => ?_
              rcases hbehind second hmem with hwait | hdone
              · cases second <;> first | rfl | cases hwait
              · simp [FileStage.isDone, FileStage.stored?, hkind] at hdone
            rw [if_pos hkind, hrest]
          · rw [if_neg hkind, ih hordered' hquiet' fun before file after hstages hdone => ?_]
            refine hwaiting (.stored r :: before) file after (by rw [hstages, List.cons_append]) ?_
            refine List.forall_mem_cons.mpr ⟨?_, hdone⟩
            simpa [FileStage.isDone, FileStage.stored?] using hkind

/-- A batch that does not go on behind failures ends with the first of them. -/
lemma BatchWork.Finished.results_of_stop (hfinished : w.Finished run)
    (hrun : w.Follows inputs run) (hstop : w.continueOnError = false) :
    run.batch.results = throughFirst BatchOutcome.isFailure (run.stages.map w.outcome) := by
  refine filterMap_stored?_eq (hrun.ordered hstop) (fun _ => hfinished.isUnderWay_eq_false) ?_
  intro before file after hstages hdone
  have hmay := hfinished.mayTake_eq_false hstages
  rw [BatchWork.mayTake, hstop, if_neg Bool.false_ne_true, hstages, List.take_left] at hmay
  exact absurd (List.all_eq_true.mpr hdone) (by simp [hmay])

/-- A run that has ended gives what the hooks give for the batch. -/
lemma BatchWork.Follows.batch_eq {h : Hooks} {continueOnError : Bool} {workers : Nat}
    (hrun : BatchWork.Follows ⟨h.indexBatchFile, continueOnError, workers⟩ inputs run)
    (hfinished : BatchWork.Finished ⟨h.indexBatchFile, continueOnError, workers⟩ run)
    (hworkers : 0 < workers) (hlength : inputs.length < 2 ^ 32) :
    run.batch = h.indexAll continueOnError inputs := by
  have hresults : run.batch.results = (h.indexAll continueOnError inputs).results := by
    cases continueOnError with
    | true =>
        rw [hfinished.results_of_continue hworkers rfl, hrun.outcomes]
        rfl
    | false =>
        rw [hfinished.results_of_stop hrun rfl, hrun.outcomes]
        rfl
  have hle : (h.indexAll continueOnError inputs).results.length ≤ inputs.length := by
    rw [Hooks.indexAll]
    dsimp only
    split_ifs
    · rw [List.length_map]
    · exact (length_throughFirst_le _ _).trans (List.length_map ..).le
  have hcount : ∀ test : BatchOutcome → Bool,
      (UInt32.ofNat (run.counted.countP test)).toNat
        = (h.indexAll continueOnError inputs).results.countP test := by
    intro test
    have hlt : (h.indexAll continueOnError inputs).results.countP test < 2 ^ 32 :=
      (List.countP_le_length.trans hle).trans_lt hlength
    rw [hfinished.counted_eq, hresults, UInt32.toNat_ofNat_of_lt' hlt]
  have htotal : run.total.toNat = inputs.length := by
    rw [hrun.total, UInt32.toNat_ofNat_of_lt' hlength]
  have hsucceeded : run.succeeded.toNat = (h.indexAll continueOnError inputs).succeeded := by
    rw [hrun.succeeded, hcount]
    rfl
  have hfailed : run.failed.toNat = (h.indexAll continueOnError inputs).failed := by
    rw [hrun.failed, hcount]
    rfl
  calc run.batch
      = ⟨run.batch.results, run.total.toNat, run.succeeded.toNat, run.failed.toNat⟩ := rfl
    _ = h.indexAll continueOnError inputs := by
        rw [hresults, htotal, hsucceeded, hfailed]
        rfl

/-! ### The batch -/

/-- What becomes of a file of a batch is what becomes of it alone, under the name that stands for
it in reports. -/
lemma indexBatchFile_eq (s : Service) (i : BatchFile) :
    s.hooks.indexBatchFile i
      = ⟨i.id, (s.fileIndex (i.path.getD i.id) i.text).mapError Failure.message⟩ := by
  rw [Hooks.indexBatchFile, Service.fileIndex, Service.index, BatchFile.filename]
  cases s.hooks.index (i.path.getD i.id) i.text <;> rfl

/-- A file that cannot be indexed is told by a report on it. -/
lemma exists_report_of_error {s : Service} {i : BatchFile} {message : String}
    (h : (s.fileIndex (i.path.getD i.id) i.text).mapError Failure.message = .error message) :
    ∃ r : Report, r.filename = i.path.getD i.id ∧ message = r.display := by
  rw [Service.fileIndex, Service.index] at h
  cases hindex : s.hooks.index (i.path.getD i.id) i.text with
  | ok index =>
      rw [hindex] at h
      cases h
  | error r =>
      rw [hindex] at h
      exact ⟨r, reportsOn_indexStories _ _ r hindex, (Except.error.inj h).symm⟩

lemma BatchOptions.workers_pos (o : BatchOptions) {pool? : UInt32 → Option Nat} {standing : Nat}
    (hpool : ∀ threads size, pool? threads = some size → 0 < size) (hstanding : 0 < standing) :
    0 < o.workers pool? standing := by
  rw [BatchOptions.workers]
  cases hsize : o.maxThreads.bind pool? with
  | none => exact hstanding
  | some size =>
      obtain ⟨threads, -, hthreads⟩ := Option.bind_eq_some_iff.mp hsize
      exact hpool threads size hthreads

/-- **Batches.** Whatever steps on whatever files the workers have taken, the work can be brought to
an end, after three steps for each file at most; and when it has ended, the batch is the same for all
schedules and for any number of threads, as long as pools have a worker. If it goes on behind
failures, the results are those of the files alone, in the order of the files, and both counts sum
to the number of files. If it does not, they are these results up to the first failure. The report of
a failure names the path that was given, or else the id. -/
theorem indexAll_schedules (s : Service) (options : Option BatchOptions) (inputs : List BatchFile)
    (pool? : UInt32 → Option Nat) (standing : Nat)
    (hpool : ∀ threads size, pool? threads = some size → 0 < size) (hstanding : 0 < standing)
    (hlength : inputs.length < 2 ^ 32) :
    let o := options.getD ⟨none, none⟩
    let work := s.batchWork o (o.workers pool? standing)
    let batch := s.indexAll o.continueOnError inputs
    let alone := inputs.map fun i : BatchFile =>
      (⟨i.id, (s.fileIndex (i.path.getD i.id) i.text).mapError Failure.message⟩ : BatchOutcome)
    (∀ schedule run, work.run? (.start inputs) schedule = some run →
        schedule.length ≤ 3 * inputs.length
          ∧ (work.Finished run → run.batch = batch)
          ∧ ∃ more final, work.run? run more = some final ∧ work.Finished final)
      ∧ batch.total = inputs.length
      ∧ batch.succeeded = batch.results.countP (!·.isFailure)
      ∧ batch.failed = batch.results.countP BatchOutcome.isFailure
      ∧ batch.succeeded + batch.failed = batch.results.length
      ∧ (o.continueOnError.getD true = true →
          batch.results = alone ∧ batch.succeeded + batch.failed = batch.total)
      ∧ (o.continueOnError.getD true = false →
          batch.results = alone.take (alone.findIdx BatchOutcome.isFailure + 1) ∧ batch.failed ≤ 1)
      ∧ ∀ i ∈ inputs, ∀ message,
          (s.fileIndex (i.path.getD i.id) i.text).mapError Failure.message = .error message →
            ∃ r : Report, r.filename = i.path.getD i.id ∧ message = r.display := by
  intro o work batch alone
  have halone : inputs.map s.hooks.indexBatchFile = alone :=
    List.map_congr_left fun i _ => indexBatchFile_eq s i
  have hcounts : batch.succeeded + batch.failed = batch.results.length := by
    have hsplit := List.length_eq_countP_add_countP BatchOutcome.isFailure (l := batch.results)
    simp only [Bool.not_eq_true, Bool.decide_eq_false] at hsplit
    rw [hsplit, Nat.add_comm]
    rfl
  refine ⟨fun schedule run hrun => ⟨?_, fun hfinished => ?_, work.exists_finished run⟩, rfl, rfl,
    rfl, hcounts, fun hcontinue => ?_, fun hstop => ?_, fun i _ message => exists_report_of_error⟩
  · have hsteps := BatchWork.remaining_run? hrun
    rw [BatchRun.remaining_start] at hsteps
    omega
  · exact (BatchWork.Follows.of_run? hrun).batch_eq hfinished (o.workers_pos hpool hstanding)
      hlength
  · have hresults : batch.results = alone := by
      rw [← halone]
      exact if_pos hcontinue
    refine ⟨hresults, ?_⟩
    rw [hcounts, hresults, List.length_map]
    rfl
  · have hresults : batch.results = throughFirst BatchOutcome.isFailure alone := by
      rw [← halone]
      exact if_neg (by simp [hstop])
    refine ⟨hresults.trans (throughFirst_eq_take _ _), ?_⟩
    show batch.results.countP BatchOutcome.isFailure ≤ 1
    rw [hresults]
    exact countP_throughFirst_le _ _

/-- A file that is broken, in front of one with a story that has a path of its own. -/
def mixedBatch : List BatchFile :=
  [⟨"a.stories.svelte", "<div>".toList, none⟩,
    ⟨"b", "<script module>\n".toList
      ++ "import \x7b defineMeta \x7d from '@storybook/addon-svelte-csf';\n".toList
      ++ "const \x7b Story \x7d = defineMeta(\x7b\x7d);\n</script>\n<Story name=\"B\" />".toList,
      some "b.stories.svelte"⟩]

/-- A pool of two threads at most, where zero stands for the number of processors. -/
def smallPool (threads : UInt32) : Option Nat :=
  if threads = 0 then some 2 else if threads ≤ 2 then some threads.toNat else none

/-- Two workers on both files: the second file is taken up last and done first, and one file of each
kind is counted. -/
theorem mixedBatch_schedules :
    (∀ threads size, smallPool threads = some size → 0 < size) ∧ mixedBatch.length < 2 ^ 32
      ∧ (∃ run, ((Service.ofConfig none).batchWork ⟨some 2, none⟩ 2).run? (.start mixedBatch)
            [0, 1, 1, 1, 0, 0] = some run
          ∧ run.batch = (Service.ofConfig none).indexAll none mixedBatch)
      ∧ ((Service.ofConfig none).indexAll none mixedBatch).succeeded = 1
      ∧ ((Service.ofConfig none).indexAll none mixedBatch).failed = 1
      ∧ ((Service.ofConfig none).indexAll none mixedBatch).total = 2 := by
  have hpool : ∀ threads size, smallPool threads = some size → 0 < size := by
    intro threads size hsize
    rw [smallPool] at hsize
    split_ifs at hsize with hzero hfew
    · exact Option.some.inj hsize ▸ Nat.succ_pos 1
    · rw [← Option.some.inj hsize]
      exact Nat.pos_of_ne_zero fun htoNat => hzero (UInt32.toNat_inj.mp htoNat)
  have hlength : mixedBatch.length < 2 ^ 32 := by decide
  obtain ⟨hruns, htotal, -⟩ := indexAll_schedules (.ofConfig none) (some ⟨some 2, none⟩) mixedBatch
    smallPool 2 hpool (by decide) hlength
  have hsome : (((Service.ofConfig none).batchWork ⟨some 2, none⟩ 2).run? (.start mixedBatch)
      [0, 1, 1, 1, 0, 0]).any (fun run => run.succeeded = 1 ∧ run.failed = 1) = true := by
    unfold mixedBatch
    repeat rewrite [String.toList_ofList]
    decide +kernel
  obtain ⟨run, hrun, hcounts⟩ := (Option.any_eq_true _ _).mp hsome
  obtain ⟨hsucceeded, hfailed⟩ := of_decide_eq_true hcounts
  have hleft : 3 * 2 = run.remaining + 6 :=
    (BatchRun.remaining_start mixedBatch).symm.trans (BatchWork.remaining_run? hrun)
  have hend : ((Service.ofConfig none).batchWork ⟨some 2, none⟩ 2).Finished run :=
    BatchWork.finished_of_remaining_eq_zero _ (by omega)
  have hbatch : run.batch = (Service.ofConfig none).indexAll none mixedBatch :=
    (hruns _ run hrun).2.1 hend
  refine ⟨hpool, hlength, ⟨run, hrun, hbatch⟩, ?_, ?_, htotal⟩
  · rw [← hbatch]
    exact congrArg UInt32.toNat hsucceeded
  · rw [← hbatch]
    exact congrArg UInt32.toNat hfailed

end SvelteStories

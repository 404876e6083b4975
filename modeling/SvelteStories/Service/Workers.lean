/-
The work on a batch, step after step:

* `FileStage`: how far the work on one file has come;
* `BatchRun`: how far the work on all of them has come, with the counts that the workers share;
* `BatchWork.step?`: the next step on a file, if it may be taken now;
* `BatchWork.run?`: the steps that a schedule asks for;
* `BatchOptions`: what a caller may set, the number of threads among it.

Between two steps on one file any steps on other files may come. A batch that goes on behind
failures has as many files under way as there are workers; one that does not takes up a file only
when the files before it are done.
-/
import SvelteStories.Service.Batch

namespace SvelteStories

/-- How far the work on a file of a batch has come. -/
inductive FileStage
  /-- No worker has taken it up. -/
  | waiting (file : BatchFile)
  /-- A worker reads it. -/
  | taken (file : BatchFile)
  /-- It is read and counted. -/
  | counted (outcome : BatchOutcome)
  /-- What became of it stands at its place in the results. -/
  | stored (outcome : BatchOutcome)

namespace FileStage

/-- Whether no worker has taken the file up. -/
def isWaiting : FileStage → Bool
  | waiting _ => true
  | taken _ | counted _ | stored _ => false

/-- Whether a worker is busy with the file. -/
def isUnderWay : FileStage → Bool
  | taken _ | counted _ => true
  | waiting _ | stored _ => false

/-- What became of the file, once it is counted. -/
def counted? : FileStage → Option BatchOutcome
  | counted r | stored r => some r
  | waiting _ | taken _ => none

/-- What became of the file, once it stands in the results. -/
def stored? : FileStage → Option BatchOutcome
  | stored r => some r
  | waiting _ | taken _ | counted _ => none

/-- Whether the file stands in the results as one that was indexed. -/
def isDone (stage : FileStage) : Bool :=
  stage.stored?.any fun r => !r.isFailure

end FileStage

/-- How far the work on a batch has come. -/
structure BatchRun where
  /-- How far the work on each file has come. -/
  stages : List FileStage
  /-- The number of files that were given. -/
  total : UInt32
  /-- The number of files that were indexed so far. -/
  succeeded : UInt32
  /-- The number of files that could not be indexed so far. -/
  failed : UInt32

namespace BatchRun

/-- The work before its first step. -/
def start (inputs : List BatchFile) : BatchRun :=
  ⟨inputs.map .waiting, .ofNat inputs.length, 0, 0⟩

/-- The run with another stage of the file at a place. -/
def setStage (run : BatchRun) (place : Nat) (stage : FileStage) : BatchRun :=
  { run with stages := run.stages.set place stage }

/-- The run with one more file counted. -/
def count (run : BatchRun) (r : BatchOutcome) : BatchRun :=
  if r.isFailure then { run with failed := run.failed + 1 }
  else { run with succeeded := run.succeeded + 1 }

/-- What a caller is given when the work ends. -/
def batch (run : BatchRun) : Batch :=
  ⟨run.stages.filterMap FileStage.stored?, run.total.toNat, run.succeeded.toNat, run.failed.toNat⟩

end BatchRun

/-- How a batch is worked on. -/
structure BatchWork where
  /-- What becomes of a file. -/
  indexFile : BatchFile → BatchOutcome
  /-- Whether the work goes on behind a file that cannot be indexed. -/
  continueOnError : Bool
  /-- The number of files that may be under way at once. -/
  workers : Nat

namespace BatchWork

/-- Whether the waiting file at a place may be taken up. -/
def mayTake (w : BatchWork) (stages : List FileStage) (place : Nat) : Bool :=
  if w.continueOnError then stages.countP FileStage.isUnderWay < w.workers
  else (stages.take place).all FileStage.isDone

/-- The next step on the file at a place; nothing if it is finished or has to wait. -/
def step? (w : BatchWork) (run : BatchRun) (place : Nat) : Option BatchRun :=
  match run.stages[place]? with
  | some (.waiting file) =>
    if w.mayTake run.stages place then some (run.setStage place (.taken file)) else none
  | some (.taken file) =>
    let r := w.indexFile file
    some ((run.count r).setStage place (.counted r))
  | some (.counted r) => some (run.setStage place (.stored r))
  | some (.stored _) | none => none

/-- The run behind the steps of a schedule, which says at which place each step is taken. -/
def run? (w : BatchWork) (run : BatchRun) (schedule : List Nat) : Option BatchRun :=
  schedule.foldlM w.step? run

end BatchWork

/-! ### Options -/

/-- What a caller may set for a batch. -/
structure BatchOptions where
  /-- The number of threads that may be used. -/
  maxThreads : Option UInt32
  /-- Whether the work goes on behind a file that cannot be indexed. -/
  continueOnError : Option Bool
deriving DecidableEq, Repr, Inhabited

/-- The number of workers: the size of the pool for the threads that were asked for, if it can be
built, and else the one of the pool that is always there. -/
def BatchOptions.workers (o : BatchOptions) (pool? : UInt32 → Option Nat) (standing : Nat) : Nat :=
  (o.maxThreads.bind pool?).getD standing

/-- How a service works on a batch with a number of workers. -/
def Service.batchWork (s : Service) (o : BatchOptions) (workers : Nat) : BatchWork :=
  ⟨s.hooks.indexBatchFile, o.continueOnError.getD true, workers⟩

end SvelteStories

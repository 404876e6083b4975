/-
Many stories files indexed at once:

* `BatchFile`, `BatchOutcome`: a file of a batch, and what became of it;
* `throughFirst`: a list up to the first element that satisfies a test;
* `Hooks.indexAll`: the results in the order of the files, and how many of them are of which kind.

Files are indexed one apart from the other, so the work may be shared out in any way.
-/
import SvelteStories.Service

namespace SvelteStories

/-- A file of a batch. -/
structure BatchFile where
  /-- What the caller knows the file by. -/
  id : String
  /-- The text of the file. -/
  text : List Char
  /-- The name that reports give, if it is another one. -/
  path : Option String
deriving DecidableEq, Repr

/-- The name that reports on a file give. -/
def BatchFile.filename (i : BatchFile) : String :=
  i.path.getD i.id

/-- What became of a file of a batch. -/
structure BatchOutcome where
  /-- What the caller knows the file by. -/
  id : String
  /-- Its index, or the report as a reader sees it. -/
  outcome : Except String FileIndex

/-- Whether a file could not be indexed. -/
def BatchOutcome.isFailure (r : BatchOutcome) : Bool :=
  match r.outcome with
  | .ok _ => false
  | .error _ => true

/-- What became of a batch. -/
structure Batch where
  /-- What became of the files, in their order. -/
  results : List BatchOutcome
  /-- The number of files that were given. -/
  total : Nat
  /-- The number of files that were indexed. -/
  succeeded : Nat
  /-- The number of files that could not be indexed. -/
  failed : Nat

/-- A list up to its first element that satisfies a test, that element included. -/
def throughFirst {α : Type} (test : α → Bool) : List α → List α
  | [] => []
  | a :: as => if test a then [a] else a :: throughFirst test as

/-- What becomes of a file of a batch. -/
def Hooks.indexBatchFile (h : Hooks) (i : BatchFile) : BatchOutcome :=
  ⟨i.id, ((h.index i.filename i.text).map Index.fileIndex).mapError Report.display⟩

/-- What becomes of a batch. Unless it is told to go on, it ends with the first file that cannot be
indexed. -/
def Hooks.indexAll (h : Hooks) (continueOnError : Bool) (inputs : List BatchFile) : Batch :=
  let all := inputs.map h.indexBatchFile
  let results := if continueOnError then all else throughFirst BatchOutcome.isFailure all
  ⟨results, inputs.length, results.countP (!·.isFailure), results.countP BatchOutcome.isFailure⟩

/-- What becomes of a batch. It goes on behind a failure if nothing else is asked for. -/
def Service.indexAll (s : Service) (continueOnError : Option Bool)
    (inputs : List BatchFile) : Batch :=
  s.hooks.indexAll (continueOnError.getD true) inputs

end SvelteStories

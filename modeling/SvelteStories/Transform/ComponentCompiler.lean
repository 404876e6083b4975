/-
The way of a stories file through a component compiler:

* `ComponentCompiler`: what the transform asks of a component compiler;
* `transformStories`: preprocessed, prepared, compiled and made a stories module.

A component compiler may do its work with effects, so it is over any monad.
-/
import SvelteStories.Transform.Preparation
import SvelteStories.Transform.StoriesModule

namespace SvelteStories

/-- What a component compiler is told besides the text. -/
structure CompileRequest where
  /-- The file that is compiled. -/
  filename : String
  /-- Whether to compile for development. -/
  dev : Bool
deriving DecidableEq, Repr

/-- A component compiler. Its failures are messages. -/
structure ComponentCompiler (m : Type → Type) where
  /-- Lowers a file of a name to what can be compiled. -/
  preprocess : (text : List Char) → (filename : String) → m (Except String (List Char))
  /-- Compiles a component to a module. -/
  compile : (text : List Char) → CompileRequest → m (Except String (List Char))

/-- A component compiler that lowers nothing. -/
def ComponentCompiler.ofCompile {m : Type → Type} [Monad m]
    (compile : List Char → CompileRequest → m (Except String (List Char))) :
    ComponentCompiler m :=
  ⟨fun text _ => pure (.ok text), compile⟩

/-- The stories module for a stories file. The stories are read from the preprocessed file, and
nothing is compiled after a failure. -/
def transformStories {m : Type → Type} [Monad m] (compiler : ComponentCompiler m)
    (source : Source) (options : TransformOptions) : m (Except Report (Noted (List Char))) := do
  let failed {α : Type} (message : String) : Except Report α :=
    .error (source.report (.componentCompiler message))
  match ← compiler.preprocess source.text source.filename with
  | .error message => return failed message
  | .ok text =>
    let source : Source := ⟨source.filename, text⟩
    match prepareStories source with
    | .error report => return .error report
    | .ok prepared =>
      match ← compiler.compile prepared ⟨source.filename, options.dev⟩ with
      | .error message => return failed message
      | .ok compiled => return storiesModule source compiled options

end SvelteStories

/-
Hooks of a build tool that runs the component compiler itself:

* `Preprocessor`, `runPreprocessors`: changes to the text of a stories file before it is read;
* `Hooks`: options and preprocessors;
* `Hooks.before?`, `Hooks.after?`: what runs before and after the component compiler, on stories
  files only;
* `Hooks.index`: the index of a stories file.
-/
import SvelteStories.Story.Index
import SvelteStories.Transform.ComponentCompiler

namespace SvelteStories

/-- What a preprocessor gives back. -/
inductive Preprocessed
  /-- A text that it wrote. -/
  | written (text : List Char)
  /-- A part of the text that it was given. -/
  | part (text : List Char)
deriving DecidableEq, Repr

/-- A change to the text of a stories file. -/
abbrev Preprocessor := List Char → Preprocessed

/-- The text behind a preprocessor. Only what it wrote itself takes the place of the text. -/
def runPreprocessor (t : List Char) (p : Preprocessor) : List Char :=
  match p t with
  | .written changed => changed
  | .part _ => t

/-- The text behind preprocessors, each of which is given what the one before it left. -/
def runPreprocessors (ps : List Preprocessor) (t : List Char) : List Char :=
  ps.foldl runPreprocessor t

/-- Options and preprocessors that all hooks share. -/
structure Hooks where
  /-- The options. -/
  options : TransformOptions
  /-- The preprocessors in the order in which they run. -/
  preprocessors : List Preprocessor

namespace Hooks

/-- Hooks without preprocessors. -/
def ofOptions (options : TransformOptions) : Hooks :=
  ⟨options, []⟩

/-- The hooks with one more preprocessor behind the others. -/
def withPreprocessor (h : Hooks) (p : Preprocessor) : Hooks :=
  { h with preprocessors := h.preprocessors ++ [p] }

/-- The number of preprocessors, for a reader of logs. -/
def preprocessorSummary (h : Hooks) : String :=
  s!"ParserPipeline \x7b text_transforms: {h.preprocessors.length} \x7d"

/-- A file of a text that the preprocessors have been run over. -/
def read (h : Hooks) (filename : String) (t : List Char) : Source :=
  ⟨filename, runPreprocessors h.preprocessors t⟩

/-- The text of a stories file for the component compiler; nothing for other files. -/
def before? (h : Hooks) (id : String) (t : List Char) : Except Report (Option (List Char)) :=
  if namesStoriesFile id then (prepareStories (h.read id t)).map some else .ok none

/-- The stories module for a stories file, from the text that it was compiled to and from its own;
nothing for other files. -/
def after? (h : Hooks) (id : String) (compiled t : List Char) :
    Except Report (Option (Noted (List Char))) :=
  if namesStoriesFile id then (storiesModule (h.read id t) compiled h.options).map some
  else .ok none

/-- The index of a stories file. -/
def index (h : Hooks) (filename : String) (t : List Char) : Except Report Index :=
  indexStories (h.read filename t) h.options.index

end Hooks

end SvelteStories

/-
Stories files made ready for the component compiler:

* `StoriesFile.prepare`: the text of a file with a binding of the meta object;
* `prepareStories`: the same for a file that is yet to be read.

The compiled module refers to the meta object by a name. So a meta declaration that takes only the
story component out of the call's result is made to take the meta object as well.
-/
import SvelteStories.Additions.Binding
import SvelteStories.Story.StoriesFile

namespace SvelteStories

open Script

/-- The text of a file with a binding of the meta object. A file that binds it stays as it is. -/
def StoriesFile.prepare (f : StoriesFile) : Except Report (List Char) :=
  match f.metaName with
  | some _ => .ok f.source.text
  | none =>
    let d := f.declared.declaration
    let prepared : Except Fault Draft := do
      let bound ← f.declared.pattern.bindMeta
      reprintDeclaration (Draft.ofText f.source.text) d.span
        (d.changeAt f.declared.pattern.span (·.withPattern bound.pattern))
    match prepared with
    | .ok draft => .ok draft.finish
    | .error fault => .error (f.source.reportAt fault d.span.start)

/-- The text of a stories file with a binding of the meta object. -/
def prepareStories (source : Source) : Except Report (List Char) := do
  let document ← readDocument source
  let file ← readStoriesFile document
  file.prepare

end SvelteStories

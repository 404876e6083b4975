/-
Stories modules:

* `Story.additions`, `editStories`: what the compiled story calls are told about their stories;
* `CompiledDeclaration.edit`: the compiled meta declaration, with a binding of the meta object and
  with the description of the component;
* `removeDefaultExport`: the component's function, no longer exported by default;
* `storiesModule`: the stories module that a compiled module becomes.

Stories and calls are paired by their order alone. All edits refer to the compiled text as it is,
and the export surface is added behind it.
-/
import SvelteStories.Additions.Binding
import SvelteStories.Additions.Exports
import SvelteStories.Additions.Parameters
import SvelteStories.Compiled.Module
import SvelteStories.Compiled.Pairing
import SvelteStories.Options
import SvelteStories.Story.Stories

namespace SvelteStories

open Script

/-! ### Story calls -/

/-- What the runtime is told about a story: the code that is shown for it, and its tags if it has
any of its own. -/
def Story.internalParameter (s : Story) : ObjectLiteral :=
  let code := entry "rawCode" (stringExpr (String.ofList s.rawCode))
  match s.attributes.tags with
  | some tags => objectOf [code, entry "tags" (stringsExpr tags)]
  | none => objectOf [code]

/-- The additions to the parameters of a story. -/
def Story.additions (s : Story) : ParameterAdditions :=
  ⟨some (.object s.internalParameter),
    s.description.map fun text => (.story, String.ofList text)⟩

/-- The draft with the additions to the parameters of one story in its call. -/
def editStory (draft : Draft) (pair : StoryPair Story StoryCall) :
    Except Fault (Noted Draft) := do
  let some props := pair.compiled.props? | throw (.missingStoryProps pair.index)
  let edited := pair.source.additions.editOwner draft props
  return ⟨← edited.value, edited.notices⟩

/-- The draft with the additions to the parameters of all stories in their calls. -/
def editStories (draft : Draft) : List (StoryPair Story StoryCall) → Except Fault (Noted Draft)
  | [] => .ok ⟨draft, []⟩
  | pair :: rest => do
    let edited ← editStory draft pair
    let all ← editStories edited.value rest
    return ⟨all.value, edited.notices ++ all.notices⟩

/-! ### The meta declaration -/

/-- A variable with another object as the argument of the call that it is initialised with. -/
def Script.Declarator.withArgument (o : ObjectLiteral) (v : Declarator) : Declarator :=
  match v.init with
  | some (.call c) => { v with init := some (.call { c with arguments := [.plain (.object o)] }) }
  | _ => v

/-- A draft, and the local name of the meta object in it. -/
structure MetaDraft where
  /-- The draft. -/
  draft : Draft
  /-- The name. -/
  name : String

/-- The draft with a meta declaration that binds the meta object and has the additions to its
parameters. A declaration that binds it is edited in place; another one is printed anew. -/
def CompiledDeclaration.edit (m : CompiledDeclaration) (additions : ParameterAdditions)
    (draft : Draft) : Except Fault (Noted MetaDraft) := do
  let bound ← m.pattern.bindMeta
  if bound.isNew then
    let argument := additions.addToOwner m.argument
    let declaration := m.declaration.changeAt m.pattern.span fun v =>
      (v.withPattern bound.pattern).withArgument argument.value
    let draft ← reprintDeclaration draft m.declaration.span declaration
    return ⟨⟨draft, bound.name⟩, argument.notices⟩
  else
    let edited := additions.editOwner draft m.argument
    return ⟨⟨← edited.value, bound.name⟩, edited.notices⟩

/-! ### The default export -/

/-- What follows a word and the blanks behind it, of which there is at least one. -/
def behindWord? (word : String) (t : List Char) : Option (List Char) :=
  let rest := t.drop word.length
  if word.toList.isPrefixOf t && rest.head?.any isBlank then some (trimStart rest) else none

/-- The number of bytes that the keywords of a default export take, blanks included. -/
def keywordsLength? (t : List Char) : Option Nat :=
  ((behindWord? "export" t).bind (behindWord? "default")).map fun rest =>
    byteLength t - byteLength rest

/-- The draft without the default export. A function that is declared there stays declared. -/
def removeDefaultExport (source : Source) (exported : ComponentExport) (draft : Draft) :
    Except Fault Draft :=
  match exported with
  | .identifier span => draft.remove span.start span.stop
  | .function span =>
    match keywordsLength? (source.slice span) with
    | some n => draft.remove span.start (span.start + n)
    | none =>
      .error (.unsupportedDefaultExport "a default export without `export default` keywords")

/-! ### The module -/

/-- The additions to the parameters of the meta object. -/
def StoriesFile.additions (f : StoriesFile) : ParameterAdditions :=
  ⟨none, f.description.map fun text => (.component, String.ofList text)⟩

/-- The stories module that a compiled module becomes. -/
def CompiledModule.withStories (m : CompiledModule) (found : CompiledStories)
    (stories : List Story) (additions : ParameterAdditions) (runtimeModule : String) :
    Except Fault (Noted (List Char)) := do
  let pairs ← pairStories stories found.stories
  let edited ← editStories (Draft.ofText m.source.text) pairs
  let declared ← found.metaDeclaration.edit additions edited.value
  let draft ← removeDefaultExport m.source found.component.exported declared.value.draft
  let surface : ExportSurface := ⟨runtimeModule, found.component.name, declared.value.name,
    stories.map fun s => s.attributes.names.exportName⟩
  return ⟨(draft.append surface.text).finish, edited.notices ++ declared.notices⟩

/-- The stories module that the compiled form of a stories file becomes. The file is taken as the
component compiler was given it, save for the binding of the meta object. -/
def storiesModule (source : Source) (compiled : List Char) (options : TransformOptions) :
    Except Report (Noted (List Char)) := do
  let document ← readDocument source
  let file ← readStoriesFile document
  let stories ← file.readStories
  let parsed ← CompiledModule.parse source.filename compiled
  let found ← parsed.read
  (parsed.withStories found stories file.additions options.runtimeModule).mapError
    parsed.source.report

end SvelteStories

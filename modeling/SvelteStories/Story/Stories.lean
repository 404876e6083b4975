/-
The stories of a file:

* `StoryAttributes`: what the attributes of a story tag say;
* `StoriesFile.rawCode`: the code that is shown for a story;
* `Story`, `StoriesFile.readStories`: the stories in document order, each under an export name of
  its own;
* `ComponentInfo`, `StoriesFile.componentInfo`, `StoriesFile.description`: what the meta declaration
  says about all of them.
-/
import SvelteStories.Story.Description
import SvelteStories.Story.Literals
import SvelteStories.Story.Name
import SvelteStories.Story.StoriesFile

namespace SvelteStories

open Script Markup

/-! ### Attributes -/

/-- What the attributes of a story tag say. -/
structure StoryAttributes where
  /-- The names of the story. -/
  names : StoryNames
  /-- The tags of the story, if any are given. -/
  tags : Option (List String)
  /-- The name of the snippet that renders the story. -/
  template : Option String
deriving DecidableEq, Repr

/-- The name that the value of an attribute is. -/
def Markup.Attribute.identifier? (a : Attribute) : Option String :=
  match a.value with
  | .expression _ (.identifier _ name) => some name
  | _ => none

/-- The name of the snippet that an attribute refers to. -/
def templateName (story : String) (a : Attribute) : Except Fault String :=
  match a.identifier? with
  | some name => .ok name
  | none => .error (.invalidTemplate story)

/-- What the attributes of a story tag say. The first attribute of a name counts. -/
def storyAttributes (source : Source) (e : Markup.Element) : Except Report StoryAttributes := do
  let atElement (f : Fault) : Report := source.reportAt f e.span.start
  let name ← (e.attribute? "name").mapM (stringAttribute source)
  let exportName ← (e.attribute? "exportName").mapM (stringAttribute source)
  let names ← (StoryNames.ofGiven name exportName).mapError atElement
  let tags ← (e.attribute? "tags").mapM (stringsAttribute source)
  let template ← ((e.attribute? "template").mapM (templateName names.displayName)).mapError
    atElement
  return ⟨names, tags, template⟩

/-! ### Code -/

/-- The name of the snippet that a story renders itself with. -/
def childrenSnippet : String := "children"

/-- From the first part to the last, if there is any. -/
def spanOfNodes? (nodes : List Node) : Option Span :=
  match nodes.head?, nodes.getLast? with
  | some first, some last => some ⟨first.span.start, last.span.stop⟩
  | _, _ => none

/-- The place of the code that an element holds itself: its own snippet, or else all that is not
blank. -/
def Markup.Element.ownCode? (e : Markup.Element) : Option Span :=
  let children := e.fragment.nodes
  match (children.filterMap Node.snippet?).find? fun s => s.name = childrenSnippet.toList with
  | some s => some s.body.span
  | none => spanOfNodes? (children.filter fun n => !n.isBlank)

/-- The place of the code that is shown for a story: what it holds, or else what its template
holds, or else the story tag. -/
def StoriesFile.rawCodeSpan (f : StoriesFile) (e : Markup.Element) (a : StoryAttributes) :
    Except Report Span :=
  match e.ownCode?, a.template with
  | some span, _ => .ok span
  | none, none => .ok e.span
  | none, some template =>
    match f.snippets.find? fun s => s.name = template.toList with
    | some s => .ok s.body.span
    | none =>
      let fault := .missingTemplate a.names.displayName template
      .error (f.source.reportAt fault e.span.start)

/-- The code that is shown for a story. -/
def StoriesFile.rawCode (f : StoriesFile) (e : Markup.Element) (a : StoryAttributes) :
    Except Report (List Char) :=
  (f.rawCodeSpan e a).map f.source.slice

/-! ### Stories -/

/-- A story. -/
structure Story where
  /-- Its tag. -/
  tag : StoryTag
  /-- What its attributes say. -/
  attributes : StoryAttributes
  /-- The code that is shown for it. -/
  rawCode : List Char
  /-- The description in the comment above it. -/
  description : Option (List Char)

/-- The stories of tags, where the names in `taken` are no longer free. -/
def StoriesFile.storiesFrom (f : StoriesFile) (taken : NameRegistry) :
    List StoryTag → Except Report (List Story)
  | [] => .ok []
  | tag :: rest => do
    let e := tag.element
    let attributes ← storyAttributes f.source e
    let taken ← (taken.take attributes.names).mapError fun fault =>
      f.source.reportAt fault e.span.start
    let rawCode ← f.rawCode e attributes
    let stories ← f.storiesFrom taken rest
    let description := tag.comment.bind fun c => commentDescription c.data
    return ⟨tag, attributes, rawCode, description⟩ :: stories

/-- The stories of a file in document order. -/
def StoriesFile.readStories (f : StoriesFile) : Except Report (List Story) :=
  f.storiesFrom [] f.stories

/-! ### The component -/

/-- What a file says about the component that its stories show. -/
structure ComponentInfo where
  /-- The id of the component. -/
  id : Option String
  /-- The title in the catalog. -/
  title : Option String
  /-- The tags of all stories. -/
  tags : List String
deriving DecidableEq, Repr

/-- What the meta object says about the component. -/
def StoriesFile.componentInfo (f : StoriesFile) : Except Report ComponentInfo := do
  let o := f.declared.argument
  let id ← (o.find? "id").mapM (stringProperty f.source "id")
  let title ← (o.find? "title").mapM (stringProperty f.source "title")
  let tags ← (o.find? "tags").mapM (stringsProperty f.source "tags")
  return ⟨id, title, tags.getD []⟩

/-- The description of the component in the comment above the meta declaration. -/
def StoriesFile.description (f : StoriesFile) : Option (List Char) :=
  componentDescription f.declared.comments

end SvelteStories

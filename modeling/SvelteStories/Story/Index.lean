/-
The catalog's index of a stories file:

* `Index`, `indexStories`: the names and tags in a file, read without compiling it;
* `CatalogEntry`, `Index.entries`: the stories as the catalog lists them, with their ids and with
  the tags of the whole file.
-/
import SvelteStories.Options
import SvelteStories.Story.Id
import SvelteStories.Story.Stories
import SvelteStories.Story.Tags

namespace SvelteStories

/-- What the index knows of a story. -/
structure StoryInfo where
  /-- Its names. -/
  names : StoryNames
  /-- Its own tags. -/
  tags : List String
deriving DecidableEq, Repr

/-- The index of a stories file. -/
structure Index where
  /-- What all stories have in common. -/
  component : ComponentInfo
  /-- The stories in document order. -/
  stories : List StoryInfo
deriving DecidableEq, Repr

/-- A story as the catalog lists it. -/
structure CatalogEntry where
  /-- Its id, if the component's id or the title is known. -/
  id : Option String
  /-- The title that it is listed under. -/
  title : Option String
  /-- Its names. -/
  names : StoryNames
  /-- The tags that are on for it. -/
  tags : List String
deriving DecidableEq, Repr

/-- The name that the ids of all stories start with. -/
def ComponentInfo.name? (c : ComponentInfo) : Option String :=
  c.id.or c.title

/-- The story as the catalog lists it. -/
def ComponentInfo.entry (c : ComponentInfo) (s : StoryInfo) : CatalogEntry where
  id := c.name?.map fun component =>
    String.ofList (storyId component.toList (displayNameOf s.names.exportName.toList))
  title := c.title
  names := s.names
  tags := activeTags (c.tags ++ s.tags)

/-- The stories as the catalog lists them. -/
def Index.entries (i : Index) : List CatalogEntry :=
  i.stories.map i.component.entry

/-- What the index knows of a story. -/
def Story.info (s : Story) : StoryInfo :=
  ⟨s.attributes.names, s.attributes.tags.getD []⟩

/-- The index of a file that follows the current interface. -/
def readIndex (source : Source) : Except Report Index := do
  let document ← readDocument source
  let file ← readStoriesFile document
  let component ← file.componentInfo
  let stories ← file.readStories
  return ⟨component, stories.map Story.info⟩

/-- The report with the hint that a file may be of the legacy kind in place of faults that such
files show. -/
def Report.hintLegacy (r : Report) : Report :=
  if r.fault.hintsLegacy then { r with fault := .legacyNotEnabled } else r

/-- The index of a stories file. -/
def indexStories (source : Source) (options : IndexOptions) : Except Report Index :=
  (readIndex source).mapError fun r => if options.legacyTemplate then r else r.hintLegacy

end SvelteStories

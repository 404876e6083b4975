/-
Story ids in the catalog:

* `slug`: a title in lower case, with one dash for each gap between its alphanumeric runs;
* `storyId`: the id of a story, made of its component's part and its own.
-/
import SvelteStories.Text.Casing

namespace SvelteStories

/-- The rest of a sanitised text. `started` says that something stands before it, `gap` that other
characters than alphanumeric ones have been passed since. -/
def slugFrom (started gap : Bool) : List Char → List Char
  | [] => []
  | c :: t =>
    if isAlphanumeric c then
      (if started && gap then ['-'] else []) ++ lowerCase c ++ slugFrom true false t
    else slugFrom started true t

/-- The alphanumeric characters in lower case, with a single dash where others stood between. -/
def slug (t : List Char) : List Char :=
  slugFrom false false t

/-- The id of a story of a component. -/
def storyId (component story : List Char) : List Char :=
  slug component ++ ['-', '-'] ++ slug story

end SvelteStories

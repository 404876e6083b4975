/-
Tags of stories. A list of tags is read from left to right: a tag is added once, and `!tag` takes
`tag` away again.
-/

namespace SvelteStories

/-- The tags that are on after one more entry. -/
def addTag (on : List String) (entry : String) : List String :=
  match entry.toList with
  | '!' :: removed => on.filter (· != String.ofList removed)
  | _ => if on.contains entry then on else on ++ [entry]

/-- The tags that are on after all entries. -/
def activeTags (entries : List String) : List String :=
  entries.foldl addTag []

end SvelteStories
